import Coivitas.Foundation.Bytes
import Coivitas.Foundation.OrderedMap
import Coivitas.Foundation.Text
import Mathlib.Data.Rat.Defs
import Mathlib.Tactic.IntervalCases

/-! # JSON values and their canonical text

`stringify` prints a value with the members of each object in the order they
have; `canonicalize` first sorts the members of every object by the UTF-16
code units of their names (RFC 8785). Both printers are injective: a value
text ends where its grammar says it ends, so two values printed in front of
two continuations are equal when the whole texts are.
-/

namespace Foundation

/-- JSON values. A member list keeps the insertion order of its object. -/
inductive Json where
  | null
  | bool (value : Bool)
  | num (value : ℚ)
  | str (value : String)
  | arr (items : List Json)
  | obj (members : List (String × Json))

/-- The characters of a printed number. -/
def isNumberChar (c : Char) : Bool :=
  c.isDigit || c == '-' || c == '+' || c == '.' || c == 'e'

/-- The number printer of the runtime: distinct numbers have distinct texts,
made of number characters only. -/
structure NumberFormat where
  format : ℚ → List Char
  format_injective : Function.Injective format
  format_ne_nil : ∀ q, format q ≠ []
  format_chars : ∀ q, ∀ c ∈ format q, isNumberChar c = true

namespace Json

/-! ## Equality -/

mutual

/-- Whether two values are the same. -/
def same : Json → Json → Bool
  | .null, .null => true
  | .bool a, .bool b => a == b
  | .num a, .num b => a == b
  | .str a, .str b => a == b
  | .arr a, .arr b => sameItems a b
  | .obj a, .obj b => sameMembers a b
  | _, _ => false

def sameItems : List Json → List Json → Bool
  | [], [] => true
  | a :: as, b :: bs => same a b && sameItems as bs
  | _, _ => false

def sameMembers : List (String × Json) → List (String × Json) → Bool
  | [], [] => true
  | (name, a) :: as, (name', b) :: bs => name == name' && same a b && sameMembers as bs
  | _, _ => false

end

mutual

theorem same_iff (a b : Json) : same a b = true ↔ a = b := by
  cases a <;> cases b <;> simp [same, sameItems_iff, sameMembers_iff]

theorem sameItems_iff (as bs : List Json) : sameItems as bs = true ↔ as = bs := by
  cases as with
  | nil => cases bs <;> simp [sameItems]
  | cons a as => cases bs <;> simp [sameItems, same_iff a, sameItems_iff as]

theorem sameMembers_iff (as bs : List (String × Json)) : sameMembers as bs = true ↔ as = bs := by
  cases as with
  | nil => cases bs <;> simp [sameMembers]
  | cons a as =>
      obtain ⟨name, a⟩ := a
      cases bs <;> simp [sameMembers, same_iff a, sameMembers_iff as, Prod.ext_iff]

end

instance : DecidableEq Json := fun a b => decidable_of_iff _ (same_iff a b)

/-! ## Printing -/

/-- The two-character escapes of a string literal. -/
def shortEscape (c : Char) : Option Char :=
  if c = '"' then some '"'
  else if c = '\\' then some '\\'
  else if c.toNat = 8 then some 'b'
  else if c.toNat = 9 then some 't'
  else if c.toNat = 10 then some 'n'
  else if c.toNat = 12 then some 'f'
  else if c.toNat = 13 then some 'r'
  else none

def escapeChar (c : Char) : List Char :=
  match shortEscape c with
  | some short => ['\\', short]
  | none =>
      if c.toNat < 32 then
        ['\\', 'u', '0', '0', hexChar (c.toNat / 16), hexChar (c.toNat % 16)]
      else [c]

def printString (s : String) : List Char :=
  '"' :: (s.toList.flatMap escapeChar ++ ['"'])

mutual

/-- The compact text of a value. -/
def print (F : NumberFormat) : Json → List Char
  | .null => ['n', 'u', 'l', 'l']
  | .bool true => ['t', 'r', 'u', 'e']
  | .bool false => ['f', 'a', 'l', 's', 'e']
  | .num value => F.format value
  | .str value => printString value
  | .arr [] => ['[', ']']
  | .arr (item :: items) => '[' :: (print F item ++ printItems F items)
  | .obj [] => ['{', '}']
  | .obj ((name, value) :: members) =>
      '{' :: (printString name ++ ':' :: (print F value ++ printMembers F members))

/-- The rest of an array after one of its items. -/
def printItems (F : NumberFormat) : List Json → List Char
  | [] => [']']
  | item :: items => ',' :: (print F item ++ printItems F items)

/-- The rest of an object after one of its members. -/
def printMembers (F : NumberFormat) : List (String × Json) → List Char
  | [] => ['}']
  | (name, value) :: members =>
      ',' :: (printString name ++ ':' :: (print F value ++ printMembers F members))

end

def stringify (F : NumberFormat) (value : Json) : String := String.ofList (print F value)

/-! ## String literals can be read back -/

def hexValue (c : Char) : Nat := if c.isDigit then c.toNat - 48 else c.toNat - 87

/-- Read one character of a string literal; `none` at the closing quote. -/
def unescape : List Char → Option (Char × List Char)
  | '"' :: _ => none
  | '\\' :: 'u' :: '0' :: '0' :: high :: low :: rest =>
      some (Char.ofNat (hexValue high * 16 + hexValue low), rest)
  | '\\' :: 'b' :: rest => some (Char.ofNat 8, rest)
  | '\\' :: 't' :: rest => some (Char.ofNat 9, rest)
  | '\\' :: 'n' :: rest => some (Char.ofNat 10, rest)
  | '\\' :: 'f' :: rest => some (Char.ofNat 12, rest)
  | '\\' :: 'r' :: rest => some (Char.ofNat 13, rest)
  | '\\' :: c :: rest => some (c, rest)
  | c :: rest => some (c, rest)
  | [] => none

theorem char_eq_ofNat {c : Char} {n : Nat} (h : c.toNat = n) : c = Char.ofNat n := by
  rw [← h, Char.ofNat_toNat]

theorem escapeChar_control : ∀ n < 32, ∀ rest,
    unescape (escapeChar (Char.ofNat n) ++ rest) = some (Char.ofNat n, rest) := by
  intro n hn rest
  interval_cases n <;> rfl

theorem escapeChar_plain {c : Char} (hquote : c ≠ '"') (hslash : c ≠ '\\')
    (hcontrol : ¬ c.toNat < 32) : escapeChar c = [c] := by
  have hshort : shortEscape c = none := by
    unfold shortEscape
    rw [if_neg hquote, if_neg hslash]
    repeat rw [if_neg (by omega)]
  simp only [escapeChar, hshort, if_neg hcontrol]

theorem unescape_plain {c : Char} (hquote : c ≠ '"') (hslash : c ≠ '\\') (rest : List Char) :
    unescape (c :: rest) = some (c, rest) := by
  unfold unescape
  split <;> simp_all

/-- Reading inverts escaping, so escape codes are prefix free. -/
theorem unescape_escapeChar (c : Char) (rest : List Char) :
    unescape (escapeChar c ++ rest) = some (c, rest) := by
  by_cases hquote : c = '"'
  · subst hquote; rfl
  by_cases hslash : c = '\\'
  · subst hslash; rfl
  by_cases hcontrol : c.toNat < 32
  · have hc : c = Char.ofNat c.toNat := (Char.ofNat_toNat c).symm
    rw [hc]
    exact escapeChar_control c.toNat hcontrol rest
  · rw [escapeChar_plain hquote hslash hcontrol]
    exact unescape_plain hquote hslash rest

theorem escape_append_inj (left right rest rest' : List Char)
    (h : left.flatMap escapeChar ++ '"' :: rest = right.flatMap escapeChar ++ '"' :: rest') :
    left = right ∧ rest = rest' := by
  induction left generalizing right with
  | nil =>
      cases right with
      | nil => exact ⟨rfl, by simpa using h⟩
      | cons d right =>
          have hread := congrArg unescape h
          rw [List.flatMap_cons, List.append_assoc, unescape_escapeChar] at hread
          simp [unescape] at hread
  | cons c left ih =>
      cases right with
      | nil =>
          have hread := congrArg unescape h
          rw [List.flatMap_cons, List.append_assoc, unescape_escapeChar] at hread
          simp [unescape] at hread
      | cons d right =>
          have hread := congrArg unescape h
          rw [List.flatMap_cons, List.flatMap_cons, List.append_assoc, List.append_assoc,
            unescape_escapeChar, unescape_escapeChar] at hread
          simp only [Option.some.injEq, Prod.mk.injEq] at hread
          obtain ⟨rfl, htail⟩ := hread
          obtain ⟨rfl, hrest⟩ := ih right htail
          exact ⟨rfl, hrest⟩

theorem printString_append_inj {s t : String} {rest rest' : List Char}
    (h : printString s ++ rest = printString t ++ rest') : s = t ∧ rest = rest' := by
  simp only [printString, List.cons_append, List.append_assoc, List.cons.injEq, true_and,
    List.nil_append] at h
  obtain ⟨hchars, hrest⟩ := escape_append_inj _ _ _ _ h
  exact ⟨String.toList_inj.mp hchars, hrest⟩

/-! ## Values can be read back -/

/-- A continuation that does not go on with a number. -/
def Delimited (rest : List Char) : Prop := ∀ c ∈ rest.head?, isNumberChar c = false

theorem delimited_cons {c : Char} (rest : List Char) (hc : isNumberChar c = false) :
    Delimited (c :: rest) := by
  intro d hd
  simp only [List.head?_cons, Option.mem_some_iff] at hd
  exact hd ▸ hc

theorem delimited_printItems (F : NumberFormat) (items : List Json) (rest : List Char) :
    Delimited (printItems F items ++ rest) := by
  cases items with
  | nil => exact delimited_cons _ rfl
  | cons item items => exact delimited_cons _ rfl

theorem delimited_printMembers (F : NumberFormat) (members : List (String × Json))
    (rest : List Char) : Delimited (printMembers F members ++ rest) := by
  cases members with
  | nil => exact delimited_cons _ rfl
  | cons member members => exact delimited_cons _ rfl

/-- A run of characters of one class ends where the class does. -/
theorem class_append_inj {test : Char → Bool} {left right rest rest' : List Char}
    (hleft : ∀ c ∈ left, test c = true) (hright : ∀ c ∈ right, test c = true)
    (hrest : ∀ c ∈ rest.head?, test c = false) (hrest' : ∀ c ∈ rest'.head?, test c = false)
    (h : left ++ rest = right ++ rest') : left = right ∧ rest = rest' := by
  induction left generalizing right with
  | nil =>
      cases right with
      | nil => exact ⟨rfl, h⟩
      | cons d right =>
          have hd := hright d List.mem_cons_self
          rw [List.nil_append] at h
          rw [h] at hrest
          rw [hrest d rfl] at hd
          cases hd
  | cons c left ih =>
      cases right with
      | nil =>
          have hc := hleft c List.mem_cons_self
          rw [List.nil_append] at h
          rw [← h] at hrest'
          rw [hrest' c rfl] at hc
          cases hc
      | cons d right =>
          simp only [List.cons_append, List.cons.injEq] at h
          obtain ⟨rfl, htail⟩ := h
          obtain ⟨rfl, heq⟩ := ih (fun x hx => hleft x (List.mem_cons_of_mem _ hx))
            (fun x hx => hright x (List.mem_cons_of_mem _ hx)) htail
          exact ⟨rfl, heq⟩

/-- The first character tells the kind of a printed value. -/
def leads (value : Json) (c : Char) : Prop :=
  match value with
  | .null => c = 'n'
  | .bool true => c = 't'
  | .bool false => c = 'f'
  | .num _ => isNumberChar c = true
  | .str _ => c = '"'
  | .arr _ => c = '['
  | .obj _ => c = '{'

theorem print_leads (F : NumberFormat) (value : Json) :
    ∃ c text, print F value = c :: text ∧ leads value c := by
  cases value with
  | null => exact ⟨_, _, rfl, rfl⟩
  | bool value => cases value <;> exact ⟨_, _, rfl, rfl⟩
  | num value =>
      have hne := F.format_ne_nil value
      have hchars := F.format_chars value
      cases hformat : F.format value with
      | nil => exact absurd hformat hne
      | cons c text =>
          refine ⟨c, text, hformat, hchars c ?_⟩
          rw [hformat]
          exact List.mem_cons_self
  | str value => exact ⟨_, _, rfl, rfl⟩
  | arr items => cases items <;> exact ⟨_, _, rfl, rfl⟩
  | obj members =>
      cases members with
      | nil => exact ⟨_, _, rfl, rfl⟩
      | cons member members => exact ⟨_, _, rfl, rfl⟩

/-- Two values whose texts begin alike are of the same kind. -/
theorem leads_of_append_eq (F : NumberFormat) {v w : Json} {rest rest' : List Char}
    (h : print F v ++ rest = print F w ++ rest') : ∃ c, leads v c ∧ leads w c := by
  obtain ⟨c, text, hv, hc⟩ := print_leads F v
  obtain ⟨d, text', hw, hd⟩ := print_leads F w
  rw [hv, hw, List.cons_append, List.cons_append, List.cons.injEq] at h
  exact ⟨c, hc, h.1 ▸ hd⟩

mutual

/-- A printed value determines the value and where its text ends, whatever
follows. The recursion is the one of the printer; values of different kinds
are told apart by their first character. -/
theorem print_append_inj (F : NumberFormat) (v w : Json) (rest rest' : List Char)
    (hrest : Delimited rest) (hrest' : Delimited rest')
    (h : print F v ++ rest = print F w ++ rest') : v = w ∧ rest = rest' := by
  obtain ⟨c, hv, hw⟩ := leads_of_append_eq F h
  match v with
  | .null =>
      cases w with
      | null => exact ⟨rfl, by simpa [print] using h⟩
      | bool b => cases b <;> simp_all [leads]
      | _ => simp_all [leads, isNumberChar]
  | .bool b =>
      cases w with
      | bool b' =>
          cases b <;> cases b' <;> simp_all [leads, print]
      | _ => cases b <;> simp_all [leads, isNumberChar]
  | .num q =>
      cases w with
      | num q' =>
          obtain ⟨hformat, heq⟩ := class_append_inj (F.format_chars q) (F.format_chars q')
            hrest hrest' h
          exact ⟨congrArg Json.num (F.format_injective hformat), heq⟩
      | bool b => cases b <;> simp_all [leads, isNumberChar]
      | _ => simp_all [leads, isNumberChar]
  | .str s =>
      cases w with
      | str t =>
          obtain ⟨hst, heq⟩ := printString_append_inj h
          exact ⟨congrArg Json.str hst, heq⟩
      | bool b => cases b <;> simp_all [leads]
      | _ => simp_all [leads, isNumberChar]
  | .arr items =>
      cases w with
      | arr items' =>
          obtain ⟨hitems, heq⟩ := printArray_append_inj F items items' rest rest' h
          exact ⟨congrArg Json.arr hitems, heq⟩
      | bool b => cases b <;> simp_all [leads]
      | _ => simp_all [leads, isNumberChar]
  | .obj members =>
      cases w with
      | obj members' =>
          obtain ⟨hmembers, heq⟩ := printObject_append_inj F members members' rest rest' h
          exact ⟨congrArg Json.obj hmembers, heq⟩
      | bool b => cases b <;> simp_all [leads]
      | _ => simp_all [leads, isNumberChar]

theorem printArray_append_inj (F : NumberFormat) (items items' : List Json)
    (rest rest' : List Char) (h : print F (.arr items) ++ rest = print F (.arr items') ++ rest') :
    items = items' ∧ rest = rest' := by
  match items, items' with
  | [], [] => exact ⟨rfl, by simpa [print] using h⟩
  | [], w :: items' =>
      obtain ⟨c, text, hprint, hlead⟩ := print_leads F w
      simp only [print, hprint, List.cons_append, List.cons.injEq, true_and] at h
      rw [← h.1] at hlead
      cases w with
      | bool b => cases b <;> simp [leads] at hlead
      | _ => simp [leads, isNumberChar] at hlead
  | v :: items, [] =>
      obtain ⟨c, text, hprint, hlead⟩ := print_leads F v
      simp only [print, hprint, List.cons_append, List.cons.injEq, true_and] at h
      rw [h.1] at hlead
      cases v with
      | bool b => cases b <;> simp [leads] at hlead
      | _ => simp [leads, isNumberChar] at hlead
  | v :: items, w :: items' =>
      simp only [print, List.cons_append, List.append_assoc, List.cons.injEq, true_and] at h
      obtain ⟨rfl, htail⟩ := print_append_inj F v w _ _
        (delimited_printItems F items rest) (delimited_printItems F items' rest') h
      obtain ⟨rfl, heq⟩ := printItems_append_inj F items items' rest rest' htail
      exact ⟨rfl, heq⟩

theorem printItems_append_inj (F : NumberFormat) (items items' : List Json)
    (rest rest' : List Char) (h : printItems F items ++ rest = printItems F items' ++ rest') :
    items = items' ∧ rest = rest' := by
  match items, items' with
  | [], [] => exact ⟨rfl, by simpa [printItems] using h⟩
  | [], w :: items' => simp [printItems] at h
  | v :: items, [] => simp [printItems] at h
  | v :: items, w :: items' =>
      simp only [printItems, List.cons_append, List.append_assoc, List.cons.injEq,
        true_and] at h
      obtain ⟨rfl, htail⟩ := print_append_inj F v w _ _
        (delimited_printItems F items rest) (delimited_printItems F items' rest') h
      obtain ⟨rfl, heq⟩ := printItems_append_inj F items items' rest rest' htail
      exact ⟨rfl, heq⟩

theorem printObject_append_inj (F : NumberFormat) (members members' : List (String × Json))
    (rest rest' : List Char)
    (h : print F (.obj members) ++ rest = print F (.obj members') ++ rest') :
    members = members' ∧ rest = rest' := by
  match members, members' with
  | [], [] => exact ⟨rfl, by simpa [print] using h⟩
  | [], (name, w) :: members' => simp [print, printString] at h
  | (name, v) :: members, [] => simp [print, printString] at h
  | (name, v) :: members, (name', w) :: members' =>
      simp only [print, List.cons_append, List.append_assoc, List.cons.injEq, true_and] at h
      obtain ⟨rfl, hvalue⟩ := printString_append_inj h
      simp only [List.cons.injEq, true_and] at hvalue
      obtain ⟨rfl, htail⟩ := print_append_inj F v w _ _
        (delimited_printMembers F members rest) (delimited_printMembers F members' rest') hvalue
      obtain ⟨rfl, heq⟩ := printMembers_append_inj F members members' rest rest' htail
      exact ⟨rfl, heq⟩

theorem printMembers_append_inj (F : NumberFormat) (members members' : List (String × Json))
    (rest rest' : List Char)
    (h : printMembers F members ++ rest = printMembers F members' ++ rest') :
    members = members' ∧ rest = rest' := by
  match members, members' with
  | [], [] => exact ⟨rfl, by simpa [printMembers] using h⟩
  | [], (name, w) :: members' => simp [printMembers] at h
  | (name, v) :: members, [] => simp [printMembers] at h
  | (name, v) :: members, (name', w) :: members' =>
      simp only [printMembers, List.cons_append, List.append_assoc, List.cons.injEq,
        true_and] at h
      obtain ⟨rfl, hvalue⟩ := printString_append_inj h
      simp only [List.cons.injEq, true_and] at hvalue
      obtain ⟨rfl, htail⟩ := print_append_inj F v w _ _
        (delimited_printMembers F members rest) (delimited_printMembers F members' rest') hvalue
      obtain ⟨rfl, heq⟩ := printMembers_append_inj F members members' rest rest' htail
      exact ⟨rfl, heq⟩

end

theorem stringify_injective (F : NumberFormat) : Function.Injective (stringify F) := by
  intro v w h
  have hprint : print F v = print F w := String.ofList_injective h
  have happend : print F v ++ [] = print F w ++ [] := by rw [hprint]
  exact (print_append_inj F v w [] [] (by simp [Delimited]) (by simp [Delimited]) happend).1

/-! ## Canonical member order -/

/-- Members are ordered by the code units of their names. -/
def memberLe (a b : String × Json) : Prop := TextLe a.1 b.1

instance : DecidableRel memberLe := fun a b => inferInstanceAs (Decidable (TextLe a.1 b.1))

mutual

/-- Sort the members of every object in a value. -/
def sortKeys : Json → Json
  | .null => .null
  | .bool value => .bool value
  | .num value => .num value
  | .str value => .str value
  | .arr items => .arr (sortKeysItems items)
  | .obj members => .obj ((sortKeysMembers members).insertionSort memberLe)

def sortKeysItems : List Json → List Json
  | [] => []
  | item :: items => sortKeys item :: sortKeysItems items

def sortKeysMembers : List (String × Json) → List (String × Json)
  | [] => []
  | (name, value) :: members => (name, sortKeys value) :: sortKeysMembers members

end

/-- The canonical text of a value. -/
def canonicalize (F : NumberFormat) (value : Json) : String := stringify F (sortKeys value)

/-- Equal canonical texts come from values that differ in member order only. -/
theorem canonicalize_eq_iff (F : NumberFormat) {v w : Json} :
    canonicalize F v = canonicalize F w ↔ sortKeys v = sortKeys w :=
  ⟨fun h => stringify_injective F h, fun h => congrArg (stringify F) h⟩

/-! ## Objects with one canonical form -/

open OrderedMap

theorem sortKeysMembers_eq (members : List (String × Json)) :
    sortKeysMembers members = members.map fun member => (member.1, sortKeys member.2) := by
  induction members with
  | nil => rfl
  | cons member members ih => rw [sortKeysMembers, ih, List.map_cons]

theorem sortKeysItems_eq (items : List Json) : sortKeysItems items = items.map sortKeys := by
  induction items with
  | nil => rfl
  | cons item items ih => rw [sortKeysItems, ih, List.map_cons]

theorem map_fst_sortKeysMembers (members : List (String × Json)) :
    (sortKeysMembers members).map Prod.fst = members.map Prod.fst := by
  simp [sortKeysMembers_eq]

theorem lookupList_sortKeysMembers (members : List (String × Json)) (name : String) :
    lookupList name (sortKeysMembers members) = (lookupList name members).map sortKeys := by
  induction members with
  | nil => rfl
  | cons member members ih =>
      simp only [sortKeysMembers, lookupList, ih]
      split <;> rfl

/-- Objects with one canonical form have the same member names. -/
theorem names_perm_of_sortKeys_eq {members members' : List (String × Json)}
    (h : sortKeys (.obj members) = sortKeys (.obj members')) :
    (members.map Prod.fst).Perm (members'.map Prod.fst) := by
  rw [sortKeys, sortKeys, Json.obj.injEq] at h
  rw [← map_fst_sortKeysMembers members, ← map_fst_sortKeysMembers members']
  apply List.Perm.map
  apply (List.perm_insertionSort memberLe _).symm.trans
  rw [h]
  exact List.perm_insertionSort memberLe _

/-- Objects with one canonical form hold the same members. -/
theorem lookup_of_sortKeys_eq {members members' : List (String × Json)}
    (hnames : (members.map Prod.fst).Nodup) (hnames' : (members'.map Prod.fst).Nodup)
    (h : sortKeys (.obj members) = sortKeys (.obj members')) (name : String) :
    (lookupList name members).map sortKeys = (lookupList name members').map sortKeys := by
  rw [sortKeys, sortKeys, Json.obj.injEq] at h
  have hperm : (sortKeysMembers members).Perm (sortKeysMembers members') := by
    apply (List.perm_insertionSort memberLe _).symm.trans
    rw [h]
    exact List.perm_insertionSort memberLe _
  rw [← lookupList_sortKeysMembers, ← lookupList_sortKeysMembers]
  apply Option.ext
  intro value
  rw [← mem_iff_lookupList (by rwa [map_fst_sortKeysMembers]),
    ← mem_iff_lookupList (by rwa [map_fst_sortKeysMembers])]
  exact hperm.mem_iff

instance : Std.Total memberLe := ⟨fun a b => le_total (codeUnits a.1) (codeUnits b.1)⟩

instance : IsTrans (String × Json) memberLe := ⟨fun _ _ _ hab hbc => TextLe.trans hab hbc⟩

/-- The order of the members does not matter when their names can be told apart. -/
theorem sortKeys_obj_of_perm {members members' : List (String × Json)}
    (hperm : members.Perm members') (hnames : (members.map Prod.fst).Nodup)
    (hantisymm : ∀ a ∈ members.map Prod.fst, ∀ b ∈ members.map Prod.fst,
      TextLe a b → TextLe b a → a = b) :
    sortKeys (.obj members) = sortKeys (.obj members') := by
  have hsorted : (sortKeysMembers members).Perm (sortKeysMembers members') := by
    rw [sortKeysMembers_eq, sortKeysMembers_eq]
    exact hperm.map _
  rw [← map_fst_sortKeysMembers] at hnames hantisymm
  rw [sortKeys, sortKeys, Json.obj.injEq]
  refine List.Perm.eq_of_pairwise ?_ (List.pairwise_insertionSort memberLe _)
    (List.pairwise_insertionSort memberLe _)
    ((List.perm_insertionSort _ _).trans (hsorted.trans (List.perm_insertionSort _ _).symm))
  intro a b ha hb hab hba
  rw [List.mem_insertionSort] at ha hb
  have hb' := hsorted.mem_iff.mpr hb
  have hname : a.1 = b.1 :=
    hantisymm a.1 (List.mem_map_of_mem ha) b.1 (List.mem_map_of_mem hb') hab hba
  exact List.inj_on_of_nodup_map hnames ha hb' hname

end Json

/-! ## A number printer

Integers are printed as the runtime prints them below `10 ^ 21`; the other
rationals get a spelling of their own. -/

namespace NumberFormat

def integerText (z : Int) : List Char :=
  if z < 0 then '-' :: Nat.toDigits 10 z.natAbs else Nat.toDigits 10 z.natAbs

def fractionText (den : Nat) : List Char := if den = 1 then [] else '.' :: Nat.toDigits 10 den

theorem toDigits_injective {m n : Nat} (h : Nat.toDigits 10 m = Nat.toDigits 10 n) : m = n := by
  have hread := congrArg (fun text => Nat.ofDigitChars 10 text 0) h
  simpa only [Nat.ofDigitChars_ten_toDigits] using hread

theorem isDigit_of_mem_toDigits {n : Nat} {c : Char} (hc : c ∈ Nat.toDigits 10 n) :
    c.isDigit = true :=
  Nat.isDigit_of_mem_toDigits (by decide) (by decide) hc

theorem integerText_chars (z : Int) : ∀ c ∈ integerText z, (c.isDigit || c == '-') = true := by
  intro c hc
  unfold integerText at hc
  split at hc
  · rcases List.mem_cons.mp hc with rfl | hc
    · rfl
    · simp [isDigit_of_mem_toDigits hc]
  · simp [isDigit_of_mem_toDigits hc]

theorem toDigits_ne_minus {n : Nat} (text : List Char) : Nat.toDigits 10 n ≠ '-' :: text := by
  intro h
  have hminus : ('-').isDigit = true := isDigit_of_mem_toDigits (n := n) (by simp [h])
  exact absurd hminus (by decide)

theorem integerText_injective : Function.Injective integerText := by
  intro y z h
  unfold integerText at h
  split at h <;> split at h
  · have habs := toDigits_injective (List.cons.inj h).2
    omega
  · exact absurd h.symm (toDigits_ne_minus _)
  · exact absurd h (toDigits_ne_minus _)
  · have habs := toDigits_injective h
    omega

theorem fractionText_head (den : Nat) :
    ∀ c ∈ (fractionText den).head?, (c.isDigit || c == '-') = false := by
  intro c hc
  unfold fractionText at hc
  split at hc
  · simp at hc
  · simp only [List.head?_cons, Option.mem_some_iff] at hc
    subst hc
    rfl

theorem fractionText_injective {m n : Nat} (h : fractionText m = fractionText n) : m = n := by
  unfold fractionText at h
  split at h <;> split at h
  · omega
  · simp at h
  · simp at h
  · exact toDigits_injective (List.cons.inj h).2

/-- A number printer that spells integers in decimal. -/
def decimal : NumberFormat where
  format q := integerText q.num ++ fractionText q.den
  format_injective := by
    intro p q h
    obtain ⟨hnum, hden⟩ := Json.class_append_inj (integerText_chars p.num)
      (integerText_chars q.num) (fractionText_head p.den) (fractionText_head q.den) h
    exact Rat.ext (integerText_injective hnum) (fractionText_injective hden)
  format_ne_nil := by
    intro q h
    have hnil := (List.append_eq_nil_iff.mp h).1
    unfold integerText at hnil
    split at hnil
    · cases hnil
    · exact Nat.toDigits_ne_nil hnil
  format_chars := by
    intro q c hc
    rcases List.mem_append.mp hc with hc | hc
    · have hchars := integerText_chars q.num c hc
      simp only [Bool.or_eq_true] at hchars
      rcases hchars with hdigit | hminus <;> simp [isNumberChar, *]
    · unfold fractionText at hc
      split at hc
      · cases hc
      · rcases List.mem_cons.mp hc with rfl | hc
        · rfl
        · simp [isNumberChar, isDigit_of_mem_toDigits hc]

end NumberFormat

end Foundation
