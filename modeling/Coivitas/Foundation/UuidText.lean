import Coivitas.Foundation.Json

/-! # Texts of the database: UUIDs and text columns

What the input function of the type `uuid` reads, the canonical text that its
output function writes, and which texts a text column takes.
-/

namespace Foundation

/-- Text columns have no NUL. -/
def isColumnText (s : String) : Bool := s.toList.all fun c => c.toNat != 0

/-! ## Printed JSON has no NUL -/

theorem toNat_ne_zero_of_isNumberChar {c : Char} (hc : isNumberChar c = true) : c.toNat ≠ 0 := by
  intro hzero
  obtain rfl : c = Char.ofNat 0 := Json.char_eq_ofNat hzero
  exact absurd hc (by decide)

theorem all_escapeChar (c : Char) : (Json.escapeChar c).all (fun d => d.toNat != 0) = true := by
  by_cases hquote : c = '"'
  · subst hquote
    rfl
  by_cases hslash : c = '\\'
  · subst hslash
    rfl
  by_cases hcontrol : c.toNat < 32
  · have hall : (List.range 32).all (fun n =>
        (Json.escapeChar (Char.ofNat n)).all fun d => d.toNat != 0) = true := by decide
    rw [← Char.ofNat_toNat c]
    exact List.all_eq_true.mp hall c.toNat (List.mem_range.mpr hcontrol)
  · rw [Json.escapeChar_plain hquote hslash hcontrol, List.all_cons, List.all_nil, Bool.and_true,
      bne_iff_ne]
    omega

theorem toNat_ne_zero_of_mem_printString {s : String} {d : Char} (hd : d ∈ Json.printString s) :
    d.toNat ≠ 0 := by
  simp only [Json.printString, List.mem_cons, List.mem_append, List.mem_flatMap, List.not_mem_nil,
    or_false] at hd
  rcases hd with rfl | ⟨c, -, hd⟩ | rfl
  · decide
  · exact bne_iff_ne.mp (List.all_eq_true.mp (all_escapeChar c) d hd)
  · decide

mutual

theorem toNat_ne_zero_of_mem_print (F : NumberFormat) (value : Json) :
    ∀ d ∈ Json.print F value, d.toNat ≠ 0 := by
  match value with
  | .null => simp [Json.print]
  | .bool true => simp [Json.print]
  | .bool false => simp [Json.print]
  | .num q => exact fun d hd => toNat_ne_zero_of_isNumberChar (F.format_chars q d hd)
  | .str s => exact fun d hd => toNat_ne_zero_of_mem_printString hd
  | .arr [] => simp [Json.print]
  | .arr (item :: items) =>
      have hitem := toNat_ne_zero_of_mem_print F item
      have hitems := toNat_ne_zero_of_mem_printItems F items
      simp only [Json.print, List.forall_mem_cons, List.forall_mem_append]
      exact ⟨by decide, hitem, hitems⟩
  | .obj [] => simp [Json.print]
  | .obj ((name, value) :: members) =>
      have hvalue := toNat_ne_zero_of_mem_print F value
      have hmembers := toNat_ne_zero_of_mem_printMembers F members
      simp only [Json.print, List.forall_mem_cons, List.forall_mem_append]
      exact ⟨by decide, fun d hd => toNat_ne_zero_of_mem_printString hd, by decide, hvalue,
        hmembers⟩

theorem toNat_ne_zero_of_mem_printItems (F : NumberFormat) (items : List Json) :
    ∀ d ∈ Json.printItems F items, d.toNat ≠ 0 := by
  match items with
  | [] => simp [Json.printItems]
  | item :: items =>
      have hitem := toNat_ne_zero_of_mem_print F item
      have hitems := toNat_ne_zero_of_mem_printItems F items
      simp only [Json.printItems, List.forall_mem_cons, List.forall_mem_append]
      exact ⟨by decide, hitem, hitems⟩

theorem toNat_ne_zero_of_mem_printMembers (F : NumberFormat) (members : List (String × Json)) :
    ∀ d ∈ Json.printMembers F members, d.toNat ≠ 0 := by
  match members with
  | [] => simp [Json.printMembers]
  | (name, value) :: members =>
      have hvalue := toNat_ne_zero_of_mem_print F value
      have hmembers := toNat_ne_zero_of_mem_printMembers F members
      simp only [Json.printMembers, List.forall_mem_cons, List.forall_mem_append]
      exact ⟨by decide, fun d hd => toNat_ne_zero_of_mem_printString hd, by decide, hvalue,
        hmembers⟩

end

/-- A text column takes every canonical text. -/
theorem isColumnText_canonicalize (F : NumberFormat) (value : Json) :
    isColumnText (Json.canonicalize F value) = true := by
  rw [isColumnText, Json.canonicalize, Json.stringify, String.toList_ofList, List.all_eq_true]
  intro d hd
  simpa using toNat_ne_zero_of_mem_print F _ d hd

/-! ## Texts matched character by character -/

/-- A run of characters under one test. -/
theorem matchesEach_replicate {n : Nat} {test : Char → Bool} {tests : List (Char → Bool)}
    {text : List Char} (hmatches : matchesEach (List.replicate n test ++ tests) text = true) :
    ∃ front rest, text = front ++ rest ∧ front.length = n ∧ (∀ c ∈ front, test c = true) ∧
      matchesEach tests rest = true := by
  induction n generalizing text with
  | zero => exact ⟨[], text, rfl, rfl, by simp, hmatches⟩
  | succ n ih =>
      cases text with
      | nil => simp [List.replicate_succ, matchesEach] at hmatches
      | cons c text =>
          rw [List.replicate_succ, List.cons_append, matchesEach, Bool.and_eq_true] at hmatches
          obtain ⟨front, rest, rfl, hlength, hfront, hrest⟩ := ih hmatches.2
          exact ⟨c :: front, rest, rfl, by rw [List.length_cons, hlength],
            List.forall_mem_cons.mpr ⟨hmatches.1, hfront⟩, hrest⟩

/-- One character under its own test. -/
theorem matchesEach_cons {test : Char → Bool} {tests : List (Char → Bool)} {text : List Char}
    (hmatches : matchesEach (test :: tests) text = true) :
    ∃ c rest, text = c :: rest ∧ test c = true ∧ matchesEach tests rest = true := by
  cases text with
  | nil => simp [matchesEach] at hmatches
  | cons c rest =>
      rw [matchesEach, Bool.and_eq_true] at hmatches
      exact ⟨c, rest, rfl, hmatches⟩

theorem eq_nil_of_matchesEach {text : List Char} (hmatches : matchesEach [] text = true) :
    text = [] := by
  cases text with
  | nil => rfl
  | cons c rest => simp [matchesEach] at hmatches

namespace UuidText

def isHexDigit (c : Char) : Bool :=
  isLowerHex c || (65 ≤ c.toNat && c.toNat ≤ 70)

/-- A dash may follow every second byte but the last one. -/
def skipDash (bytesLeft : Nat) (src : List Char) : List Char :=
  match src with
  | '-' :: rest => if bytesLeft % 2 = 0 ∧ 0 < bytesLeft then rest else src
  | _ => src

/-- The digits of the given number of bytes in lower case, and what follows them. -/
def readBytes : Nat → List Char → Option (List Char × List Char)
  | 0, src => some ([], src)
  | n + 1, c :: d :: src =>
      if isHexDigit c = true ∧ isHexDigit d = true then
        (readBytes n (skipDash n src)).map fun read =>
          (c.toLower :: d.toLower :: read.1, read.2)
      else none
  | _ + 1, _ => none

/-- Groups of 8, 4, 4, 4 and 12 digits. -/
def dashed (digits : List Char) : List Char :=
  digits.take 8 ++ '-' :: ((digits.drop 8).take 4 ++ '-' :: ((digits.drop 12).take 4 ++
    '-' :: ((digits.drop 16).take 4 ++ '-' :: digits.drop 20)))

/-- The digits of a text, in braces or not. -/
def readDigits (src : List Char) : Option (List Char) :=
  match src with
  | '{' :: rest =>
      match readBytes 16 rest with
      | some (digits, ['}']) => some digits
      | _ => none
  | _ =>
      match readBytes 16 src with
      | some (digits, []) => some digits
      | _ => none

/-- The text that a UUID column returns for a text that it takes. -/
def read (s : String) : Option String :=
  (readDigits s.toList).map fun digits => String.ofList (dashed digits)

/-! ## Canonical texts -/

theorem isHexDigit_of_lowerHex {c : Char} (hc : isLowerHex c = true) : isHexDigit c = true := by
  rw [isHexDigit, hc, Bool.true_or]

theorem toLower_of_lowerHex {c : Char} (hc : isLowerHex c = true) : c.toLower = c := by
  simp only [isLowerHex, Bool.or_eq_true, Bool.and_eq_true, decide_eq_true_eq, Char.isDigit] at hc
  have hupper : ¬ (65 ≤ c.toNat ∧ c.toNat ≤ 90) := by
    rcases hc with ⟨-, hhi⟩ | ⟨hlo, -⟩
    · have : c.toNat ≤ 57 := hhi
      omega
    · omega
  delta Char.toLower
  rw [dif_neg]
  intro h
  exact hupper ⟨h.1, h.2⟩

theorem isLowerHex_toLower {c : Char} (hc : isHexDigit c = true) : isLowerHex c.toLower = true := by
  simp only [isHexDigit, Bool.or_eq_true, Bool.and_eq_true, decide_eq_true_eq] at hc
  rcases hc with hlower | ⟨hlo, hhi⟩
  · rwa [toLower_of_lowerHex hlower]
  · have hcases : ∀ n < 6, isLowerHex (Char.ofNat (65 + n)).toLower = true := by decide
    have hchar : c = Char.ofNat (65 + (c.toNat - 65)) := by
      rw [Nat.add_sub_cancel' hlo, Char.ofNat_toNat]
    rw [hchar]
    exact hcases _ (by omega)

theorem skipDash_of_hexDigit (n : Nat) {c : Char} (src : List Char) (hc : isHexDigit c = true) :
    skipDash n (c :: src) = c :: src := by
  unfold skipDash
  split
  next rest heq =>
    cases heq
    exact absurd hc (by decide)
  next => rfl

/-- A run of digits is read on the way to what follows it. -/
theorem readBytes_append (n : Nat) {digits rest : List Char} {k : Nat}
    (hlength : digits.length = 2 * (k + 1)) (hdigits : ∀ c ∈ digits, isLowerHex c = true) :
    readBytes (n + (k + 1)) (digits ++ rest) =
      (readBytes n (skipDash n rest)).map fun read => (digits ++ read.1, read.2) := by
  induction k generalizing digits with
  | zero =>
      obtain ⟨c, d, rfl⟩ := List.length_eq_two.mp hlength
      have hc := hdigits c (by simp)
      have hd := hdigits d (by simp)
      simp [readBytes, isHexDigit_of_lowerHex hc, isHexDigit_of_lowerHex hd,
        toLower_of_lowerHex hc, toLower_of_lowerHex hd]
  | succ k ih =>
      match digits, hlength with
      | c :: d :: digits, hlength =>
        have hc := hdigits c (by simp)
        have hd := hdigits d (by simp)
        have hlength' : digits.length = 2 * (k + 1) := by
          simp only [List.length_cons] at hlength
          omega
        have hskip : skipDash (n + (k + 1)) (digits ++ rest) = digits ++ rest := by
          match digits, hlength' with
          | e :: digits, _ =>
            exact skipDash_of_hexDigit _ _ (isHexDigit_of_lowerHex (hdigits e (by simp)))
        have hrest := ih hlength' fun c hc => hdigits c (by simp [hc])
        rw [show n + (k + 1 + 1) = n + (k + 1) + 1 from rfl, List.cons_append, List.cons_append,
          readBytes, if_pos ⟨isHexDigit_of_lowerHex hc, isHexDigit_of_lowerHex hd⟩, hskip, hrest,
          toLower_of_lowerHex hc, toLower_of_lowerHex hd, Option.map_map]
        rfl

/-- The digits of a canonical text, group by group. -/
theorem readBytes_dashed {first second third fourth fifth : List Char} (hfirst : first.length = 8)
    (hsecond : second.length = 4) (hthird : third.length = 4) (hfourth : fourth.length = 4)
    (hfifth : fifth.length = 12)
    (hdigits : ∀ c ∈ first ++ (second ++ (third ++ (fourth ++ fifth))), isLowerHex c = true) :
    readBytes 16 (first ++ '-' :: (second ++ '-' :: (third ++ '-' :: (fourth ++ '-' :: fifth)))) =
      some (first ++ (second ++ (third ++ (fourth ++ fifth))), []) := by
  simp only [List.mem_append] at hdigits
  have hlast : readBytes (0 + (5 + 1)) (fifth ++ []) = some (fifth, []) := by
    rw [readBytes_append 0 hfifth fun c hc => hdigits c (by simp [hc])]
    simp [readBytes, skipDash]
  rw [List.append_nil] at hlast
  rw [show 16 = 12 + (3 + 1) from rfl,
    readBytes_append 12 hfirst fun c hc => hdigits c (by simp [hc]),
    show skipDash 12 ('-' :: (second ++ '-' :: (third ++ '-' :: (fourth ++ '-' :: fifth)))) =
      second ++ '-' :: (third ++ '-' :: (fourth ++ '-' :: fifth)) from rfl,
    show 12 = 10 + (1 + 1) from rfl,
    readBytes_append 10 hsecond fun c hc => hdigits c (by simp [hc]),
    show skipDash 10 ('-' :: (third ++ '-' :: (fourth ++ '-' :: fifth))) =
      third ++ '-' :: (fourth ++ '-' :: fifth) from rfl,
    show 10 = 8 + (1 + 1) from rfl,
    readBytes_append 8 hthird fun c hc => hdigits c (by simp [hc]),
    show skipDash 8 ('-' :: (fourth ++ '-' :: fifth)) = fourth ++ '-' :: fifth from rfl,
    show 8 = 6 + (1 + 1) from rfl,
    readBytes_append 6 hfourth fun c hc => hdigits c (by simp [hc]),
    show skipDash 6 ('-' :: fifth) = fifth from rfl, show 6 = 0 + (5 + 1) from rfl, hlast]
  rfl

theorem readDigits_dashed {first second third fourth fifth : List Char} (hfirst : first.length = 8)
    (hsecond : second.length = 4) (hthird : third.length = 4) (hfourth : fourth.length = 4)
    (hfifth : fifth.length = 12)
    (hdigits : ∀ c ∈ first ++ (second ++ (third ++ (fourth ++ fifth))), isLowerHex c = true) :
    readDigits (first ++ '-' :: (second ++ '-' :: (third ++ '-' :: (fourth ++ '-' :: fifth)))) =
      some (first ++ (second ++ (third ++ (fourth ++ fifth)))) := by
  have hread := readBytes_dashed hfirst hsecond hthird hfourth hfifth hdigits
  unfold readDigits
  split
  next rest heq =>
    match first, hfirst with
    | c :: first, _ =>
      cases heq
      exact absurd (hdigits '{' (by simp)) (by decide)
  next => rw [hread]

theorem dashed_append {first second third fourth fifth : List Char} (hfirst : first.length = 8)
    (hsecond : second.length = 4) (hthird : third.length = 4) (hfourth : fourth.length = 4) :
    dashed (first ++ (second ++ (third ++ (fourth ++ fifth)))) =
      first ++ '-' :: (second ++ '-' :: (third ++ '-' :: (fourth ++ '-' :: fifth))) := by
  have h₈ : (first ++ (second ++ (third ++ (fourth ++ fifth)))).drop 8 =
      second ++ (third ++ (fourth ++ fifth)) := List.drop_left' hfirst
  have h₁₂ : (first ++ (second ++ (third ++ (fourth ++ fifth)))).drop 12 =
      third ++ (fourth ++ fifth) := by
    rw [show 12 = 8 + 4 from rfl, ← List.drop_drop, h₈, List.drop_left' hsecond]
  have h₁₆ : (first ++ (second ++ (third ++ (fourth ++ fifth)))).drop 16 = fourth ++ fifth := by
    rw [show 16 = 12 + 4 from rfl, ← List.drop_drop, h₁₂, List.drop_left' hthird]
  have h₂₀ : (first ++ (second ++ (third ++ (fourth ++ fifth)))).drop 20 = fifth := by
    rw [show 20 = 16 + 4 from rfl, ← List.drop_drop, h₁₆, List.drop_left' hfourth]
  rw [dashed, h₈, h₁₂, h₁₆, h₂₀, List.take_left' hfirst, List.take_left' hsecond,
    List.take_left' hthird, List.take_left' hfourth]

/-- A canonical text is read as it is. -/
theorem read_of_dashed {s : String} {first second third fourth fifth : List Char}
    (hs : s.toList = first ++ '-' :: (second ++ '-' :: (third ++ '-' :: (fourth ++ '-' :: fifth))))
    (hfirst : first.length = 8) (hsecond : second.length = 4) (hthird : third.length = 4)
    (hfourth : fourth.length = 4) (hfifth : fifth.length = 12)
    (hdigits : ∀ c ∈ first ++ (second ++ (third ++ (fourth ++ fifth))), isLowerHex c = true) :
    read s = some s := by
  rw [read, hs, readDigits_dashed hfirst hsecond hthird hfourth hfifth hdigits, Option.map_some,
    dashed_append hfirst hsecond hthird hfourth, ← hs, String.ofList_toList]

end UuidText

end Foundation
