import Mathlib.Data.List.Lex
import Mathlib.Data.List.Sort
import Mathlib.Data.String.Basic
import Mathlib.Tactic.Linarith

/-! # Strings as sequences of UTF-16 code units

Relational operators and sorting on strings compare UTF-16 code units. The
first section defines that order. The second treats texts of a fixed format:
for two texts of one template the order of the texts is the order of the
numbers their digits spell.
-/

namespace Foundation

/-- The UTF-16 code units of one Unicode scalar value. -/
def charUnits (c : Char) : List Nat :=
  if c.toNat < 0x10000 then [c.toNat]
  else [0xD800 + (c.toNat - 0x10000) / 0x400, 0xDC00 + (c.toNat - 0x10000) % 0x400]

def codeUnits (s : String) : List Nat := s.toList.flatMap charUnits

theorem charUnits_append_inj {c d : Char} {rest rest' : List Nat}
    (h : charUnits c ++ rest = charUnits d ++ rest') : c = d ∧ rest = rest' := by
  have hvalid : ∀ c : Char, c.toNat < 0xD800 ∨ (0xDFFF < c.toNat ∧ c.toNat < 0x110000) :=
    fun c => c.valid
  have hc := hvalid c
  have hd := hvalid d
  have hchar : ∀ c d : Char, c.toNat = d.toNat → c = d := fun c d heq => Char.toNat_inj.mp heq
  unfold charUnits at h
  split at h <;> split at h <;>
    simp only [List.cons_append, List.nil_append, List.cons.injEq] at h
  · exact ⟨hchar c d h.1, h.2⟩
  · omega
  · omega
  · exact ⟨hchar c d (by omega), h.2.2⟩

theorem codeUnits_injective {s t : String} (h : codeUnits s = codeUnits t) : s = t := by
  have hlists : ∀ left right : List Char,
      left.flatMap charUnits = right.flatMap charUnits → left = right := by
    intro left
    induction left with
    | nil =>
        intro right hright
        cases right with
        | nil => rfl
        | cons d right =>
            rw [List.flatMap_nil, List.flatMap_cons, charUnits] at hright
            split at hright <;> simp at hright
    | cons c left ih =>
        intro right hright
        cases right with
        | nil =>
            rw [List.flatMap_nil, List.flatMap_cons, charUnits] at hright
            split at hright <;> simp at hright
        | cons d right =>
            rw [List.flatMap_cons, List.flatMap_cons] at hright
            obtain ⟨rfl, hrest⟩ := charUnits_append_inj hright
            rw [ih right hrest]
  exact String.toList_inj.mp (hlists _ _ h)

/-- `a <= b` on strings. -/
def TextLe (a b : String) : Prop := codeUnits a ≤ codeUnits b

/-- `a < b` on strings. -/
def TextLt (a b : String) : Prop := codeUnits a < codeUnits b

instance (a b : String) : Decidable (TextLe a b) :=
  inferInstanceAs (Decidable (codeUnits a ≤ codeUnits b))

instance (a b : String) : Decidable (TextLt a b) :=
  inferInstanceAs (Decidable (codeUnits a < codeUnits b))

theorem TextLe.refl (a : String) : TextLe a a := le_refl (codeUnits a)

theorem TextLe.trans {a b c : String} (hab : TextLe a b) (hbc : TextLe b c) : TextLe a c :=
  le_trans (α := List Nat) hab hbc

theorem textLe_iff_not_lt {a b : String} : TextLe a b ↔ ¬ TextLt b a :=
  (not_lt (α := List Nat)).symm

theorem textLt_iff_not_le {a b : String} : TextLt a b ↔ ¬ TextLe b a :=
  (not_le (α := List Nat)).symm

/-- A text whose characters pass the given tests one by one. -/
def matchesEach : List (Char → Bool) → List Char → Bool
  | [], [] => true
  | test :: tests, c :: text => test c && matchesEach tests text
  | _, _ => false

/-- A lower-case hex digit. -/
def isLowerHex (c : Char) : Bool := c.isDigit || (97 ≤ c.toNat && c.toNat ≤ 102)

/-! ## Texts of a fixed format -/

/-- A text format: `none` stands for one decimal digit, `some c` for the
character `c` itself. -/
abbrev Template := List (Option Char)

namespace Template

/-- Whether a text has the format. -/
def accepts : Template → List Char → Bool
  | [], [] => true
  | none :: rest, c :: text => c.isDigit && accepts rest text
  | some d :: rest, c :: text => (c == d) && accepts rest text
  | _, _ => false

/-- The number of digits of a text of this format. -/
def digits (template : Template) : Nat := template.countP Option.isNone

/-- The number spelled by the digits of a text of this format. -/
def value : Template → List Char → Nat
  | none :: rest, c :: text => (c.toNat - 48) * 10 ^ digits rest + value rest text
  | some _ :: rest, _ :: text => value rest text
  | _, _ => 0

/-- Every literal character of the format is ASCII. -/
def Ascii (template : Template) : Prop := ∀ c ∈ template, ∀ d ∈ c, d.toNat < 128

theorem isDigit_bounds {c : Char} (hdigit : c.isDigit = true) :
    48 ≤ c.toNat ∧ c.toNat ≤ 57 := by
  simp only [Char.isDigit, Bool.and_eq_true, decide_eq_true_eq] at hdigit
  exact ⟨hdigit.1, hdigit.2⟩

theorem digits_cons_none (rest : Template) : digits (none :: rest) = digits rest + 1 := by
  simp [digits]

theorem digits_cons_some (d : Char) (rest : Template) :
    digits (some d :: rest) = digits rest := by
  simp [digits]

theorem value_lt (template : Template) (text : List Char)
    (haccepts : accepts template text = true) :
    value template text < 10 ^ digits template := by
  induction template generalizing text with
  | nil => cases text <;> simp_all [accepts, value, digits]
  | cons head rest ih =>
      cases text with
      | nil => cases head <;> simp [accepts] at haccepts
      | cons c text =>
          cases head with
          | none =>
              simp only [accepts, Bool.and_eq_true] at haccepts
              have hrest := ih text haccepts.2
              have hc := isDigit_bounds haccepts.1
              simp only [value, digits_cons_none, pow_succ]
              have hmul : (c.toNat - 48) * 10 ^ digits rest ≤ 9 * 10 ^ digits rest :=
                Nat.mul_le_mul_right _ (by omega)
              omega
          | some d =>
              simp only [accepts, Bool.and_eq_true] at haccepts
              simpa only [value, digits_cons_some] using ih text haccepts.2

/-- Texts of one format are ordered as the numbers they spell. The induction
is over the format: equal literal characters are skipped, and the first
differing digit decides both comparisons because the rest of the digits
spell less than one unit of it. -/
theorem map_lt_iff_value_lt (template : Template) (left right : List Char)
    (hleft : accepts template left = true) (hright : accepts template right = true) :
    left.map Char.toNat < right.map Char.toNat ↔ value template left < value template right := by
  induction template generalizing left right with
  | nil => cases left <;> cases right <;> simp_all [accepts, value]
  | cons head rest ih =>
      cases left with
      | nil => cases head <;> simp [accepts] at hleft
      | cons a left =>
          cases right with
          | nil => cases head <;> simp [accepts] at hright
          | cons b right =>
              cases head with
              | some d =>
                  simp only [accepts, Bool.and_eq_true, beq_iff_eq] at hleft hright
                  obtain ⟨rfl, hleft⟩ := hleft
                  obtain ⟨rfl, hright⟩ := hright
                  simpa only [value, List.map_cons, List.cons_lt_cons_iff, lt_irrefl,
                    false_or, true_and] using ih left right hleft hright
              | none =>
                  simp only [accepts, Bool.and_eq_true] at hleft hright
                  have hrest := ih left right hleft.2 hright.2
                  have hl := value_lt rest left hleft.2
                  have hr := value_lt rest right hright.2
                  have ha := isDigit_bounds hleft.1
                  have hb := isDigit_bounds hright.1
                  simp only [value, List.map_cons, List.cons_lt_cons_iff]
                  rcases Nat.lt_trichotomy a.toNat b.toNat with hlt | heq | hgt
                  · have hmul : (a.toNat - 48 + 1) * 10 ^ digits rest ≤
                        (b.toNat - 48) * 10 ^ digits rest := Nat.mul_le_mul_right _ (by omega)
                    rw [Nat.add_mul, Nat.one_mul] at hmul
                    exact ⟨fun _ => by omega, fun _ => Or.inl hlt⟩
                  · rw [heq, hrest]
                    constructor
                    · rintro (hlt | ⟨-, hlt⟩) <;> omega
                    · intro hlt
                      exact Or.inr ⟨rfl, by omega⟩
                  · have hmul : (b.toNat - 48 + 1) * 10 ^ digits rest ≤
                        (a.toNat - 48) * 10 ^ digits rest := Nat.mul_le_mul_right _ (by omega)
                    rw [Nat.add_mul, Nat.one_mul] at hmul
                    constructor
                    · rintro (hlt | ⟨heq, -⟩) <;> omega
                    · intro hlt
                      omega

theorem ascii_of_accepts (template : Template) (hascii : Ascii template) (text : List Char)
    (haccepts : accepts template text = true) : ∀ c ∈ text, c.toNat < 128 := by
  induction template generalizing text with
  | nil => cases text <;> simp_all [accepts]
  | cons head rest ih =>
      cases text with
      | nil => simp
      | cons c text =>
          have hrest : Ascii rest := fun d hd => hascii d (List.mem_cons_of_mem _ hd)
          intro x hx
          cases head with
          | none =>
              simp only [accepts, Bool.and_eq_true] at haccepts
              rcases List.mem_cons.mp hx with rfl | hx
              · have := isDigit_bounds haccepts.1
                omega
              · exact ih hrest text haccepts.2 x hx
          | some d =>
              simp only [accepts, Bool.and_eq_true, beq_iff_eq] at haccepts
              rcases List.mem_cons.mp hx with rfl | hx
              · rw [haccepts.1]
                exact hascii (some d) List.mem_cons_self d rfl
              · exact ih hrest text haccepts.2 x hx

end Template

/-- A character has one code unit or two. -/
theorem length_toList_le (s : String) : s.toList.length ≤ (codeUnits s).length := by
  rw [codeUnits]
  induction s.toList with
  | nil => exact Nat.zero_le _
  | cons c rest ih =>
      rw [List.flatMap_cons, List.length_append, List.length_cons]
      have hpos : 1 ≤ (charUnits c).length := by
        unfold charUnits
        split <;> simp
      omega

theorem codeUnits_of_ascii (s : String) (hascii : ∀ c ∈ s.toList, c.toNat < 128) :
    codeUnits s = s.toList.map Char.toNat := by
  unfold codeUnits
  generalize s.toList = text at hascii ⊢
  induction text with
  | nil => rfl
  | cons c text ih =>
      have hc := hascii c List.mem_cons_self
      have hunits : charUnits c = [c.toNat] := by
        unfold charUnits
        rw [if_pos (by omega)]
      rw [List.flatMap_cons, hunits, ih (fun d hd => hascii d (List.mem_cons_of_mem _ hd))]
      rfl

/-- On texts of one ASCII format the string order is the order of the
spelled numbers. -/
theorem textLe_iff_value_le (template : Template) (hascii : template.Ascii) (a b : String)
    (ha : template.accepts a.toList = true) (hb : template.accepts b.toList = true) :
    TextLe a b ↔ template.value a.toList ≤ template.value b.toList := by
  rw [textLe_iff_not_lt, TextLt,
    codeUnits_of_ascii a (template.ascii_of_accepts hascii _ ha),
    codeUnits_of_ascii b (template.ascii_of_accepts hascii _ hb),
    template.map_lt_iff_value_lt _ _ hb ha, Nat.not_lt]

end Foundation
