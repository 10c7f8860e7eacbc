import Coivitas.Foundation.Bytes
import Coivitas.Foundation.JsText
import Mathlib.Data.List.Forall2

/-! # Textual addresses

The texts of IPv4 addresses in dotted decimals, and those of IPv6 addresses: eight
groups of one to four hexadecimal digits, where one run of zero groups may be left out
for a double colon and the last two groups may be written in dotted decimals.
-/

namespace Foundation.Ip

/-- The number that the digits spell. -/
def number? (base : Nat) (text : List Char) : Option Nat :=
  (text.mapM (digit? base)).map fun values => values.foldl (fun n value => n * base + value) 0

/-- A decimal number up to 255 without leading zeros. -/
def octet? (text : List Char) : Option Nat :=
  if text = [] ∨ 3 < text.length ∨ (text.head? = some '0' ∧ 1 < text.length) then none
  else (number? 10 text).filter (· ≤ 255)

/-- One to four hexadecimal digits. -/
def hextet? (text : List Char) : Option Nat :=
  if text = [] ∨ 4 < text.length then none else number? 16 text

def DottedQuad (text : List Char) (octets : List Nat) : Prop :=
  octets.length = 4 ∧ ∃ parts, text = ['.'].intercalate parts ∧
    List.Forall₂ (fun part octet => octet? part = some octet) parts octets

/-- Groups between colons; where it is allowed, the last two are written as a dotted quad. -/
inductive Groups (dotted : Bool) : List Char → List Nat → Prop
  | hextet {text : List Char} {value : Nat} (h : hextet? text = some value) :
      Groups dotted text [value]
  | quad {text : List Char} {a b c d : Nat} (hdotted : dotted = true)
      (h : DottedQuad text [a, b, c, d]) : Groups dotted text [a * 256 + b, c * 256 + d]
  | cons {text rest : List Char} {value : Nat} {values : List Nat}
      (h : hextet? text = some value) (hrest : Groups dotted rest values) :
      Groups dotted (text ++ ':' :: rest) (value :: values)

/-- Groups, or nothing. -/
def Side (dotted : Bool) (text : List Char) (values : List Nat) : Prop :=
  (text = [] ∧ values = []) ∨ Groups dotted text values

/-- The texts of an address of eight groups. -/
inductive IPv6Text : List Char → List Nat → Prop
  | full {text : List Char} {values : List Nat} (h : Groups true text values)
      (hlength : values.length = 8) : IPv6Text text values
  | compressed {left right : List Char} {before after : List Nat} (hleft : Side false left before)
      (hright : Side true right after) (hlength : before.length + after.length < 8) :
      IPv6Text (left ++ ':' :: ':' :: right)
        (before ++ List.replicate (8 - (before.length + after.length)) 0 ++ after)

inductive Address where
  | v4 (octets : List Nat)
  | v6 (groups : List Nat)
  deriving DecidableEq

/-- The text is a spelling of the address. -/
inductive AddressText : List Char → Address → Prop
  | v4 {text : List Char} {octets : List Nat} (h : DottedQuad text octets) :
      AddressText text (.v4 octets)
  | v6 {text : List Char} {groups : List Nat} (h : IPv6Text text groups) :
      AddressText text (.v6 groups)

/-! ## Characters -/

/-- What addresses are written with. -/
def isAddressChar (c : Char) : Bool := (digit? 16 c).isSome || c == '.' || c == ':'

theorem toNat_lt_of_digit? {base value : Nat} {c : Char} (h : digit? base c = some value) :
    c.toNat < 128 := by
  by_contra hge
  have hnine : ¬ ('0' ≤ c ∧ c ≤ '9') := fun hc => hge (lt_of_le_of_lt (Nat.le_of_lt_succ
    (Nat.lt_succ_of_le hc.2)) (by decide))
  have hf : ¬ ('a' ≤ c ∧ c ≤ 'z') := fun hc => hge (lt_of_le_of_lt (Nat.le_of_lt_succ
    (Nat.lt_succ_of_le hc.2)) (by decide))
  have hcapital : ¬ ('A' ≤ c ∧ c ≤ 'Z') := fun hc => hge (lt_of_le_of_lt (Nat.le_of_lt_succ
    (Nat.lt_succ_of_le hc.2)) (by decide))
  simp [digit?, hnine, hf, hcapital] at h

/-- A fact about digits need only be checked on the characters below 128. -/
theorem of_digit? {base value : Nat} {c : Char} {Q : Char → Nat → Prop}
    (hall : ∀ n < 128, ∀ value ∈ digit? base (Char.ofNat n), Q (Char.ofNat n) value)
    (h : digit? base c = some value) : Q c value := by
  have hc : Char.ofNat c.toNat = c := Char.ofNat_toNat c
  have hvalue := hall c.toNat (toNat_lt_of_digit? h) value
  rw [hc] at hvalue
  exact hvalue h

theorem digit?_sixteen {c : Char} {value : Nat} (h : digit? 16 c = some value) :
    value < 16 ∧ c.toLower = hexChar value :=
  of_digit? (Q := fun c value => value < 16 ∧ c.toLower = hexChar value) (by decide +kernel) h

theorem digit?_ten {c : Char} {value : Nat} (h : digit? 10 c = some value) :
    value < 10 ∧ c = Char.ofNat (48 + value) ∧ digit? 16 c = some value :=
  of_digit? (Q := fun c value => value < 10 ∧ c = Char.ofNat (48 + value) ∧
    digit? 16 c = some value) (by decide +kernel) h

/-- The digits behind a number. -/
theorem number?_eq_some {base value : Nat} {text : List Char} (h : number? base text = some value) :
    ∃ values, List.Forall₂ (fun c digit => digit? base c = some digit) text values ∧
      values.foldl (fun n digit => n * base + digit) 0 = value := by
  obtain ⟨values, hvalues, rfl⟩ := Option.map_eq_some_iff.mp h
  refine ⟨values, ?_, rfl⟩
  clear h
  induction text generalizing values with
  | nil =>
      simp only [List.mapM_nil, Option.pure_def, Option.some.injEq] at hvalues
      rw [← hvalues]
      exact .nil
  | cons c rest ih =>
      simp only [List.mapM_cons, Option.pure_def, Option.bind_eq_bind, Option.bind_eq_some_iff,
        Option.some.injEq] at hvalues
      obtain ⟨digit, hdigit, digits, hdigits, rfl⟩ := hvalues
      exact .cons hdigit (ih digits hdigits)

theorem octet?_eq_some {text : List Char} {value : Nat} (h : octet? text = some value) :
    text ≠ [] ∧ text.length ≤ 3 ∧ (text.head? = some '0' → text.length = 1) ∧
      number? 10 text = some value ∧ value ≤ 255 := by
  unfold octet? at h
  split at h
  next => cases h
  next hshape =>
    obtain ⟨hnumber, hvalue⟩ := Option.filter_eq_some_iff.mp h
    simp only [not_or, not_and, not_lt] at hshape
    refine ⟨hshape.1, hshape.2.1, ?_, hnumber, by simpa using hvalue⟩
    intro hzero
    have hle := hshape.2.2 hzero
    have hpos := List.length_pos_of_ne_nil hshape.1
    omega

theorem hextet?_eq_some {text : List Char} {value : Nat} (h : hextet? text = some value) :
    text ≠ [] ∧ text.length ≤ 4 ∧ number? 16 text = some value := by
  unfold hextet? at h
  split at h
  next => cases h
  next hshape =>
    simp only [not_or, not_lt] at hshape
    exact ⟨hshape.1, hshape.2, h⟩

/-- The text of an octet. -/
def octetText (value : Nat) : List Char :=
  if value < 10 then [Char.ofNat (48 + value)]
  else if value < 100 then [Char.ofNat (48 + value / 10), Char.ofNat (48 + value % 10)]
  else [Char.ofNat (48 + value / 100), Char.ofNat (48 + value / 10 % 10),
    Char.ofNat (48 + value % 10)]

/-- Without leading zeros every octet has one text. -/
theorem eq_octetText {text : List Char} {value : Nat} (h : octet? text = some value) :
    text = octetText value := by
  obtain ⟨hne, hlength, hzero, hnumber, -⟩ := octet?_eq_some h
  obtain ⟨values, hdigits, rfl⟩ := number?_eq_some hnumber
  have hlead : ∀ {c : Char} {digit : Nat}, digit? 10 c = some digit → c ≠ '0' → digit ≠ 0 := by
    rintro c digit hdigit hc rfl
    exact hc (digit?_ten hdigit).2.1
  -- by the number of digits; the first of several is not zero
  match text, values, hdigits with
  | [], _, _ => exact absurd rfl hne
  | [c], [x], .cons hx .nil =>
      obtain ⟨hlt, hc, -⟩ := digit?_ten hx
      simp [octetText, hlt, hc]
  | [c, c'], [x, y], .cons hx (.cons hy .nil) =>
      obtain ⟨hlt, hc, -⟩ := digit?_ten hx
      obtain ⟨hlt', hc', -⟩ := digit?_ten hy
      have hpos := hlead hx fun h => absurd (hzero (congrArg some h)) (by simp)
      have hdiv : (x * 10 + y) / 10 = x := by omega
      have hmod : (x * 10 + y) % 10 = y := by omega
      simp [octetText, hc, hc', hdiv, hmod, show ¬ x * 10 + y < 10 by omega,
        show x * 10 + y < 100 by omega]
  | [c, c', c''], [x, y, z], .cons hx (.cons hy (.cons hz .nil)) =>
      obtain ⟨hlt, hc, -⟩ := digit?_ten hx
      obtain ⟨hlt', hc', -⟩ := digit?_ten hy
      obtain ⟨hlt'', hc'', -⟩ := digit?_ten hz
      have hpos := hlead hx fun h => absurd (hzero (congrArg some h)) (by simp)
      have hdiv : ((x * 10 + y) * 10 + z) / 100 = x := by omega
      have hmiddle : ((x * 10 + y) * 10 + z) / 10 % 10 = y := by omega
      have hmod : ((x * 10 + y) * 10 + z) % 10 = z := by omega
      simp [octetText, hc, hc', hc'', hdiv, hmiddle, hmod,
        show ¬ (x * 10 + y) * 10 + z < 10 by omega, show ¬ (x * 10 + y) * 10 + z < 100 by omega]
  | _ :: _ :: _ :: _ :: _, _, _ =>
      simp only [List.length_cons] at hlength
      omega

/-- The first four digits of a group from 4096 on are all there are. -/
theorem four_digits {text : List Char} {value : Nat} (h : hextet? text = some value)
    (hvalue : 4096 ≤ value) :
    ∃ c₁ c₂ c₃ c₄, text = [c₁, c₂, c₃, c₄] ∧
      c₁.toLower = hexChar (value / 4096) ∧ c₂.toLower = hexChar (value / 256 % 16) ∧
      c₃.toLower = hexChar (value / 16 % 16) ∧ c₄.toLower = hexChar (value % 16) := by
  obtain ⟨hne, hlength, hnumber⟩ := hextet?_eq_some h
  obtain ⟨values, hdigits, rfl⟩ := number?_eq_some hnumber
  match text, values, hdigits with
  | [], _, _ => exact absurd rfl hne
  | [_], [x], .cons hx .nil =>
      have := (digit?_sixteen hx).1
      simp at hvalue
      omega
  | [_, _], [x, y], .cons hx (.cons hy .nil) =>
      have := (digit?_sixteen hx).1
      have := (digit?_sixteen hy).1
      simp at hvalue
      omega
  | [_, _, _], [x, y, z], .cons hx (.cons hy (.cons hz .nil)) =>
      have := (digit?_sixteen hx).1
      have := (digit?_sixteen hy).1
      have := (digit?_sixteen hz).1
      simp at hvalue
      omega
  | [c₁, c₂, c₃, c₄], [x, y, z, u], .cons hx (.cons hy (.cons hz (.cons hu .nil))) =>
      obtain ⟨hlt₁, hc₁⟩ := digit?_sixteen hx
      obtain ⟨hlt₂, hc₂⟩ := digit?_sixteen hy
      obtain ⟨hlt₃, hc₃⟩ := digit?_sixteen hz
      obtain ⟨hlt₄, hc₄⟩ := digit?_sixteen hu
      refine ⟨c₁, c₂, c₃, c₄, rfl, ?_, ?_, ?_, ?_⟩
      · rw [hc₁]
        congr 1
        simp only [List.foldl_cons, List.foldl_nil]
        omega
      · rw [hc₂]
        congr 1
        simp only [List.foldl_cons, List.foldl_nil]
        omega
      · rw [hc₃]
        congr 1
        simp only [List.foldl_cons, List.foldl_nil]
        omega
      · rw [hc₄]
        congr 1
        simp only [List.foldl_cons, List.foldl_nil]
        omega
  | _ :: _ :: _ :: _ :: _ :: _, _, _ =>
      simp only [List.length_cons] at hlength
      omega

theorem le_foldl_digits (base : Nat) (hbase : 0 < base) (values : List Nat) (n : Nat) :
    n ≤ values.foldl (fun n digit => n * base + digit) n := by
  induction values generalizing n with
  | nil => exact Nat.le_refl n
  | cons digit rest ih =>
      have hstep : n ≤ n * base + digit :=
        (Nat.le_mul_of_pos_right n hbase).trans (Nat.le_add_right _ _)
      exact hstep.trans (ih _)

/-- A group of value zero is written with zeros. -/
theorem head_of_zero {text : List Char} (h : hextet? text = some 0) :
    text.head? = some '0' := by
  obtain ⟨hne, -, hnumber⟩ := hextet?_eq_some h
  obtain ⟨values, hdigits, hvalue⟩ := number?_eq_some hnumber
  cases hdigits with
  | nil => exact absurd rfl hne
  | @cons c digit rest digits hdigit =>
      have hle := le_foldl_digits 16 (by decide) digits digit
      simp only [List.foldl_cons, Nat.zero_mul, Nat.zero_add] at hvalue
      rw [hvalue] at hle
      have hzero : digit = 0 → c = '0' :=
        of_digit? (Q := fun c digit => digit = 0 → c = '0') (by decide +kernel) hdigit
      rw [hzero (Nat.le_zero.mp hle), List.head?_cons]

theorem isAddressChar_of_number? {base value : Nat} {text : List Char}
    (hbase : ∀ c digit, digit? base c = some digit → (digit? 16 c).isSome = true)
    (h : number? base text = some value) : ∀ c ∈ text, isAddressChar c = true := by
  obtain ⟨values, hdigits, -⟩ := number?_eq_some h
  clear h
  induction hdigits with
  | nil => simp
  | @cons c digit rest digits hdigit _ ih =>
      exact List.forall_mem_cons.mpr ⟨by simp [isAddressChar, hbase c digit hdigit], ih⟩

theorem isAddressChar_of_hextet? {text : List Char} {value : Nat}
    (h : hextet? text = some value) : ∀ c ∈ text, isAddressChar c = true :=
  isAddressChar_of_number? (fun _ _ hdigit => by simp [hdigit]) (hextet?_eq_some h).2.2

theorem isAddressChar_of_octet? {text : List Char} {value : Nat}
    (h : octet? text = some value) : ∀ c ∈ text, isAddressChar c = true :=
  isAddressChar_of_number? (fun _ _ hdigit => by simp [(digit?_ten hdigit).2.2])
    (octet?_eq_some h).2.2.2.1

theorem DottedQuad.chars {text : List Char} {octets : List Nat} (h : DottedQuad text octets) :
    ∀ c ∈ text, isAddressChar c = true := by
  obtain ⟨-, parts, rfl, hparts⟩ := h
  induction hparts with
  | nil => simp
  | @cons part octet parts octets hpart hrest ih =>
      intro c hc
      cases parts with
      | nil => exact isAddressChar_of_octet? hpart c (by simpa using hc)
      | cons next parts =>
          rw [List.intercalate_cons_cons, List.mem_append, List.mem_append] at hc
          rcases hc with (hc | hc) | hc
          · exact isAddressChar_of_octet? hpart c hc
          · rw [List.mem_singleton.mp hc]
            decide
          · exact ih c hc

theorem Groups.chars {dotted : Bool} {text : List Char} {values : List Nat}
    (h : Groups dotted text values) : ∀ c ∈ text, isAddressChar c = true := by
  induction h with
  | hextet h => exact isAddressChar_of_hextet? h
  | quad _ h => exact h.chars
  | cons h _ ih =>
      intro c hc
      rcases List.mem_append.mp hc with hc | hc
      · exact isAddressChar_of_hextet? h c hc
      · rcases List.mem_cons.mp hc with rfl | hc
        · decide
        · exact ih c hc

theorem Side.chars {dotted : Bool} {text : List Char} {values : List Nat}
    (h : Side dotted text values) : ∀ c ∈ text, isAddressChar c = true := by
  rcases h with ⟨rfl, -⟩ | h
  · simp
  · exact h.chars

/-- The text of an address of groups starts with its first group, or with a double
colon in the place of zeros. -/
theorem IPv6Text.first {text : List Char} {groups : List Nat} (h : IPv6Text text groups) :
    (∃ rest, text = ':' :: rest ∧ groups.head? = some 0) ∨
      ∃ head rest value, text = head ++ ':' :: rest ∧ hextet? head = some value ∧
        groups.head? = some value := by
  cases h with
  | full h hlength =>
      cases h with
      | hextet h => simp at hlength
      | quad _ h => simp at hlength
      | cons h hrest => exact .inr ⟨_, _, _, rfl, h, rfl⟩
  | compressed hleft hright hlength =>
      rcases hleft with ⟨rfl, rfl⟩ | hleft
      · refine .inl ⟨_, rfl, ?_⟩
        obtain ⟨n, hn⟩ := Nat.exists_eq_succ_of_ne_zero (Nat.sub_ne_zero_of_lt hlength)
        rw [hn]
        rfl
      · cases hleft with
        | hextet h => exact .inr ⟨_, _, _, rfl, h, rfl⟩
        | quad hdotted _ => cases hdotted
        | cons h hrest => exact .inr ⟨_, _, _, by rw [List.append_assoc]; rfl, h, rfl⟩

theorem IPv6Text.chars {text : List Char} {groups : List Nat} (h : IPv6Text text groups) :
    ∀ c ∈ text, isAddressChar c = true := by
  cases h with
  | full h _ => exact h.chars
  | compressed hleft hright _ =>
      intro c hc
      rcases List.mem_append.mp hc with hc | hc
      · exact hleft.chars c hc
      · simp only [List.mem_cons] at hc
        rcases hc with rfl | rfl | hc
        · decide
        · decide
        · exact hright.chars c hc

theorem AddressText.chars {text : List Char} {address : Address} (h : AddressText text address) :
    ∀ c ∈ text, isAddressChar c = true := by
  cases h with
  | v4 h => exact h.chars
  | v6 h => exact h.chars

end Foundation.Ip
