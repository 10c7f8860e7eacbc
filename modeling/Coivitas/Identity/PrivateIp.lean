import Coivitas.Foundation.IpText
import Coivitas.Foundation.Outcome
import Coivitas.Types.Schema

/-! # Private addresses

The model of `isPrivateIP` and of the default DNS rebinding guard in
`packages/identity/src/federated-resolver.ts`. The classifier looks at the text: at
prefixes, and at two spellings of the loopback and of the unspecified address.
-/

namespace Coivitas.Identity.Federation

open Foundation Coivitas.Types
open Foundation.Ip

/-! ## The classifier -/

/-- `replace(/^\[/, '')` -/
def dropOpening : List Char → List Char
  | '[' :: rest => rest
  | text => text

/-- `replace(/\]$/, '')` -/
def dropClosing (text : List Char) : List Char :=
  if text.getLast? = some ']' then text.dropLast else text

/-- `replace(/%.*$/, '')` -/
def dropZone : List Char → List Char
  | [] => []
  | c :: rest => if c = '%' ∧ rest.all (! isLineTerminator ·) then [] else c :: dropZone rest

def normalizeIP (ip : List Char) : List Char :=
  (dropZone (dropClosing (dropOpening ip))).map Char.toLower

/-- `^\d{1,3}(\.\d{1,3}){3}$` -/
def isIPv4Literal (text : List Char) : Bool :=
  (text.splitOn '.').length == 4 &&
    (text.splitOn '.').all fun part => part != [] && part.length ≤ 3 && part.all Char.isDigit

/-- `^172\.(1[6-9]|2\d|3[01])\.` -/
def isShared172 : List Char → Bool
  | '1' :: '7' :: '2' :: '.' :: tens :: ones :: '.' :: _ =>
      (tens == '1' && decide ('6' ≤ ones ∧ ones ≤ '9')) || (tens == '2' && ones.isDigit) ||
        (tens == '3' && (ones == '0' || ones == '1'))
  | _ => false

/-- `^fe[89ab][0-9a-f]` -/
def isLinkLocalPrefix : List Char → Bool
  | 'f' :: 'e' :: c :: c' :: _ => "89ab".toList.contains c && isLowerHex c'
  | _ => false

def loopbackTexts : List (List Char) :=
  ["::1".toList, "0000:0000:0000:0000:0000:0000:0000:0001".toList]

def unspecifiedTexts : List (List Char) :=
  ["::".toList, "0000:0000:0000:0000:0000:0000:0000:0000".toList]

def isPrivateIPv4 (normalized : List Char) : Bool :=
  "127.".toList.isPrefixOf normalized || normalized == "0.0.0.0".toList ||
    "10.".toList.isPrefixOf normalized || isShared172 normalized ||
    "192.168.".toList.isPrefixOf normalized || "169.254.".toList.isPrefixOf normalized

def isPrivateIPv6 (normalized : List Char) : Bool :=
  loopbackTexts.contains normalized || unspecifiedTexts.contains normalized ||
    "fc".toList.isPrefixOf normalized || "fd".toList.isPrefixOf normalized ||
    isLinkLocalPrefix normalized

def isPrivateIP (ip : List Char) : Bool :=
  if isIPv4Literal (normalizeIP ip) then isPrivateIPv4 (normalizeIP ip)
  else isPrivateIPv6 (normalizeIP ip)

/-! ## The guard -/

/-- `resolveAndValidate`, with the answers to the A and the AAAA query; a query that fails
has none. -/
def resolveAndValidate (hostname : String) (v4 v6 : Option (List String)) :
    Except String String :=
  let bareHostname := dropClosing (dropOpening hostname.toList)
  if isIPv4Literal bareHostname || bareHostname.contains ':' then
    if isPrivateIP bareHostname then
      .error ("DNS rebinding blocked: IP literal " ++ hostname ++ " is private")
    else .ok (String.ofList bareHostname)
  else
    match v4.getD [] ++ v6.getD [] with
    | [] => .error ("DNS rebinding blocked: cannot resolve " ++ hostname)
    | first :: rest =>
        match (first :: rest).filter fun address => isPrivateIP address.toList with
        | [] => .ok first
        | privateAddrs => .error ("DNS rebinding blocked: " ++ hostname ++
            " resolves to private IPs: " ++ ", ".intercalate privateAddrs)

/-! ## The ranges -/

/-- Loopback, unspecified, RFC 1918 and link-local. -/
def BlockedOctets : List Nat → Prop
  | [a, b, c, d] =>
      a = 127 ∨ [a, b, c, d] = [0, 0, 0, 0] ∨ a = 10 ∨ (a = 172 ∧ 16 ≤ b ∧ b ≤ 31) ∨
        (a = 192 ∧ b = 168) ∨ (a = 169 ∧ b = 254)
  | _ => False

/-- The IPv4 address in an IPv4-mapped one. -/
def mappedOctets : List Nat → Option (List Nat)
  | [0, 0, 0, 0, 0, 65535, high, low] => some [high / 256, high % 256, low / 256, low % 256]
  | _ => none

/-- Loopback, unspecified, `fc00::/7`, `fe80::/10`, and IPv4-mapped addresses of a range. -/
def BlockedGroups (groups : List Nat) : Prop :=
  groups = [0, 0, 0, 0, 0, 0, 0, 1] ∨ groups = [0, 0, 0, 0, 0, 0, 0, 0] ∨
    (∃ first, groups.head? = some first ∧
      (0xfc00 ≤ first ∧ first ≤ 0xfdff ∨ 0xfe80 ≤ first ∧ first ≤ 0xfebf)) ∨
    ∃ octets, mappedOctets groups = some octets ∧ BlockedOctets octets

def Blocked : Address → Prop
  | .v4 octets => BlockedOctets octets
  | .v6 groups => BlockedGroups groups

/-- An address of a range whose first group is zero, in a spelling other than the four
that are looked for. -/
def Missed (text : List Char) (address : Address) : Prop :=
  Blocked address ∧ ∃ groups, address = .v6 groups ∧ groups.head? = some 0 ∧
    text.map Char.toLower ∉ loopbackTexts ++ unspecifiedTexts

/-! ## What the classifier sees -/

variable {text : List Char}

theorem dropZone_eq_self (h : ∀ c ∈ text, c ≠ '%') : dropZone text = text := by
  induction text with
  | nil => rfl
  | cons c rest ih =>
      obtain ⟨hc, hrest⟩ := List.forall_mem_cons.mp h
      rw [dropZone, if_neg (fun hzone => hc hzone.1), ih hrest]

/-- Normalizing the text of an address only changes the case. -/
theorem normalizeIP_of_address {address : Address} (h : AddressText text address) :
    normalizeIP text = text.map Char.toLower := by
  have hchars : ∀ c ∈ text, c ≠ '[' ∧ c ≠ ']' ∧ c ≠ '%' := by
    intro c hc
    have hchar := h.chars c hc
    refine ⟨?_, ?_, ?_⟩ <;>
    · rintro rfl
      revert hchar
      decide
  have hopening : dropOpening text = text := by
    unfold dropOpening
    split
    next rest => exact absurd rfl (hchars _ List.mem_cons_self).1
    next => rfl
  have hclosing : dropClosing text = text := by
    rw [dropClosing, if_neg]
    intro hlast
    exact absurd rfl (hchars _ (List.mem_of_getLast? hlast)).2.1
  rw [normalizeIP, hopening, hclosing, dropZone_eq_self fun c hc => (hchars c hc).2.2]

theorem isIPv4Literal_chars (h : isIPv4Literal text = true) :
    ∀ c ∈ text, c.isDigit = true ∨ c = '.' := by
  simp only [isIPv4Literal, Bool.and_eq_true, List.all_eq_true] at h
  have hparts := h.2
  have hjoin : ['.'].intercalate (text.splitOn '.') = text := List.intercalate_splitOn '.'
  rw [← hjoin]
  generalize text.splitOn '.' = parts at hparts
  induction parts with
  | nil => simp
  | cons part parts ih =>
      obtain ⟨hpart, hrest⟩ := List.forall_mem_cons.mp hparts
      intro c hc
      cases parts with
      | nil => exact .inl (hpart.2 c (by simpa using hc))
      | cons next parts =>
          rw [List.intercalate_cons_cons, List.mem_append, List.mem_append] at hc
          rcases hc with (hc | hc) | hc
          · exact .inl (hpart.2 c hc)
          · exact .inr (List.mem_singleton.mp hc)
          · exact ih hrest c hc

/-- A text with a colon is none of an IPv4 address. -/
theorem isIPv4Literal_of_colon (h : ':' ∈ text) : isIPv4Literal text = false := by
  by_contra hliteral
  have hcolon := isIPv4Literal_chars (by simpa using hliteral) ':' h
  revert hcolon
  decide

/-! ## IPv4 -/

theorem isDigit_of_octet? {octet : Nat} (h : octet? text = some octet) :
    ∀ c ∈ text, c.isDigit = true := by
  obtain ⟨values, hdigits, -⟩ := number?_eq_some (octet?_eq_some h).2.2.2.1
  clear h
  induction hdigits with
  | nil => simp
  | @cons c digit rest digits hdigit _ ih =>
      refine List.forall_mem_cons.mpr ⟨?_, ih⟩
      exact of_digit? (Q := fun c _ => c.isDigit = true) (by decide) hdigit

theorem quad_parts {octets : List Nat} (h : DottedQuad text octets) :
    ∃ a b c d, octets = [a, b, c, d] ∧ octet? (octetText a) = some a ∧
      octet? (octetText b) = some b ∧ octet? (octetText c) = some c ∧
      octet? (octetText d) = some d ∧
      text = ['.'].intercalate [octetText a, octetText b, octetText c, octetText d] := by
  obtain ⟨hlength, parts, rfl, hparts⟩ := h
  match octets, parts, hparts with
  | [a, b, c, d], [p₁, p₂, p₃, p₄], .cons h₁ (.cons h₂ (.cons h₃ (.cons h₄ .nil))) =>
      obtain rfl := eq_octetText h₁
      obtain rfl := eq_octetText h₂
      obtain rfl := eq_octetText h₃
      obtain rfl := eq_octetText h₄
      exact ⟨a, b, c, d, rfl, h₁, h₂, h₃, h₄, rfl⟩
  | [], _, _ => simp at hlength
  | [_], _, _ => simp at hlength
  | [_, _], _, _ => simp at hlength
  | [_, _, _], _, _ => simp at hlength
  | _ :: _ :: _ :: _ :: _ :: _, _, _ => simp at hlength

theorem isIPv4Literal_of_quad {octets : List Nat} (h : DottedQuad text octets) :
    isIPv4Literal text = true := by
  obtain ⟨hlength, parts, rfl, hparts⟩ := h
  have hpart : ∀ part ∈ parts, ∃ octet, octet? part = some octet := by
    intro part hpart
    obtain ⟨i, hi, rfl⟩ := List.mem_iff_getElem.mp hpart
    exact ⟨_, hparts.get hi (hparts.length_eq ▸ hi)⟩
  have hdot : ∀ part ∈ parts, '.' ∉ part := by
    intro part hmem hdot
    obtain ⟨octet, hoctet⟩ := hpart part hmem
    exact absurd (isDigit_of_octet? hoctet '.' hdot) (by decide)
  have hne : parts ≠ [] := by
    rintro rfl
    simp [← hparts.length_eq] at hlength
  rw [isIPv4Literal, List.splitOn_intercalate '.' hdot hne]
  simp only [Bool.and_eq_true, beq_iff_eq, List.all_eq_true, hparts.length_eq, hlength, true_and]
  intro part hmem
  obtain ⟨octet, hoctet⟩ := hpart part hmem
  obtain ⟨hnonempty, hshort, -⟩ := octet?_eq_some hoctet
  exact ⟨⟨by simpa using hnonempty, by simpa using hshort⟩, isDigit_of_octet? hoctet⟩

/-- Without leading zeros the prefixes of the text tell the ranges. -/
theorem isPrivateIPv4_of_blocked {octets : List Nat} (h : DottedQuad text octets)
    (hblocked : BlockedOctets octets) : isPrivateIPv4 text = true := by
  obtain ⟨a, b, c, d, rfl, -, -, -, -, rfl⟩ := quad_parts h
  simp only [isPrivateIPv4, Bool.or_eq_true]
  rcases hblocked with rfl | hzero | rfl | ⟨rfl, hlow, hhigh⟩ | ⟨rfl, rfl⟩ | ⟨rfl, rfl⟩
  · exact .inl (.inl (.inl (.inl (.inl (by simp [octetText, List.isPrefixOf])))))
  · simp only [List.cons.injEq, and_true] at hzero
    obtain ⟨rfl, rfl, rfl, rfl⟩ := hzero
    exact .inl (.inl (.inl (.inl (.inr (by decide)))))
  · exact .inl (.inl (.inl (.inr (by simp [octetText, List.isPrefixOf]))))
  · refine .inl (.inl (.inr ?_))
    interval_cases b <;> simp [octetText, isShared172]
  · exact .inl (.inr (by simp [octetText, List.isPrefixOf]))
  · exact .inr (by simp [octetText, List.isPrefixOf])

theorem toLower_of_isDigit {c : Char} (h : c.isDigit = true) : c.toLower = c := by
  simp only [Char.isDigit, Bool.and_eq_true, decide_eq_true_eq] at h
  delta Char.toLower
  rw [dif_neg]
  rintro ⟨hupper, -⟩
  exact absurd (UInt32.le_trans hupper h.2) (by decide)

theorem toLower_of_quad {octets : List Nat} (h : DottedQuad text octets) :
    text.map Char.toLower = text := by
  have hlower : ∀ c ∈ text, c.toLower = c := by
    intro c hc
    rcases isIPv4Literal_chars (isIPv4Literal_of_quad h) c hc with hdigit | rfl
    · exact toLower_of_isDigit hdigit
    · rfl
  exact (List.map_congr_left hlower).trans (List.map_id _)

theorem isPrivateIP_of_blocked_quad {octets : List Nat} (h : DottedQuad text octets)
    (hblocked : BlockedOctets octets) : isPrivateIP text = true := by
  have hnormal := normalizeIP_of_address (.v4 h)
  rw [toLower_of_quad h] at hnormal
  rw [isPrivateIP, hnormal, if_pos (isIPv4Literal_of_quad h)]
  exact isPrivateIPv4_of_blocked h hblocked

/-! ## IPv6 -/

theorem colon_mem_of_groups {groups : List Nat} (h : IPv6Text text groups) : ':' ∈ text := by
  rcases h.first with ⟨rest, rfl, -⟩ | ⟨head, rest, value, rfl, -, -⟩
  · exact List.mem_cons_self
  · exact List.mem_append_right _ List.mem_cons_self

theorem isPrivateIP_of_groups {groups : List Nat} (h : IPv6Text text groups) :
    isPrivateIP text = isPrivateIPv6 (text.map Char.toLower) := by
  have hcolon : ':' ∈ text.map Char.toLower :=
    List.mem_map.mpr ⟨':', colon_mem_of_groups h, by decide⟩
  rw [isPrivateIP, normalizeIP_of_address (.v6 h), isIPv4Literal_of_colon hcolon]
  rfl

/-- A text that does not start with an `f` is only looked up among the four spellings. -/
theorem isPrivateIPv6_of_head {c : Char} (hhead : text.head? = some c) (hc : c ≠ 'f') :
    isPrivateIPv6 text = true ↔ text ∈ loopbackTexts ++ unspecifiedTexts := by
  obtain ⟨rest, rfl⟩ := List.head?_eq_some_iff.mp hhead
  have hlinkLocal : isLinkLocalPrefix (c :: rest) = false := by
    unfold isLinkLocalPrefix
    split
    next heq => exact absurd (List.cons.inj heq).1 hc
    next => rfl
  have hfc : "fc".toList.isPrefixOf (c :: rest) = false := by simp [List.isPrefixOf, Ne.symm hc]
  have hfd : "fd".toList.isPrefixOf (c :: rest) = false := by simp [List.isPrefixOf, Ne.symm hc]
  rw [isPrivateIPv6, hlinkLocal, hfc, hfd]
  simp

theorem isPrivateIPv6_of_zero {groups : List Nat} (h : IPv6Text text groups)
    (hzero : groups.head? = some 0) :
    isPrivateIPv6 (text.map Char.toLower) = true ↔
      text.map Char.toLower ∈ loopbackTexts ++ unspecifiedTexts := by
  rcases h.first with ⟨rest, rfl, -⟩ | ⟨head, rest, value, rfl, hvalue, hgroup⟩
  · exact isPrivateIPv6_of_head (c := ':') rfl (by decide)
  · obtain rfl : 0 = value := Option.some.inj (hzero.symm.trans hgroup)
    obtain ⟨tail, rfl⟩ := List.head?_eq_some_iff.mp (head_of_zero hvalue)
    exact isPrivateIPv6_of_head (c := '0') rfl (by decide)

/-- The first group of `fc00::/7` and of `fe80::/10` has four digits in every spelling. -/
theorem isPrivateIPv6_of_first {groups : List Nat} {first : Nat} (h : IPv6Text text groups)
    (hfirst : groups.head? = some first)
    (hrange : 0xfc00 ≤ first ∧ first ≤ 0xfdff ∨ 0xfe80 ≤ first ∧ first ≤ 0xfebf) :
    isPrivateIPv6 (text.map Char.toLower) = true := by
  rcases h.first with ⟨rest, -, hgroup⟩ | ⟨head, rest, value, rfl, hvalue, hgroup⟩
  · obtain rfl : first = 0 := Option.some.inj (hfirst.symm.trans hgroup)
    omega
  · obtain rfl : first = value := Option.some.inj (hfirst.symm.trans hgroup)
    obtain ⟨c₁, c₂, c₃, c₄, rfl, h₁, h₂, h₃, h₄⟩ := four_digits hvalue (by omega)
    have hlead : first / 4096 = 15 := by omega
    have hhex : ∀ n < 16, isLowerHex (hexChar n) = true := by decide
    simp only [List.map_append, List.map_cons, List.map_nil, h₁, h₂, h₃, h₄, hlead,
      List.cons_append, isPrivateIPv6, Bool.or_eq_true]
    rcases hrange with ⟨hlow, hhigh⟩ | ⟨hlow, hhigh⟩
    · rcases (by omega : first / 256 % 16 = 12 ∨ first / 256 % 16 = 13) with hsecond | hsecond
      · exact .inl (.inl (.inr (by simp [hsecond, hexChar, List.isPrefixOf])))
      · exact .inl (.inr (by simp [hsecond, hexChar, List.isPrefixOf]))
    · have hsecond : first / 256 % 16 = 14 := by omega
      have hthird : first / 16 % 16 = 8 ∨ first / 16 % 16 = 9 ∨ first / 16 % 16 = 10 ∨
          first / 16 % 16 = 11 := by omega
      have hfourth := hhex (first % 16) (by omega)
      refine .inr ?_
      rcases hthird with hthird | hthird | hthird | hthird <;>
        simp [hsecond, hthird, hexChar, isLinkLocalPrefix] <;> simpa [hexChar] using hfourth

/-- An address of a range is recognised, unless it is one of those that start with a
group of zeros in a spelling that is not looked for. -/
theorem isPrivateIP_iff {address : Address} (h : AddressText text address) :
    (Blocked address → isPrivateIP text = true) ↔ ¬ Missed text address := by
  cases h with
  | v4 h =>
      constructor
      · rintro - ⟨-, groups, hgroups, -⟩
        cases hgroups
      · intro _ hblocked
        exact isPrivateIP_of_blocked_quad h hblocked
  | @v6 groups h =>
      rw [isPrivateIP_of_groups h]
      constructor
      · rintro hrecognised ⟨hblocked, groups', hgroups, hzero, hspelling⟩
        cases hgroups
        exact hspelling ((isPrivateIPv6_of_zero h hzero).mp (hrecognised hblocked))
      · intro hmissed hblocked
        by_cases hzero : groups.head? = some 0
        · by_contra hunrecognised
          rw [isPrivateIPv6_of_zero h hzero] at hunrecognised
          exact hmissed ⟨hblocked, groups, rfl, hzero, hunrecognised⟩
        · -- What is left of the ranges is told by the first group.
          rcases hblocked with rfl | rfl | ⟨first, hfirst, hrange⟩ | ⟨octets, hmapped, -⟩
          · exact absurd rfl hzero
          · exact absurd rfl hzero
          · exact isPrivateIPv6_of_first h hfirst hrange
          · unfold mappedOctets at hmapped
            split at hmapped
            · exact absurd rfl hzero
            · cases hmapped

/-! ## The guard -/

/-- An address that the guard returns has passed the classifier. -/
theorem isPrivateIP_of_resolved {hostname address : String} {v4 v6 : Option (List String)}
    (h : resolveAndValidate hostname v4 v6 = .ok address) :
    isPrivateIP address.toList = false := by
  simp only [resolveAndValidate] at h
  split at h
  next =>
    split at h
    next => cases h
    next hprivate =>
      obtain rfl := Except.ok.inj h
      simpa using hprivate
  next =>
    split at h
    next => cases h
    next first rest _ =>
      split at h
      next hnone =>
        obtain rfl := Except.ok.inj h
        have hfirst := List.filter_eq_nil_iff.mp hnone first List.mem_cons_self
        simpa using hfirst
      next => cases h

/-- The classifier recognises the text of an address of the ranges, and the guard returns
none of them, exactly when the address does not start with a group of zeros in a spelling
other than the four that are looked for. -/
theorem private_addresses_recognised_iff {address : Address} :
    (∀ text, AddressText text address →
      ((Blocked address → isPrivateIP text = true) ↔ ¬ Missed text address)) ∧
    ∀ (hostname : String) (v4 v6 : Option (List String)) (returned : String),
      resolveAndValidate hostname v4 v6 = .ok returned → AddressText returned.toList address →
        (¬ Blocked address ↔ ¬ Missed returned.toList address) := by
  refine ⟨fun _ htext => isPrivateIP_iff htext, ?_⟩
  intro hostname v4 v6 returned hresolved htext
  rw [← isPrivateIP_iff htext, isPrivateIP_of_resolved hresolved]
  simp

/-! The loopback address, as an IPv4-mapped one. -/

namespace MappedLoopback

def mapped : String := "::ffff:127.0.0.1"

def groups : List Nat := [0, 0, 0, 0, 0, 65535, 32512, 1]

theorem loopback_quad : DottedQuad "127.0.0.1".toList [127, 0, 0, 1] :=
  ⟨rfl, ["127".toList, "0".toList, "0".toList, "1".toList], by decide,
    .cons (by decide) (.cons (by decide) (.cons (by decide) (.cons (by decide) .nil)))⟩

theorem mapped_groups : IPv6Text mapped.toList groups := by
  have hright : Groups true ("ffff".toList ++ ':' :: "127.0.0.1".toList)
      [65535, 127 * 256 + 0, 0 * 256 + 1] := .cons (by decide) (.quad rfl loopback_quad)
  have htext : mapped.toList =
      [] ++ ':' :: ':' :: ("ffff".toList ++ ':' :: "127.0.0.1".toList) := by decide +kernel
  rw [htext]
  exact .compressed (.inl ⟨rfl, rfl⟩) (.inr hright) (by decide)

theorem blocked : Blocked (.v6 groups) :=
  .inr (.inr (.inr ⟨[127, 0, 0, 1], by decide, .inl rfl⟩))

/-- The classifier takes it for a public address, and the guard returns it. -/
theorem mapped_loopback_returned :
    (¬ ∀ text address, AddressText text address → Blocked address → isPrivateIP text = true) ∧
      ¬ ∀ hostname v4 v6 returned address,
        resolveAndValidate hostname v4 v6 = .ok returned →
          AddressText returned.toList address → ¬ Blocked address := by
  have hprivate : isPrivateIP mapped.toList = false := by decide
  have hreturned : resolveAndValidate "host.example" none (some [mapped]) =
      .ok mapped := by decide
  constructor
  · intro h
    have hrecognised := h _ _ (.v6 mapped_groups) blocked
    rw [hprivate] at hrecognised
    cases hrecognised
  · intro h
    exact h _ _ _ _ _ hreturned (.v6 mapped_groups) blocked

/-- In dotted decimals nothing is missed. -/
theorem dotted_loopback_recognised : isPrivateIP "127.0.0.1".toList = true := by
  refine (private_addresses_recognised_iff.1 _ (.v4 loopback_quad)).mpr ?_ (.inl rfl)
  rintro ⟨-, groups, hgroups, -⟩
  cases hgroups

end MappedLoopback

end Coivitas.Identity.Federation
