import Mathlib.Data.List.Nodup
import Mathlib.Data.List.Basic

/-! # Doubly linked lists threaded through a map

The nodes of a list are the keys of a map, and a node knows the keys of its neighbours. A
list is changed by patching the neighbours of one node: what is unlinked leaves the list,
what is pushed comes to its front, and the other nodes stay in their order.
-/

namespace Foundation.Linked

variable {κ : Type*}

/-- The neighbours of a node. -/
structure Links (κ : Type*) where
  prev : Option κ
  next : Option κ

/-- The first node, the last node and the neighbours of each node. -/
@[ext] structure Chain (κ : Type*) where
  head : Option κ
  tail : Option κ
  links : κ → Option (Links κ)

/-- The keys follow each other, from the node before them to the node behind them. -/
def Segment (links : κ → Option (Links κ)) : Option κ → List κ → Option κ → Prop
  | _, [], _ => True
  | prev, key :: rest, next =>
      links key = some ⟨prev, rest.head?.or next⟩ ∧ Segment links (some key) rest next

/-- The nodes of the chain are the keys, in their order. -/
structure Chain.Spells (chain : Chain κ) (keys : List κ) : Prop where
  nodup : keys.Nodup
  head : chain.head = keys.head?
  tail : chain.tail = keys.getLast?
  segment : Segment chain.links none keys none

variable {links links' : κ → Option (Links κ)} {prev next : Option κ}
  {keys front back : List κ}

/-! ## Segments -/

theorem segment_append : Segment links prev (front ++ back) next ↔
    Segment links prev front (back.head?.or next) ∧
      Segment links (front.getLast?.or prev) back next := by
  induction front generalizing prev with
  | nil => simp [Segment]
  | cons key rest ih =>
      have hlast : (key :: rest).getLast?.or prev = rest.getLast?.or (some key) := by
        rw [List.getLast?_cons]
        cases rest.getLast? <;> rfl
      rw [List.cons_append, Segment, Segment, ih, hlast, List.head?_append, Option.or_assoc,
        and_assoc]

theorem Segment.congr (hsegment : Segment links prev keys next)
    (hsame : ∀ key ∈ keys, links' key = links key) : Segment links' prev keys next := by
  induction keys generalizing prev with
  | nil => trivial
  | cons key rest ih =>
      rw [List.forall_mem_cons] at hsame
      exact ⟨hsame.1.trans hsegment.1, ih hsegment.2 hsame.2⟩

/-- Where each key of a segment stands. -/
theorem Segment.links_eq (hsegment : Segment links prev (front ++ key :: back) next) :
    links key = some ⟨front.getLast?.or prev, back.head?.or next⟩ :=
  (segment_append.mp hsegment).2.1

theorem Segment.isSome (hsegment : Segment links prev keys next) {key : κ} (hkey : key ∈ keys) :
    (links key).isSome = true := by
  obtain ⟨front, back, rfl⟩ := List.append_of_mem hkey
  rw [hsegment.links_eq]
  rfl

/-- From a node on, `next` visits the keys and ends. -/
def Follows (next : κ → Option (Option κ)) : Option κ → List κ → Prop
  | node, [] => node = none
  | node, key :: rest => node = some key ∧ ∃ other, next key = some other ∧ Follows next other rest

theorem Segment.follows (hsegment : Segment links prev keys none) :
    Follows (fun key => (links key).map Links.next) keys.head? keys := by
  induction keys generalizing prev with
  | nil => rfl
  | cons key rest ih =>
      refine ⟨rfl, rest.head?, ?_, ih hsegment.2⟩
      show (links key).map Links.next = _
      rw [hsegment.1, Option.map_some, Option.or_none]

/-- Two nodes of a chain are neighbours for both or for neither. -/
theorem Segment.mirror (hsegment : Segment links none keys none)
    (hkeys : ∀ key, (links key).isSome = true → key ∈ keys) (a b : κ) :
    (links a).bind Links.next = some b ↔ (links b).bind Links.prev = some a := by
  constructor
  · intro hnext
    obtain ⟨l, hl, -⟩ := Option.bind_eq_some_iff.mp hnext
    obtain ⟨front, back, rfl⟩ := List.append_of_mem (hkeys a (by rw [hl]; rfl))
    rw [hsegment.links_eq, Option.bind_some] at hnext
    simp only [Option.or_none] at hnext
    obtain ⟨back, rfl⟩ := List.head?_eq_some_iff.mp hnext
    rw [List.append_cons] at hsegment
    rw [hsegment.links_eq, Option.bind_some, List.getLast?_concat]
    rfl
  · intro hprev
    obtain ⟨l, hl, -⟩ := Option.bind_eq_some_iff.mp hprev
    obtain ⟨front, back, rfl⟩ := List.append_of_mem (hkeys b (by rw [hl]; rfl))
    rw [hsegment.links_eq, Option.bind_some] at hprev
    simp only [Option.or_none] at hprev
    obtain ⟨front, rfl⟩ := List.getLast?_eq_some_iff.mp hprev
    rw [← List.append_cons] at hsegment
    rw [hsegment.links_eq]
    rfl

/-! ## Patches -/

variable [DecidableEq κ]

/-- Another node behind a node, if there is one to patch. -/
def patchNext (links : κ → Option (Links κ)) (node next : Option κ) : κ → Option (Links κ) :=
  match node with
  | none => links
  | some key => Function.update links key ((links key).map fun l => { l with next })

/-- Another node before a node, if there is one to patch. -/
def patchPrev (links : κ → Option (Links κ)) (node prev : Option κ) : κ → Option (Links κ) :=
  match node with
  | none => links
  | some key => Function.update links key ((links key).map fun l => { l with prev })

theorem patchNext_of_ne {node : Option κ} {key : κ} (hne : node ≠ some key) :
    patchNext links node next key = links key := by
  cases node with
  | none => rfl
  | some other => exact Function.update_of_ne (fun heq : key = other => hne (heq ▸ rfl)) _ _

theorem patchPrev_of_ne {node : Option κ} {key : κ} (hne : node ≠ some key) :
    patchPrev links node prev key = links key := by
  cases node with
  | none => rfl
  | some other => exact Function.update_of_ne (fun heq : key = other => hne (heq ▸ rfl)) _ _

theorem patchPrev_update {node : Option κ} {key : κ} (hne : node ≠ some key)
    (l : Option (Links κ)) (prev : Option κ) :
    patchPrev (Function.update links key l) node prev =
      Function.update (patchPrev links node prev) key l := by
  cases node with
  | none => rfl
  | some other =>
      have hother : other ≠ key := fun heq => hne (heq ▸ rfl)
      simp only [patchPrev, Function.update_of_ne hother, Function.update_comm hother]

/-- The last node of a segment gets another successor. -/
theorem Segment.patchNext (hsegment : Segment links prev keys next) (hnodup : keys.Nodup)
    (next' : Option κ) :
    Segment (patchNext links keys.getLast? next') prev keys next' := by
  obtain rfl | ⟨front, key, rfl⟩ := List.eq_nil_or_concat keys
  · trivial
  · rw [List.concat_eq_append] at hsegment hnodup ⊢
    rw [List.getLast?_concat]
    obtain ⟨hfront, hkey, -⟩ := segment_append.mp hsegment
    have hnot : ∀ other ∈ front, (some key : Option κ) ≠ some other := by
      rintro other hother ⟨⟩
      exact (List.nodup_append.mp hnodup).2.2 key hother key (List.mem_singleton_self _) rfl
    refine segment_append.mpr ⟨?_, ?_, trivial⟩
    · exact hfront.congr fun other hother => patchNext_of_ne (hnot other hother)
    · simp only [Linked.patchNext, Function.update_self, hkey, Option.map_some]
      rfl

/-- The first node of a segment gets another predecessor. -/
theorem Segment.patchPrev (hsegment : Segment links prev keys next) (hnodup : keys.Nodup)
    (prev' : Option κ) :
    Segment (patchPrev links keys.head? prev') prev' keys next := by
  cases keys with
  | nil => trivial
  | cons key rest =>
      rw [List.head?_cons]
      obtain ⟨hkey, hrest⟩ := hsegment
      have hnot : ∀ other ∈ rest, (some key : Option κ) ≠ some other := by
        rintro other hother ⟨⟩
        exact (List.nodup_cons.mp hnodup).1 hother
      refine ⟨?_, hrest.congr fun other hother => patchPrev_of_ne (hnot other hother)⟩
      simp only [Linked.patchPrev, Function.update_self, hkey, Option.map_some]

/-! ## Operations -/

namespace Chain

/-- Take a node out: its neighbours become neighbours of each other. -/
def unlink (chain : Chain κ) (key : κ) : Chain κ :=
  match chain.links key with
  | none => chain
  | some l =>
      { head := if l.prev = none then l.next else chain.head
        tail := if l.next = none then l.prev else chain.tail
        links :=
          let links := patchPrev (patchNext chain.links l.prev l.next) l.next l.prev
          Function.update links key ((links key).map fun _ => ⟨none, none⟩) }

/-- A new node before the first one. -/
def pushFront (chain : Chain κ) (key : κ) : Chain κ where
  head := some key
  tail := chain.tail.or (some key)
  links := Function.update (patchPrev chain.links chain.head (some key)) key
    (some ⟨none, chain.head⟩)

/-- Forget a node that is in no list. -/
def erase (chain : Chain κ) (key : κ) : Chain κ :=
  { chain with links := Function.update chain.links key none }

variable {chain : Chain κ} {key : κ}

theorem Spells.unlink (hspells : chain.Spells (front ++ key :: back)) :
    (chain.unlink key).Spells (front ++ back) := by
  obtain ⟨hnodup, hhead, htail, hsegment⟩ := hspells
  have hlinks : chain.links key = some ⟨front.getLast?, back.head?⟩ := by
    simpa using hsegment.links_eq
  obtain ⟨hfront, -, hback⟩ := segment_append.mp hsegment
  obtain ⟨hnodupFront, hnodupBack, hdisjoint⟩ := List.nodup_append.mp hnodup
  obtain ⟨hkeyBack, hnodupBack⟩ := List.nodup_cons.mp hnodupBack
  have hkeyFront : key ∉ front := fun hmem => hdisjoint key hmem key List.mem_cons_self rfl
  have hapart : ∀ a ∈ front, ∀ b ∈ back, a ≠ b :=
    fun a ha b hb => hdisjoint a ha b (List.mem_cons_of_mem _ hb)
  rw [Chain.unlink, hlinks]
  constructor
  case nodup => exact hnodup.sublist ((List.Sublist.refl _).append (List.sublist_cons_self _ _))
  case head =>
    show (if front.getLast? = none then back.head? else chain.head) = _
    cases front with
    | nil => rfl
    | cons first rest => simpa using hhead
  case tail =>
    show (if back.head? = none then front.getLast? else chain.tail) = _
    obtain rfl | ⟨rest, last, rfl⟩ := List.eq_nil_or_concat back
    · simp
    · rw [htail, if_neg (by simp)]
      simp [List.getLast?_append, List.getLast?_cons]
  case segment =>
    rw [List.head?_cons, Option.some_or] at hfront
    have hfront₁ := hfront.patchNext hnodupFront back.head?
    have hback₁ : Segment (patchNext chain.links front.getLast? back.head?) (some key) back none :=
      hback.congr fun b hb =>
        patchNext_of_ne fun heq => hapart b (List.mem_of_getLast? heq) b hb rfl
    have hback₂ := hback₁.patchPrev hnodupBack front.getLast?
    have hfront₂ : Segment (patchPrev (patchNext chain.links front.getLast? back.head?) back.head?
        front.getLast?) none front back.head? :=
      hfront₁.congr fun a ha =>
        patchPrev_of_ne fun heq => hapart a ha a (List.mem_of_head? heq) rfl
    have hjoined : Segment (patchPrev (patchNext chain.links front.getLast? back.head?) back.head?
        front.getLast?) none (front ++ back) none := by
      refine segment_append.mpr ⟨?_, ?_⟩
      · rwa [Option.or_none]
      · rwa [Option.or_none]
    refine hjoined.congr fun other hother => ?_
    have hne : other ≠ key := by
      rintro rfl
      exact (List.mem_append.mp hother).elim hkeyFront hkeyBack
    exact Function.update_of_ne hne _ _

theorem Spells.pushFront (hspells : chain.Spells keys) (hkey : key ∉ keys) :
    (chain.pushFront key).Spells (key :: keys) := by
  obtain ⟨hnodup, hhead, htail, hsegment⟩ := hspells
  constructor
  case nodup => exact List.nodup_cons.mpr ⟨hkey, hnodup⟩
  case head => rfl
  case tail =>
    show chain.tail.or (some key) = _
    rw [htail, List.getLast?_cons]
    cases keys.getLast? <;> rfl
  case segment =>
    refine ⟨?_, ?_⟩
    · show Function.update _ key _ key = _
      rw [Function.update_self, hhead, Option.or_none]
    · refine (hsegment.patchPrev hnodup (some key)).congr fun other hother => ?_
      have hne : other ≠ key := by
        rintro rfl
        exact hkey hother
      show Function.update _ key _ other = _
      rw [Function.update_of_ne hne, hhead]

theorem Spells.erase (hspells : chain.Spells keys) (hkey : key ∉ keys) :
    (chain.erase key).Spells keys := by
  refine ⟨hspells.nodup, hspells.head, hspells.tail, hspells.segment.congr fun other hother => ?_⟩
  have hne : other ≠ key := by
    rintro rfl
    exact hkey hother
  exact Function.update_of_ne hne _ _

end Chain

end Foundation.Linked
