import Coivitas.Crypto.Sha256
import Mathlib.Data.List.Basic
import Mathlib.Tactic.Ring

/-! # SHA-256 on packed words

The state and the schedule window of a block as one natural number each, in base `2 ^ 32` with the
first word lowest. The rounds are the same; evaluation is arithmetic on a few large numbers.
-/

namespace Coivitas.Crypto.Sha256.Packed

def pack : List Nat → Nat
  | [] => 0
  | word :: words => Nat.add word (Nat.mul 4294967296 (pack words))

def wordAt (packed i : Nat) : Nat := Nat.mod (Nat.div packed (Nat.pow 4294967296 i)) 4294967296

def wrap (n : Nat) : Nat := Nat.mod n 4294967296

def rotateNat (word count : Nat) : Nat :=
  Nat.lor (Nat.shiftRight word count) (wrap (Nat.shiftLeft word (Nat.sub 32 count)))

def sumNat (word p q r : Nat) : Nat :=
  Nat.xor (Nat.xor (rotateNat word p) (rotateNat word q)) (rotateNat word r)

def smallNat (word p q r : Nat) : Nat :=
  Nat.xor (Nat.xor (rotateNat word p) (rotateNat word q)) (Nat.shiftRight word r)

def roundPacked (s constantAndWord : Nat) : Nat :=
  let e := wordAt s 3
  let a := wordAt s 7
  let b := wordAt s 6
  let c := wordAt s 5
  let sum₁ := sumNat e 6 11 25
  let choice := Nat.xor (Nat.land e (wordAt s 2)) (Nat.land (Nat.sub 4294967295 e) (wordAt s 1))
  let t₁ := Nat.add (Nat.add (Nat.add (wordAt s 0) sum₁) choice) constantAndWord
  let sum₀ := sumNat a 2 13 22
  let majority := Nat.xor (Nat.xor (Nat.land a b) (Nat.land a c)) (Nat.land b c)
  pack [wordAt s 1, wordAt s 2, e, wrap (Nat.add (wordAt s 4) t₁), c, b, a,
    wrap (Nat.add t₁ (Nat.add sum₀ majority))]

/-- The word that follows a window of sixteen. -/
def nextPacked (window : Nat) : Nat :=
  let w₁₅ := wordAt window 1
  let w₂ := wordAt window 14
  let small₀ := smallNat w₁₅ 7 18 3
  let small₁ := smallNat w₂ 17 19 10
  wrap (Nat.add (Nat.add (Nat.add (wordAt window 0) small₀) (wordAt window 9)) small₁)

def stepPacked (stateAndWindow : Nat × Nat) (constant : UInt32) : Nat × Nat :=
  (roundPacked stateAndWindow.1 (Nat.add constant.toNat (wordAt stateAndWindow.2 0)),
    Nat.add (Nat.div stateAndWindow.2 4294967296)
      (Nat.mul (nextPacked stateAndWindow.2) (Nat.pow 4294967296 15)))

def compressPacked (s block : Nat) : Nat :=
  let t := (roundConstants.foldl stepPacked (s, block)).1
  pack ((List.range 8).map fun i => wrap (Nat.add (wordAt s i) (wordAt t i)))

def packState (s : State) : Nat :=
  pack ([s.h, s.g, s.f, s.e, s.d, s.c, s.b, s.a].map UInt32.toNat)

def unpackState (packed : Nat) : State :=
  let word i := UInt32.ofNat (wordAt packed i)
  ⟨word 7, word 6, word 5, word 4, word 3, word 2, word 1, word 0⟩

def sha256Packed (message : List UInt8) : List UInt8 :=
  digest (unpackState ((blocks (words (pad message))).foldl
    (fun s block => compressPacked s (pack (block.map UInt32.toNat))) (packState initial)))

/-! ## Words -/

theorem wordAt_pack {words : List Nat} (h : ∀ word ∈ words, word < 4294967296) (i : Nat) :
    wordAt (pack words) i = words.getD i 0 := by
  induction words generalizing i with
  | nil =>
      show 0 / 4294967296 ^ i % 4294967296 = _
      simp
  | cons word words ih =>
      obtain ⟨hword, h⟩ := List.forall_mem_cons.mp h
      show (word + 4294967296 * pack words) / 4294967296 ^ i % 4294967296 = _
      cases i with
      | zero => simp only [pow_zero, Nat.div_one, List.getD_cons_zero]; omega
      | succ i =>
          have hdiv : (word + 4294967296 * pack words) / 4294967296 = pack words := by omega
          rw [pow_succ', ← Nat.div_div_eq_div_mul, hdiv, List.getD_cons_succ, ← ih h i]
          rfl

theorem wordAt_packWords (words : List UInt32) (i : Nat) :
    wordAt (pack (words.map UInt32.toNat)) i = (words.getD i 0).toNat := by
  rw [wordAt_pack]
  · rw [List.getD_eq_getElem?_getD, List.getD_eq_getElem?_getD, List.getElem?_map]
    cases words[i]? <;> rfl
  · intro word hword
    obtain ⟨w, -, rfl⟩ := List.mem_map.mp hword
    exact w.toNat_lt

theorem wordAt_packed (s : State) (i : Nat) :
    wordAt (packState s) i = ([s.h, s.g, s.f, s.e, s.d, s.c, s.b, s.a].getD i 0).toNat :=
  wordAt_packWords _ i

theorem toNat_rotateRight (word : UInt32) {count : UInt32} (hpos : 0 < count.toNat)
    (hlt : count.toNat < 32) :
    (rotateRight word count).toNat = rotateNat word.toNat count.toNat := by
  have hsub : (32 - count).toNat = 32 - count.toNat := by
    rw [UInt32.toNat_sub_of_le _ _ (UInt32.le_iff_toNat_le.mpr hlt.le)]
    rfl
  have hmod : (32 - count.toNat) % 32 = 32 - count.toNat := Nat.mod_eq_of_lt (by omega)
  rw [rotateRight, UInt32.toNat_or, UInt32.toNat_shiftRight, UInt32.toNat_shiftLeft, hsub,
    Nat.mod_eq_of_lt hlt, hmod]
  rfl

theorem toNat_complement (word : UInt32) : (~~~word).toNat = 4294967295 - word.toNat := by
  rw [UInt32.toNat_not]
  rfl

/-! ## Rounds -/

theorem toNat_sum (word p q r : UInt32) (hp : 0 < p.toNat ∧ p.toNat < 32)
    (hq : 0 < q.toNat ∧ q.toNat < 32) (hr : 0 < r.toNat ∧ r.toNat < 32) :
    (rotateRight word p ^^^ rotateRight word q ^^^ rotateRight word r).toNat =
      sumNat word.toNat p.toNat q.toNat r.toNat := by
  rw [UInt32.toNat_xor, UInt32.toNat_xor, toNat_rotateRight word hp.1 hp.2,
    toNat_rotateRight word hq.1 hq.2, toNat_rotateRight word hr.1 hr.2]
  rfl

theorem toNat_choice (e f g : UInt32) : ((e &&& f) ^^^ (~~~e &&& g)).toNat =
    Nat.xor (Nat.land e.toNat f.toNat) (Nat.land (Nat.sub 4294967295 e.toNat) g.toNat) := by
  rw [UInt32.toNat_xor, UInt32.toNat_and, UInt32.toNat_and, toNat_complement]
  rfl

theorem toNat_majority (a b c : UInt32) : ((a &&& b) ^^^ (a &&& c) ^^^ (b &&& c)).toNat =
    Nat.xor (Nat.xor (Nat.land a.toNat b.toNat) (Nat.land a.toNat c.toNat))
      (Nat.land b.toNat c.toNat) := by
  rw [UInt32.toNat_xor, UInt32.toNat_xor, UInt32.toNat_and, UInt32.toNat_and, UInt32.toNat_and]
  rfl

theorem roundPacked_eq (s : State) (constant word : UInt32) :
    roundPacked (packState s) (Nat.add constant.toNat word.toNat) =
      packState (round s (constant, word)) := by
  have hsum₁ : _ = sumNat s.e.toNat 6 11 25 :=
    toNat_sum s.e 6 11 25 (by decide) (by decide) (by decide)
  have hsum₀ : _ = sumNat s.a.toNat 2 13 22 :=
    toNat_sum s.a 2 13 22 (by decide) (by decide) (by decide)
  have hchoice := toNat_choice s.e s.f s.g
  have hmajority := toNat_majority s.a s.b s.c
  simp only [roundPacked, wordAt_packed, round]
  refine congrArg pack ?_
  simp only [List.map_cons, List.map_nil, List.getD_cons_zero, List.getD_cons_succ,
    List.cons.injEq, true_and, and_true, UInt32.toNat_add, hsum₁, hsum₀, hchoice, hmajority]
  constructor
  · show (_ + (_ + _ + _ + (_ + _))) % 4294967296 = _
    omega
  · show (_ + _ + _ + (_ + _) + (_ + _)) % 4294967296 = _
    omega

/-! ## The schedule -/

def nextWord (window : List UInt32) : UInt32 :=
  let w₁₅ := window.getD 1 0
  let w₂ := window.getD 14 0
  let small₀ := rotateRight w₁₅ 7 ^^^ rotateRight w₁₅ 18 ^^^ (w₁₅ >>> 3)
  let small₁ := rotateRight w₂ 17 ^^^ rotateRight w₂ 19 ^^^ (w₂ >>> 10)
  window.getD 0 0 + small₀ + window.getD 9 0 + small₁

def shift (window : List UInt32) : List UInt32 := window.tail ++ [nextWord window]

/-- The words of the schedule as the window moves over them. -/
def stream : Nat → List UInt32 → List UInt32
  | 0, _ => []
  | n + 1, window => window.headD 0 :: stream n (shift window)

theorem length_shift {window : List UInt32} (h : window.length = 16) :
    (shift window).length = 16 := by
  rw [shift, List.length_append, List.length_tail, h]
  rfl

theorem toNat_small (word p q r : UInt32) (hp : 0 < p.toNat ∧ p.toNat < 32)
    (hq : 0 < q.toNat ∧ q.toNat < 32) (hr : r.toNat < 32) :
    (rotateRight word p ^^^ rotateRight word q ^^^ (word >>> r)).toNat =
      smallNat word.toNat p.toNat q.toNat r.toNat := by
  rw [UInt32.toNat_xor, UInt32.toNat_xor, toNat_rotateRight word hp.1 hp.2,
    toNat_rotateRight word hq.1 hq.2, UInt32.toNat_shiftRight, Nat.mod_eq_of_lt hr]
  rfl

theorem nextPacked_eq (window : List UInt32) :
    nextPacked (pack (window.map UInt32.toNat)) = (nextWord window).toNat := by
  have hsmall₀ : _ = smallNat (window.getD 1 0).toNat 7 18 3 :=
    toNat_small (window.getD 1 0) 7 18 3 (by decide) (by decide) (by decide)
  have hsmall₁ : _ = smallNat (window.getD 14 0).toNat 17 19 10 :=
    toNat_small (window.getD 14 0) 17 19 10 (by decide) (by decide) (by decide)
  simp only [nextPacked, nextWord, wordAt_packWords, UInt32.toNat_add, hsmall₀, hsmall₁]
  show (_ + _ + _ + _) % 4294967296 = _
  omega

theorem pack_append (words : List Nat) (word : Nat) :
    pack (words ++ [word]) = pack words + word * 4294967296 ^ words.length := by
  induction words with
  | nil =>
      show word + 4294967296 * 0 = 0 + word * 1
      omega
  | cons first words ih =>
      show first + 4294967296 * pack (words ++ [word]) = first + 4294967296 * pack words + _
      rw [ih, List.length_cons, pow_succ]
      ring

theorem shiftPacked_eq {window : List UInt32} (h : window.length = 16) :
    Nat.add (Nat.div (pack (window.map UInt32.toNat)) 4294967296)
      (Nat.mul (nextPacked (pack (window.map UInt32.toNat))) (Nat.pow 4294967296 15)) =
      pack ((shift window).map UInt32.toNat) := by
  rw [nextPacked_eq, shift, List.map_append, List.map_singleton, pack_append, List.length_map,
    List.length_tail, h]
  match window, h with
  | word :: words, _ =>
      have hword := word.toNat_lt
      have hdiv : pack ((word :: words).map UInt32.toNat) / 4294967296 =
          pack (words.map UInt32.toNat) := by
        show (word.toNat + 4294967296 * pack (words.map UInt32.toNat)) / 4294967296 = _
        omega
      show pack ((word :: words).map UInt32.toNat) / 4294967296 + _ = _
      rw [hdiv]
      rfl

theorem foldl_stepPacked (constants : List UInt32) (s : State) {window : List UInt32}
    (h : window.length = 16) :
    (constants.foldl stepPacked ((packState s), pack (window.map UInt32.toNat))).1 =
      packState ((constants.zip (stream constants.length window)).foldl round s) := by
  induction constants generalizing s window with
  | nil => rw [List.foldl_nil, List.zip_nil_left, List.foldl_nil]
  | cons constant constants ih =>
      have hhead : wordAt (pack (window.map UInt32.toNat)) 0 = (window.headD 0).toNat := by
        rw [wordAt_packWords]
        cases window <;> rfl
      rw [List.foldl_cons, stepPacked, shiftPacked_eq h, hhead, roundPacked_eq,
        ih _ (length_shift h), List.length_cons, stream, List.zip_cons_cons, List.foldl_cons]

theorem stream_add (m n : Nat) (window : List UInt32) :
    stream (m + n) window = stream m window ++ stream n (shift^[m] window) := by
  induction m generalizing window with
  | zero => rw [Nat.zero_add]; rfl
  | succ m ih =>
      rw [Nat.succ_add, stream, stream, ih, List.cons_append, Function.iterate_succ_apply]

theorem stream_of_le {n : Nat} {window : List UInt32} (h : n ≤ window.length) :
    stream n window = window.take n := by
  induction n generalizing window with
  | zero => rfl
  | succ n ih =>
      match window, h with
      | word :: words, h =>
          have hle : n ≤ words.length := Nat.le_of_succ_le_succ h
          have hshift : shift (word :: words) = words ++ [nextWord (word :: words)] := rfl
          rw [stream, ih, hshift, List.take_append_of_le_length hle]
          · rfl
          · rw [hshift, List.length_append]
            omega

theorem reverse_extend (n : Nat) {window : List UInt32} (h : window.length = 16)
    (done : List UInt32) : (extend n (window.reverse ++ done)).reverse =
      done.reverse ++ stream n window ++ shift^[n] window := by
  induction n generalizing window done with
  | zero => simp [extend, stream]
  | succ n ih =>
      match window, h with
      | [w₀, w₁, w₂, w₃, w₄, w₅, w₆, w₇, w₈, w₉, w₁₀, w₁₁, w₁₂, w₁₃, w₁₄, w₁₅], h =>
          have hextend := ih (length_shift h) (w₀ :: done)
          rw [List.reverse_cons] at hextend
          refine Eq.trans rfl (hextend.trans ?_)
          rw [stream, Function.iterate_succ_apply, List.headD_cons]
          simp only [List.append_assoc, List.cons_append, List.nil_append]

theorem length_iterate_shift (n : Nat) {window : List UInt32} (h : window.length = 16) :
    (shift^[n] window).length = 16 := by
  induction n generalizing window with
  | zero => exact h
  | succ n ih => exact ih (length_shift h)

theorem schedule_eq {block : List UInt32} (h : block.length = 16) :
    schedule block = stream 64 block := by
  have hextend := reverse_extend 48 h []
  rw [List.append_nil, List.reverse_nil, List.nil_append] at hextend
  have hlast := length_iterate_shift 48 h
  rw [schedule, hextend, stream_add 48 16, stream_of_le hlast.ge, List.take_of_length_le hlast.le]

theorem compressPacked_eq (s : State) {block : List UInt32} (h : block.length = 16) :
    compressPacked (packState s) (pack (block.map UInt32.toNat)) = packState (compress s block) := by
  have hrounds := foldl_stepPacked roundConstants s h
  rw [show roundConstants.length = 64 from rfl, ← schedule_eq h] at hrounds
  rw [compressPacked, hrounds]
  refine congrArg pack ?_
  show [wrap (Nat.add (wordAt (packState s) 0) _), wrap (Nat.add (wordAt (packState s) 1) _),
    wrap (Nat.add (wordAt (packState s) 2) _), wrap (Nat.add (wordAt (packState s) 3) _),
    wrap (Nat.add (wordAt (packState s) 4) _), wrap (Nat.add (wordAt (packState s) 5) _),
    wrap (Nat.add (wordAt (packState s) 6) _), wrap (Nat.add (wordAt (packState s) 7) _)] = _
  simp only [wordAt_packed, compress, List.map_cons, List.map_nil, UInt32.toNat_add,
    List.getD_cons_zero, List.getD_cons_succ, wrap]
  rfl

theorem unpack_packed (s : State) : unpackState (packState s) = s := by
  simp only [unpackState, wordAt_packed]
  simp

theorem length_of_mem_blocks {words block : List UInt32} (h : block ∈ blocks words) :
    block.length = 16 := by
  obtain ⟨i, hi, rfl⟩ := List.mem_map.mp h
  have hlt := List.mem_range.mp hi
  rw [List.length_take, List.length_drop]
  omega

theorem foldl_compressPacked (chunks : List (List UInt32)) (s : State)
    (h : ∀ block ∈ chunks, block.length = 16) :
    chunks.foldl (fun s block => compressPacked s (pack (block.map UInt32.toNat))) (packState s) =
      packState (chunks.foldl compress s) := by
  induction chunks generalizing s with
  | nil => rw [List.foldl_nil, List.foldl_nil]
  | cons block chunks ih =>
      obtain ⟨hblock, h⟩ := List.forall_mem_cons.mp h
      rw [List.foldl_cons, List.foldl_cons, compressPacked_eq s hblock, ih _ h]

/-- The digest, as it is evaluated. -/
theorem sha256_eq (message : List UInt8) : sha256 message = sha256Packed message := by
  rw [sha256, sha256Packed, foldl_compressPacked _ _ fun _ => length_of_mem_blocks, unpack_packed]

example : Foundation.toHex (sha256 (Foundation.utf8 "abc")) =
    "ba7816bf8f01cfea414140de5dae2223b00361a396177a9cb410ff61f20015ad" := by
  rw [sha256_eq]
  decide +kernel

end Coivitas.Crypto.Sha256.Packed
