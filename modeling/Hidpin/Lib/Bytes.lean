import Mathlib.Algebra.Group.Nat.Defs
import Mathlib.Data.List.Basic
import Mathlib.Tactic.Common

/-! Fixed-width unsigned integers and their little-endian encoding. -/

namespace Hidpin

abbrev U8 := BitVec 8
abbrev U16 := BitVec 16
abbrev U32 := BitVec 32
abbrev U64 := BitVec 64

namespace Lib
variable {w : ℕ}

/-- The `k` lowest bytes of a word, lowest first. -/
def toBytes : ℕ → BitVec w → List U8
  | 0, _ => []
  | k + 1, v => v.setWidth 8 :: toBytes k (v >>> 8)

/-- The word whose bytes are given lowest first. -/
def ofBytes (w : ℕ) : List U8 → BitVec w
  | [] => 0#w
  | b :: bs => b.setWidth w ||| ofBytes w bs <<< 8

@[simp] theorem length_toBytes : ∀ (k : ℕ) (v : BitVec w), (toBytes k v).length = k
  | 0, _ => rfl
  | k + 1, v => by simp [toBytes, length_toBytes k (v >>> 8)]

theorem getLsbD_ofBytes_toBytes : ∀ (k : ℕ) (v : BitVec w) {i : ℕ}, i < w →
    (ofBytes w (toBytes k v)).getLsbD i = (decide (i < 8 * k) && v.getLsbD i)
  | 0, v, i, _ => by simp [toBytes, ofBytes]
  | k + 1, v, i, hi => by
    have hk : decide (i < 8 * (k + 1)) = (decide (i < 8) || decide (8 ≤ i ∧ i - 8 < 8 * k)) := by
      rw [Bool.eq_iff_iff]; simp only [decide_eq_true_eq, Bool.or_eq_true]; omega
    simp only [toBytes, ofBytes, BitVec.getLsbD_or, BitVec.getLsbD_setWidth,
      BitVec.getLsbD_shiftLeft, hi, decide_true, Bool.true_and, hk]
    by_cases h8 : i < 8
    · simp [h8, Nat.not_le.mpr h8]
    · have ih := getLsbD_ofBytes_toBytes k (v >>> 8) (i := i - 8) (by omega)
      have hadd : 8 + (i - 8) = i := by omega
      rw [BitVec.getLsbD_ushiftRight, hadd] at ih
      simp [h8, ih, Nat.le_of_not_lt h8]

/-- A word survives the trip through enough bytes. -/
theorem ofBytes_toBytes {k : ℕ} (v : BitVec w) (hk : w ≤ 8 * k) : ofBytes w (toBytes k v) = v := by
  refine BitVec.eq_of_getLsbD_eq fun i hi => ?_
  rw [getLsbD_ofBytes_toBytes k v hi, decide_eq_true (by omega), Bool.true_and]

theorem getLsbD_ofBytes_of_le :
    ∀ (bs : List U8) {i : ℕ}, 8 * bs.length ≤ i → (ofBytes w bs).getLsbD i = false
  | [], i, _ => by simp [ofBytes]
  | b :: bs, i, hi => by
    rw [List.length_cons] at hi
    have ih := getLsbD_ofBytes_of_le bs (i := i - 8) (by omega)
    simp [ofBytes, BitVec.getLsbD_setWidth, BitVec.getLsbD_of_ge b i (by omega), ih]

/-- Bytes survive the trip through a word that is wide enough. -/
theorem toBytes_ofBytes : ∀ (bs : List U8), 8 * bs.length ≤ w → toBytes bs.length (ofBytes w bs) = bs
  | [], _ => rfl
  | b :: bs, h => by
    rw [List.length_cons] at h
    have hlow : (ofBytes w (b :: bs)).setWidth 8 = b := by
      refine BitVec.eq_of_getLsbD_eq fun i hi => ?_
      simp [ofBytes, hi, show i < w by omega]
    have hhigh : ofBytes w (b :: bs) >>> 8 = ofBytes w bs := by
      refine BitVec.eq_of_getLsbD_eq fun i hi => ?_
      by_cases hw : 8 + i < w
      · simp [ofBytes, hw, show ¬ 8 + i < 8 by omega, BitVec.getLsbD_eq_getElem hi]
      · rw [BitVec.getLsbD_ushiftRight, BitVec.getLsbD_of_ge _ _ (by omega),
          getLsbD_ofBytes_of_le bs (by omega)]
    rw [List.length_cons, toBytes, hlow, hhigh, toBytes_ofBytes bs (by omega)]

/-! ### Parts of a buffer -/

/-- The `k` bytes of a buffer from a position on. -/
def slice (p : List U8) (pos k : ℕ) : List U8 := (p.drop pos).take k

theorem length_slice {p : List U8} {pos k : ℕ} (h : pos + k ≤ p.length) : (slice p pos k).length = k := by
  rw [slice, List.length_take, List.length_drop]
  omega

theorem slice_append (p : List U8) (pos k m : ℕ) :
    slice p pos k ++ slice p (pos + k) m = slice p pos (k + m) := by
  rw [slice, slice, slice, ← List.drop_drop, ← List.take_add]

theorem slice_all {p : List U8} {k : ℕ} (h : p.length ≤ k) : slice p 0 k = p := by
  rw [slice, List.drop_zero, List.take_of_length_le h]

theorem slice_one {p : List U8} {pos : ℕ} (h : pos < p.length) : slice p pos 1 = [p.getD pos 0] := by
  rw [slice, List.drop_eq_getElem_cons h, List.take_succ_cons, List.take_zero]
  simp [h]

theorem slice_eq_replicate {p : List U8} {pos k : ℕ} (h : pos + k ≤ p.length)
    (hz : ∀ i, pos ≤ i → i < pos + k → p.getD i 0 = 0) : slice p pos k = List.replicate k 0 := by
  refine List.ext_getElem (by rw [length_slice h, List.length_replicate]) fun i hi _ => ?_
  rw [length_slice h] at hi
  have hb := hz (pos + i) (by omega) (by omega)
  have hlt : pos + i < p.length := by omega
  simpa [slice, hlt] using hb

theorem getD_slice {p : List U8} {pos k i : ℕ} (hi : i < k) :
    (slice p pos k).getD i 0 = p.getD (pos + i) 0 := by
  simp [slice, List.getD_eq_getElem?_getD, hi, List.getElem?_drop]

theorem drop_slice (p : List U8) (pos k i : ℕ) : (slice p pos (i + k)).drop i = slice p (pos + i) k := by
  rw [slice, slice, List.drop_take, List.drop_drop, Nat.add_sub_cancel_left]

theorem slice_left {l r : List U8} {pos k : ℕ} (h : pos + k ≤ l.length) :
    slice (l ++ r) pos k = slice l pos k := by
  rw [slice, slice, List.drop_append_of_le_length (by omega), List.take_append_of_le_length (by simp; omega)]

theorem slice_right {l r : List U8} {pos k n : ℕ} (h : l.length = n) :
    slice (l ++ r) (n + pos) k = slice r pos k := by
  rw [slice, slice, ← h, List.drop_append, List.drop_eq_nil_of_le (by omega), List.nil_append,
    Nat.add_sub_cancel_left]

theorem length_flatMap {α : Type*} {stride : ℕ} {f : α → List U8} (hf : ∀ a, (f a).length = stride) :
    ∀ as : List α, (as.flatMap f).length = stride * as.length
  | [] => rfl
  | a :: as => by
    rw [List.flatMap_cons, List.length_append, hf, length_flatMap hf as, List.length_cons, Nat.mul_succ,
      Nat.add_comm]

/-- A part of parts of equal lengths. -/
theorem slice_flatMap {α : Type*} {stride : ℕ} {f : α → List U8} (hf : ∀ a, (f a).length = stride) :
    ∀ (as : List α) {i : ℕ} (hi : i < as.length), slice (as.flatMap f) (stride * i) stride = f (as[i])
  | a :: as, 0, _ => by
    rw [List.flatMap_cons, slice_left (by rw [hf]; omega), Nat.mul_zero, slice_all (Nat.le_of_eq (hf a))]
    rfl
  | a :: as, i + 1, hi => by
    rw [List.flatMap_cons, Nat.mul_succ, Nat.add_comm, slice_right (hf a),
      slice_flatMap hf as (Nat.lt_of_succ_lt_succ hi)]
    rfl

/-- Equal parts, one after the other. -/
theorem flatMap_slice (p : List U8) (start stride : ℕ) : ∀ n,
    (List.range n).flatMap (fun i => slice p (start + stride * i) stride) = slice p start (stride * n)
  | 0 => by simp [slice]
  | n + 1 => by
    rw [List.range_succ, List.flatMap_append, flatMap_slice p start stride n, List.flatMap_singleton,
      slice_append, Nat.mul_succ]

/-- A buffer with the bytes from a position on overwritten. -/
def put (p : List U8) (pos : ℕ) (bytes : List U8) : List U8 :=
  p.take pos ++ bytes ++ p.drop (pos + bytes.length)

/-- Writing behind the used part of a buffer of zeros. -/
theorem put_append {l bytes : List U8} {n pos : ℕ} (hpos : l.length = pos) :
    put (l ++ List.replicate n 0) pos bytes = l ++ bytes ++ List.replicate (n - bytes.length) 0 := by
  subst hpos
  simp [put, List.drop_append, List.drop_eq_nil_of_le]

/-- Writes one element after the other, `stride` bytes each. -/
def putEach {α : Type*} (start stride : ℕ) (f : α → List U8) : ℕ → List α → List U8 → List U8
  | _, [], p => p
  | i, a :: as, p => putEach start stride f (i + 1) as (put p (start + stride * i) (f a))

theorem putEach_append {α : Type*} {start stride : ℕ} {f : α → List U8} (hf : ∀ a, (f a).length = stride) :
    ∀ (as : List α) {i n : ℕ} {l : List U8}, l.length = start + stride * i → stride * as.length ≤ n →
      putEach start stride f i as (l ++ List.replicate n 0) =
        l ++ as.flatMap f ++ List.replicate (n - stride * as.length) 0
  | [], _, _, _, _, _ => by simp [putEach]
  | a :: as, i, n, l, hl, hn => by
    rw [List.length_cons, Nat.mul_add, Nat.mul_one] at hn
    have hlen : (l ++ f a).length = start + stride * (i + 1) := by
      rw [List.length_append, hl, hf, Nat.mul_add, Nat.mul_one, Nat.add_assoc]
    rw [putEach, put_append hl, putEach_append hf as hlen (by rw [hf]; omega)]
    simp only [List.flatMap_cons, List.append_assoc, List.length_cons, hf]
    congr 4
    rw [Nat.mul_add, Nat.mul_one]
    omega

end Lib

end Hidpin
