import Hidpin.Lib.Bytes
import Mathlib.Data.List.DropRight

/-! HID report descriptors: a sequence of items, and the usage that is in force at a collection. -/

namespace Hidpin.Lib

/-- The last of several writes wins. -/
theorem foldl_ite {α σ : Type*} (p : α → Bool) (v : α → σ) : ∀ (l : List α) (s : σ),
    l.foldl (fun s a => if p a then v a else s) s = ((l.filter p).getLast?.map v).getD s
  | [], _ => rfl
  | a :: l, s => by
    rw [List.foldl_cons, foldl_ite p v l]
    rcases Bool.eq_false_or_eq_true (p a) with h | h
    · rw [List.filter_cons_of_pos h, List.getLast?_cons, if_pos h]
      cases (l.filter p).getLast? <;> rfl
    · rw [List.filter_cons_of_neg (by simp [h]), if_neg (by simp [h])]

theorem foldl_prod {α σ τ : Type*} (f : σ → α → σ) (g : τ → α → τ) : ∀ (l : List α) (s : σ × τ),
    l.foldl (fun s a => (f s.1 a, g s.2 a)) s = (l.foldl f s.1, l.foldl g s.2)
  | [], _ => rfl
  | a :: l, s => foldl_prod f g l (f s.1 a, g s.2 a)

theorem getLast?_filter {α : Type*} {p : α → Bool} {l : List α} {a : α} (h : l.getLast? = some a)
    (ha : p a) : (l.filter p).getLast? = some a := by
  obtain ⟨l, rfl⟩ := List.getLast?_eq_some_iff.mp h
  rw [List.filter_append, List.filter_singleton, ha]
  exact List.getLast?_concat

theorem ofBytes_concat {w : ℕ} (b : U8) : ∀ bs : List U8,
    ofBytes w (bs ++ [b]) = ofBytes w bs ||| b.setWidth w <<< (8 * bs.length)
  | [] => by simp [ofBytes]
  | c :: bs => by
    rw [List.cons_append, ofBytes, ofBytes_concat b bs, ofBytes, BitVec.shiftLeft_or_distrib,
      ← BitVec.shiftLeft_add, BitVec.or_assoc, List.length_cons, Nat.mul_succ]

theorem toNat_ofBytes_lt {w : ℕ} (bs : List U8) : (ofBytes w bs).toNat < 2 ^ (8 * bs.length) := by
  refine Nat.lt_pow_two_of_testBit _ fun i hi => ?_
  rw [BitVec.testBit_toNat]
  exact getLsbD_ofBytes_of_le bs hi

/-- A short item: its type and tag, the upper six bits of the prefix, and its data, 0 where it is cut
    short. -/
structure Item where
  tag : U8
  size : ℕ
  data : U32
  sizes : size ≤ 2 ∨ size = 4
  fits : data.toNat < 2 ^ (8 * size)
  deriving DecidableEq

namespace Item

/-- The data size of the lower two bits of a prefix. -/
def sizeOf (head : U8) : ℕ := match (head &&& 0x03).toNat with
  | 0 => 0
  | 1 => 1
  | 2 => 2
  | _ => 4

theorem sizeOf_cases (head : U8) : sizeOf head ≤ 2 ∨ sizeOf head = 4 := by
  rw [sizeOf]
  split <;> simp

/-- The item a prefix starts, its data taken from the bytes behind. -/
def ofHead (head : U8) (rest : List U8) : Item where
  tag := head &&& 0xFC
  size := sizeOf head
  data := ofBytes 32 (rest.take (sizeOf head))
  sizes := sizeOf_cases head
  fits := lt_of_lt_of_le (toNat_ofBytes_lt _)
    (Nat.pow_le_pow_right (by decide) (Nat.mul_le_mul_left 8 (List.length_take_le _ _)))

/-- The short items of a descriptor. A long item, of the prefix 0xFE, has its data size in the byte behind,
    and a tag. -/
def parse : List U8 → List Item
  | [] => []
  | head :: rest =>
    if head = 0xFE then
      match rest with
      | [] => []
      | size :: rest => parse (rest.drop (1 + size.toNat))
    else ofHead head rest :: parse (rest.drop (sizeOf head))
  termination_by d => d.length
  decreasing_by all_goals (simp only [List.length_cons, List.length_drop]; omega)

theorem parse_long (size : U8) (rest : List U8) :
    parse (0xFE :: size :: rest) = parse (rest.drop (1 + size.toNat)) := by
  rw [parse.eq_def]
  rfl

theorem parse_short {head : U8} (h : head ≠ 0xFE) (rest : List U8) :
    parse (head :: rest) = ofHead head rest :: parse (rest.drop (sizeOf head)) := by
  rw [parse.eq_def]
  exact if_neg h

/-- Input, Output, Feature and the collections: the local items in front are theirs. -/
def isMain (it : Item) : Bool := it.tag &&& 0x0C = 0
/-- A Usage Page item. -/
def isUsagePage (it : Item) : Bool := it.tag = 0x04
/-- A Usage item. -/
def isUsage (it : Item) : Bool := it.tag = 0x08
/-- The Collection item of an application. -/
def isApplication (it : Item) : Bool := it.tag = 0xA0 && it.data = 0x01

/-- A usage that carries its page. -/
def isWide (it : Item) : Bool := it.isUsage && it.size = 4

/-- The usage in the data of an item. -/
def low (it : Item) : U16 := it.data.setWidth 16
/-- The usage page in four bytes of data. -/
def high (it : Item) : U16 := (it.data >>> 16).setWidth 16

theorem toNat_low {it : Item} (h : it.size ≠ 4) : it.low.toNat = it.data.toNat := by
  have hsize := it.sizes.resolve_right h
  have hfits : it.data.toNat < 2 ^ 16 :=
    lt_of_lt_of_le it.fits (Nat.pow_le_pow_right (by decide) (Nat.mul_le_mul_left 8 hsize))
  rw [low, BitVec.toNat_setWidth, Nat.mod_eq_of_lt hfits]

theorem toNat_high (it : Item) : it.high.toNat = it.data.toNat >>> 16 := by
  have hfits : it.data.toNat >>> 16 < 2 ^ 16 := by
    rw [Nat.shiftRight_eq_div_pow]
    exact Nat.div_lt_of_lt_mul it.data.isLt
  rw [high, BitVec.toNat_setWidth, BitVec.toNat_ushiftRight, Nat.mod_eq_of_lt hfits]

end Item

/-! ### Reading a descriptor up to its first application collection -/

section Scan
variable {σ ρ : Type*} (next : σ → Item → σ) (result : σ → ρ) (nothing : ρ)

/-- The result of the items in front of the first application collection, or `nothing` when there is none. -/
def scan : List Item → σ → ρ
  | [], _ => nothing
  | it :: items, s => if it.isApplication then result s else scan items (next s it)

/-- The items in front of the first application collection. -/
def before (items : List Item) : List Item := items.takeWhile (!·.isApplication)

theorem scan_eq : ∀ (items : List Item) (s : σ), scan next result nothing items s =
    if items.any Item.isApplication then result ((before items).foldl next s) else nothing
  | [], _ => rfl
  | it :: items, s => by
    rw [scan, List.any_cons, before]
    rcases Bool.eq_false_or_eq_true it.isApplication with h | h
    · rw [List.takeWhile_cons_of_neg (by simp [h]), if_pos h, h, Bool.true_or, if_pos rfl, List.foldl_nil]
    · rw [List.takeWhile_cons_of_pos (by simp [h]), if_neg (by simp [h]), h, Bool.false_or, List.foldl_cons,
        scan_eq items]
      rfl

/-- A loop that reads one item after the other, by its position in the descriptor. -/
theorem loop_eq_scan {d : List U8} {f : ℕ → σ → Option ρ}
    (hend : ∀ i s, d.length ≤ i → f i s = some nothing)
    (hcut : ∀ i s, d[i]? = some 0xFE → d[i + 1]? = none → f i s = some nothing)
    (hlong : ∀ i s size, d[i]? = some 0xFE → d[i + 1]? = some size → f i s = f (i + (3 + size.toNat)) s)
    (hshort : ∀ i s head, d[i]? = some head → head ≠ 0xFE → let it := Item.ofHead head (d.drop (i + 1))
      f i s = if it.isApplication then some (result s) else f (i + (1 + it.size)) (next s it))
        (i : ℕ) (s : σ) :
    f i s = some (scan next result nothing (Item.parse (d.drop i)) s) := by
  induction hn : d.length - i using Nat.strong_induction_on generalizing i s with
  | _ n ih =>
    subst hn
    rcases Nat.lt_or_ge i d.length with hi | hi
    · have hget : d[i]? = some d[i] := List.getElem?_eq_getElem hi
      rw [List.drop_eq_getElem_cons hi]
      by_cases hhead : d[i] = 0xFE
      · rw [hhead] at hget ⊢
        rcases Nat.lt_or_ge (i + 1) d.length with hi1 | hi1
        · rw [List.drop_eq_getElem_cons hi1, Item.parse_long, List.drop_drop,
            hlong i s d[i + 1] hget (List.getElem?_eq_getElem hi1), ih _ (by omega) _ _ rfl,
            show i + 1 + 1 + (1 + d[i + 1].toNat) = i + (3 + d[i + 1].toNat) by omega]
        · rw [List.drop_eq_nil_of_le hi1, hcut i s hget (List.getElem?_eq_none hi1)]
          simp [Item.parse, scan]
      · rw [Item.parse_short hhead, scan, hshort i s _ hget hhead, List.drop_drop, ih _ (by omega) _ _ rfl,
          show i + 1 + Item.sizeOf d[i] = i + (1 + Item.sizeOf d[i]) by omega, apply_ite some]
        rfl
    · rw [List.drop_eq_nil_of_le hi, hend i s hi, Item.parse, scan]

end Scan

/-! ### The usage in force -/

section Usage
variable (items : List Item)

/-- The value of the last Usage Page item, 0 when there is none. -/
def lastPage : U16 := ((items.filter Item.isUsagePage).getLast?.map Item.low).getD 0

/-- The last Usage item since the last Main item. -/
def localUsage : Option Item := ((items.rtakeWhile (!·.isMain)).filter Item.isUsage).getLast?

/-- The Usage Page and Usage in force behind the items: a usage of 4 bytes has a page of its own. -/
def usageInForce : U16 × U16 := match localUsage items with
  | none => (lastPage items, 0)
  | some usage => (if usage.isWide then usage.high else lastPage items, usage.low)

/-- The Usage Page and Usage of the first application collection, 0 and 0 when there is none. -/
def topLevelUsage : U16 × U16 := if items.any Item.isApplication then usageInForce (before items) else (0, 0)

end Usage

end Hidpin.Lib
