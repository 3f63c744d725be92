import Hidpin.Lib.Descriptor

/-! The usage of a hidraw node (`rust/src/hidraw.rs`, `hidpin/internal/hidraw/hidraw.go`,
    `python/src/hidpin/_hidraw.py`): what the three parsers find in a report descriptor is the usage in force
    at its first application collection when the usages in front are the collection's own. No result is an
    index out of range. -/

namespace Hidpin

namespace Host

/-- The data of `top_level_usage`, after `size` rounds of its loop. -/
def itemData (descriptor : List U8) (i : ℕ) : ℕ → U32
  | 0 => 0
  | k + 1 =>
    let data := itemData descriptor i k
    match descriptor[i + 1 + k]? with
    | some byte => data ||| byte.setWidth 32 <<< (8 * k)
    | none => data

/-- The loop of `top_level_usage`. -/
def usageLoop (descriptor : List U8) (i : ℕ) (usagePage usage : U16) : Option (U16 × U16) :=
  if i < descriptor.length then do
    let head ← descriptor[i]?
    if head = 0xFE then
      match descriptor[i + 1]? with
      | some size => usageLoop descriptor (i + (3 + size.toNat)) usagePage usage
      | none => some (0, 0)
    else
      let size ← ([0, 1, 2, 4] : List ℕ)[(head &&& 0x03).toNat]?
      let data := itemData descriptor i size
      let i := i + (1 + size)
      let tag := head &&& 0xFC
      if tag = 0x04 then usageLoop descriptor i (data.setWidth 16) usage
      else if tag = 0x08 then
        let usagePage := if size = 4 then (data >>> 16).setWidth 16 else usagePage
        usageLoop descriptor i usagePage (data.setWidth 16)
      else if tag = 0xA0 ∧ data = 0x01 then some (usagePage, usage)
      else usageLoop descriptor i usagePage usage
  else some (0, 0)
  termination_by descriptor.length - i

/-- `top_level_usage`. -/
def topLevelUsage (descriptor : List U8) : Option (U16 × U16) := usageLoop descriptor 0 0 0

end Host

namespace Go

/-- The inner loop of `TopLevelUsage`, from round `k` on. -/
def itemData (descriptor : List U8) (i size k : ℕ) (data : U32) : Option U32 :=
  if k < size ∧ i + 1 + k < descriptor.length then do
    let byte ← descriptor[i + 1 + k]?
    itemData descriptor i size (k + 1) (data ||| byte.setWidth 32 <<< (8 * k))
  else some data
  termination_by size - k

/-- The loop of `TopLevelUsage`. -/
def usageLoop (descriptor : List U8) (i : ℕ) (usagePage usage : U16) : Option (U16 × U16) :=
  if i < descriptor.length then do
    let head ← descriptor[i]?
    if head = 0xFE then
      if i + 1 ≥ descriptor.length then some (0, 0)
      else do
        let size ← descriptor[i + 1]?
        usageLoop descriptor (i + (3 + size.toNat)) usagePage usage
    else
      let size ← ([0, 1, 2, 4] : List ℕ)[(head &&& 0x03).toNat]?
      let data ← itemData descriptor i size 0 0
      let i := i + (1 + size)
      let tag := head &&& 0xFC
      if tag = 0x04 then usageLoop descriptor i (data.setWidth 16) usage
      else if tag = 0x08 then
        if size = 4 then usageLoop descriptor i ((data >>> 16).setWidth 16) (data.setWidth 16)
        else usageLoop descriptor i usagePage (data.setWidth 16)
      else if tag = 0xA0 then
        if data = 0x01 then some (usagePage, usage) else usageLoop descriptor i usagePage usage
      else usageLoop descriptor i usagePage usage
  else some (0, 0)
  termination_by descriptor.length - i

/-- `TopLevelUsage`. -/
def topLevelUsage (descriptor : List U8) : Option (U16 × U16) := usageLoop descriptor 0 0 0

end Go

namespace Python

/-- `int.from_bytes(bytes, "little")`. -/
def fromBytes : List U8 → ℕ
  | [] => 0
  | b :: bytes => b.toNat + 256 * fromBytes bytes

/-- The loop of `top_level_usage`. -/
def usageLoop (descriptor : List U8) (i usagePage usage : ℕ) : Option (ℕ × ℕ) :=
  if i < descriptor.length then do
    let head ← descriptor[i]?
    if head = 0xFE then
      if i + 1 ≥ descriptor.length then some (0, 0)
      else do
        let size ← descriptor[i + 1]?
        usageLoop descriptor (i + (3 + size.toNat)) usagePage usage
    else
      let size ← ([0, 1, 2, 4] : List ℕ)[(head &&& 0x03).toNat]?
      let data := fromBytes (Lib.slice descriptor (i + 1) size)
      let i := i + (1 + size)
      let item := head &&& 0xFC
      if item = 0x04 then usageLoop descriptor i data usage
      else if item = 0x08 then
        if size = 4 then usageLoop descriptor i (data >>> 16) (data &&& 0xFFFF)
        else usageLoop descriptor i usagePage data
      else if item = 0xA0 ∧ data = 0x01 then some (usagePage, usage)
      else usageLoop descriptor i usagePage usage
  else some (0, 0)
  termination_by descriptor.length - i

/-- `top_level_usage`. -/
def topLevelUsage (descriptor : List U8) : Option (ℕ × ℕ) := usageLoop descriptor 0 0 0

end Python

namespace Codec
open Lib (Item)

/-! ### The data of an item -/

theorem rust_itemData (d : List U8) (i : ℕ) :
    ∀ size, Host.itemData d i size = Lib.ofBytes 32 ((d.drop (i + 1)).take size)
  | 0 => rfl
  | k + 1 => by
    rw [Host.itemData, rust_itemData d i k, List.take_add_one, List.getElem?_drop]
    cases h : d[i + 1 + k]? with
    | none => rw [Option.toList_none, List.append_nil]
    | some byte =>
      have hlt := (List.getElem?_eq_some_iff.mp h).1
      rw [Option.toList_some, Lib.ofBytes_concat, List.length_take_of_le (by rw [List.length_drop]; omega)]

theorem go_itemData (d : List U8) (i size k : ℕ) :
    Go.itemData d i size k (Host.itemData d i k) = some (Host.itemData d i (max k size)) := by
  induction hn : size - k generalizing k with
  | zero => 
    rw [Go.itemData, if_neg (by omega), max_eq_left (by omega)]
  | succ n ih =>
    by_cases hlt : i + 1 + k < d.length
    · have hget : d[i + 1 + k]? = some d[i + 1 + k] := List.getElem?_eq_getElem hlt
      have hnext : Host.itemData d i (k + 1) =
          Host.itemData d i k ||| d[i + 1 + k].setWidth 32 <<< (8 * k) := by
        rw [Host.itemData, hget]
      rw [Go.itemData, if_pos ⟨by omega, hlt⟩, hget, Option.bind_eq_bind, Option.bind_some, ← hnext,
        ih (k + 1) (by omega), max_eq_right (by omega), max_eq_right (by omega)]
    · rw [Go.itemData, if_neg (fun h => hlt h.2), rust_itemData, rust_itemData, List.take_of_length_le,
        List.take_of_length_le]
      all_goals rw [List.length_drop]; omega

theorem python_fromBytes {w : ℕ} : ∀ bytes : List U8, 8 * bytes.length ≤ w →
    Python.fromBytes bytes = (Lib.ofBytes w bytes).toNat
  | [], _ => rfl
  | b :: bytes, h => by
    rw [List.length_cons] at h
    have hbyte : b.toNat < 2 ^ w := lt_of_lt_of_le b.isLt (Nat.pow_le_pow_right (by decide) (by omega))
    have hrest : (Lib.ofBytes w bytes).toNat <<< 8 < 2 ^ w := by
      rw [Nat.shiftLeft_eq]
      calc (Lib.ofBytes w bytes).toNat * 2 ^ 8 < 2 ^ (8 * bytes.length) * 2 ^ 8 :=
            Nat.mul_lt_mul_of_pos_right (Lib.toNat_ofBytes_lt bytes) (by decide)
        _ = 2 ^ (8 * bytes.length + 8) := (Nat.pow_add _ _ _).symm
        _ ≤ 2 ^ w := Nat.pow_le_pow_right (by decide) (by omega)
    rw [Python.fromBytes, python_fromBytes bytes (w := w) (by omega), Lib.ofBytes, BitVec.toNat_or,
      BitVec.toNat_setWidth,
      BitVec.toNat_shiftLeft, Nat.mod_eq_of_lt hbyte, Nat.mod_eq_of_lt hrest, Nat.or_comm,
      ← Nat.shiftLeft_add_eq_or_of_lt b.isLt, Nat.shiftLeft_eq]
    omega

theorem item_size : ∀ head : U8, ([0, 1, 2, 4] : List ℕ)[(head &&& 0x03).toNat]? =
    some (Item.sizeOf head) := by
  decide +kernel

/-! ### The parsers as scans of the items -/

/-- An item that sets the page: a usage of 4 bytes does it like a Usage Page item. -/
def setsPage (it : Item) : Bool := it.isUsagePage || it.isWide

section Write
variable {σ : Type} (page usage : Item → σ)

/-- What an item does to the Usage Page and Usage of a parser. -/
def write (s : σ × σ) (it : Item) : σ × σ :=
  (if setsPage it then page it else s.1, if it.isUsage then usage it else s.2)

/-- The cases in which the parsers tell the items apart. -/
theorem dispatch {ρ : Type} (loop : σ × σ → Option ρ) (result : Option ρ) (s : σ × σ) (it : Item) :
    (if it.isApplication then result else loop (write page usage s it)) =
      if it.tag = 0x04#8 then loop (page it, s.2)
      else if it.tag = 0x08#8 then if it.size = 4 then loop (page it, usage it) else loop (s.1, usage it)
      else if it.tag = 0xA0#8 then if it.data = 0x01#32 then result else loop s
      else loop s := by
  by_cases hpage : it.tag = 0x04#8
  · simp [hpage, write, setsPage, Item.isApplication, Item.isUsagePage, Item.isUsage]
  by_cases husage : it.tag = 0x08#8
  · by_cases hsize : it.size = 4 <;>
      simp [husage, hsize, write, setsPage, Item.isApplication, Item.isUsagePage, Item.isUsage, Item.isWide]
  have hwrite : write page usage s it = s := by
    simp [write, setsPage, Item.isUsagePage, Item.isUsage, Item.isWide, hpage, husage]
  rw [hwrite, if_neg hpage, if_neg husage]
  by_cases happlication : it.tag = 0xA0#8
  · simp [happlication, Item.isApplication]
  · simp [happlication, Item.isApplication]

end Write

/-- The page an item sets in the Rust and the Go parser. -/
def pageSet (it : Item) : U16 := if it.isWide then it.high else it.low

/-- The one it sets in the Python parser, which does not cut it to 16 bits. -/
def pythonPageSet (it : Item) : ℕ := if it.isWide then it.high.toNat else it.data.toNat

theorem isWide_usagePage {it : Item} (h : it.tag = 0x04#8) : it.isWide = false := by
  simp [Item.isWide, Item.isUsage, h]

theorem not_isWide {it : Item} (h : it.isUsagePage) : it.isWide = false :=
  isWide_usagePage (of_decide_eq_true h)

theorem isWide_usage {it : Item} (h : it.tag = 0x08#8) : it.isWide = decide (it.size = 4) := by
  simp [Item.isWide, Item.isUsage, h]

theorem rust_scan (d : List U8) :
    Host.topLevelUsage d = some (Lib.scan (write pageSet Item.low) id (0, 0) (Item.parse d) (0, 0)) := by
  refine Lib.loop_eq_scan (d := d) (f := fun i s => Host.usageLoop d i s.1 s.2) _ id (0, 0) ?_ ?_
    ?_ ?_ 0 (0, 0)
  · intro i s hi
    rw [Host.usageLoop, if_neg (by omega)]
  · intro i s hhead hsize
    have hi := (List.getElem?_eq_some_iff.mp hhead).1
    rw [Host.usageLoop, if_pos hi, hhead, hsize]
    rfl
  · intro i s size hhead hsize
    have hi := (List.getElem?_eq_some_iff.mp hhead).1
    rw [Host.usageLoop, if_pos hi, hhead, hsize]
    rfl
  · intro i s head hhead hne it
    have hi := (List.getElem?_eq_some_iff.mp hhead).1
    have hdata : Host.itemData d i (Item.sizeOf head) = it.data := rust_itemData d i _
    rw [Host.usageLoop, if_pos hi, hhead, Option.bind_eq_bind, Option.bind_some, if_neg hne, item_size,
      Option.bind_eq_bind, Option.bind_some, hdata, dispatch _ _ (fun s => Host.usageLoop d _ s.1 s.2)]
    change (if it.tag = 0x04#8 then _ else if it.tag = 0x08#8 then _
      else if it.tag = 0xA0#8 ∧ it.data = 0x01#32 then _ else _) = _
    by_cases hpage : it.tag = 0x04#8
    · rw [if_pos hpage, if_pos hpage, pageSet, isWide_usagePage hpage]
      rfl
    rw [if_neg hpage, if_neg hpage]
    by_cases husage : it.tag = 0x08#8
    · rw [if_pos husage, if_pos husage, pageSet, isWide_usage husage]
      by_cases hsize : it.size = 4
      · rw [if_pos hsize, decide_eq_true hsize]
        exact congrArg (fun page => Host.usageLoop d _ page _) (if_pos hsize)
      · rw [if_neg hsize]
        exact congrArg (fun page => Host.usageLoop d _ page _) (if_neg hsize)
    rw [if_neg husage, if_neg husage, ite_and]
    rfl

theorem go_scan (d : List U8) :
    Go.topLevelUsage d = some (Lib.scan (write pageSet Item.low) id (0, 0) (Item.parse d) (0, 0)) := by
  refine Lib.loop_eq_scan (d := d) (f := fun i s => Go.usageLoop d i s.1 s.2) _ id (0, 0) ?_ ?_
    ?_ ?_ 0 (0, 0)
  · intro i s hi
    rw [Go.usageLoop, if_neg (by omega)]
  · intro i s hhead hsize
    have hi := (List.getElem?_eq_some_iff.mp hhead).1
    have hcut := List.getElem?_eq_none_iff.mp hsize
    rw [Go.usageLoop, if_pos hi, hhead, Option.bind_eq_bind, Option.bind_some, if_pos rfl, if_pos hcut]
  · intro i s size hhead hsize
    have hi := (List.getElem?_eq_some_iff.mp hhead).1
    have hnext := (List.getElem?_eq_some_iff.mp hsize).1
    rw [Go.usageLoop, if_pos hi, hhead, Option.bind_eq_bind, Option.bind_some, if_pos rfl,
      if_neg (by omega), hsize]
    rfl
  · intro i s head hhead hne it
    have hi := (List.getElem?_eq_some_iff.mp hhead).1
    have hdata : Go.itemData d i (Item.sizeOf head) 0 0 = some it.data := by
      rw [show (0 : U32) = Host.itemData d i 0 from rfl, go_itemData, Nat.zero_max, rust_itemData]
      rfl
    rw [Go.usageLoop, if_pos hi, hhead, Option.bind_eq_bind, Option.bind_some, if_neg hne, item_size,
      Option.bind_eq_bind, Option.bind_some, hdata, Option.bind_eq_bind, Option.bind_some,
      dispatch _ _ (fun s => Go.usageLoop d _ s.1 s.2)]
    change (if it.tag = 0x04#8 then _ else if it.tag = 0x08#8 then if it.size = 4 then _ else _ else
      if it.tag = 0xA0#8 then _ else _) = _
    by_cases hpage : it.tag = 0x04#8
    · rw [if_pos hpage, if_pos hpage, pageSet, isWide_usagePage hpage]
      rfl
    rw [if_neg hpage, if_neg hpage]
    by_cases husage : it.tag = 0x08#8
    · rw [if_pos husage, if_pos husage, pageSet, isWide_usage husage]
      by_cases hsize : it.size = 4
      · rw [if_pos hsize, if_pos hsize, decide_eq_true hsize]
        rfl
      · rw [if_neg hsize, if_neg hsize]
        rfl
    rw [if_neg husage, if_neg husage]
    rfl

theorem python_scan (d : List U8) : Python.topLevelUsage d =
    some (Lib.scan (write pythonPageSet fun it => it.low.toNat) id (0, 0) (Item.parse d) (0, 0)) := by
  refine Lib.loop_eq_scan (d := d) (f := fun i s => Python.usageLoop d i s.1 s.2) _ id (0, 0) ?_ ?_
    ?_ ?_ 0 (0, 0)
  · intro i s hi
    rw [Python.usageLoop, if_neg (by omega)]
  · intro i s hhead hsize
    have hi := (List.getElem?_eq_some_iff.mp hhead).1
    have hcut := List.getElem?_eq_none_iff.mp hsize
    rw [Python.usageLoop, if_pos hi, hhead, Option.bind_eq_bind, Option.bind_some, if_pos rfl, if_pos hcut]
  · intro i s size hhead hsize
    have hi := (List.getElem?_eq_some_iff.mp hhead).1
    have hnext := (List.getElem?_eq_some_iff.mp hsize).1
    rw [Python.usageLoop, if_pos hi, hhead, Option.bind_eq_bind, Option.bind_some, if_pos rfl,
      if_neg (by omega), hsize]
    rfl
  · intro i s head hhead hne it
    have hi := (List.getElem?_eq_some_iff.mp hhead).1
    have hlen : 8 * (Lib.slice d (i + 1) (Item.sizeOf head)).length ≤ 32 := by
      have := List.length_take_le (Item.sizeOf head) (d.drop (i + 1))
      have := Item.sizeOf_cases head
      rw [Lib.slice]
      omega
    have hdata : Python.fromBytes (Lib.slice d (i + 1) (Item.sizeOf head)) = it.data.toNat :=
      python_fromBytes _ hlen
    have happlication : it.data.toNat = 0x01 ↔ it.data = 0x01#32 := (BitVec.toNat_eq (y := 0x01#32)).symm
    rw [Python.usageLoop, if_pos hi, hhead, Option.bind_eq_bind, Option.bind_some, if_neg hne, item_size,
      Option.bind_eq_bind, Option.bind_some, hdata, dispatch _ _ (fun s => Python.usageLoop d _ s.1 s.2)]
    change (if it.tag = 0x04#8 then _ else if it.tag = 0x08#8 then if it.size = 4 then _ else _ else
      if it.tag = 0xA0#8 ∧ it.data.toNat = 0x01 then _ else _) = _
    by_cases hpage : it.tag = 0x04#8
    · rw [if_pos hpage, if_pos hpage, pythonPageSet, isWide_usagePage hpage]
      rfl
    rw [if_neg hpage, if_neg hpage]
    by_cases husage : it.tag = 0x08#8
    · rw [if_pos husage, if_pos husage, pythonPageSet, isWide_usage husage]
      by_cases hsize : it.size = 4
      · rw [if_pos hsize, if_pos hsize, decide_eq_true hsize, if_pos rfl, Item.toNat_high, Item.low,
          BitVec.toNat_setWidth, ← Nat.and_two_pow_sub_one_eq_mod]
        rfl
      · rw [if_neg hsize, if_neg hsize, Item.toNat_low hsize]
        rfl
    rw [if_neg husage, if_neg husage, ite_and]
    simp only [happlication]
    rfl

/-! ### The usage in force -/

section Last
variable (items : List Item)

/-- The last item that sets the page. -/
def lastSetter : Option Item := (items.filter setsPage).getLast?

/-- The last usage, whether or not a Main item follows it. -/
def lastUsage : Option Item := (items.filter Item.isUsage).getLast?

/-- The parsers keep the last of each. -/
theorem foldl_write {σ : Type} (page usage : Item → σ) (s : σ × σ) : items.foldl (write page usage) s =
    (((lastSetter items).map page).getD s.1, ((lastUsage items).map usage).getD s.2) := by
  rw [lastSetter, lastUsage, ← Lib.foldl_ite, ← Lib.foldl_ite]
  exact Lib.foldl_prod (fun s it => if setsPage it then page it else s)
    (fun s it => if it.isUsage then usage it else s) _ s

variable {items}

theorem lastUsage_of_local {usage : Item} (h : Lib.localUsage items = some usage) :
    lastUsage items = some usage := by
  obtain ⟨l, hl⟩ := List.rtakeWhile_suffix (fun it : Item => !it.isMain) items
  rw [Lib.localUsage] at h
  rw [lastUsage, ← hl, List.filter_append, List.getLast?_append, h, Option.some_or]

theorem setsPage_of_lastSetter {s : Item} (h : lastSetter items = some s) : s.isUsagePage ∨ s.isWide := by
  have hmem := List.mem_of_getLast? h
  exact (Bool.or_eq_true _ _).mp (List.mem_filter.mp hmem).2

/-- The last of all items that set the page is the last of its kind. -/
theorem last_of_lastSetter {s : Item} {p : Item → Bool} (h : lastSetter items = some s) (hs : p s)
    (hp : ∀ it, p it → setsPage it) : (items.filter p).getLast? = some s := by
  have hfilter : (items.filter setsPage).filter p = items.filter p := by
    rw [List.filter_filter]
    refine List.filter_congr fun it _ => ?_
    rcases Bool.eq_false_or_eq_true (p it) with hit | hit
    · rw [hit, hp it hit, Bool.and_self]
    · rw [hit, Bool.false_and]
  rw [← hfilter]
  exact Lib.getLast?_filter h hs

theorem lastPage_of_lastSetter {s : Item} (h : lastSetter items = some s) (hs : s.isUsagePage) :
    Lib.lastPage items = s.low := by
  rw [Lib.lastPage, last_of_lastSetter h hs fun it hit => by rw [setsPage, hit, Bool.true_or]]
  rfl

/-- A usage of 4 bytes that set the page last is the one in force, when that has 4 bytes. -/
theorem local_of_lastSetter {s u : Item} (h : lastSetter items = some s) (hs : s.isWide)
    (hlocal : Lib.localUsage items = some u) (hu : u.isWide) : s = u := by
  have hwide := last_of_lastSetter h hs fun it hit => by rw [setsPage, hit, Bool.or_true]
  have husage : (items.filter Item.isUsage).filter Item.isWide = items.filter Item.isWide := by
    rw [List.filter_filter]
    refine List.filter_congr fun it _ => ?_
    rw [Item.isWide, Bool.and_right_comm, Bool.and_self]
  have hlast := Lib.getLast?_filter (lastUsage_of_local hlocal) hu
  rw [husage, hwide] at hlast
  exact Option.some.inj hlast

theorem lastPage_of_none (h : lastSetter items = none) : Lib.lastPage items = 0 := by
  have hnil : items.filter Item.isUsagePage = [] := by
    rw [List.filter_eq_nil_iff]
    intro it hit hpage
    refine List.filter_eq_nil_iff.mp (List.getLast?_eq_none_iff.mp h) it hit ?_
    rw [setsPage, hpage, Bool.true_or]
  rw [Lib.lastPage, hnil]
  rfl

theorem lastSetter_ne_none {u : Item} (hlocal : Lib.localUsage items = some u) (hu : u.isWide) :
    lastSetter items ≠ none := by
  have hmem : u ∈ items.filter setsPage := List.mem_filter.mpr
    ⟨(List.mem_filter.mp (List.mem_of_getLast? (lastUsage_of_local hlocal))).1,
      by rw [setsPage, hu, Bool.or_true]⟩
  rw [lastSetter, Ne, List.getLast?_eq_none_iff]
  exact List.ne_nil_of_mem hmem

end Last

/-- The Usage Page and Usage at the end of the items are the collection's own. -/
structure OwnUsage (items : List Item) : Prop where
  /-- No usage other than 0 is left from in front of the last Main item. -/
  usage : Lib.localUsage items = none → ∀ u ∈ lastUsage items, u.low = 0
  /-- A Usage Page item behind a usage in force of 4 bytes repeats its page. -/
  page : ∀ s ∈ lastSetter items, s.isUsagePage → ∀ u ∈ Lib.localUsage items, u.isWide → s.low = u.high
  /-- A page that a usage of 4 bytes left is the one of the last Usage Page item. -/
  wide : ∀ s ∈ lastSetter items, s.isWide → (∀ u ∈ Lib.localUsage items, ¬ u.isWide) →
    s.high = Lib.lastPage items
  /-- The last page fits in 16 bits. -/
  short : ∀ s ∈ lastSetter items, s.isUsagePage → s.data.toNat < 2 ^ 16

section Force
variable (items : List Item)

theorem usage_iff : ((lastUsage items).map Item.low).getD 0 = (Lib.usageInForce items).2 ↔
    (Lib.localUsage items = none → ∀ u ∈ lastUsage items, u.low = 0) := by
  rw [Lib.usageInForce]
  cases hlocal : Lib.localUsage items with
  | some u =>
    rw [lastUsage_of_local hlocal]
    simp
  | none => cases lastUsage items <;> simp

theorem page_iff : ((lastSetter items).map pageSet).getD 0 = (Lib.usageInForce items).1 ↔
    (∀ s ∈ lastSetter items, s.isUsagePage → ∀ u ∈ Lib.localUsage items, u.isWide → s.low = u.high) ∧
    (∀ s ∈ lastSetter items, s.isWide → (∀ u ∈ Lib.localUsage items, ¬ u.isWide) →
      s.high = Lib.lastPage items) := by
  rw [Lib.usageInForce]
  cases hset : lastSetter items with
  | none =>
    have hpage := lastPage_of_none hset
    cases hlocal : Lib.localUsage items with
    | none => simp [hpage]
    | some u =>
      have hwide : u.isWide = false := Bool.eq_false_iff.mpr fun h => lastSetter_ne_none hlocal h hset
      simp [hpage, hwide]
  | some s =>
    rcases setsPage_of_lastSetter hset with hs | hs
    · have hwide := not_isWide hs
      have hpage := lastPage_of_lastSetter hset hs
      cases hlocal : Lib.localUsage items with
      | none => simp [pageSet, hwide, hpage]
      | some u => by_cases hu : u.isWide <;> simp [pageSet, hwide, hpage, hs, hu]
    · have hpage : s.isUsagePage = false := Bool.eq_false_iff.mpr fun h => by simp [not_isWide h] at hs
      cases hlocal : Lib.localUsage items with
      | none => simp [pageSet, hs]
      | some u =>
        by_cases hu : u.isWide
        · obtain rfl := local_of_lastSetter hset hs hlocal hu
          simp [pageSet, hpage, hs]
        · simp [pageSet, hs, hu]

theorem python_page_iff :
    ((lastSetter items).map pythonPageSet).getD 0 = (((lastSetter items).map pageSet).getD 0).toNat ↔
      ∀ s ∈ lastSetter items, s.isUsagePage → s.data.toNat < 2 ^ 16 := by
  cases hset : lastSetter items with
  | none => simp
  | some s =>
    rcases setsPage_of_lastSetter hset with hs | hs
    · have hcut : s.low.toNat = s.data.toNat % 2 ^ 16 := BitVec.toNat_setWidth _ _
      have hshort : s.data.toNat = s.data.toNat % 2 ^ 16 ↔ s.data.toNat < 2 ^ 16 := by omega
      simpa [pageSet, pythonPageSet, not_isWide hs, hs, hcut] using hshort
    · have hpage : s.isUsagePage = false := Bool.eq_false_iff.mpr fun h => by simp [not_isWide h] at hs
      simp [pageSet, pythonPageSet, hs, hpage]

theorem python_usage : ((lastUsage items).map fun it => it.low.toNat).getD 0 =
    (((lastUsage items).map Item.low).getD 0).toNat := by
  cases lastUsage items <;> rfl

theorem ownUsage_iff :
    let pair := (((lastSetter items).map pageSet).getD 0, ((lastUsage items).map Item.low).getD 0)
    let python :=
      (((lastSetter items).map pythonPageSet).getD 0, ((lastUsage items).map fun it => it.low.toNat).getD 0)
    pair = Lib.usageInForce items ∧
      python = ((Lib.usageInForce items).1.toNat, (Lib.usageInForce items).2.toNat) ↔ OwnUsage items := by
  intro pair python
  constructor
  · rintro ⟨hpair, hpython⟩
    obtain ⟨hpage, husage⟩ := Prod.ext_iff.mp hpair
    obtain ⟨hsame, hwide⟩ := (page_iff items).mp hpage
    refine ⟨(usage_iff items).mp husage, hsame, hwide, (python_page_iff items).mp ?_⟩
    exact (Prod.ext_iff.mp hpython).1.trans (congrArg BitVec.toNat hpage.symm)
  · intro h
    have hpage := (page_iff items).mpr ⟨h.page, h.wide⟩
    have husage := (usage_iff items).mpr h.usage
    refine ⟨Prod.ext hpage husage, Prod.ext ?_ ?_⟩
    · exact ((python_page_iff items).mpr h.short).trans (congrArg BitVec.toNat hpage)
    · exact (python_usage items).trans (congrArg BitVec.toNat husage)

end Force

/-- The three parsers return on every descriptor and read no index out of range; the Rust and the Go one
    return the same pair. All three return the usage in force at the first application collection just when
    the usages in front are its own. -/
theorem usage_in_force (descriptor : List U8) :
    let items := Item.parse descriptor
    ∃ (pair : U16 × U16) (python : ℕ × ℕ), Host.topLevelUsage descriptor = some pair ∧
      Go.topLevelUsage descriptor = some pair ∧ Python.topLevelUsage descriptor = some python ∧
      (pair = Lib.topLevelUsage items ∧
        python = ((Lib.topLevelUsage items).1.toNat, (Lib.topLevelUsage items).2.toNat) ↔
        (items.any Item.isApplication → OwnUsage (Lib.before items))) := by
  intro items
  refine ⟨_, _, rust_scan descriptor, go_scan descriptor, python_scan descriptor, ?_⟩
  rw [Lib.scan_eq, Lib.scan_eq, Lib.topLevelUsage]
  rcases Bool.eq_false_or_eq_true (items.any Item.isApplication) with hany | hany
  · rw [if_pos hany, if_pos hany, if_pos hany, foldl_write, foldl_write, imp_iff_right hany]
    exact ownUsage_iff (Lib.before items)
  · have hnone : ¬ (items.any Item.isApplication : Prop) := by
      rw [hany]
      exact Bool.false_ne_true
    rw [if_neg hnone, if_neg hnone, if_neg hnone]
    exact iff_of_true ⟨rfl, rfl⟩ fun h => absurd h hnone

/-- A usage of 4 bytes with page 1 in front of a usage of page 0xFF00, a usage that the physical collection
    had, and a page above 16 bits. -/
theorem usage_not_in_force :
    Host.topLevelUsage [0x06, 0x00, 0xFF, 0x0B, 0x02, 0x00, 0x01, 0x00, 0x09, 0x01, 0xA1, 0x01] ≠
      some (Lib.topLevelUsage (Item.parse [0x06, 0x00, 0xFF, 0x0B, 0x02, 0x00, 0x01, 0x00, 0x09, 0x01,
        0xA1, 0x01])) ∧
    Host.topLevelUsage [0x05, 0x01, 0x09, 0x06, 0xA1, 0x00, 0xA1, 0x01] ≠
      some (Lib.topLevelUsage (Item.parse [0x05, 0x01, 0x09, 0x06, 0xA1, 0x00, 0xA1, 0x01])) ∧
    Python.topLevelUsage [0x07, 0x00, 0x00, 0x01, 0x00, 0xA1, 0x01] = some (0x10000, 0) ∧
    Host.topLevelUsage [0x07, 0x00, 0x00, 0x01, 0x00, 0xA1, 0x01] = some (0, 0) := by
  decide +kernel

end Codec

end Hidpin
