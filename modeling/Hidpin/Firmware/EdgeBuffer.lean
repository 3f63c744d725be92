import Hidpin.Firmware.Protocol
import Hidpin.Lib.Ring

/-! The ring buffer between the GPIO interrupt and the main loop (`firmware/app/gpio_hw.c`): 256 slots
    of which one stays free, and a flag for edges that found no room. As for the event queue, later
    modules only use the lemmas about `toList`. -/

namespace Hidpin.Firmware

abbrev edgeBufferSize : ℕ := 256

/-- An edge as the interrupt saw it. -/
structure RawEdge where
  gpio : U8
  level : Bool
  timeUs : U64
  deriving DecidableEq

/-- The ring between the interrupt and the main loop. -/
structure EdgeBuffer where
  buffer : Fin edgeBufferSize → RawEdge
  head : U16
  tail : U16
  overflow : Bool

namespace EdgeBuffer

/-- The buffer as static storage and `gpio_hw_init` leave it. -/
def init : EdgeBuffer where
  buffer _ := ⟨0, false, 0⟩
  head := 0
  tail := 0
  overflow := false

/-- `(uint16_t)((i + 1u) & (EDGE_BUFFER_SIZE - 1u))`. -/
def next (i : U16) : U16 := (i + 1) &&& BitVec.ofNat 16 (edgeBufferSize - 1)

/-- The end of `gpio_edge_irq`, which records the edge. -/
def push (b : EdgeBuffer) (edge : RawEdge) : EdgeBuffer :=
  if next b.head = b.tail then { b with overflow := true }
  else
    { b with
      buffer := Function.update b.buffer (Fin.ofNat edgeBufferSize b.head.toNat) edge
      head := next b.head }

/-- `gpio_edge_irq`; `value` is the value of the pin, read when both edges were latched. -/
def edgeIrq (b : EdgeBuffer) (gpio : U8) (rise fall value : Bool) (nowUs : U64) : EdgeBuffer :=
  let level := if rise && !fall then true else if fall && !rise then false else value
  b.push ⟨gpio, level, nowUs⟩

/-- `gpio_hw_pop_edge`. -/
def pop (b : EdgeBuffer) : Option (RawEdge × EdgeBuffer) :=
  if b.tail = b.head then none
  else some (b.buffer (Fin.ofNat edgeBufferSize b.tail.toNat), { b with tail := next b.tail })

/-- `gpio_hw_take_overflow`. -/
def takeOverflow (b : EdgeBuffer) : Bool × EdgeBuffer := (b.overflow, { b with overflow := false })

/-- The number of edges held. -/
def count (b : EdgeBuffer) : ℕ := (b.head.toNat + edgeBufferSize - b.tail.toNat) % edgeBufferSize

/-- The edges held, oldest first. -/
def toList (b : EdgeBuffer) : List RawEdge := Lib.window b.buffer b.tail.toNat b.count

/-- The indices are in range. -/
structure WF (b : EdgeBuffer) : Prop where
  head_lt : b.head.toNat < 256
  tail_lt : b.tail.toNat < 256

theorem wf_init : init.WF := ⟨by decide, by decide⟩

@[simp] theorem toList_init : init.toList = [] := rfl

@[simp] theorem takeOverflow_fst (b : EdgeBuffer) : b.takeOverflow.1 = b.overflow := rfl

@[simp] theorem toList_takeOverflow (b : EdgeBuffer) : b.takeOverflow.2.toList = b.toList := rfl

theorem toNat_next (i : U16) : (next i).toNat = (i.toNat + 1) % 256 := by
  have hmask : (BitVec.ofNat 16 (edgeBufferSize - 1)).toNat = 2 ^ 8 - 1 := by decide
  have hone : (1 : U16).toNat = 1 := rfl
  rw [next, BitVec.toNat_and, hmask, Nat.and_two_pow_sub_one_eq_mod, BitVec.toNat_add, hone]
  omega

theorem toNat_ne {i j : U16} (h : i ≠ j) : i.toNat ≠ j.toNat := fun hc => h (BitVec.eq_of_toNat_eq hc)

theorem wf_push {b : EdgeBuffer} (h : b.WF) (edge : RawEdge) : (b.push edge).WF := by
  unfold push
  split_ifs
  · exact ⟨h.head_lt, h.tail_lt⟩
  · exact ⟨by rw [toNat_next]; exact Nat.mod_lt _ (by decide), h.tail_lt⟩

/-- The slot after the newest edge, counted from the oldest one. -/
theorem slot_head {b : EdgeBuffer} (h : b.WF) :
    Fin.ofNat edgeBufferSize (b.tail.toNat + b.count) = Fin.ofNat edgeBufferSize b.head.toNat := by
  have hh := h.head_lt
  have ht := h.tail_lt
  refine Fin.ext ?_
  simp only [Fin.ofNat, count, edgeBufferSize]
  omega

/-- An edge that finds room is appended. -/
theorem toList_append {b : EdgeBuffer} (h : b.WF) (edge : RawEdge) (hfull : next b.head ≠ b.tail) :
    (b.push edge).toList = b.toList ++ [edge] := by
  have hh := h.head_lt
  have ht := h.tail_lt
  have hne := toNat_ne hfull
  rw [toNat_next] at hne
  have hcount : (b.push edge).count = b.count + 1 := by
    simp only [push, if_neg hfull, count, toNat_next, edgeBufferSize]
    omega
  have hlt : b.count < edgeBufferSize := Nat.mod_lt _ (by decide)
  have hwin := @Lib.window_push _ _ _ b.buffer b.tail.toNat _ edge hlt
  rw [slot_head h] at hwin
  refine Eq.trans ?_ hwin
  rw [← hcount, toList, push, if_neg hfull]

theorem toList_push {b : EdgeBuffer} (h : b.WF) (edge : RawEdge)
    (ho : (b.push edge).overflow = false) : (b.push edge).toList = b.toList ++ [edge] := by
  refine toList_append h edge fun hfull => ?_
  rw [push, if_pos hfull] at ho
  exact absurd ho (by simp)

/-- The buffer is full when 255 slots are used. -/
theorem full_iff {b : EdgeBuffer} (h : b.WF) :
    next b.head = b.tail ↔ b.toList.length = edgeBufferSize - 1 := by
  have hh := h.head_lt
  have ht := h.tail_lt
  have hlen : b.toList.length = b.count := Lib.length_window _ _ _
  rw [hlen, ← BitVec.toNat_inj, toNat_next]
  simp only [count, edgeBufferSize]
  omega

theorem overflow_push (b : EdgeBuffer) (edge : RawEdge) :
    (b.push edge).overflow = (b.overflow || decide (next b.head = b.tail)) := by
  unfold push
  split_ifs with h <;> simp [h]

/-- A push adds its own edge at most. -/
theorem mem_push {b : EdgeBuffer} (h : b.WF) {edge edge' : RawEdge} (hm : edge' ∈ (b.push edge).toList) :
    edge' ∈ b.toList ∨ edge' = edge := by
  by_cases hfull : next b.head = b.tail
  · rw [push, if_pos hfull] at hm
    exact Or.inl hm
  · rw [toList_append h edge hfull, List.mem_append, List.mem_singleton] at hm
    exact hm

theorem pop_eq_none {b : EdgeBuffer} (h : b.WF) : b.pop = none ↔ b.toList = [] := by
  have hh := h.head_lt
  have ht := h.tail_lt
  have hlen : b.toList.length = b.count := Lib.length_window _ _ _
  unfold pop
  by_cases heq : b.tail = b.head
  · have h0 : b.count = 0 := by simp [count, heq]
    simp [heq, ← List.length_eq_zero_iff, hlen, h0]
  · have hne := toNat_ne heq
    have h0 : b.count ≠ 0 := by simp only [count, edgeBufferSize]; omega
    simp [heq, ← List.length_eq_zero_iff, hlen, h0]

/-- Popping takes the oldest edge. -/
theorem pop_eq_some {b b' : EdgeBuffer} {edge : RawEdge} (h : b.WF) (hp : b.pop = some (edge, b')) :
    b'.WF ∧ b'.overflow = b.overflow ∧ b.toList = edge :: b'.toList := by
  have hh := h.head_lt
  have ht := h.tail_lt
  unfold pop at hp
  by_cases heq : b.tail = b.head
  · simp [heq] at hp
  · have hne := toNat_ne heq
    rw [if_neg heq, Option.some.injEq, Prod.mk.injEq] at hp
    obtain ⟨rfl, rfl⟩ := hp
    have hpos : 1 ≤ b.count := by
      simp only [count, edgeBufferSize]; omega
    have hwin := @Lib.window_drop _ _ _ b.buffer b.tail.toNat _ _ hpos
    have hlist : ({ b with tail := next b.tail } : EdgeBuffer).toList = b.toList.drop 1 := by
      refine Eq.trans ?_ hwin
      simp only [toList, toNat_next]
      congr 1
      simp only [count, toNat_next, edgeBufferSize]
      omega
    have hzero : b.toList[0]? = some (b.buffer (Fin.ofNat edgeBufferSize b.tail.toNat)) := by
      have hlt : 0 < b.count := hpos
      exact Lib.getElem?_window b.buffer hlt
    refine ⟨⟨h.head_lt, by rw [toNat_next]; exact Nat.mod_lt _ (by decide)⟩, rfl, ?_⟩
    rw [hlist]
    cases hl : b.toList with
    | nil => rw [hl] at hzero; simp at hzero
    | cons a l => rw [hl] at hzero; simpa using hzero

end EdgeBuffer

end Hidpin.Firmware
