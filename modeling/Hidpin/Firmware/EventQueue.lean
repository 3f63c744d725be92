import Hidpin.Firmware.Protocol
import Hidpin.Lib.Ring

/-! The queue of confirmed edge events (`firmware/core/src/event_queue.c`): a circular buffer of 32
    events with 8-bit indices and a latch for dropped events. `toList` is the list it stands for; the
    rest of the development only uses the lemmas about `toList`. -/

namespace Hidpin.Firmware

/-- A confirmed change of a pin. -/
structure EdgeEvent where
  gpio : Gpio
  level : Bool
  startUs : U64
  deriving DecidableEq

/-- The events that are still to be reported. -/
structure EventQueue where
  items : Fin eventQueueSize → EdgeEvent
  head : U8
  count : U8
  overflowed : Bool

namespace EventQueue

/-- `hp_event_queue_init` on memory cleared by `memset`. -/
def init : EventQueue where
  items _ := ⟨0, false, 0⟩
  head := 0
  count := 0
  overflowed := false

/-- `hp_event_queue_push`; the sum of the two indices is computed as a C `int`. -/
def push (q : EventQueue) (event : EdgeEvent) : EventQueue :=
  if q.count.toNat ≥ eventQueueSize then { q with overflowed := true }
  else
    { q with
      items := Function.update q.items (Fin.ofNat eventQueueSize (q.head.toNat + q.count.toNat)) event
      count := q.count + 1 }

/-- `hp_event_queue_peek`. -/
def peek (q : EventQueue) (index : ℕ) : EdgeEvent :=
  q.items (Fin.ofNat eventQueueSize (q.head.toNat + index))

/-- `hp_event_queue_drop`. -/
def drop (q : EventQueue) (n : U8) : EventQueue :=
  let n := if n > q.count then q.count else n
  { q with
    head := BitVec.ofNat 8 ((q.head.toNat + n.toNat) % eventQueueSize)
    count := q.count - n }

/-- The events held, oldest first. -/
def toList (q : EventQueue) : List EdgeEvent := Lib.window q.items q.head.toNat q.count.toNat

/-- The indices are in range. -/
structure WF (q : EventQueue) : Prop where
  head_lt : q.head.toNat < eventQueueSize
  count_le : q.count.toNat ≤ eventQueueSize

@[simp] theorem toList_init : init.toList = [] := rfl

@[simp] theorem overflowed_init : init.overflowed = false := rfl

theorem wf_init : init.WF := ⟨by decide, by decide⟩

@[simp] theorem length_toList (q : EventQueue) : q.toList.length = q.count.toNat := by
  simp [toList]

theorem count_succ {q : EventQueue} (h : q.count.toNat < eventQueueSize) :
    (q.count + 1).toNat = q.count.toNat + 1 := by
  have h' : q.count.toNat < 32 := h
  have h1 : (1 : U8).toNat = 1 := rfl
  rw [BitVec.toNat_add, h1]
  omega

theorem wf_push {q : EventQueue} (h : q.WF) (ev : EdgeEvent) : (q.push ev).WF := by
  unfold push
  split
  · exact ⟨h.head_lt, h.count_le⟩
  · next hlt =>
    have hlt' : q.count.toNat < eventQueueSize := Nat.lt_of_not_ge hlt
    exact ⟨h.head_lt, by rw [count_succ hlt']; exact hlt'⟩

theorem toList_push (q : EventQueue) (ev : EdgeEvent) :
    (q.push ev).toList =
      if q.toList.length < eventQueueSize then q.toList ++ [ev] else q.toList := by
  rw [length_toList]
  unfold push
  split
  · next h => rw [if_neg (Nat.not_lt.mpr h)]; rfl
  · next h =>
    have hlt : q.count.toNat < eventQueueSize := Nat.lt_of_not_ge h
    rw [if_pos hlt]
    simp only [toList, count_succ hlt]
    exact Lib.window_push q.items ev hlt

theorem overflowed_push (q : EventQueue) (ev : EdgeEvent) :
    (q.push ev).overflowed = (q.overflowed || decide (eventQueueSize ≤ q.toList.length)) := by
  rw [length_toList]
  unfold push
  split
  · next h => simp [show eventQueueSize ≤ q.count.toNat from h]
  · next h => simp [Nat.lt_of_not_ge h]

/-- The number of events a drop removes. -/
theorem drop_amount (q : EventQueue) (n : U8) :
    (if n > q.count then q.count else n).toNat = min n.toNat q.count.toNat := by
  split
  · next h => have : q.count.toNat < n.toNat := h; omega
  · next h => have : ¬ q.count.toNat < n.toNat := h; omega

theorem wf_drop {q : EventQueue} (h : q.WF) (n : U8) : (q.drop n).WF := by
  have hmod : (q.head.toNat + (if n > q.count then q.count else n).toNat) % eventQueueSize < 32 :=
    Nat.mod_lt _ (by decide)
  refine ⟨?_, ?_⟩
  · simp only [drop, BitVec.toNat_ofNat]
    exact Nat.lt_of_le_of_lt (Nat.mod_le _ _) hmod
  · have hle : (if n > q.count then q.count else n) ≤ q.count := by
      rw [BitVec.le_def, drop_amount]; omega
    simp only [drop]
    rw [BitVec.toNat_sub_of_le hle]
    exact le_trans (Nat.sub_le _ _) h.count_le

theorem toList_drop (q : EventQueue) (n : U8) : (q.drop n).toList = q.toList.drop n.toNat := by
  have hle : (if n > q.count then q.count else n) ≤ q.count := by
    rw [BitVec.le_def, drop_amount]; omega
  have hmod : (q.head.toNat + min n.toNat q.count.toNat) % eventQueueSize < 32 :=
    Nat.mod_lt _ (by decide)
  have hhead : (BitVec.ofNat 8 ((q.head.toNat + min n.toNat q.count.toNat) % eventQueueSize)).toNat =
      (q.head.toNat + min n.toNat q.count.toNat) % eventQueueSize := by
    rw [BitVec.toNat_ofNat, Nat.mod_eq_of_lt (by omega)]
  simp only [drop, toList]
  rw [BitVec.toNat_sub_of_le hle, drop_amount, hhead, Lib.window_drop q.items (by omega)]
  rcases le_total n.toNat q.count.toNat with h | h
  · rw [min_eq_left h]
  · rw [min_eq_right h, List.drop_of_length_le (by simp), List.drop_of_length_le (by simpa using h)]

@[simp] theorem overflowed_drop (q : EventQueue) (n : U8) : (q.drop n).overflowed = q.overflowed := rfl

theorem peek_eq (q : EventQueue) {i : ℕ} (hi : i < q.toList.length) : q.peek i = q.toList[i] := by
  have hi' : i < q.count.toNat := by simpa using hi
  refine Option.some.inj ?_
  rw [← List.getElem?_eq_getElem hi]
  exact (Lib.getElem?_window q.items hi').symm

theorem length_le {q : EventQueue} (h : q.WF) : q.toList.length ≤ eventQueueSize := by
  simpa using h.count_le

end EventQueue

end Hidpin.Firmware
