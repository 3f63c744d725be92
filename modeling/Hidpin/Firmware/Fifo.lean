import Hidpin.Firmware.EventQueue
import Hidpin.Lib.Run

/-! The queue of confirmed edge events refines a bounded FIFO: over every run of its operations it holds the
    list that the FIFO holds, and no expression on the way leaves eight bits. -/

namespace Hidpin.Firmware.EventQueue
open Lib (Fifo)

/-- `hp_event_queue_init` on any memory. -/
def initAt (memory : EventQueue) : EventQueue := { memory with head := 0, count := 0, overflowed := false }

/-- What `hp_event_queue_push` returns. -/
def pushed (q : EventQueue) (_ : EdgeEvent) : Bool := if q.count.toNat ≥ eventQueueSize then false else true

/-- A call of one of the operations. -/
inductive Call where
  | push (event : EdgeEvent)
  | peek (index : U8)
  | drop (n : U8)

/-- The queue after a call. -/
def call (q : EventQueue) : Call → EventQueue
  | .push event => q.push event
  | .peek _ => q
  | .drop n => q.drop n

/-- The exact values of the expressions of a call: the index into `items` before and after the remainder, and
    what `n`, `head` and `count` are assigned from. -/
def values (q : EventQueue) : Call → List ℤ
  | .push _ => if q.count.toNat ≥ eventQueueSize then [] else
    [q.head.toNat + q.count.toNat, (q.head.toNat + q.count.toNat) % eventQueueSize, q.count.toNat + 1]
  | .peek index => [q.head.toNat + index.toNat, (q.head.toNat + index.toNat) % eventQueueSize]
  | .drop n =>
    let n := if n > q.count then q.count else n
    [n.toNat, q.head.toNat + n.toNat, (q.head.toNat + n.toNat) % eventQueueSize, q.count.toNat - n.toNat]

/-- The header asks for an index less than the count. -/
def InRange (q : EventQueue) : Call → Prop
  | .peek index => index.toNat < q.toList.length
  | _ => True

/-- What a call does to the FIFO. -/
def fifoCall (f : Fifo EdgeEvent eventQueueSize) : Call → Fifo EdgeEvent eventQueueSize
  | .push event => f.push event
  | .peek _ => f
  | .drop n => f.drop n.toNat

/-- The queue stands for the FIFO, with indices in range. -/
structure Refines (q : EventQueue) (f : Fifo EdgeEvent eventQueueSize) : Prop where
  wf : q.WF
  toList : q.toList = f.elems
  overflowed : q.overflowed = f.overflowed

theorem refines_initAt (memory : EventQueue) : Refines memory.initAt .empty :=
  ⟨⟨by simp [initAt], by simp [initAt]⟩, rfl, rfl⟩

theorem Refines.call {q : EventQueue} {f : Fifo EdgeEvent eventQueueSize} (h : Refines q f) (c : Call) :
    Refines (q.call c) (fifoCall f c) := by
  cases c with
  | push event =>
    refine ⟨wf_push h.wf event, ?_, ?_⟩
    · exact (toList_push q event).trans (by rw [h.toList]; exact (f.elems_push event).symm)
    · exact (overflowed_push q event).trans
        (by rw [h.toList, h.overflowed]; exact (f.overflowed_push event).symm)
  | peek index => exact h
  | drop n =>
    refine ⟨wf_drop h.wf n, ?_, h.overflowed⟩
    calc (q.drop n).toList = f.elems.drop n.toNat := by rw [toList_drop, h.toList]
      _ = f.elems.drop (min n.toNat f.elems.length) := by
        rcases le_total n.toNat f.elems.length with hle | hle
        · rw [min_eq_left hle]
        · rw [min_eq_right hle, List.drop_of_length_le hle, List.drop_length]

/-- The run of the queue stays with the run of the FIFO. -/
theorem Refines.run {q : EventQueue} {f : Fifo EdgeEvent eventQueueSize} (h : Refines q f)
    (calls : List Call) : Refines (Lib.run EventQueue.call q calls) (Lib.run fifoCall f calls) := by
  induction calls generalizing q f with
  | nil => exact h
  | cons c calls ih => exact ih (h.call c)

/-- No expression of a call leaves the eight bits. -/
theorem values_lt {q : EventQueue} (h : q.WF) {c : Call} (hrange : q.InRange c) :
    ∀ v ∈ q.values c, 0 ≤ v ∧ v < 2 ^ 8 := by
  have hhead : q.head.toNat < 32 := h.head_lt
  have hcount : q.count.toNat ≤ 32 := h.count_le
  have hsize : ((eventQueueSize : ℕ) : ℤ) = 32 := rfl
  intro v hv
  cases c with
  | push event =>
    simp only [values] at hv
    split at hv
    · cases hv
    · simp only [List.mem_cons, List.not_mem_nil, or_false, hsize] at hv
      rcases hv with rfl | rfl | rfl <;> omega
  | peek index =>
    have hindex : index.toNat < q.count.toNat := by simpa [InRange] using hrange
    simp only [values, List.mem_cons, List.not_mem_nil, or_false, hsize] at hv
    rcases hv with rfl | rfl <;> omega
  | drop n =>
    have hn := drop_amount q n
    simp only [values, List.mem_cons, List.not_mem_nil, or_false, hsize] at hv
    rcases hv with rfl | rfl | rfl | rfl <;> omega

/-- The event ring refines a bounded FIFO, in every run of its operations. -/
theorem refines_fifo (memory : EventQueue) (calls : List Call) :
    let q := Lib.run EventQueue.call memory.initAt calls
    let f := Lib.run fifoCall Fifo.empty calls
    (q.toList = f.elems ∧ q.overflowed = f.overflowed ∧ f.elems.length ≤ eventQueueSize) ∧
    (∀ event, q.pushed event = decide (f.elems.length < eventQueueSize)) ∧
    (∀ event, f.elems.length = eventQueueSize → q.push event = { q with overflowed := true }) ∧
    (∀ (index : U8) (h : index.toNat < f.elems.length), q.peek index.toNat = f.elems[index.toNat]) ∧
    (q.head.toNat < eventQueueSize ∧ q.count.toNat ≤ eventQueueSize) ∧
    ∀ c, q.InRange c → ∀ v ∈ q.values c, 0 ≤ v ∧ v < 2 ^ 8 := by
  intro q f
  have h : Refines q f := (refines_initAt memory).run calls
  refine ⟨⟨h.toList, h.overflowed, f.bounded⟩, fun event => ?_, fun event hfull => ?_,
    fun index hindex => ?_,
    ⟨h.wf.head_lt, h.wf.count_le⟩, fun c => values_lt h.wf⟩
  · rw [← h.toList, length_toList]
    unfold pushed
    split
    · next hfull => simp [Nat.not_lt.mpr hfull]
    · next hroom => simp [Nat.lt_of_not_ge hroom]
  · have hcount : q.count.toNat = eventQueueSize := by rw [← hfull, ← h.toList, length_toList]
    exact if_pos hcount.ge
  · have hlist : index.toNat < q.toList.length := by rwa [h.toList]
    rw [peek_eq q hlist]
    simp only [h.toList]

end Hidpin.Firmware.EventQueue
