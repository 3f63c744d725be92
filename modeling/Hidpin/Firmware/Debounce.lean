import Hidpin.Lib.Bytes

/-! Chattering removal for one monitored pin (`firmware/core/src/debounce.c`). The functions that
    confirm a level return the time the change began. -/

namespace Hidpin.Firmware

/-- The debouncer of a pin. -/
structure Debounce where
  confirmed : Bool
  raw : Bool
  pending : Bool
  lastChangeUs : U64
  debounceUs : U32
  deriving DecidableEq

namespace Debounce

/-- A debouncer as `memset` leaves it. -/
def zero : Debounce := ⟨false, false, false, 0, 0⟩

/-- `hp_debounce_reset`; it overwrites every field. -/
def reset (level : Bool) (debounceMs : U8) : Debounce where
  confirmed := level
  raw := level
  pending := false
  lastChangeUs := 0
  debounceUs := debounceMs.setWidth 32 * 1000

/-- `hp_debounce_set_time`. -/
def setTime (d : Debounce) (debounceMs : U8) (nowUs : U64) : Debounce :=
  let d := { d with debounceUs := debounceMs.setWidth 32 * 1000 }
  if d.pending then { d with lastChangeUs := nowUs } else d

/-- `hp_debounce_edge`. -/
def edge (d : Debounce) (raw : Bool) (nowUs : U64) : Debounce × Option U64 :=
  let d := { d with raw := raw, lastChangeUs := nowUs }
  if raw = d.confirmed then ({ d with pending := false }, none)
  else if d.debounceUs = 0 then ({ d with confirmed := raw, pending := false }, some nowUs)
  else ({ d with pending := true }, none)

/-- `hp_debounce_poll`. -/
def poll (d : Debounce) (nowUs : U64) : Debounce × Option U64 :=
  if d.pending = false ∨ nowUs < d.lastChangeUs then (d, none)
  else if nowUs - d.lastChangeUs < d.debounceUs.setWidth 64 then (d, none)
  else ({ d with confirmed := d.raw, pending := false }, some d.lastChangeUs)

/-- A change is pending exactly when the electrical value differs from the confirmed level. -/
def WF (d : Debounce) : Prop := d.pending = true ↔ d.raw ≠ d.confirmed

theorem wf_zero : zero.WF := by simp [WF, zero]

theorem wf_reset (level : Bool) (ms : U8) : (reset level ms).WF := by simp [WF, reset]

@[simp] theorem confirmed_setTime (d : Debounce) (ms : U8) (now : U64) :
    (d.setTime ms now).confirmed = d.confirmed := by
  simp only [setTime]; split <;> rfl

@[simp] theorem raw_setTime (d : Debounce) (ms : U8) (now : U64) : (d.setTime ms now).raw = d.raw := by
  simp only [setTime]; split <;> rfl

@[simp] theorem pending_setTime (d : Debounce) (ms : U8) (now : U64) :
    (d.setTime ms now).pending = d.pending := by
  simp only [setTime]; split <;> rfl

theorem wf_setTime {d : Debounce} (h : d.WF) (ms : U8) (now : U64) : (d.setTime ms now).WF := by
  simpa [WF] using h

@[simp] theorem raw_edge (d : Debounce) (raw : Bool) (now : U64) : (d.edge raw now).1.raw = raw := by
  simp only [edge]; split_ifs <;> rfl

theorem wf_edge (d : Debounce) (raw : Bool) (now : U64) : (d.edge raw now).1.WF := by
  simp only [edge, WF]
  split_ifs with h1 h2
  · simp [h1]
  · simp
  · simp [h1]

/-- An edge that confirms makes its own level the confirmed one; any other keeps the level. -/
theorem confirmed_edge (d : Debounce) (raw : Bool) (now : U64) :
    (d.edge raw now).1.confirmed = if (d.edge raw now).2 = none then d.confirmed else raw := by
  simp only [edge]; split_ifs <;> simp_all

@[simp] theorem raw_poll (d : Debounce) (now : U64) : (d.poll now).1.raw = d.raw := by
  simp only [poll]; split_ifs <;> rfl

theorem wf_poll {d : Debounce} (h : d.WF) (now : U64) : (d.poll now).1.WF := by
  simp only [poll]
  split_ifs
  · exact h
  · exact h
  · simp [WF]

/-- A poll that does not confirm changes nothing. -/
theorem poll_of_none {d : Debounce} {now : U64} (h : (d.poll now).2 = none) : (d.poll now).1 = d := by
  revert h; simp only [poll]; split_ifs <;> simp

end Debounce

end Hidpin.Firmware
