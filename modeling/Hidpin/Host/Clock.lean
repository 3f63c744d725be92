import Hidpin.Lib.Bytes
import Mathlib.Data.Int.Notation

/-! The conversion of device times to host times (`DeviceClock` in `rust/src/watch.rs`). An instant is a
    number of nanoseconds since some origin, a system time one since the epoch. -/

namespace Hidpin.Host

/-- A monotonic time in nanoseconds. -/
abbrev Instant := ℕ
/-- A wall-clock time in nanoseconds. -/
abbrev SystemTime := ℤ

/-- How long one clock sample is trusted. -/
def clockWindow : ℕ := 30 * 1000000000

/-- A host time with the device time, in microseconds, read at it. -/
abbrev Sample := Instant × U64

/-- Whether sample `a` has a smaller host-minus-device difference than sample `b`. -/
def closer (a b : Sample) : Bool :=
  decide ((a.1 : ℤ) - (b.1 : ℤ) < ((a.2.toNat : ℤ) - (b.2.toNat : ℤ)) * 1000)

/-- An instant some microseconds later or earlier; `checked_sub` gives up before the origin. -/
def offset (base : Instant) (micros : ℤ) : Instant :=
  let delta := micros.natAbs * 1000
  if 0 ≤ micros then base + delta else if delta ≤ base then base - delta else base

/-- `DeviceClock`: the closest samples of the current window and of the one before. -/
structure DeviceClock where
  cur : Option Sample
  prev : Option Sample
  curStart : Option Instant
  deriving DecidableEq, Repr

namespace DeviceClock

/-- A clock without a sample. -/
def empty : DeviceClock := ⟨none, none, none⟩

/-- Takes a sample, and starts a new window when the current one is over. -/
def add (c : DeviceClock) (host : Instant) (deviceUs : U64) : DeviceClock :=
  let sample := (host, deviceUs)
  match c.cur, c.curStart with
  | some cur, some start =>
    if host - start < clockWindow then
      if closer sample cur then { c with cur := some sample } else c
    else { cur := some sample, prev := c.cur, curStart := some host }
  | _, _ => { cur := some sample, prev := c.cur, curStart := some host }

/-- The host time of a device time; `none` where the code expects an earlier sample. -/
def instantAt (c : DeviceClock) (deviceUs : U64) : Option Instant :=
  match c.cur with
  | none => none
  | some cur =>
    let best := match c.prev with
      | some prev => if closer prev cur then prev else cur
      | none => cur
    some (offset best.1 ((deviceUs.toNat : ℤ) - (best.2.toNat : ℤ)))

/-- `at`: the host time of a device time on the wall clock, which is read next to the host clock. -/
def wallAt (c : DeviceClock) (deviceUs : U64) (now : Instant) (wall : SystemTime) : Option SystemTime :=
  (c.instantAt deviceUs).map fun moment =>
    if moment ≤ now then wall - ((now - moment : ℕ) : ℤ) else wall + ((moment - now : ℕ) : ℤ)

theorem cur_add (c : DeviceClock) (host : Instant) (deviceUs : U64) :
    (c.add host deviceUs).cur.isSome = true := by
  rcases hcur : c.cur with _ | cur
  · simp [add, hcur]
  · rcases hstart : c.curStart with _ | start
    · simp [add, hcur, hstart]
    · simp only [add, hcur, hstart]
      split_ifs
      · rfl
      · rw [hcur]; rfl
      · rfl

theorem wallAt_isSome {c : DeviceClock} (h : c.cur.isSome = true) (deviceUs : U64) (now : Instant)
    (wall : SystemTime) : (c.wallAt deviceUs now wall).isSome = true := by
  obtain ⟨cur, hcur⟩ := Option.isSome_iff_exists.mp h
  simp [wallAt, instantAt, hcur]

end DeviceClock

end Hidpin.Host
