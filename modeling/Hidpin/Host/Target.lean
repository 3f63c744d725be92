import Hidpin.Host.View

/-! Keeping the target. While the device is connected, a pin configuration other than the target needs the
    restore alarm. The methods of the watch loop are followed exit by exit; what an exit depends on is
    what the transport answers. -/

namespace Hidpin.Host
open Lib

variable {ω : Type}

/-- The target is not given up: it is on the device, as last seen, or the restore alarm is armed. -/
def WatchLoop.Held (l : WatchLoop) : Prop :=
  ∀ target, l.conn.isSome = true → l.target = some target → l.config ≠ target → l.restoreAt.isSome = true

section Conditions
variable [World ω]

/-- Whether the answers to `restore_target` are another configuration and then a rejected write. -/
def restoreRejected (target : PinConfig) (device : Device) (w : ω) : Bool :=
  match Device.getPinConfig.exec (device, (World.instant w).2) with
  | (.ok read, s) => decide (read.config ≠ target) &&
    match ((Device.setPinConfig target).exec s).1 with
    | .error (.error (.pinConfigRejected _ _ _)) => true
    | _ => false
  | _ => false

/-- The same for the `config_changed` of a CONFIG_CHANGED report, when the last write over a change of
    another program is not less than a second ago. -/
def changeRejected (l : WatchLoop) (device : Device) (w : ω) : Bool :=
  match l.target, Device.getPinConfig.exec (device, w) with
  | some target, (.ok read, (device, w)) => decide (read.config ≠ target) &&
    match l.lastRestore with
    | none => restoreRejected target device w
    | some last => decide (restoreInterval ≤ (World.instant w).1 - last) &&
      restoreRejected target device (World.instant w).2
  | _, _ => false

/-- Whether the answer to a status request carries CONFIG_CHANGED and the target written over the change
    is rejected. -/
def Asked.rejected (a : Asked ω) : Bool :=
  contains a.report.reason Reason.configChanged &&
    a.loop.conn.any fun conn => changeRejected a.loop conn.device (World.instant a.world).2

/-- Whether the answers to `set_target` on a connected device keep the target: the configuration can be
    read, unless the new target was last seen; the write fails with a conflict only, or with a rejection
    while the device has the old target or there was none. -/
def Ctx.targetSafe (c : Ctx ω) (new : PinConfig) : Bool :=
  match c.loop.conn with
  | none => true
  | some conn =>
    (c.loop.info.any fun info => decide ((validatePinConfig new info.available).1 ≠ .ok)) ||
    match Device.getPinConfig.exec (conn.device, c.world) with
    | (.error _, _) => decide (c.loop.config = new)
    | (.ok read, s) => decide (read.config = new) ||
      match ((Device.setPinConfig new).exec s).1 with
      | .error (.error (.pinConfigConflict _ _)) => true
      | .error (.error (.pinConfigRejected _ _ _)) => c.loop.target.all fun old => decide (read.config = old)
      | .error (.error _) => false
      | _ => true

end Conditions

/-- The method returns no error, and it stops the watcher only when `R` holds. -/
def FatalOnly (R : Prop) : Stop → Prop
  | .error _ => False
  | .fatal _ => R
  | _ => True

theorem FatalOnly.imp {R S : Prop} (h : R → S) : ∀ {e : Stop}, FatalOnly R e → FatalOnly S e
  | .error _, he => he
  | .fatal _, he => h he
  | .panicked, _ => trivial
  | .hangs, _ => trivial

/-- The fields the target depends on are the same. -/
structure SameHold (l l' : WatchLoop) : Prop where
  conn : l'.conn.isSome = l.conn.isSome
  target : l'.target = l.target
  config : l'.config = l.config
  restoreAt : l'.restoreAt = l.restoreAt

theorem WatchLoop.Held.of_same {l l' : WatchLoop} (h : l.Held) (hs : SameHold l l') : l'.Held := by
  intro target hconn htarget hne
  rw [hs.restoreAt]
  exact h target (hs.conn ▸ hconn) (hs.target ▸ htarget) (hs.config ▸ hne)

theorem held_of_conn {l : WatchLoop} (h : l.conn = none) : l.Held := by
  intro _ hconn
  rw [h] at hconn
  cases hconn

theorem held_of_target {l : WatchLoop} (h : l.target = none) : l.Held := by
  intro _ _ htarget
  rw [h] at htarget
  cases htarget

theorem held_of_config {l : WatchLoop} (h : l.target = some l.config) : l.Held := by
  intro _ _ htarget hne
  rw [h] at htarget
  exact absurd (Option.some.inj htarget) hne

theorem held_of_alarm {l : WatchLoop} {at' : Instant} (h : l.restoreAt = some at') : l.Held := by
  intro _ _ _ _
  rw [h]
  rfl

/-- No answer to a status request led to a rejected write. -/
def Clean [World ω] (c : Ctx ω) : Prop := ∀ a ∈ c.asked, a.rejected = false

/-- The property of the context that every step keeps. -/
def Keeping [World ω] (c : Ctx ω) : Prop := Clean c → c.loop.Held

namespace Watch
open Prog
variable {α : Type} {I : Ctx ω → Prop} {c : Ctx ω}

/-- A property of the fields the target depends on. -/
def Plain (I : Ctx ω → Prop) : Prop :=
  ∀ c c' : Ctx ω, SameHold c.loop c'.loop → c'.asked = c.asked → I c → I c'

namespace Plain

theorem update (h : Plain I) {f : Ctx ω → Ctx ω}
    (hf : ∀ c, SameHold c.loop (f c).loop ∧ (f c).asked = c.asked) :
    Keeps I (Prog.update f : Watch ω Unit) := Keeps.update fun c => h c (f c) (hf c).1 (hf c).2

theorem call (h : Plain I) {f : Ctx ω → α × Ctx ω}
    (hf : ∀ c, SameHold c.loop (f c).2.loop ∧ (f c).2.asked = c.asked) :
    Keeps I (Prog.call f : Watch ω α) := Keeps.call fun c => h c (f c).2 (hf c).1 (hf c).2

theorem setLoop (h : Plain I) {f : WatchLoop → WatchLoop} (hf : ∀ l, SameHold l (f l)) :
    Keeps I (setLoop f : Watch ω Unit) := h.update fun c => ⟨hf c.loop, rfl⟩

theorem emit (h : Plain I) (event : Event) : Keeps I (emit event : Watch ω Unit) :=
  h.update fun _ => ⟨⟨rfl, rfl, rfl, rfl⟩, rfl⟩

theorem onDevice (h : Plain I) (m : Device.Io ω α) : Keeps I (onDevice m) := by
  intro c hc
  rcases hconn : c.loop.conn with _ | conn
  · simpa [Watch.onDevice, Watch.connection, Watch.loop, exec_bind, hconn] using hc
  · have hQ : (Watch.onDevice m).wp (fun _ c' => I c') c := by
      rw [wp_onDevice conn hconn]
      exact h c _ ⟨by simp [Ctx.withDevice, hconn], rfl, rfl, rfl⟩ rfl hc
    exact hQ

theorem failed (h : Plain I) (error : Error) : Keeps I (failed error : Watch ω Unit) := by
  refine Keeps.bind (h.setLoop fun l => ?_) fun _ => ?_
  · split <;> exact ⟨rfl, rfl, rfl, rfl⟩
  · refine Keeps.bind (h.setLoop fun _ => ⟨rfl, rfl, rfl, rfl⟩) fun _ => Keeps.bind Calm.loop fun _ => ?_
    split
    · exact h.emit _
    · exact Keeps.pure _

variable [World ω]

theorem instant (h : Plain I) : Keeps I (instant : Watch ω Instant) :=
  h.call fun _ => ⟨⟨rfl, rfl, rfl, rfl⟩, rfl⟩

theorem absorb (h : Plain I) (report : StatusReport) : Keeps I (absorb report : Watch ω Unit) := by
  have hI : Absorbs I :=
    { known := fun _ => h _ _ ⟨rfl, rfl, rfl, rfl⟩ rfl
      instant := h _ _ ⟨rfl, rfl, rfl, rfl⟩ rfl
      systemTime := h _ _ ⟨rfl, rfl, rfl, rfl⟩ rfl
      push := fun _ => h _ _ ⟨rfl, rfl, rfl, rfl⟩ rfl
      absorbed := fun _ => h _ _ ⟨rfl, rfl, rfl, rfl⟩ rfl }
  exact hI.absorb report

theorem scanLater (h : Plain I) : Keeps I (scanLater : Watch ω Unit) :=
  Keeps.bind h.instant fun _ => h.setLoop fun _ => ⟨rfl, rfl, rfl, rfl⟩

end Plain

variable [World ω] {conn : Connection} {target : PinConfig}

theorem wp_lost (error : Error) (hconn : c.loop.conn = some conn) :
    (lost error).wp (post (fun _ c' => c'.loop.conn = none ∧ c'.asked = c.asked) fun _ _ => False) c := by
  simp only [lost, wp_bind, wp_loop, post_ok, hconn, Option.isSome_some, if_true, wp_setLoop,
    wp_emit, wp_instant]
  refine ⟨?_, rfl⟩
  simp [Ctx.push, WatchLoop.dropConnection, hconn]

theorem wp_lost_held {E : Stop → Ctx ω → Prop} {asked : List (Asked ω)} (error : Error)
    (hconn : c.loop.conn = some conn) (hasked : c.asked = asked) :
    (lost error).wp (post (fun _ c' => c'.loop.Held ∧ c'.asked = asked) E) c := by
  refine wp_mono (wp_lost error hconn) fun r c' h => ?_
  cases r with
  | ok _ => exact ⟨held_of_conn h.1, h.2.trans hasked⟩
  | error _ => exact h.elim

theorem wp_wrote (found config : PinConfig) : (wrote found config).wp (post (fun _ c' =>
    c'.loop.config = config ∧ c'.loop.target = c.loop.target ∧ c'.asked = c.asked)
      fun e c' => e = .panicked ∧ c'.asked = c.asked) c := by
  refine setConfig_bind ?_ ⟨rfl, rfl⟩
  simp only [wp_bind, wp_setLoop, post_ok, wp_instant, wp_only, wp_emit]
  exact ⟨fun _ => ⟨rfl, rfl, rfl⟩, fun _ => by simp [WatchLoop.setConfig, WatchLoop.retain]⟩

/-- `restore_target` on a connected device leaves the target held, or it ends with the fatal error of a
    rejected write. -/
theorem wp_restoreTarget (htarget : c.loop.target = some target) (hconn : c.loop.conn = some conn) :
    restoreTarget.wp (post (fun _ c' => c'.loop.Held ∧ c'.asked = c.asked) fun e c' => c'.asked = c.asked ∧
      FatalOnly (restoreRejected target conn.device c.world = true) e) c := by
  unfold restoreTarget
  rw [loop_bind, htarget, hconn]
  simp only [setLoop_bind, instant_bind]
  refine wp_ask conn hconn Device.Tame.getPinConfig (fun read s hread => ?_)
    (fun e s _ => wp_lost_held e rfl rfl) fun s => ⟨rfl, trivial⟩
  refine setConfig_bind ?_ ⟨rfl, trivial⟩
  simp only [Ctx.withDevice]
  split
  · next hfound => exact (wp_pure _ _).mpr ⟨held_of_config (htarget.trans (congrArg some hfound.symm)), rfl⟩
  · next hfound =>
    refine wp_ask _ rfl (Device.Tame.setPinConfig target) (fun _ s' _ => ?_) (fun e s' he => ?_)
      fun s => ⟨rfl, trivial⟩
    · simp only [setLoop_bind, loop_bind, emit_bind]
      refine wp_mono (wp_wrote read.config target) fun r c' h => ?_
      cases r with
      | ok _ => exact ⟨held_of_config (by rw [h.2.1, h.1]; exact htarget), h.2.2⟩
      | error _ => exact ⟨h.2, h.1 ▸ trivial⟩
    · split
      · next h => cases h
      · next heq =>
        cases heq
        exact ⟨rfl, by simp [FatalOnly, restoreRejected, hread, hfound, he]⟩
      · simp only [instant_bind, wp_setLoop]
        exact ⟨held_of_alarm rfl, rfl⟩
      · exact wp_lost_held _ rfl rfl

/-- The same for `config_changed`. -/
theorem wp_configChanged (hconn : c.loop.conn = some conn) :
    configChanged.wp (post (fun _ c' => c'.loop.Held ∧ c'.asked = c.asked) fun e c' => c'.asked = c.asked ∧
      FatalOnly (changeRejected c.loop conn.device c.world = true) e) c := by
  unfold configChanged
  refine wp_ask conn hconn Device.Tame.getPinConfig (fun read s hread => ?_)
    (fun e s _ => wp_lost_held e rfl rfl) fun s => ⟨rfl, trivial⟩
  rw [loop_bind]
  refine setConfig_bind ?_ ⟨rfl, trivial⟩
  simp only [loop_bind, Ctx.withDevice]
  split
  · next htarget =>
    exact (wp_only _ _).mpr ⟨fun _ => ⟨held_of_target htarget, rfl⟩, fun _ => ⟨held_of_target htarget, rfl⟩⟩
  · next target htarget =>
    split
    · next hfound => exact ⟨held_of_config (htarget.trans (congrArg some hfound.symm)), rfl⟩
    · next hfound =>
      have htarget : c.loop.target = some target := htarget
      split
      · next hlast =>
        refine wp_mono (wp_restoreTarget htarget rfl) fun r c' h => ?_
        cases r with
        | ok _ => exact h
        | error e =>
          have hlast : c.loop.lastRestore = none := hlast
          exact ⟨h.1, h.2.imp fun he => by simpa [changeRejected, htarget, hread, hfound, hlast] using he⟩
      · next last hlast =>
        simp only [instant_bind]
        split
        · simp only [instant_bind, wp_setLoop]
          exact ⟨held_of_alarm rfl, rfl⟩
        · next hsince =>
          refine wp_mono (wp_restoreTarget htarget rfl) fun r c' h => ?_
          cases r with
          | ok _ => exact h
          | error e =>
            have hlast : c.loop.lastRestore = some last := hlast
            refine ⟨h.1, h.2.imp fun he => ?_⟩
            simp [changeRejected, htarget, hread, hfound, hlast, Nat.le_of_not_lt hsince, he]

omit [World ω] in
theorem wp_checkTarget (new : PinConfig) :
    (checkTarget new).wp (post (fun _ c' => c' = c ∧
      ∀ info, c.loop.info = some info → (validatePinConfig new info.available).1 = .ok)
        fun _ c' => c' = c) c := by
  unfold checkTarget
  rw [loop_bind]
  rcases hinfo : c.loop.info with _ | info
  · exact ⟨rfl, fun _ h => by cases h⟩
  · dsimp only
    split
    · exact rfl
    · next hok => exact ⟨rfl, fun _ h => by cases h; exact not_not.mp hok⟩

/-- `set_target` leaves the target held when the device answers as `targetSafe` asks. -/
theorem wp_setTarget {new : PinConfig} (hsafe : c.targetSafe new = true) :
    (setTarget new).wp (post (fun _ c' => c'.loop.Held ∧ c'.asked = c.asked) fun e c' =>
      e.toError.isSome = true → (c.loop.Held → c'.loop.Held) ∧ c'.asked = c.asked) c := by
  unfold setTarget
  refine wp_seq (wp_checkTarget new) ?_ ?_
  · rintro _ c' ⟨hc, hcheck⟩
    rw [hc, loop_bind, setLoop_bind, loop_bind]
    rcases hconn : c.loop.conn with _ | conn
    · exact (wp_pure _ _).mpr ⟨held_of_conn rfl, rfl⟩
    have hcheck :
        (c.loop.info.any fun info => decide ((validatePinConfig new info.available).1 ≠ .ok)) = false := by
      rcases hinfo : c.loop.info with _ | info
      · rfl
      · simp [hcheck info hinfo]
    simp only [Ctx.targetSafe, hconn, hcheck, Bool.false_or] at hsafe
    dsimp only
    rw [setLoop_bind, wp_bind]
    refine (wp_onDevice conn rfl _ _).mpr ?_
    rcases hread : Device.getPinConfig.exec (conn.device, c.world) with ⟨e | read, s⟩ <;>
      refine (wp_of_exec hread _).mpr ?_ <;> rw [hread] at hsafe <;> dsimp only at hsafe
    -- The configuration cannot be read: the loop goes on with the one it saw last.
    · exact fun _ => ⟨fun _ => held_of_config (congrArg some (of_decide_eq_true hsafe).symm), rfl⟩
    simp only [post_ok, Ctx.withDevice]
    refine setConfig_bind ?_ fun herror => by cases herror
    split
    · next hfound => exact (wp_pure _ _).mpr ⟨held_of_config (congrArg some hfound.symm), rfl⟩
    next hfound =>
    rw [decide_eq_false hfound, Bool.false_or] at hsafe
    refine wp_ask _ rfl (Device.Tame.setPinConfig new) (fun _ s' _ => ?_) (fun e s' he => ?_)
      fun s' herror => by cases herror
    · refine wp_mono (wp_wrote read.config new) fun r c' h => ?_
      cases r with
      | ok _ => exact ⟨held_of_config (by rw [h.2.1, h.1]; rfl), h.2.2⟩
      | error _ => exact fun herror => by rw [h.1] at herror; cases herror
    · have hanswer : ((Device.setPinConfig new).exec s).1 = .error (.error e) := congrArg Prod.fst he
      rw [hanswer] at hsafe
      split
      · next h => cases h
      -- Rejected: the old target is back, without the restore alarm it may have had.
      · next heq =>
        cases heq
        simp only [setLoop_bind, wp_throw, post_error]
        intro _
        rcases hold : c.loop.target with _ | old
        · exact ⟨fun _ => held_of_target rfl, rfl⟩
        · have hsafe : decide (read.config = old) = true := by simpa [hold] using hsafe
          exact ⟨fun _ => held_of_config (congrArg some (of_decide_eq_true hsafe).symm), rfl⟩
      · next heq =>
        cases heq
        exact fun _ => ⟨fun _ => held_of_alarm rfl, rfl⟩
      · next hne hne' heq =>
        cases heq
        split at hsafe
        · next h => cases h; exact absurd rfl (hne' _ _)
        · next h => cases h; exact absurd rfl (hne _ _ _)
        · cases hsafe
        · next h => exact absurd rfl (h e)
  · intro e c' hc
    rw [hc]
    exact fun _ => ⟨id, rfl⟩

/-! ### The whole loop -/

/-- What an exit of a method has to establish for its caller: a panic or a program that hangs ends the
    thread, a fatal error the connection. -/
def ends : Except Stop α → Ctx ω → Prop :=
  post (fun _ => Keeping) fun e c' => e.toError.isSome = true → Keeping c'

theorem plain_keeping : Plain (@Keeping ω _) := fun _ _ hs hasked h hclean =>
  (h fun a ha => hclean a (hasked ▸ ha)).of_same hs

theorem ends_of_keeps {m : Watch ω α} (h : Keeps Keeping m) (hc : Keeping c) : m.wp ends c := by
  have hm := h c hc
  unfold wp
  rcases hexec : m.exec c with ⟨e | a, c'⟩ <;> rw [hexec] at hm
  · exact fun _ => hm
  · exact hm

theorem ends_bind {β : Type} {m : Watch ω α} {f : α → Watch ω β} (hm : m.wp ends c)
    (hf : ∀ a c', Keeping c' → (f a).wp ends c') : (m >>= f).wp ends c :=
  wp_seq hm hf fun _ _ h => h

theorem ends_result {m : Watch ω α} (hm : m.wp ends c) : (result m).wp ends c := by
  rw [wp_result]
  refine wp_mono hm fun r c' h => ?_
  rcases r with (e | _ | _ | _) | a
  · exact h rfl
  · exact fun he => by cases he
  · exact fun he => by cases he
  · exact fun he => by cases he
  · exact h

theorem Held.keeping (h : c.loop.Held) : Keeping c := fun _ => h

theorem ends_lost (error : Error) (hconn : c.loop.conn = some conn) : (lost error).wp ends c := by
  refine wp_mono (wp_lost error hconn) fun r c' h => ?_
  cases r with
  | ok _ => exact Held.keeping (held_of_conn h.1)
  | error _ => exact h.elim

/-- Without a target or a connection there is nothing to restore. -/
theorem ends_restoreTarget : restoreTarget.wp ends c := by
  rcases htarget : c.loop.target with _ | target
  · have h : Keeping c := Held.keeping (held_of_target htarget)
    unfold restoreTarget
    rw [loop_bind, htarget]
    exact h
  rcases hconn : c.loop.conn with _ | conn
  · have h : Keeping c := Held.keeping (held_of_conn hconn)
    unfold restoreTarget
    rw [loop_bind, htarget, hconn]
    exact h
  refine wp_mono (wp_restoreTarget htarget hconn) fun r c' h => ?_
  cases r with
  | ok _ => exact Held.keeping h.1
  | error e =>
    cases e with
    | error _ => exact h.2.elim
    | _ => exact fun he => by cases he

/-- The context of a `config_changed` that gets the answers it would get in `c`. -/
structure SameChange (c : Ctx ω) (conn : Connection) (c' : Ctx ω) : Prop where
  conn : ∃ conn', c'.loop.conn = some conn' ∧ conn'.device = conn.device
  world : c'.world = c.world
  target : c'.loop.target = c.loop.target
  lastRestore : c'.loop.lastRestore = c.loop.lastRestore
  held : c.loop.Held → c'.loop.Held
  asked : c'.asked = c.asked

omit [World ω] in
theorem SameChange.push {c' : Ctx ω} (h : SameChange c conn c') (event : Event) :
    SameChange c conn (c'.push event) :=
  ⟨h.conn, h.world, h.target, h.lastRestore, fun hheld => (h.held hheld).of_same ⟨rfl, rfl, rfl, rfl⟩,
    h.asked⟩

/-- `status` on a connected device: the configuration changes with a CONFIG_CHANGED report only. -/
theorem wp_status (report : StatusReport) (at' : Instant) (missed : ℕ) (hconn : c.loop.conn = some conn) :
    (status report at' missed).wp (post (fun _ c' => (c.loop.Held → c'.loop.Held) ∧ c'.asked = c.asked)
      fun e c' => ((c.loop.Held → c'.loop.Held) ∨
        FatalOnly (contains report.reason Reason.configChanged = true ∧
          changeRejected c.loop conn.device c.world = true) e) ∧ c'.asked = c.asked) c := by
  unfold status
  rw [loop_bind, connection_bind hconn, setConn_bind]
  refine wp_then (R := fun _ => SameChange c conn) ?_ fun _ c1 h1 => ?_
  · rw [wp_only]
    have hsame : c.loop.conn.isSome = true := by rw [hconn]; rfl
    exact ⟨fun _ => ⟨⟨_, rfl, rfl⟩, rfl, rfl, rfl, (·.of_same ⟨hsame.symm, rfl, rfl, rfl⟩), rfl⟩,
      fun _ => ⟨⟨_, rfl, rfl⟩, rfl, rfl, rfl, (·.of_same ⟨hsame.symm, rfl, rfl, rfl⟩), rfl⟩⟩
  rw [emit_bind]
  refine wp_then (R := fun _ => SameChange c conn) ?_ fun _ c2 h2 => ?_
  · rw [wp_only]
    exact ⟨fun _ => (h1.push _).push _, fun _ => h1.push _⟩
  refine wp_seq (R := post (fun _ c' => (c.loop.Held → c'.loop.Held) ∧ c'.asked = c.asked) fun e c' =>
    c'.asked = c.asked ∧ FatalOnly (contains report.reason Reason.configChanged = true ∧
      changeRejected c.loop conn.device c.world = true) e) ?_
    (fun _ c3 h3 => ?_) fun e c3 h3 => ⟨Or.inr h3.2, h3.1⟩
  · rw [wp_only]
    refine ⟨fun hbit => ?_, fun _ => ⟨h2.held, h2.asked⟩⟩
    obtain ⟨conn', hconn', hdevice⟩ := h2.conn
    refine wp_mono (wp_configChanged hconn') fun r c' h => ?_
    cases r with
    | ok _ => exact ⟨fun _ => h.1, h.2.trans h2.asked⟩
    | error e =>
      refine ⟨h.1.trans h2.asked, h.2.imp fun he => ⟨hbit, ?_⟩⟩
      unfold changeRejected at he ⊢
      rw [h2.target, h2.lastRestore, hdevice, h2.world] at he
      exact he
  rw [loop_bind]
  split
  · exact h3
  split
  · exact h3
  have hI : Plain fun c' : Ctx ω => (c.loop.Held → c'.loop.Held) ∧ c'.asked = c.asked :=
    fun _ _ hs hasked h => ⟨fun hheld => (h.1 hheld).of_same hs, hasked.trans h.2⟩
  have habsorb := hI.absorb report c3 h3
  unfold wp
  rcases hexec : Prog.exec (absorb report) c3 with ⟨e | a, c4⟩ <;> rw [hexec] at habsorb
  · exact ⟨Or.inl habsorb.1, habsorb.2⟩
  · exact habsorb

/-- The fatal error that `snapshot` swallows comes with an answer that `Clean` excludes. -/
theorem ends_snapshot (hconn : c.loop.conn = some conn) (hc : Keeping c) : snapshot.wp ends c := by
  unfold snapshot
  refine wp_ask conn hconn Device.Tame.requestStatus (fun report s _ => ?_) (fun e s _ => ends_lost e rfl)
    fun s he => by cases he
  refine (connection_bind rfl _).mpr ?_
  rw [setConn_bind, update_bind, instant_bind, wp_bind, wp_catching]
  refine wp_mono (wp_status report _ 0 rfl) fun r c' h => ?_
  have hkeeping : (c.loop.Held → c'.loop.Held) → (∃ a, c'.asked = c.asked ++ [a]) → Keeping c' := by
    rintro hheld ⟨a, hasked⟩ hclean
    exact hheld (hc fun a' ha' => hclean a' (by rw [hasked]; exact List.mem_append_left _ ha'))
  have hsame : ∀ conn', c.loop.Held → WatchLoop.Held { c.loop with conn := some conn' } := fun _ hheld =>
    hheld.of_same ⟨by rw [hconn]; rfl, rfl, rfl, rfl⟩
  cases r with
  | ok _ => exact hkeeping (fun hheld => h.1 (hsame _ hheld)) ⟨_, h.2⟩
  | error e =>
    obtain ⟨hheld | hfatal, hasked⟩ := h
    · have hc' : Keeping c' := hkeeping (fun h => hheld (hsame _ h)) ⟨_, hasked⟩
      cases e with
      | fatal _ => exact hc'
      | _ => exact fun _ => hc'
    · cases e with
      | error _ => exact hfatal.elim
      | fatal _ =>
        intro (hclean : ∀ a ∈ c'.asked, a.rejected = false)
        rw [hasked] at hclean
        have hrejected := hclean _ (List.mem_append_right _ (List.mem_singleton_self _))
        rw [Asked.rejected, hfatal.1, Bool.true_and, Option.any_some, hfatal.2] at hrejected
        cases hrejected
      | _ => exact fun he => by cases he

theorem ends_status (report : StatusReport) (at' : Instant) (missed : ℕ) (hconn : c.loop.conn = some conn)
    (hc : Keeping c) : (status report at' missed).wp ends c := by
  refine wp_mono (wp_status report at' missed hconn) fun r c' h => ?_
  cases r with
  | ok _ => exact fun hclean => h.1 (hc fun a ha => hclean a (h.2 ▸ ha))
  | error e =>
    obtain ⟨hheld | hfatal, hasked⟩ := h
    · exact fun _ hclean => hheld (hc fun a ha => hclean a (hasked ▸ ha))
    · cases e with
      | error _ => exact hfatal.elim
      | _ => exact fun he => by cases he

theorem ends_received (data : List U8) (at' : Instant) (hconn : c.loop.conn = some conn) (hc : Keeping c) :
    (received data at').wp ends c := by
  unfold received
  split
  · exact hc
  split
  · exact hc
  refine (connection_bind hconn _).mpr ?_
  rw [setConn_bind]
  exact ends_status _ _ _ rfl (plain_keeping c _ ⟨by rw [hconn]; rfl, rfl, rfl, rfl⟩ rfl hc)

/-- After connecting, the configuration last seen is the target. -/
theorem ends_connected (entry : DeviceEntry) (info : DeviceInfo) (device : Device) {found : PinConfig}
    (driven : List U8) (awaitingConfig : Bool)
    (htarget : ∀ target, c.loop.target = some target → found = target) :
    (connected entry info device found driven awaitingConfig).wp ends c := by
  unfold connected
  rw [setConn_bind, setLoop_bind, loop_bind, setLoop_bind]
  refine setConfig_bind ?_ fun herror => by cases herror
  rw [emit_bind]
  have hheld : ∀ l : WatchLoop, l.target = c.loop.target → l.config = found → l.Held := by
    intro l hl hconfig target _ ht hne
    exact absurd (hconfig.trans (htarget target (hl.symm.trans ht))) hne
  refine wp_then (R := fun _ c' => c'.loop.conn.isSome = true ∧ c'.loop.Held) ?_ ?_
  · split
    · exact ⟨rfl, hheld _ rfl rfl⟩
    · rw [wp_only]
      exact ⟨fun _ => ⟨rfl, hheld _ rfl rfl⟩, fun _ => ⟨rfl, hheld _ rfl rfl⟩⟩
  · rintro _ c' ⟨hconn, hheld'⟩
    obtain ⟨conn, hconn⟩ := Option.isSome_iff_exists.mp hconn
    split
    · rw [instant_bind]
      exact Held.keeping (hheld'.of_same ⟨rfl, rfl, rfl, rfl⟩)
    · exact ends_snapshot hconn (Held.keeping hheld')

theorem ends_useDevice (device : Device) (m : Device.Io ω α) (hc : Keeping c) :
    (useDevice device m).wp (fun r c' => ends r c' ∧ c'.loop = c.loop) c := by
  unfold wp
  simp only [Prog.exec, useDevice, ExceptT.run, StateT.run]
  split
  · exact ⟨plain_keeping c _ ⟨rfl, rfl, rfl, rfl⟩ rfl hc, rfl⟩
  · exact ⟨fun _ => plain_keeping c _ ⟨rfl, rfl, rfl, rfl⟩ rfl hc, rfl⟩

theorem ends_connect (entry : DeviceEntry) (hc : Keeping c) : (connect entry).wp ends c := by
  unfold connect
  rw [wp_bind, wp_call, post_ok]
  refine ends_bind (ends_of_keeps (Calm.ofExcept _) (plain_keeping c _ ⟨rfl, rfl, rfl, rfl⟩ rfl hc)) ?_
  intro _ c1 hc1
  rw [wp_bind, wp_call, post_ok]
  refine wp_seq (ends_useDevice _ _ (plain_keeping c1 _ ⟨rfl, rfl, rfl, rfl⟩ rfl hc1)) ?_ fun _ _ h => h.1
  rintro ⟨info, device⟩ c2 ⟨hc2, -⟩
  rw [setLoop_bind]
  refine wp_seq (ends_useDevice _ _ (plain_keeping c2 _ ⟨rfl, rfl, rfl, rfl⟩ rfl hc2)) ?_ fun _ _ h => h.1
  rintro ⟨read, device⟩ c3 ⟨hc3, -⟩
  rw [loop_bind]
  split
  · next htarget => exact ends_connected _ _ _ _ _ fun target ht => by rw [htarget] at ht; cases ht
  · next target htarget =>
    have hfits : ∀ {found : PinConfig} {l : WatchLoop}, l = c3.loop → found = target →
        ∀ target', l.target = some target' → found = target' := by
      rintro found l rfl rfl target' ht
      exact Option.some.inj (htarget.symm.trans ht)
    split
    · next hfound => exact ends_connected _ _ _ _ _ (hfits rfl hfound)
    · rw [wp_bind, wp_result]
      refine wp_mono (ends_useDevice _ _ hc3) fun r c4 h => ?_
      rcases r with (e | _ | _ | _) | ⟨_, device⟩
      · dsimp only [caught, Stop.toError, post_ok]
        split
        · exact fun he => by cases he
        · exact h.1
        · next heq => cases heq
      · exact fun he => by cases he
      · exact fun he => by cases he
      · exact fun he => by cases he
      · exact ends_connected _ _ _ _ _ (hfits h.2 rfl)

theorem ends_tryConnect (hc : Keeping c) : tryConnect.wp ends c := by
  have hfailed : ∀ (error : Error) {c1 : Ctx ω}, Keeping c1 →
      (failed error >>= fun _ => scanLater).wp ends c1 := fun error c1 hc1 =>
    ends_bind (ends_of_keeps (plain_keeping.failed error) hc1) fun _ _ h =>
      ends_of_keeps plain_keeping.scanLater h
  have hc1 : Keeping { c with world := (World.devices c.world).2 } :=
    plain_keeping c _ ⟨rfl, rfl, rfl, rfl⟩ rfl hc
  unfold tryConnect
  rw [wp_bind, wp_call, post_ok]
  dsimp only
  split
  · exact fun he => by cases he
  · exact hfailed _ hc1
  · rw [loop_bind]
    split
    · rw [setLoop_bind]
      exact ends_of_keeps plain_keeping.scanLater (plain_keeping c _ ⟨rfl, rfl, rfl, rfl⟩ rfl hc)
    · split
      · exact fun he => by cases he
      rw [setLoop_bind]
      refine ends_bind (ends_result (ends_connect _ ?_)) fun r c2 hc2 => ?_
      · exact plain_keeping c _ ⟨rfl, rfl, rfl, rfl⟩ rfl hc
      · split
        · exact hc2
        · exact hfailed _ hc2

theorem ends_attend (hc : Keeping c) : attend.wp ends c := by
  unfold attend
  rw [instant_bind, loop_bind]
  split
  · rw [setLoop_bind]
    exact ends_tryConnect (plain_keeping c _ ⟨rfl, rfl, rfl, rfl⟩ rfl hc)
  split
  · rw [setLoop_bind]
    exact ends_restoreTarget
  split
  · rw [setLoop_bind]
    split
    · exact plain_keeping c _ ⟨rfl, rfl, rfl, rfl⟩ rfl hc
    · next conn hconn =>
      rw [setConn_bind]
      exact ends_snapshot rfl (plain_keeping c _ ⟨by rw [hconn]; rfl, rfl, rfl, rfl⟩ rfl hc)
  split
  · exact plain_keeping c _ ⟨rfl, rfl, rfl, rfl⟩ rfl hc
  · next hread =>
    have hsome : c.loop.conn.isSome = true :=
      Option.isSome_iff_ne_none.mpr (by simpa using (not_or.mp hread).2)
    obtain ⟨conn, hconn⟩ := Option.isSome_iff_exists.mp hsome
    refine wp_ask conn hconn (Device.Tame.readRaw _) (fun data s _ => ?_) (fun e s _ => ends_lost e rfl)
      fun s he => by cases he
    have hc1 : Keeping (c.withDevice conn s) := plain_keeping c _ ⟨by rw [hconn]; rfl, rfl, rfl, rfl⟩ rfl hc
    split
    · next h => cases h
    · exact hc1
    · rw [instant_bind]
      exact ends_received _ _ rfl hc1

theorem ends_serve (request : Request)
    (hsafe : ∀ new, request = .setTargetPins new → c.targetSafe new = true) (hc : Keeping c) :
    (serve request).wp ends c := by
  refine ends_bind (ends_result ?_) fun reply c' hc' => plain_keeping c' _ ⟨rfl, rfl, rfl, rfl⟩ rfl hc'
  cases request with
  | setOutputs levels =>
    refine ends_of_keeps (Keeps.bind Calm.loop fun l => ?_) hc
    split
    · exact Keeps.throw _
    · exact plain_keeping.onDevice _
  | setTargetPins new =>
    refine wp_mono (wp_setTarget (hsafe new rfl)) fun r c' h => ?_
    cases r with
    | ok _ => exact Held.keeping h.1
    | error e => exact fun he hclean => (h he).1 (hc fun a ha => hclean a ((h he).2 ▸ ha))

/-- The target stays held through an iteration in which a `set_target_pins` is answered as `targetSafe`
    asks. -/
theorem wp_iterate (hsafe : ∀ new rest, c.serving = .setTargetPins new :: rest → c.targetSafe new = true)
    (hc : Keeping c) : iterate.wp (fun r c' => r = .ok true → Keeping c') c := by
  unfold iterate
  rw [gets_bind]
  have hends : ∀ {m : Watch ω Unit} {c1 : Ctx ω}, m.wp ends c1 →
      (m >>= fun _ => pure true).wp (fun r c' => r = .ok true → Keeping c') c1 := fun hm => by
    refine wp_seq hm (fun _ c' h _ => h) fun _ _ _ h => by cases h
  split
  · next request rest hserving =>
    rw [update_bind]
    refine hends (ends_serve request (fun new hnew => ?_) (plain_keeping c _ ⟨rfl, rfl, rfl, rfl⟩ rfl hc))
    exact hsafe new rest (hnew ▸ hserving)
  · simp only [deliver, takeRequests, update_bind, gets_bind]
    split
    · exact fun h => by cases h
    · rw [update_bind, gets_bind]
      split
      · exact fun _ => plain_keeping c _ ⟨rfl, rfl, rfl, rfl⟩ rfl hc
      · exact hends (ends_attend (plain_keeping c _ ⟨rfl, rfl, rfl, rfl⟩ rfl hc))

end Watch

namespace Watcher
variable {ω : Type} [World ω]

/-- Whether the device answers the `set_target_pins` that the step runs, if it runs one, as `targetSafe`
    asks. -/
def stepSafe (x : Watcher ω × Input) : Bool :=
  match x.2, x.1.ctx.serving with
  | .turn, .setTargetPins new :: _ => x.1.ctx.targetSafe new
  | _, _ => true

/-- A running watcher whose device is connected either has its target on the device, as last seen, or has
    the restore alarm armed, as long as no answer of the device meets one of the exits that give the
    target up. -/
theorem target_held (o : WatchOptions) (w : ω) (inputs : List Input)
    (hsafe : (Lib.steps step (start o w) inputs).all stepSafe = true)
    (hclean : ((Lib.run step (start o w) inputs).ctx.asked.any Asked.rejected) = false)
    (halive : (Lib.run step (start o w) inputs).alive = true) :
    (Lib.run step (start o w) inputs).ctx.loop.Held := by
  refine Lib.run_invariant (P := fun w : Watcher ω => w.alive = true → Keeping w.ctx)
    (A := fun w i => stepSafe (w, i) = true) (fun w i hw hi => ?_) inputs (fun _ _ => held_of_conn rfl)
    (List.all_eq_true.mp hsafe) halive fun a ha => by simpa using List.any_eq_false.mp hclean a ha
  cases i with
  | turn =>
    simp only [step, turn]
    split
    · next halive =>
      have hsafe : ∀ new rest, w.ctx.serving = .setTargetPins new :: rest → w.ctx.targetSafe new = true := by
        intro new rest hserving
        simpa [stepSafe, hserving] using hi
      have h := Watch.wp_iterate hsafe (hw halive)
      unfold Prog.wp at h
      split
      · next hexec =>
        rw [hexec] at h
        exact fun _ => h rfl
      all_goals exact fun h => by cases h
    · exact hw
  | take => exact hw
  | setTargetPins config =>
    simp only [step]
    split
    · exact hw
    · unfold Ctx.call
      split <;> exact hw
  | setOutputs levels =>
    simp only [step, Ctx.call]
    split <;> exact hw
  | close => exact hw

/-- A watcher without a target connects to an unconfigured device, then the application sets a target of
    thirty inputs and the watch thread runs the call. -/
def targetCall : List Input := [.turn, .setTargetPins fun _ => ⟨.input, 20⟩, .turn, .turn]

/-- The answers up to the Set of the call; the Set gets `sent`. -/
def targetScript (sent : Except OsError Unit) : Script where
  features :=
    [.ok Script.deviceInfo, .ok Script.unconfigured, .ok Script.unconfigured, .ok Script.unconfigured]
  sends := [sent]
  inputs := [.ok Script.status]
  reads := []

/-- The Set goes through and the configuration read back is the one of another program: the call fails
    with a conflict and the alarm is armed. -/
theorem target_held_conflict :
    (Lib.run step (start ⟨none, none, [], 1⟩ (targetScript (.ok ()))) targetCall).ctx.loop.Held :=
  target_held ⟨none, none, [], 1⟩ (targetScript (.ok ())) targetCall (by decide +kernel) (by decide +kernel)
    (by decide +kernel)

/-- The Set fails with an I/O error: the call fails, the new target stays, and nothing will write it. -/
theorem target_given_up :
    (Lib.run step (start ⟨none, none, [], 1⟩ (targetScript (.error ⟨"timed out", false⟩)))
      targetCall).alive = true ∧
    ¬ (Lib.run step (start ⟨none, none, [], 1⟩ (targetScript (.error ⟨"timed out", false⟩)))
      targetCall).ctx.loop.Held := by
  refine ⟨by decide +kernel, fun h => ?_⟩
  have h := h (fun _ => ⟨.input, 20⟩) (by decide +kernel) (by decide +kernel) (by decide +kernel)
  exact absurd h (by decide +kernel)

end Watcher

end Hidpin.Host
