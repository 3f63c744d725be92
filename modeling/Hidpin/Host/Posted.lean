import Hidpin.Host.LifeCycle

/-! What the watch thread does without the lock of the mailbox: events are emitted and pend, and a method
    that stops stops for good or with an error that the caller handles. -/

namespace Hidpin.Host
open Lib
open Prog (Keeps)

variable {ω α : Type}

/-- What the thread does without the lock: events are emitted and pend. -/
structure Posted (b c : Ctx ω) : Prop where
  shared : c.shared = b.shared
  serving : c.serving = b.serving
  replies : c.replies = b.replies
  events : ∃ new : List Emitted, c.emitted = b.emitted ++ new ∧
    c.loop.pending = b.loop.pending ++ new.map Emitted.event

namespace Posted
variable {b c c' : Ctx ω}

theorem refl (c : Ctx ω) : Posted c c := ⟨rfl, rfl, rfl, [], by simp, by simp⟩

theorem of (h : Posted b c) (hshared : c'.shared = c.shared) (hserving : c'.serving = c.serving)
    (hreplies : c'.replies = c.replies) (hemitted : c'.emitted = c.emitted)
    (hpending : c'.loop.pending = c.loop.pending) : Posted b c' where
  shared := hshared.trans h.shared
  serving := hserving.trans h.serving
  replies := hreplies.trans h.replies
  events := by
    obtain ⟨new, hnew, hpend⟩ := h.events
    exact ⟨new, hemitted.trans hnew, hpending.trans hpend⟩

theorem push (h : Posted b c) (event : Event) : Posted b (c.push event) where
  shared := h.shared
  serving := h.serving
  replies := h.replies
  events := by
    obtain ⟨new, hnew, hpend⟩ := h.events
    exact ⟨new ++ [⟨event, c.loop.config⟩], by simp [Ctx.push, hnew], by simp [Ctx.push, hpend]⟩

end Posted

/-- A method that leaves the mailbox alone, and what it may stop with. -/
structure Posting (P : Stop → Prop) (m : Watch ω α) : Prop where
  keeps : ∀ b, Keeps (Posted b) m
  stops : Prog.Stops P m

namespace Posting
open Watch (Calm Absorbs)
variable {P : Stop → Prop}

theorem pure (a : α) : Posting P (Pure.pure a : Watch ω α) := ⟨fun _ => Keeps.pure a, .pure a⟩

theorem throw {e : Stop} (he : P e) : Posting P (MonadExcept.throw e : Watch ω α) :=
  ⟨fun _ => Keeps.throw e, .throw he⟩

theorem bind {β : Type} {m : Watch ω α} {f : α → Watch ω β} (hm : Posting P m) (hf : ∀ a, Posting P (f a)) :
    Posting P (m >>= f) :=
  ⟨fun b => Keeps.bind (hm.keeps b) fun a => (hf a).keeps b, hm.stops.bind fun a => (hf a).stops⟩

theorem mono {P' : Stop → Prop} {m : Watch ω α} (hm : Posting P m) (hP : ∀ e, P e → P' e) : Posting P' m :=
  ⟨hm.keeps, hm.stops.mono hP⟩

theorem only {p : Prop} [Decidable p] {m : Watch ω Unit} (hm : Posting P m) : Posting P (Prog.only p m) :=
  ⟨fun b => Keeps.only fun _ => hm.keeps b, hm.stops.only⟩

theorem gets (f : Ctx ω → α) : Posting P (Prog.gets f : Watch ω α) := ⟨fun _ => Keeps.gets f, .gets f⟩

theorem loop : Posting P (Watch.loop : Watch ω WatchLoop) := gets _

theorem catching {β : Type} (f : Stop → Option β) {m : Watch ω α} (hm : Posting P m) :
    Posting (fun e => P e ∧ f e = none) (m.catching f) :=
  ⟨fun b => Keeps.catching (hm.keeps b), hm.stops.catching f⟩

theorem setLoop {f : WatchLoop → WatchLoop} (hf : ∀ l, (f l).pending = l.pending) :
    Posting P (Watch.setLoop f : Watch ω Unit) :=
  ⟨fun _ => Keeps.update fun c h => h.of rfl rfl rfl rfl (hf c.loop), .update _⟩

theorem setConn (conn : Connection) : Posting P (Watch.setConn conn : Watch ω Unit) := setLoop fun _ => rfl

theorem emit (event : Event) : Posting P (Watch.emit event : Watch ω Unit) :=
  ⟨fun _ => Keeps.update fun _ h => h.push event, .update _⟩

theorem call (f : ω → α × ω) :
    Posting P (Prog.call fun c : Ctx ω => ((f c.world).1, { c with world := (f c.world).2 })) :=
  ⟨fun _ => Keeps.call fun _ h => h.of rfl rfl rfl rfl rfl, .call _⟩

theorem connection (hP : P .panicked) : Posting P (Watch.connection : Watch ω Connection) := by
  refine bind loop fun l => ?_
  split
  · exact pure _
  · exact throw hP

theorem setConfig (hP : P .panicked) (config : PinConfig) :
    Posting P (Watch.setConfig config : Watch ω Unit) :=
  bind loop fun _ => bind (only (throw hP)) fun _ => setLoop fun _ => rfl

theorem failed (error : Error) : Posting P (Watch.failed error : Watch ω Unit) := by
  refine bind (setLoop fun l => ?_) fun _ => bind (setLoop fun _ => rfl) fun _ => bind loop fun _ => ?_
  · split <;> rfl
  · split
    · exact emit _
    · exact pure _

/-- A stop of a program on a device is an error of the library, or never comes. -/
abbrev Handled (e : Stop) : Prop := e.toFatal = none

/-- A stop that no method handles. -/
abbrev Escapes (e : Stop) : Prop := e.toError = none

theorem ofExcept (r : Except Error α) : Posting Handled (Watch.ofExcept r : Watch ω α) := by
  cases r with
  | ok a => exact pure a
  | error e => exact throw rfl

theorem handled_of_tame {m : Device.Io ω α} (hm : Device.Tame m) : Prog.Stops Handled m := by
  refine Prog.Stops.mono hm fun e he => ?_
  rcases he with he | rfl
  · cases e <;> first | rfl | cases he
  · rfl

theorem onDevice {m : Device.Io ω α} (hm : Device.Tame m) : Posting Handled (Watch.onDevice m) :=
  bind (connection (P := Handled) rfl) fun _ =>
    ⟨fun _ _ h => h.of rfl rfl rfl rfl rfl, (handled_of_tame hm).zoom _ _⟩

theorem useDevice (device : Device) {m : Device.Io ω α} (hm : Device.Tame m) :
    Posting Handled (Watch.useDevice device m) := by
  refine ⟨fun b c h => ?_, fun c => ?_⟩
  · simp only [Prog.exec, Watch.useDevice, ExceptT.run, StateT.run]
    split <;> exact h.of rfl rfl rfl rfl rfl
  · have hm := handled_of_tame hm (device, c.world)
    unfold Prog.wp at hm ⊢
    simp only [Prog.exec, Watch.useDevice, ExceptT.run, StateT.run] at hm ⊢
    split
    · trivial
    · next heq =>
      rw [heq] at hm
      exact hm

/-- The caller takes the errors of the library. -/
theorem result {m : Watch ω α} (hm : Posting P m) : Posting Escapes (Watch.result m) :=
  (catching Stop.toError hm).mono fun _ => And.right

theorem checkTarget (config : PinConfig) : Posting Handled (Watch.checkTarget config : Watch ω Unit) := by
  refine bind loop fun l => ?_
  split
  · exact pure _
  · dsimp only
    split
    · exact throw rfl
    · exact pure _

variable [World ω]

theorem instant : Posting P (Watch.instant : Watch ω Instant) := call World.instant

theorem lost (error : Error) : Posting P (Watch.lost error : Watch ω Unit) := by
  refine bind loop fun l => ?_
  split
  · refine bind (setLoop fun l => ?_) fun _ => bind (emit _) fun _ =>
      bind instant fun _ => setLoop fun _ => rfl
    unfold WatchLoop.dropConnection
    split <;> rfl
  · exact pure _

theorem wrote (hP : P .panicked) (found config : PinConfig) :
    Posting P (Watch.wrote found config : Watch ω Unit) :=
  bind (setConfig hP config) fun _ => bind (setLoop fun _ => rfl) fun _ => bind instant fun _ =>
    bind (setLoop fun _ => rfl) fun _ => only (emit _)

theorem restoreTarget : Posting Escapes (Watch.restoreTarget : Watch ω Unit) := by
  refine bind loop fun l => ?_
  split
  · refine bind (setLoop fun _ => rfl) fun _ => bind instant fun _ => bind (setLoop fun _ => rfl) fun _ => ?_
    refine bind (result (onDevice Device.Tame.getPinConfig)) fun r => ?_
    split
    · exact lost _
    · refine bind (setConfig (P := Escapes) rfl _) fun _ => ?_
      split
      · exact pure _
      · refine bind (result (onDevice (Device.Tame.setPinConfig _))) fun r => ?_
        split
        · exact bind (setLoop fun _ => rfl) fun _ => bind loop fun _ => bind (emit _) fun _ =>
            wrote (P := Escapes) rfl _ _
        · exact throw rfl
        · exact bind instant fun _ => setLoop fun _ => rfl
        · exact lost _
  · exact pure _

theorem configChanged : Posting Escapes (Watch.configChanged : Watch ω Unit) := by
  refine bind (result (onDevice Device.Tame.getPinConfig)) fun r => ?_
  split
  · exact lost _
  · refine bind loop fun _ => bind (setConfig (P := Escapes) rfl _) fun _ => bind loop fun _ => ?_
    split
    · split
      · exact emit _
      · exact pure _
    · split
      · exact pure _
      · split
        · exact restoreTarget
        · refine bind instant fun _ => ?_
          dsimp only
          split
          · exact bind instant fun _ => setLoop fun _ => rfl
          · exact restoreTarget

theorem setTarget (config : PinConfig) : Posting Handled (Watch.setTarget config : Watch ω Unit) := by
  refine bind (checkTarget config) fun _ => bind loop fun _ => bind (setLoop fun _ => rfl) fun _ =>
    bind loop fun _ => ?_
  split
  · exact pure _
  · refine bind (setLoop fun _ => rfl) fun _ => bind (onDevice Device.Tame.getPinConfig) fun _ =>
      bind (setConfig (P := Handled) rfl _) fun _ => ?_
    split
    · exact pure _
    · refine bind ((catching Stop.toError (onDevice (Device.Tame.setPinConfig _))).mono fun _ => And.left)
        fun r => ?_
      split
      · exact wrote (P := Handled) rfl _ _
      · exact bind (setLoop fun _ => rfl) fun _ => throw rfl
      · exact bind instant fun _ => bind (setLoop fun _ => rfl) fun _ => throw rfl
      · exact throw rfl

/-- What the closure of a request does. -/
theorem closure (request : Request) : Posting Handled (match request with
    | .setTargetPins config => Watch.setTarget config
    | .setOutputs levels => do
      match (← Watch.loop).conn with
      | none => MonadExcept.throw (.error .deviceDisconnected)
      | some _ => Watch.onDevice (Device.setOutputs levels) : Watch ω Unit) := by
  cases request with
  | setTargetPins config => exact setTarget config
  | setOutputs levels =>
    refine bind loop fun l => ?_
    split
    · exact throw rfl
    · exact onDevice (Device.Tame.setOutputs levels)

omit [World ω] in
theorem absorbLevels (report : StatusReport) :
    ∀ gpios, Prog.Stops Escapes (Watch.absorbLevels report gpios : Watch ω _)
  | [] => .pure _
  | gpio :: gpios => by
    refine .bind (.bind (.gets _) fun l => ?_) fun _ => .bind (absorbLevels report gpios) fun _ => .pure _
    dsimp only
    split
    · exact .bind (.update _) fun _ => .pure _
    · exact .bind (.only (.update _)) fun _ => .bind (.update _) fun _ => .pure _

theorem clockAt (startUs : Option U64) : Prog.Stops Escapes (Watch.clockAt? startUs : Watch ω _) := by
  cases startUs with
  | none => exact .pure _
  | some startUs =>
    refine .bind ?_ fun _ => .pure _
    refine .bind (connection (P := Escapes) rfl).stops fun conn => .bind instant.stops fun now =>
      .bind (.call _) fun wall => ?_
    split
    · exact .pure _
    · exact .throw rfl

theorem absorbEvent (report : StatusReport) (event : EdgeEvent) :
    Prog.Stops Escapes (Watch.absorbEvent report event : Watch ω Unit) := by
  refine .bind (.gets _) fun l => ?_
  split
  · exact .pure _
  · exact .bind (.only (.throw rfl)) fun _ => .bind (.only (.update _)) fun _ => .bind (clockAt _) fun _ =>
      .bind (.update _) fun _ => .update _

theorem absorb (report : StatusReport) : Posting Escapes (Watch.absorb report : Watch ω Unit) := by
  refine ⟨fun b => ?_, ?_⟩
  · have hI : Absorbs (Posted (ω := ω) b) :=
      { known := fun _ h => h.of rfl rfl rfl rfl rfl
        instant := fun h => h.of rfl rfl rfl rfl rfl
        systemTime := fun h => h.of rfl rfl rfl rfl rfl
        push := fun _ h => h.push _
        absorbed := fun _ h => h.of rfl rfl rfl rfl rfl }
    exact hI.absorb report
  · exact .bind (.gets _) fun _ => .bind (.each (absorbEvent report) _) fun _ =>
      .bind (absorbLevels report _) fun _ => .bind (.update _) fun _ => .bind (.only (.update _)) fun _ =>
      .update _

theorem scanLater : Posting P (Watch.scanLater : Watch ω Unit) := bind instant fun _ => setLoop fun _ => rfl

theorem status (report : StatusReport) (at' : Instant) (missed : ℕ) :
    Posting Escapes (Watch.status report at' missed : Watch ω Unit) := by
  refine bind loop fun _ => bind (connection (P := Escapes) rfl) fun _ => bind (setConn _) fun _ =>
    bind (only (setLoop fun _ => rfl)) fun _ => bind (emit _) fun _ => bind (only (emit _)) fun _ =>
    bind (only configChanged) fun _ => bind loop fun l => ?_
  split
  · exact pure _
  · split
    · exact pure _
    · exact absorb report

theorem received (data : List U8) (at' : Instant) :
    Posting Escapes (Watch.received data at' : Watch ω Unit) := by
  unfold Watch.received
  split
  · exact pure _
  · split
    · exact pure _
    · exact bind (connection (P := Escapes) rfl) fun _ => bind (setConn _) fun _ => status _ _ _

theorem snapshot : Posting Escapes (Watch.snapshot : Watch ω Unit) := by
  refine bind (result (onDevice Device.Tame.requestStatus)) fun r => ?_
  split
  · exact lost _
  · refine bind (connection (P := Escapes) rfl) fun _ => bind (setConn _) fun _ =>
      bind ⟨fun _ => Keeps.update fun _ h => h.of rfl rfl rfl rfl rfl, .update _⟩ fun _ =>
        bind instant fun _ => ?_
    exact bind ((catching _ (status _ _ _)).mono fun _ => And.left) fun _ => pure _

theorem connected (entry : DeviceEntry) (info : DeviceInfo) (device : Device) (found : PinConfig)
    (driven : List U8) (awaitingConfig : Bool) :
    Posting Escapes (Watch.connected entry info device found driven awaitingConfig : Watch ω Unit) := by
  refine bind (setConn _) fun _ => bind (setLoop fun _ => rfl) fun _ => bind loop fun _ =>
    bind (setLoop fun _ => rfl) fun _ => bind (setConfig (P := Escapes) rfl _) fun _ =>
      bind (emit _) fun _ => bind ?_ fun _ => ?_
  · split
    · exact emit _
    · exact only (emit _)
  · split
    · exact bind instant fun _ => setLoop fun _ => rfl
    · exact snapshot

/-- The caller handles every error of it that is no end of the thread. -/
theorem connect (entry : DeviceEntry) : Posting (fun _ => True) (Watch.connect entry : Watch ω Unit) := by
  have hany : ∀ {β : Type} {Q : Stop → Prop} {m : Watch ω β}, Posting Q m → Posting (fun _ => True) m :=
    fun hm => hm.mono fun _ _ => trivial
  refine bind (call (World.openDevice entry)) fun r => bind (hany (ofExcept r)) fun _ =>
    bind (call World.seed) fun seed =>
    bind (hany (useDevice _ Device.Tame.readInfo)) fun opened => bind (setLoop fun _ => rfl) fun _ =>
    bind (hany (useDevice _ Device.Tame.getPinConfig)) fun read => bind loop fun l => ?_
  split
  · exact hany (connected _ _ _ _ _ _)
  · split
    · exact hany (connected _ _ _ _ _ _)
    · refine bind (hany (result (useDevice _ (Device.Tame.setPinConfig _)))) fun r => ?_
      split
      · exact throw trivial
      · exact throw trivial
      · exact hany (connected _ _ _ _ _ _)

theorem tryConnect : Posting Escapes (Watch.tryConnect : Watch ω Unit) := by
  refine bind (call World.devices) fun r => ?_
  split
  · exact throw rfl
  · exact bind (failed _) fun _ => scanLater
  · refine bind loop fun l => ?_
    dsimp only
    split
    · exact bind (setLoop fun _ => rfl) fun _ => scanLater
    · split
      · exact throw rfl
      · refine bind (setLoop fun _ => rfl) fun _ => bind (result (connect _)) fun r => ?_
        split
        · exact pure _
        · exact bind (failed _) fun _ => scanLater

theorem attend : Posting Escapes (Watch.attend : Watch ω Unit) := by
  refine bind instant fun now => bind loop fun l => ?_
  split
  · exact bind (setLoop fun _ => rfl) fun _ => tryConnect
  split
  · exact bind (setLoop fun _ => rfl) fun _ => restoreTarget
  split
  · refine bind (setLoop fun _ => rfl) fun _ => ?_
    split
    · exact pure _
    · exact bind (setConn _) fun _ => snapshot
  split
  · exact pure _
  · refine bind (result (onDevice (Device.Tame.readRaw _))) fun r => ?_
    split
    · exact lost _
    · exact pure _
    · exact bind instant fun now => received _ _

end Posting

/-- A closure that ends has a reply; it is the only one more. -/
theorem serve_posted [World ω] (request : Request) (b : Ctx ω) :
    (Watch.serve request).wp (Prog.post
      (fun _ c => ∃ reply, Posted { b with replies := b.replies ++ [(request, reply)] } c)
      fun e c => e.toFatal = none ∧ e.toError = none ∧ Posted b c) b := by
  have hclosure := Posting.closure (ω := ω) request
  unfold Watch.serve
  rw [Prog.wp_bind, Watch.wp_result]
  have hkeeps := hclosure.keeps b b (.refl b)
  refine Prog.wp_mono (Q := fun r c =>
      Prog.post (fun _ _ => True) (fun (e : Stop) _ => e.toFatal = none) r c ∧ Posted b c)
    ⟨hclosure.stops b, hkeeps⟩ fun r c hr => ?_
  obtain ⟨hstop, hposted⟩ := hr
  have hreply : ∀ reply, Posted { b with replies := b.replies ++ [(request, reply)] }
      { c with replies := c.replies ++ [(request, reply)] } := fun reply =>
    ⟨hposted.shared, hposted.serving, by rw [hposted.replies], hposted.events⟩
  rcases r with (e | e | _ | _) | _
  · exact ⟨_, hreply _⟩
  · cases hstop
  · exact ⟨rfl, rfl, hposted⟩
  · exact ⟨rfl, rfl, hposted⟩
  · exact ⟨_, hreply _⟩

end Hidpin.Host
