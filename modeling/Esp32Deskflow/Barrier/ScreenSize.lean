/-
  Barrier/ScreenSize.lean --- the screen size in a `DINF` and the one given to the actuator.

  A `QINF` is answered from the settings, and the actuator scales with the size that the
  client last queued for it.  A save or a reload changes the settings at once; the
  actuator learns of it only when `EVENT_RECONNECT` is handled, and a reload does not
  set it.
-/
import Esp32Deskflow.Barrier.TaskSteps
import Esp32Deskflow.Foundation.History
import Esp32Deskflow.Foundation.Transition
import Esp32Deskflow.Tusb.Unmounted

set_option autoImplicit false

namespace Esp32Deskflow.Barrier

open Esp32Deskflow.Foundation Esp32Deskflow.Foundation.History
  Esp32Deskflow.Foundation.Transition Esp32Deskflow.Network Esp32Deskflow.Config
  Esp32Deskflow.Tusb

/-! ## The two sizes -/

/-- The command that the client attempts to queue, if the event is such a call. -/
def Event.queued : Event → Option ActCmd
  | .act cmd => some cmd
  | _ => none

/-- The commands that the client attempted to queue, in order. -/
def attempted (events : List Event) : List ActCmd := events.filterMap Event.queued

/-- `screen_width` and `screen_height`. -/
def screenSize (cfg : DeskflowConfig) : UInt16 × UInt16 := (cfg.screenWidth, cfg.screenHeight)

/-- The size that the event tells the server, if it is a `DINF`. -/
def Event.toldSize : Event → Option (UInt16 × UInt16)
  | .sent (.dinf info) _ _ => some (info.w, info.h)
  | _ => none

/-- Every `DINF` carries the size of the last `SET_SCREEN_SIZE` before it, or `given` if there
is none. -/
def ToldScreen (given : UInt16 × UInt16) (trace : List Event) : Prop :=
  Always (fun before e => ∀ size ∈ e.toldSize, size = screenAfter given (attempted before)) trace

instance (given : UInt16 × UInt16) (trace : List Event) : Decidable (ToldScreen given trace) :=
  have (before : List Event) (e : Event) :
      Decidable (∀ size ∈ e.toldSize, size = screenAfter given (attempted before)) :=
    Option.decidableForallMem _
  decidableAlways trace

/-- The event has no part in either size. -/
def Event.noSize : Event → Bool
  | .act (.setScreenSize _ _) | .sent (.dinf _) _ _ => false
  | _ => true

theorem toldSize_of_noSize {e : Event} (h : e.noSize = true) : e.toldSize = none := by
  unfold Event.toldSize
  split
  · cases h
  · rfl

theorem attempted_append (es fs : List Event) :
    attempted (es ++ fs) = attempted es ++ attempted fs := List.filterMap_append

theorem screenAfter_of_noSize {given : UInt16 × UInt16} {events : List Event}
    (h : ∀ e ∈ events, e.noSize = true) : screenAfter given (attempted events) = given := by
  induction events with
  | nil => rfl
  | cons e events ih =>
      have hone : screenAfter given (attempted [e]) = given := by
        have he := h e List.mem_cons_self
        cases e with
        | act cmd =>
            cases cmd <;> first | rfl | cases he
        | _ => rfl
      have hrest := ih fun a ha => h a (List.mem_cons_of_mem e ha)
      rw [← List.singleton_append, attempted_append, screenAfter_append, hone, hrest]

/-- Events without a size change nothing. -/
theorem screenAfter_append_noSize {given : UInt16 × UInt16} {trace events : List Event}
    (h : ∀ e ∈ events, e.noSize = true) :
    screenAfter given (attempted (trace ++ events)) = screenAfter given (attempted trace) := by
  rw [attempted_append, screenAfter_append, screenAfter_of_noSize h]

theorem toldScreen_append_iff {given : UInt16 × UInt16} {trace events : List Event}
    (h : ∀ e ∈ events, e.noSize = true) :
    ToldScreen given (trace ++ events) ↔ ToldScreen given trace := by
  refine ⟨Always.left, fun htold => htold.append_of_forall ?_⟩
  intro e he before size hsize
  rw [toldSize_of_noSize (h e he)] at hsize
  cases hsize

/-! ## What a step adds to the trace -/

/-- The packet that answers a `QINF`. -/
def deviceInfo (cfg : DeskflowConfig) : Packet :=
  .dinf {
    x := 0, y := 0, w := cfg.screenWidth, h := cfg.screenHeight, dummy := 0, mx := 0, my := 0 }

/-- A step names no size, gives the present one to the actuator, or tells it to the server. -/
inductive SizeStep (w : World) (l : Label) (w' : World) : Prop
  | quiet (events : List Event) (htrace : w'.trace = w.trace ++ events)
      (hevents : ∀ e ∈ events, e.noSize = true)
      (hpc : ∀ io, l = .task io → w.pc ≠ .queueScreenSize ∧ w.pc ≠ .handlePacket .qinf)
  | queues (io : Io) (hl : l = .task io) (hpc : w.pc = .queueScreenSize)
      (htrace : w'.trace = w.trace ++ [.act (.setScreenSize w.settings.current.screenWidth
        w.settings.current.screenHeight)])
  | answers (io : Io) (hl : l = .task io) (hpc : w.pc = .handlePacket .qinf) (frame : Bytes)
      (accepted : Nat) (rest : List Event) (hrest : ∀ e ∈ rest, e.noSize = true)
      (htrace : w'.trace = w.trace ++ [.handled .qinf] ++
        [.sent (deviceInfo w.settings.current) frame accepted] ++ rest)

/-- Outside of a session only the `EVENT_RECONNECT` check names a size. -/
theorem Pc.Emits.noSize {pc : Pc} {e : Event} (h : pc.Emits e) (hpc : pc ≠ .queueScreenSize) :
    e.noSize = true := by
  cases pc with
  | clearReconnect | destroyTls | closeTls | closeSession | handshakeFailed =>
      cases h
      rfl
  | queueScreenSize => exact absurd rfl hpc
  | queueScaling =>
      obtain ⟨_, rfl⟩ := h
      rfl
  | createTls =>
      obtain ⟨_, _, _, rfl⟩ := h
      rfl
  | handshake => rcases h with rfl | ⟨_, _, rfl⟩ <;> rfl
  | _ => cases h

/-- Only a `QINF` is answered with a size. -/
theorem Handled.noSize {client client' : BarrierClient} {pkt : Packet} {err : EspErr}
    {events : List Event} (hh : Handled client pkt err client' events) (hpkt : pkt ≠ .qinf) :
    ∀ e ∈ Event.handled pkt :: events, e.noSize = true := by
  intro e he
  rcases List.mem_cons.mp he with rfl | he
  · rfl
  · rcases hh.calls e he with hcall | hcall
    · cases e with
      | act cmd => cases cmd <;> first | rfl | cases hcall
      | sent => cases hcall
      | _ => rfl
    · obtain ⟨out, hout⟩ := Option.isSome_iff_exists.mp hcall
      have htype : out.pkt.type ∈ (replyType pkt).toList := by
        rw [← hh.reply]
        exact List.mem_map_of_mem (List.mem_filterMap.mpr ⟨e, he, hout⟩)
      cases e with
      | sent p frame accepted =>
          cases hout
          cases pkt with
          | qinf => exact absurd rfl hpkt
          | calv => cases p <;> first | rfl | simp [replyType, Packet.type] at htype
          | _ => cases htype
      | _ => cases hout

/-- The answer to a `QINF`. -/
theorem sizeStep_qinf {w w' : World} {io : Io} (hpc : w.pc = .handlePacket .qinf)
    (h : w.stepHandlePacket .qinf io = some w') : SizeStep w (.task io) w' := by
  obtain ⟨⟨err, client, events⟩, hhandle, hval⟩ := Option.map_eq_some_iff.mp h
  have hsend : sendPacket w.client (deviceInfo w.settings.current) io.handle.writes =
      some (err, client, events) := hhandle
  obtain ⟨_, _, accepted, _, rfl, _⟩ := sendPacket_spec (by simp [deviceInfo, Packet.type]) hsend
  simp only at hval
  split at hval
  · cases hval
    refine .answers io rfl hpc (wireFrame (deviceInfo w.settings.current)) accepted [] (by simp) ?_
    rw [List.append_nil, List.append_assoc]
    rfl
  · cases hval
    refine .answers io rfl hpc (wireFrame (deviceInfo w.settings.current)) accepted [.loopExit]
      (by simp [Event.noSize]) ?_
    rw [List.append_assoc, List.append_assoc]
    rfl

theorem step_size {w w' : World} {l : Label} (h : step w l = some w') : SizeStep w l w' := by
  cases l with
  | env act =>
      obtain ⟨_, _, _, _, events, htrace, hevents⟩ := envStep_frame h
      refine .quiet events htrace (fun e he => ?_) nofun
      obtain ⟨v, _, rfl⟩ := hevents e he
      rfl
  | task io =>
      by_cases hqinf : w.pc = .handlePacket .qinf
      · unfold step taskStep at h
        rw [hqinf] at h
        exact sizeStep_qinf hqinf h
      by_cases hqueue : w.pc = .queueScreenSize
      · unfold step taskStep at h
        rw [hqueue] at h
        cases h
        exact .queues io rfl hqueue rfl
      have hpc : ∀ io', Label.task io = .task io' →
          w.pc ≠ .queueScreenSize ∧ w.pc ≠ .handlePacket .qinf := fun _ _ => ⟨hqueue, hqinf⟩
      by_cases hsession : w.pc.inSession = true
      · obtain ⟨events, hmove⟩ | ⟨pkt, err, events, hp⟩ | ⟨_, _, htrace, _⟩ :=
          taskStep_inSession hsession h
        · refine .quiet events hmove.trace (fun e he => ?_) hpc
          rcases hmove.quiet e he with rfl | rfl | rfl <;> rfl
        · have hevents := hp.handled.noSize fun heq => hqinf (heq ▸ hp.pc)
          rcases hp.next with ⟨_, _, htrace⟩ | ⟨_, _, htrace⟩
          · exact .quiet _ htrace hevents hpc
          · refine .quiet _ htrace (fun e he => ?_) hpc
            rw [← List.cons_append] at he
            rcases List.mem_append.mp he with he | he
            · exact hevents e he
            · cases List.mem_singleton.mp he
              rfl
        · exact .quiet _ htrace (by simp [Event.noSize]) hpc
      · by_cases hconn : w.pc = .connected
        · unfold step taskStep at h
          rw [hconn] at h
          cases h
          exact .quiet _ rfl (by simp [Event.noSize]) hpc
        · obtain ⟨events, hmove⟩ := taskStep_outsideMove (Bool.eq_false_iff.mpr hsession) hconn h
          exact .quiet events hmove.trace (fun e he => (hmove.emits e he).noSize hqueue) hpc

/-! ## Runs -/

/-- The size in the settings when the client task last queued it. -/
def sizeQueued (w : World) : Label → UInt16 × UInt16 → UInt16 × UInt16
  | .task _, applied =>
      if w.pc = .queueScreenSize then screenSize w.settings.current else applied
  | .env _, applied => applied

/-- A `QINF` is handled while the settings still have, or have again, the size that they had
when the client task last queued it. -/
def SizeKept (s : World × (UInt16 × UInt16)) : Label → Prop
  | .task _ => s.1.pc = .handlePacket .qinf → screenSize s.1.settings.current = s.2
  | .env _ => True

instance (s : World × (UInt16 × UInt16)) (l : Label) : Decidable (SizeKept s l) :=
  match l with
  | .task _ => inferInstanceAs (Decidable (s.1.pc = _ → screenSize s.1.settings.current = s.2))
  | .env _ => isTrue trivial

/-- The client task with the size that it last queued. -/
def sizedStep : World × (UInt16 × UInt16) → Label → Option (World × (UInt16 × UInt16)) :=
  withGhost step sizeQueued

/-- After `barrier_client_create`, which queues the size. -/
def Sized.initial (cfg : DeskflowConfig) (networkEvents : Bool) : World × (UInt16 × UInt16) :=
  (World.initial cfg networkEvents, screenSize cfg)

/-- The trace has the size that was last queued. -/
def SizeInv (given : UInt16 × UInt16) (s : World × (UInt16 × UInt16)) : Prop :=
  screenAfter given (attempted s.1.trace) = s.2

theorem sizeQueued_of_ne {w : World} {l : Label} {applied : UInt16 × UInt16}
    (hpc : ∀ io, l = .task io → w.pc ≠ .queueScreenSize) : sizeQueued w l applied = applied := by
  cases l with
  | task io => exact if_neg (hpc io rfl)
  | env act => rfl

theorem sizedStep_inv {given : UInt16 × UInt16} {s t : World × (UInt16 × UInt16)} {l : Label}
    (hinv : SizeInv given s) (h : sizedStep s l = some t) : SizeInv given t := by
  obtain ⟨hstep, hghost⟩ := withGhost_eq_some_iff.mp h
  unfold SizeInv at hinv ⊢
  cases step_size hstep with
  | quiet events htrace hevents hpc =>
      rw [hghost, htrace, screenAfter_append_noSize hevents, hinv,
        sizeQueued_of_ne fun io hl => (hpc io hl).1]
  | queues io hl hpc htrace =>
      rw [hghost, htrace, attempted_append, screenAfter_append, hl, sizeQueued, if_pos hpc]
      rfl
  | answers io hl hpc frame accepted rest hrest htrace =>
      have hne : ∀ io', l = .task io' → s.1.pc ≠ .queueScreenSize := by
        intro _ _
        rw [hpc]
        nofun
      rw [hghost, htrace, screenAfter_append_noSize hrest, attempted_append, attempted_append,
        screenAfter_append, screenAfter_append, hinv, sizeQueued_of_ne hne]
      rfl

/-- One step keeps what the server was told, exactly if it is good. -/
theorem sizedStep_told {given : UInt16 × UInt16} {s t : World × (UInt16 × UInt16)} {l : Label}
    (hinv : SizeInv given s) (h : sizedStep s l = some t) :
    ToldScreen given t.1.trace ↔ ToldScreen given s.1.trace ∧ SizeKept s l := by
  obtain ⟨hstep, _⟩ := withGhost_eq_some_iff.mp h
  cases step_size hstep with
  | quiet events htrace hevents hpc =>
      have hkept : SizeKept s l := by
        cases l with
        | task io => exact fun hq => absurd hq (hpc io rfl).2
        | env act => trivial
      rw [htrace, toldScreen_append_iff hevents]
      exact (and_iff_left hkept).symm
  | queues io hl hpc htrace =>
      have hkept : SizeKept s l := by
        subst hl
        intro hq
        rw [hpc] at hq
        cases hq
      rw [htrace]
      refine ⟨fun htold => ⟨htold.left, hkept⟩, fun htold => htold.1.concat nofun⟩
  | answers io hl hpc frame accepted rest hrest htrace =>
      have hhandled : ∀ e ∈ [Event.handled .qinf], e.noSize = true := by
        simp [Event.noSize]
      have hlast : screenAfter given (attempted (s.1.trace ++ [.handled .qinf])) = s.2 := by
        rw [screenAfter_append_noSize hhandled]
        exact hinv
      rw [htrace, toldScreen_append_iff hrest, ToldScreen, always_concat_iff, hlast]
      refine and_congr (toldScreen_append_iff hhandled) ?_
      subst hl
      constructor
      · intro htold _
        exact htold _ rfl
      · intro hkept size hsize
        cases hsize
        exact hkept hpc

theorem toldScreen_initial (cfg : DeskflowConfig) (networkEvents : Bool) :
    ToldScreen (screenSize cfg) (World.initial cfg networkEvents).trace := by
  have hnone : ∀ e ∈ (World.initial cfg networkEvents).trace, e.toldSize = none := by
    simp [World.initial, Event.toldSize]
  intro before e after hsplit size hsize
  rw [hnone e (by rw [hsplit]; simp)] at hsize
  cases hsize

/-- The server is told the size that the actuator was last given, exactly if every `QINF` finds
that size in the settings. -/
theorem toldScreen_iff {cfg : DeskflowConfig} {networkEvents : Bool} {labels : List Label}
    {w : World} (hrun : run step (World.initial cfg networkEvents) labels = some w) :
    ToldScreen (screenSize cfg) w.trace ↔
      AllSteps sizedStep SizeKept (Sized.initial cfg networkEvents) labels := by
  obtain ⟨applied, hsized⟩ := run_withGhost sizeQueued (screenSize cfg) hrun
  have hinitial : SizeInv (screenSize cfg) (Sized.initial cfg networkEvents) := rfl
  have hiff := run_iff_allSteps (P := fun s => ToldScreen (screenSize cfg) s.1.trace)
    (fun _ _ _ => sizedStep_inv) (fun _ _ _ => sizedStep_told) hinitial hsized
  rw [hiff]
  exact and_iff_right (toldScreen_initial cfg networkEvents)

/-- `QINF` on the wire. -/
def qinfFrame : Bytes := u32Bytes 4 ++ ascii "QINF"

/-- A connection whose server asks for the screen. -/
def askedLabels : List Label :=
  connectLabels 4 qinfFrame ++ turnLabels 4 { writes := [.moved 22] }

theorem toldScreen_iff_asked :
    ∃ w, run step (World.initial configDefaults true) askedLabels = some w ∧
      ToldScreen (screenSize configDefaults) w.trace := by
  obtain ⟨w, hrun⟩ := Option.isSome_iff_exists.mp
    (show (run step (World.initial configDefaults true) askedLabels).isSome = true by
      decide +kernel)
  exact ⟨w, hrun, (toldScreen_iff hrun).mpr (by decide +kernel)⟩

/-- A USB stick with settings for a larger screen is mounted before the client connects. -/
def reloadedLabels : List Label :=
  .env (.putSettings { configDefaults with screenWidth := 2560, screenHeight := 1440 }) ::
    askedLabels

/-- The server is told 2560 x 1440, and the actuator was given 1920 x 1080. -/
theorem toldScreen_reloaded :
    ∃ w, run step (World.initial configDefaults true) reloadedLabels = some w ∧
      ¬ ToldScreen (screenSize configDefaults) w.trace := by
  have hview : (run step (World.initial configDefaults true) reloadedLabels).map
      (fun w => decide (ToldScreen (screenSize configDefaults) w.trace)) = some false := by
    decide +kernel
  obtain ⟨w, hrun, htold⟩ := Option.map_eq_some_iff.mp hview
  exact ⟨w, hrun, of_decide_eq_false htold⟩

end Esp32Deskflow.Barrier
