/-
  Barrier/Reconfigure.lean --- what becomes of a request to use new settings.

  Another task puts new settings in force and then sets `EVENT_RECONNECT`.  The check
  before the handshake clears the bit and applies the settings: screen size and scaling
  go to the actuator, and the TLS client is made anew from server and port.  The check
  inside the packet loop clears the bit as well, but only leaves the loop: nothing
  remembers the request, and the next handshake is made with the old TLS client.

  The settings are read one by one while they are applied.  A change that comes in
  between mixes two versions, until the bit is set for the new one.
-/
import Esp32Deskflow.Barrier.TaskSteps
import Esp32Deskflow.Foundation.History
import Esp32Deskflow.Foundation.Transition

set_option autoImplicit false

namespace Esp32Deskflow.Barrier

open Esp32Deskflow.Foundation Esp32Deskflow.Foundation.History
  Esp32Deskflow.Foundation.Transition Esp32Deskflow.Network Esp32Deskflow.Config
  Esp32Deskflow.Libc Esp32Deskflow.Tusb

/-! ## Requests and settings -/

/-- The TLS client has been destroyed and made anew for these settings, and the attempts
to queue their screen size and scaling have been made. -/
def Applied (cfg : DeskflowConfig) (events : List Event) : Prop :=
  (∃ before after, events = before ++ .tlsDestroy :: after ∧
    .tlsCreate cfg.server.bytes cfg.port.toNat true ∈ after) ∧
  .act (.setScreenSize cfg.screenWidth cfg.screenHeight) ∈ events ∧
  .act (.setScaling cfg.scaling) ∈ events

/-- Once the bit has been set for a version and then been cleared, no handshake begins
before a version at least as new has been applied. -/
def NoChangeLost (w : World) : Prop :=
  ∀ before between after v,
    w.trace = before ++ .reconnectCleared :: (between ++ .handshake :: after) →
    .reconnectSet v ∈ before →
    ∃ u cfg, v ≤ u ∧ w.settings.versions[u]? = some cfg ∧ Applied cfg between

/-- The new settings agree with the present ones in what the check before the handshake
has already read. -/
def keepsRead (pc : Pc) (cfg current : DeskflowConfig) : Bool :=
  match pc with
  | .queueScaling =>
      cfg.screenWidth == current.screenWidth && cfg.screenHeight == current.screenHeight
  | .destroyTls | .createTls =>
      cfg.screenWidth == current.screenWidth && cfg.screenHeight == current.screenHeight &&
        cfg.scaling == current.scaling
  | _ => true

/-- The check inside of the packet loop does not find the bit set, the new TLS client can
be made, and the settings do not change under the check before the handshake. -/
def keepsRequests (w : World) : Label → Bool
  | .task io =>
      match w.pc with
      | .checkBit _ => !(w.client.networkEvents && w.reconnectBit)
      | .createTls => io.created
      | _ => true
  | .env (.putSettings cfg) => keepsRead w.pc cfg w.settings.current
  | .env _ => true

/-! ## The invariant -/

/-- After a clear, each version asked for before has been applied, or a newer one. -/
def Reapplied (settings : Settings) (before after : List Event) : Prop :=
  ∀ v, .reconnectSet v ∈ before →
    ∃ u cfg, v ≤ u ∧ settings.versions[u]? = some cfg ∧ Applied cfg after

/-- At each clear of the bit, what was asked for before it is applied after it. -/
def AllReapplied (settings : Settings) (trace : List Event) : Prop :=
  AtEach (fun e => e = .reconnectCleared) (Reapplied settings) trace

/-- The bit has been cleared and the settings are not yet applied. -/
def Pc.applying : Pc → Bool
  | .queueScreenSize | .queueScaling | .destroyTls | .createTls => true
  | _ => false

/-- What has been done since the clear. -/
def actionsDone (cfg : DeskflowConfig) : Pc → List Event
  | .queueScaling => [.act (.setScreenSize cfg.screenWidth cfg.screenHeight)]
  | .destroyTls =>
      [.act (.setScreenSize cfg.screenWidth cfg.screenHeight), .act (.setScaling cfg.scaling)]
  | .createTls =>
      [.act (.setScreenSize cfg.screenWidth cfg.screenHeight), .act (.setScaling cfg.scaling),
        .tlsDestroy]
  | _ => []

/-- What was asked for is applied, or the bit is still set, or the task is about to apply it. -/
structure ReconfInv (w : World) : Prop where
  known : ∀ v, .reconnectSet v ∈ w.trace → v ≤ w.settings.version
  noClear : w.pc ≠ .clearBit
  started : Always (fun before e => e = .handshake → AllReapplied w.settings before) w.trace
  applied : w.pc.applying = false → AllReapplied w.settings w.trace
  applying : w.pc.applying = true → ∃ old new, w.trace = old ++ .reconnectCleared :: new ∧
    AllReapplied w.settings old ∧ .reconnectCleared ∉ new ∧
    ∀ e ∈ actionsDone w.settings.current w.pc, e ∈ new

theorem ReconfInv.noChangeLost {w : World} (h : ReconfInv w) : NoChangeLost w := by
  intro before between after v htrace hv
  have hsplit : w.trace = (before ++ .reconnectCleared :: between) ++ .handshake :: after := by
    rw [htrace, List.append_assoc, List.cons_append]
  have hall := h.started _ _ _ hsplit rfl
  exact hall before _ between rfl rfl v hv

theorem Applied.append {cfg : DeskflowConfig} {events : List Event} (h : Applied cfg events)
    (more : List Event) : Applied cfg (events ++ more) := by
  obtain ⟨⟨before, after, rfl, hcreate⟩, hscreen, hscaling⟩ := h
  refine ⟨⟨before, after ++ more, ?_, List.mem_append_left _ hcreate⟩,
    List.mem_append_left _ hscreen, List.mem_append_left _ hscaling⟩
  rw [List.append_assoc, List.cons_append]

theorem Reapplied.append {settings : Settings} (before after more : List Event)
    (h : Reapplied settings before after) : Reapplied settings before (after ++ more) := by
  intro v hv
  obtain ⟨u, cfg, hle, hcfg, happlied⟩ := h v hv
  exact ⟨u, cfg, hle, hcfg, happlied.append more⟩

theorem AllReapplied.append {settings : Settings} {trace events : List Event}
    (h : AllReapplied settings trace) (hevents : .reconnectCleared ∉ events) :
    AllReapplied settings (trace ++ events) :=
  AtEach.append_of_forall Reapplied.append h fun _ he heq => hevents (heq ▸ he)

/-- Later versions do not change the earlier ones. -/
theorem AllReapplied.put {settings : Settings} {trace : List Event} (cfg : DeskflowConfig)
    (h : AllReapplied settings trace) : AllReapplied (settings.put cfg) trace := by
  intro before e after hsplit he v hv
  obtain ⟨u, old, hle, hold, happlied⟩ := h before e after hsplit he v hv
  refine ⟨u, old, hle, ?_, happlied⟩
  have hlt : u < settings.versions.length := by
    by_contra hge
    rw [List.getElem?_eq_none (by omega)] at hold
    cases hold
  show (settings.versions ++ [cfg])[u]? = some old
  rwa [List.getElem?_append_left hlt]

theorem versions_version (settings : Settings) :
    settings.versions[settings.version]? = some settings.current := by
  simp [Settings.versions, Settings.version]

/-! ## Steps -/

/-- A step that applies nothing and neither sets nor clears the bit. -/
theorem ReconfInv.append_plain {w w' : World} {events : List Event} (h : ReconfInv w)
    (htrace : w'.trace = w.trace ++ events) (hplain : ∀ e ∈ events, e.Plain)
    (hsettings : w'.settings = w.settings) (hpc : w.pc.applying = false)
    (hpc' : w'.pc.applying = false) (hclear : w'.pc ≠ .clearBit) : ReconfInv w' := by
  have hnone : .reconnectCleared ∉ events := fun hmem => (hplain _ hmem).1 rfl
  refine ⟨?_, hclear, ?_, ?_, ?_⟩
  · intro v hv
    rw [htrace] at hv
    rw [hsettings]
    rcases List.mem_append.mp hv with hv | hv
    · exact h.known v hv
    · exact absurd rfl ((hplain _ hv).2 v)
  · rw [htrace, hsettings]
    refine h.started.append fun before e after hsplit _ => (h.applied hpc).append ?_
    exact fun hmem => hnone (hsplit ▸ List.mem_append_left _ hmem)
  · rw [htrace, hsettings]
    exact fun _ => (h.applied hpc).append hnone
  · rw [hpc']
    nofun

theorem Event.Plain.act (cmd : ActCmd) : (Event.act cmd).Plain := ⟨nofun, nofun⟩

theorem Event.Plain.tlsDestroy : Event.tlsDestroy.Plain := ⟨nofun, nofun⟩

/-- One more action of the check before the handshake. -/
theorem ReconfInv.advance {w w' : World} {e : Event} (h : ReconfInv w)
    (htrace : w'.trace = w.trace ++ [e]) (hplain : e.Plain) (hne : e ≠ .handshake)
    (hsettings : w'.settings = w.settings) (hpc : w.pc.applying = true)
    (hpc' : w'.pc.applying = true)
    (hdone : ∀ a ∈ actionsDone w.settings.current w'.pc,
      a ∈ actionsDone w.settings.current w.pc ∨ a = e) : ReconfInv w' := by
  refine ⟨?_, ?_, ?_, ?_, ?_⟩
  · intro v hv
    rw [htrace] at hv
    rw [hsettings]
    rcases List.mem_append.mp hv with hv | hv
    · exact h.known v hv
    · exact absurd (List.mem_singleton.mp hv).symm (hplain.2 v)
  · intro hclear
    rw [hclear] at hpc'
    cases hpc'
  · rw [htrace, hsettings]
    exact h.started.concat fun heq => absurd heq hne
  · rw [hpc']
    nofun
  · intro _
    obtain ⟨old, new, hold, hall, hnone, hnew⟩ := h.applying hpc
    refine ⟨old, new ++ [e], ?_, ?_, ?_, ?_⟩
    · rw [htrace, hold, List.append_assoc, List.cons_append]
    · rwa [hsettings]
    · intro hmem
      rcases List.mem_append.mp hmem with hmem | hmem
      · exact hnone hmem
      · exact hplain.1 (List.mem_singleton.mp hmem).symm
    · rw [hsettings]
      intro a ha
      rcases hdone a ha with ha | rfl
      · exact List.mem_append_left _ (hnew a ha)
      · exact List.mem_append_right _ List.mem_cons_self

/-- The check before the handshake clears the bit. -/
theorem ReconfInv.clear {w : World} (h : ReconfInv w) (hpc : w.pc = .clearReconnect) :
    ReconfInv ({ w with reconnectBit := false }.goto .queueScreenSize [.reconnectCleared]) := by
  refine ⟨?_, nofun, h.started.concat nofun, nofun, fun _ => ?_⟩
  · intro v hv
    rcases List.mem_append.mp hv with hv | hv
    · exact h.known v hv
    · cases List.mem_singleton.mp hv
  · exact ⟨w.trace, [], rfl, h.applied (by rw [hpc]; rfl), List.not_mem_nil, nofun⟩

/-- The last action: the new TLS client. -/
theorem ReconfInv.create {w : World} {io : Io} (h : ReconfInv w) (hpc : w.pc = .createTls)
    (hcreated : io.created = true) : ReconfInv (w.stepCreateTls io) := by
  obtain ⟨old, new, hold, hall, hnone, hnew⟩ := h.applying (by rw [hpc]; rfl)
  rw [hpc] at hnew
  have happlied : Applied w.settings.current (new ++
      [.tlsCreate w.settings.current.server.bytes w.settings.current.port.toNat true]) := by
    obtain ⟨before, after, hdestroy⟩ :=
      List.append_of_mem (hnew .tlsDestroy (by simp [actionsDone]))
    refine ⟨⟨before, after ++ [_], ?_, List.mem_append_right _ List.mem_cons_self⟩, ?_, ?_⟩
    · rw [hdestroy, List.append_assoc, List.cons_append]
    · exact List.mem_append_left _ (hnew _ (by simp [actionsDone]))
    · exact List.mem_append_left _ (hnew _ (by simp [actionsDone]))
  unfold World.stepCreateTls
  simp only [hcreated, if_true]
  refine ⟨?_, nofun, h.started.concat nofun, fun _ => ?_, nofun⟩
  · intro v hv
    rcases List.mem_append.mp hv with hv | hv
    · exact h.known v hv
    · cases List.mem_singleton.mp hv
  · show AllReapplied w.settings (w.trace ++ _)
    rw [hold, List.append_assoc, List.cons_append]
    refine AtEach.append_cons Reapplied.append hall (fun v hv => ?_) ?_
    · refine ⟨w.settings.version, w.settings.current, ?_, versions_version _, happlied⟩
      exact h.known v (hold ▸ List.mem_append_left _ hv)
    · intro e he heq
      rcases List.mem_append.mp he with he | he
      · exact hnone (heq ▸ he)
      · rw [heq] at he
        cases List.mem_singleton.mp he

theorem not_applying_of_inSession {pc : Pc} (h : pc.inSession = true) : pc.applying = false := by
  cases pc <;> first | rfl | cases h

theorem Event.plain_of_not_isControl {e : Event} (h : e.isControl = false) : e.Plain := by
  refine ⟨?_, fun v => ?_⟩
  · rintro rfl
    cases h
  · rintro rfl
    cases h

/-- Inside of a session the bit stays as it is. -/
theorem ReconfInv.session {w w' : World} {io : Io} (h : ReconfInv w)
    (hkeep : keepsRequests w (.task io) = true) (hpc : w.pc.inSession = true)
    (hstep : taskStep w io = some w') : ReconfInv w' := by
  have hold := not_applying_of_inSession hpc
  obtain ⟨events, hmove⟩ | ⟨pkt, err, events, hpacket⟩ | ⟨_, hpc', htrace, _, hsettings⟩ :=
    taskStep_inSession hpc hstep
  · refine h.append_plain hmove.trace ?_ hmove.settings hold
      (not_applying_of_inSession hmove.pc) fun hclear => ?_
    · intro e he
      rcases hmove.quiet e he with rfl | rfl | rfl
      · exact ⟨nofun, nofun⟩
      · exact absurd (hmove.cleared he) h.noClear
      · exact ⟨nofun, nofun⟩
    · obtain ⟨⟨pkt, hcheck⟩, hbit⟩ := hmove.toClear hclear
      rw [keepsRequests, hcheck] at hkeep
      simp only [hbit] at hkeep
      cases hkeep
  · have hevents := hpacket.handled.events
    obtain ⟨_, hpc', htrace⟩ | ⟨_, hpc', htrace⟩ := hpacket.next
    · refine h.append_plain htrace ?_ hpacket.settings hold (by rw [hpc']; rfl)
        (by rw [hpc']; nofun)
      exact fun e he => Event.plain_of_not_isControl (hevents e he).1
    · refine h.append_plain htrace ?_ hpacket.settings hold (by rw [hpc']; rfl)
        (by rw [hpc']; nofun)
      rw [← List.cons_append]
      intro e he
      rcases List.mem_append.mp he with he | he
      · exact Event.plain_of_not_isControl (hevents e he).1
      · cases List.mem_singleton.mp he
        exact ⟨nofun, nofun⟩
  · refine h.append_plain htrace ?_ hsettings hold (by rw [hpc']; rfl) (by rw [hpc']; nofun)
    simp [Event.Plain]

theorem reconfigures_of_applying {pc : Pc} (h : pc.applying = true) : pc.reconfigures = true := by
  cases pc <;> first | rfl | cases h

theorem taskStep_reconfInv {w w' : World} {io : Io} (h : ReconfInv w)
    (hkeep : keepsRequests w (.task io) = true) (hstep : taskStep w io = some w') :
    ReconfInv w' := by
  by_cases hin : w.pc.inSession = true
  · exact h.session hkeep hin hstep
  have hstep' := hstep
  unfold taskStep at hstep
  cases hw : w.pc with
  | clearReconnect =>
      rw [hw] at hstep
      cases hstep
      exact h.clear hw
  | queueScreenSize =>
      rw [hw] at hstep
      cases hstep
      refine h.advance rfl (.act _) (by simp) rfl (by rw [hw]; rfl) rfl fun a ha => ?_
      exact Or.inr (List.mem_singleton.mp ha)
  | queueScaling =>
      rw [hw] at hstep
      cases hstep
      refine h.advance rfl (.act _) (by simp) rfl (by rw [hw]; rfl) rfl fun a ha => ?_
      rw [hw]
      rcases List.mem_cons.mp ha with ha | ha
      · exact Or.inl (List.mem_singleton.mpr ha)
      · exact Or.inr (List.mem_singleton.mp ha)
  | destroyTls =>
      rw [hw] at hstep
      cases hstep
      refine h.advance rfl .tlsDestroy (by simp) rfl (by rw [hw]; rfl) rfl fun a ha => ?_
      rw [hw]
      simpa [actionsDone, World.goto, or_assoc] using ha
  | createTls =>
      rw [hw] at hstep
      cases hstep
      rw [keepsRequests, hw] at hkeep
      exact h.create hw hkeep
  | connected =>
      rw [hw] at hstep
      cases hstep
      have hloop : w.stepConnected.pc = .loopHead := rfl
      refine h.append_plain rfl (by simp [Event.Plain]) rfl (by rw [hw]; rfl) rfl ?_
      rw [hloop]
      simp
  | _ =>
      obtain ⟨events, hout⟩ :=
        taskStep_outside (Bool.eq_false_iff.mpr hin) (by rw [hw]; simp) hstep'
      obtain ⟨hplain, hnext⟩ := hout.plain (by rw [hw]; rfl)
      refine h.append_plain hout.trace hplain hout.settings (by rw [hw]; rfl) ?_ ?_
      · refine Bool.eq_false_iff.mpr fun happly => ?_
        rw [hnext (reconfigures_of_applying happly)] at happly
        cases happly
      · intro hclear
        have hpc' := hout.pc
        rw [hclear] at hpc'
        cases hpc'

/-- New settings that agree with the old ones in what has been read keep what has been done. -/
theorem actionsDone_of_keepsRead {pc : Pc} {cfg current : DeskflowConfig}
    (h : keepsRead pc cfg current = true) : actionsDone cfg pc = actionsDone current pc := by
  cases pc with
  | queueScaling | destroyTls | createTls =>
      simp only [keepsRead, Bool.and_eq_true, beq_iff_eq] at h
      simp [actionsDone, h]
  | _ => rfl

theorem envStep_reconfInv {w w' : World} {act : EnvAct} (h : ReconfInv w)
    (hkeep : keepsRequests w (.env act) = true) (hstep : envStep w act = some w') :
    ReconfInv w' := by
  cases act with
  | putSettings cfg =>
      cases hstep
      refine ⟨?_, h.noClear, ?_, ?_, ?_⟩
      · intro v hv
        have hle := h.known v hv
        show v ≤ w.settings.versions.length
        simp only [Settings.version] at hle
        simp only [Settings.versions, List.length_append, List.length_singleton]
        omega
      · intro before e after hsplit he
        exact (h.started before e after hsplit he).put cfg
      · exact fun hpc => (h.applied hpc).put cfg
      · intro hpc
        obtain ⟨old, new, hold, hall, hnone, hnew⟩ := h.applying hpc
        refine ⟨old, new, hold, hall.put cfg, hnone, ?_⟩
        show ∀ e ∈ actionsDone cfg w.pc, e ∈ new
        rw [actionsDone_of_keepsRead hkeep]
        exact hnew
  | setReconnect v =>
      simp only [envStep] at hstep
      split at hstep
      · rename_i hle
        cases hstep
        refine ⟨?_, h.noClear, h.started.concat (by simp), ?_, ?_⟩
        · intro u hu
          rcases List.mem_append.mp hu with hu | hu
          · exact h.known u hu
          · cases List.mem_singleton.mp hu
            exact hle
        · exact fun hpc => (h.applied hpc).append (by simp)
        · intro hpc
          obtain ⟨old, new, hold, hall, hnone, hnew⟩ := h.applying hpc
          refine ⟨old, new ++ [.reconnectSet v], ?_, hall, ?_, ?_⟩
          · show w.trace ++ [.reconnectSet v] = _
            rw [hold, List.append_assoc, List.cons_append]
          · simpa using hnone
          · exact fun e he => List.mem_append_left _ (hnew e he)
      · cases hstep
  | stop =>
      cases hstep
      exact ⟨h.known, h.noClear, h.started, h.applied, h.applying⟩

/-! ## Runs -/

theorem reconfInv_initial (cfg : DeskflowConfig) (networkEvents : Bool) :
    ReconfInv (World.initial cfg networkEvents) := by
  have hnil : AllReapplied ⟨[], cfg⟩ [] := atEach_nil
  refine ⟨by simp [World.initial], nofun, ?_, fun _ => hnil.append (by simp), nofun⟩
  exact (always_nil _).append_of_forall (by simp)

/-- However the tasks are interleaved: if the check inside of the packet loop never finds
the bit set, the new TLS client can be made, and the settings do not change under the check
before the handshake, then no request for new settings is lost. -/
theorem reconnect_noChangeLost {cfg : DeskflowConfig} {networkEvents : Bool}
    {labels : List Label} {w : World}
    (hkeep : AllSteps step (fun w l => keepsRequests w l = true)
      (World.initial cfg networkEvents) labels)
    (hrun : run step (World.initial cfg networkEvents) labels = some w) : NoChangeLost w := by
  have hinv := run_invariant_of_good (fun _ l _ h hk hs => by
      cases l with
      | task io => exact taskStep_reconfInv h hk hs
      | env act => exact envStep_reconfInv h hk hs)
    (reconfInv_initial cfg networkEvents) hkeep hrun
  exact hinv.noChangeLost

/-- Settings with another server. -/
def otherServer : DeskflowConfig :=
  { configDefaults with server := strncpy 64 serverSize_pos (ascii "10.0.0.5") }

/-- The settings change before the first handshake. -/
def changedBeforeLabels : List Label :=
  [.task {}, .env (.putSettings otherServer), .env (.setReconnect 1)] ++
    List.replicate 13 (.task {})

theorem reconnect_noChangeLost_changedBefore :
    ∃ w, run step (World.initial configDefaults true) changedBeforeLabels = some w ∧
      w.trace.getLast? = some .handshake ∧
      w.client.tls.map TlsClient.server = some (ascii "10.0.0.5") ∧ NoChangeLost w := by
  have hkeep : AllSteps step (fun w l => keepsRequests w l = true)
      (World.initial configDefaults true) changedBeforeLabels := by
    decide +kernel
  have hrun : (run step (World.initial configDefaults true) changedBeforeLabels).map
      (fun w => (w.trace.getLast?, w.client.tls.map TlsClient.server)) =
      some (some .handshake, some (ascii "10.0.0.5")) := by
    decide +kernel
  obtain ⟨w, hw, hval⟩ := Option.map_eq_some_iff.mp hrun
  obtain ⟨hlast, hserver⟩ := Prod.mk.inj hval
  exact ⟨w, hw, hlast, hserver, reconnect_noChangeLost hkeep hw⟩

/-- The settings change during a session, before its next packet. -/
def changedInSessionLabels : List Label :=
  connectLabels 4 calvFrame ++
    [.task {}, .env (.putSettings otherServer), .env (.setReconnect 1),
      .task { reads := [{ result := .moved 4 }, { result := .moved 4 }] }] ++
    List.replicate 9 (.task {})

/-- The packet loop clears the bit, and the next handshake is made as if nothing had been
changed. -/
theorem reconnect_changeLost :
    ¬ ∀ (cfg : DeskflowConfig) (networkEvents : Bool) (labels : List Label) (w : World),
      run step (World.initial cfg networkEvents) labels = some w → NoChangeLost w := by
  intro hall
  have hrun : (run step (World.initial configDefaults true) changedInSessionLabels).map
      (fun w => w.trace.drop 6) = some ([.reconnectSet 1] ++ .reconnectCleared ::
        ([.loopExit, .act .disconnected, .tlsClose] ++ .handshake :: [])) := by
    decide +kernel
  obtain ⟨w, hw, htail⟩ := Option.map_eq_some_iff.mp hrun
  have htrace := List.take_append_drop 6 w.trace
  rw [htail, ← List.append_assoc] at htrace
  obtain ⟨u, cfg, _, _, ⟨before, after, hdestroy, _⟩, _⟩ :=
    hall _ _ _ w hw _ _ _ 1 htrace.symm (by simp)
  have hmem : Event.tlsDestroy ∈ [.loopExit, .act .disconnected, .tlsClose] := by
    rw [hdestroy]
    simp
  revert hmem
  decide

end Esp32Deskflow.Barrier
