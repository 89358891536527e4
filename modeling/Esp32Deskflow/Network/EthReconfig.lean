/-
  Network/EthReconfig.lean --- `eth_reconfig_task` beside the default event loop.

  The task restarts DHCP and waits for `EVENT_ETH_HAS_IP`, which tells a new address from no
  address only if the bit was clear when DHCP was restarted.  No handler clears it, and an
  event for an address of before the restart may still be in the queue of the event loop.
-/
import Esp32Deskflow.Foundation.Transition
import Esp32Deskflow.Network.EthNetwork

set_option autoImplicit false

namespace Esp32Deskflow.Network

open Esp32Deskflow.Foundation.EventGroup Esp32Deskflow.Foundation.Transition

/-! ## The event loop -/

/-- An event of the default event loop for which a handler is registered. -/
inductive LoopEvent where
  | eth (e : EthEvent)
  | gotIp
  deriving DecidableEq, Repr

/-- The event that the event loop dispatches. -/
def LoopEvent.toNetEvent : LoopEvent → NetEvent
  | .eth e => .eth e
  | .gotIp => .gotIp

/-- One write of a handler. -/
inductive HandlerAct where
  | linkUp (up : Bool)
  | hasIp
  | setBits (mask : BitVec 32)
  | clearBits (mask : BitVec 32)
  deriving DecidableEq, Repr

/-- The writes of `eth_event_handler` and `got_ip_event_handler`, in their order. -/
def handlerActs : LoopEvent → List HandlerAct
  | .eth .connected => [.linkUp true, .setBits eventEthLinkUp, .clearBits eventEthLinkDown]
  | .eth .disconnected => [.linkUp false, .clearBits eventEthLinkUp, .setBits eventEthLinkDown]
  | .eth .start => []
  | .eth .stop => []
  | .eth .other => []
  | .gotIp => [.hasIp, .setBits eventEthHasIp]

/-- One access of a handler. -/
def runAct (n : EthNetwork) : HandlerAct → EthNetwork
  | .linkUp up => { n with ethState := n.ethState.map fun st => { st with linkUp := up } }
  | .hasIp => { n with ethState := n.ethState.map fun st => { st with hasIp := true } }
  | .setBits mask => { n with eventGroup := n.eventGroup.map fun bits => setBits bits mask }
  | .clearBits mask => { n with eventGroup := n.eventGroup.map fun bits => clearBits bits mask }

/-- The writes of a handler one after the other are the handler. -/
theorem foldl_runAct (n : EthNetwork) (e : LoopEvent) :
    (handlerActs e).foldl runAct n = handleEvent n e.toNetEvent := by
  obtain ⟨ethState, eventGroup⟩ := n
  cases e with
  | gotIp => rfl
  | eth e =>
      cases e with
      | start | stop | other => rfl
      | connected | disconnected => cases eventGroup <;> rfl

/-- The write sets the address bit. -/
def HandlerAct.setsHasIp : HandlerAct → Bool
  | .setBits mask => decide (AnySet mask eventEthHasIp)
  | .linkUp _ | .hasIp | .clearBits _ => false

theorem exists_setsHasIp_iff {e : LoopEvent} :
    (∃ act ∈ handlerActs e, act.setsHasIp = true) ↔ e = .gotIp := by
  cases e with
  | gotIp => exact iff_of_true ⟨_, List.mem_cons_of_mem _ (List.mem_singleton.mpr rfl), rfl⟩ rfl
  | eth e =>
      refine iff_of_false ?_ nofun
      cases e with
      | start | stop | other => exact fun h => nomatch h
      | connected | disconnected =>
          rintro ⟨act, hact, hsets⟩
          simp only [handlerActs, List.mem_cons, List.not_mem_nil, or_false] at hact
          rcases hact with rfl | rfl | rfl <;> exact absurd hsets (by decide)

/-! ## The task -/

/-- Where `eth_reconfig_task` is. -/
inductive ReconfigPc where
  | entry
  | restart
  | delaying
  | waiting
  | signalling (expired : Bool)
  | ended
  deriving DecidableEq, Repr

/-- `eth_reconfig_task`, the event loop and what they share.  `netif` says that `eth_netif` is
not null, `events` are waiting for a handler, and `handler` is what the handler in progress has
still to write. -/
structure EthReconfig where
  net : EthNetwork
  netif : Bool
  regs : VlanRegs
  events : List LoopEvent
  handler : List HandlerAct
  pc : ReconfigPc
  deriving DecidableEq, Repr

/-- A step of `eth_reconfig_task`, of the event loop or of the handlers. -/
inductive ReconfigStep where
  /-- `config_get_current` returns no configuration, or one with this VLAN -/
  | setVlan (cfg : Option Int16)
  | checkNetif
  | startDhcp
  /-- `xEventGroupWaitBits` returns, with its time expired or not -/
  | wake (expired : Bool)
  | signal
  /-- an event occurs -/
  | post (e : LoopEvent)
  /-- the event loop calls the handler of the next event -/
  | dispatch
  | handle
  /-- another task sets or clears `EVENT_RECONNECT` -/
  | reconnect (on : Bool)
  deriving DecidableEq, Repr

/-- One step, if it is possible. -/
def reconfigStep (emacEtv : UInt32) (s : EthReconfig) : ReconfigStep → Option EthReconfig
  | .setVlan cfg =>
      if s.pc = .entry then
        some { s with
          regs :=
            match cfg with
            | none => s.regs
            | some vlanId => ethSetVlan emacEtv vlanId s.regs
          pc := .restart }
      else none
  | .checkNetif =>
      if s.pc = .restart then
        some { s with pc := if s.net.ethState.isSome && s.netif then .delaying else .waiting }
      else none
  | .startDhcp => if s.pc = .delaying then some { s with pc := .waiting } else none
  | .wake expired =>
      match s.net.eventGroup with
      | none => none
      | some bits =>
          if s.pc = .waiting ∧ (expired = true ∨ AnySet bits eventEthHasIp) then
            some { s with pc := .signalling expired }
          else none
  | .signal =>
      match s.pc with
      | .signalling _ => some { s with net := handleEvent s.net (.reconnect true), pc := .ended }
      | .entry | .restart | .delaying | .waiting | .ended => none
  | .post e => some { s with events := s.events ++ [e] }
  | .dispatch =>
      match s.handler, s.events with
      | [], e :: events => some { s with events := events, handler := handlerActs e }
      | _, _ => none
  | .handle =>
      match s.handler with
      | [] => none
      | act :: handler => some { s with net := runAct s.net act, handler := handler }
  | .reconnect on => some { s with net := handleEvent s.net (.reconnect on) }

/-! ## What the task may signal -/

/-- The task has not called `esp_netif_dhcpc_start`, or it has, and then whether a got-IP event
has occurred since. -/
abbrev SinceStart := Option Bool

/-- The log of the newest start of DHCP, after a step. -/
def nextSince (_ : EthReconfig) (a : ReconfigStep) (since : SinceStart) : SinceStart :=
  match a with
  | .startDhcp => some false
  | .post .gotIp => since.map fun _ => true
  | _ => since

/-- The system that remembers the got-IP events since `esp_netif_dhcpc_start`. -/
def sinceStep (emacEtv : UInt32) :
    EthReconfig × SinceStart → ReconfigStep → Option (EthReconfig × SinceStart) :=
  withGhost (reconfigStep emacEtv) nextSince

/-- If the step sets `EVENT_RECONNECT` for the task and the wait has not expired, a got-IP event
has occurred since `esp_netif_dhcpc_start`. -/
def SignalsFresh (s : EthReconfig × SinceStart) (a : ReconfigStep) : Prop :=
  a = .signal → s.1.pc = .signalling false → s.2 = some true

/-- The address bit is set, or it will be for an event that has occurred. -/
def AddressDue (s : EthReconfig) : Prop :=
  ∃ bits, s.net.eventGroup = some bits ∧
    (AnySet bits eventEthHasIp ∨ (∃ act ∈ s.handler, act.setsHasIp = true) ∨
      LoopEvent.gotIp ∈ s.events)

/-- DHCP is restarted, and at a moment at which no address is announced. -/
def RestartsClear (s : EthReconfig × SinceStart) : ReconfigStep → Prop
  | .checkNetif =>
      s.1.pc = .restart → s.1.net.eventGroup ≠ none →
        (s.1.net.ethState.isSome && s.1.netif) = true
  | .startDhcp => s.1.pc = .delaying → ¬ AddressDue s.1
  | _ => True

instance (s : EthReconfig × SinceStart) (a : ReconfigStep) : Decidable (SignalsFresh s a) :=
  inferInstanceAs (Decidable (_ → _ → _))

instance (s : EthReconfig) : Decidable (AddressDue s) :=
  match hbits : s.net.eventGroup with
  | none => isFalse fun ⟨bits, hsome, _⟩ => nomatch hbits.symm.trans hsome
  | some bits =>
      decidable_of_iff (AnySet bits eventEthHasIp ∨ (∃ act ∈ s.handler, act.setsHasIp = true) ∨
          LoopEvent.gotIp ∈ s.events)
        ⟨fun hdue => ⟨bits, hbits, hdue⟩, fun ⟨bits', hsome, hdue⟩ => by
          obtain rfl := Option.some.inj (hbits.symm.trans hsome)
          exact hdue⟩

instance (s : EthReconfig × SinceStart) : (a : ReconfigStep) → Decidable (RestartsClear s a)
  | .checkNetif => inferInstanceAs (Decidable (_ → _ → _ = true))
  | .startDhcp => inferInstanceAs (Decidable (_ → ¬ AddressDue s.1))
  | .setVlan _ | .wake _ | .signal | .post _ | .dispatch | .handle | .reconnect _ =>
      isTrue trivial

/-- Every step but the two at which the task restarts DHCP. -/
def ReconfigStep.afterRestart : ReconfigStep → Bool
  | .checkNetif | .startDhcp => false
  | .setVlan _ | .wake _ | .signal | .post _ | .dispatch | .handle | .reconnect _ => true

/-! ## Only got-IP events announce an address -/

theorem eventGroup_runAct {n : EthNetwork} {act : HandlerAct} {bits : BitVec 32}
    (h : n.eventGroup = some bits) : ∃ bits', (runAct n act).eventGroup = some bits' ∧
      (act.setsHasIp = true → AnySet bits' eventEthHasIp) := by
  cases act with
  | linkUp up => exact ⟨bits, h, nofun⟩
  | hasIp => exact ⟨bits, h, nofun⟩
  | setBits mask =>
      refine ⟨_, congrArg (Option.map _) h, fun hsets => ?_⟩
      exact anySet_setBits.mpr (Or.inr (of_decide_eq_true hsets))
  | clearBits mask => exact ⟨_, congrArg (Option.map _) h, nofun⟩

/-- The address bit is set after a write if it was set before or the write sets it. -/
theorem hasIp_of_runAct {n : EthNetwork} {act : HandlerAct} {bits' : BitVec 32}
    (h : (runAct n act).eventGroup = some bits') :
    ∃ bits, n.eventGroup = some bits ∧
      (AnySet bits' eventEthHasIp → AnySet bits eventEthHasIp ∨ act.setsHasIp = true) := by
  cases act with
  | linkUp up => exact ⟨bits', h, Or.inl⟩
  | hasIp => exact ⟨bits', h, Or.inl⟩
  | setBits mask =>
      obtain ⟨bits, hbits, rfl⟩ := Option.map_eq_some_iff.mp h
      refine ⟨bits, hbits, fun hset => (anySet_setBits.mp hset).imp_right ?_⟩
      exact fun hmask => decide_eq_true hmask
  | clearBits mask =>
      obtain ⟨bits, hbits, rfl⟩ := Option.map_eq_some_iff.mp h
      exact ⟨bits, hbits, fun hset => Or.inl (anySet_of_clearBits hset)⟩

theorem hasIp_of_reconnect {n : EthNetwork} {on : Bool} {bits' : BitVec 32}
    (h : (handleEvent n (.reconnect on)).eventGroup = some bits') :
    ∃ bits, n.eventGroup = some bits ∧
      (AnySet bits' eventEthHasIp → AnySet bits eventEthHasIp) := by
  obtain ⟨bits, hbits, rfl⟩ := Option.map_eq_some_iff.mp h
  refine ⟨bits, hbits, fun hset => ?_⟩
  cases on with
  | true => exact (anySet_setBits_of_disjoint (by decide)).mp hset
  | false => exact anySet_of_clearBits hset

/-! ## What a step does -/

/-- The steps with their guards. -/
inductive Reconfigures (s : EthReconfig) : ReconfigStep → EthReconfig → Prop
  | setVlan {cfg : Option Int16} (regs : VlanRegs) (hpc : s.pc = .entry) :
      Reconfigures s (.setVlan cfg) { s with regs := regs, pc := .restart }
  | stopDhcp (hpc : s.pc = .restart) (hnetif : (s.net.ethState.isSome && s.netif) = true) :
      Reconfigures s .checkNetif { s with pc := .delaying }
  | skipDhcp (hpc : s.pc = .restart) (hnetif : ¬ (s.net.ethState.isSome && s.netif) = true) :
      Reconfigures s .checkNetif { s with pc := .waiting }
  | startDhcp (hpc : s.pc = .delaying) : Reconfigures s .startDhcp { s with pc := .waiting }
  | wake {expired : Bool} {bits : BitVec 32} (hpc : s.pc = .waiting)
      (hbits : s.net.eventGroup = some bits)
      (hwake : expired = true ∨ AnySet bits eventEthHasIp) :
      Reconfigures s (.wake expired) { s with pc := .signalling expired }
  | signal {expired : Bool} (hpc : s.pc = .signalling expired) :
      Reconfigures s .signal { s with net := handleEvent s.net (.reconnect true), pc := .ended }
  | post (e : LoopEvent) : Reconfigures s (.post e) { s with events := s.events ++ [e] }
  | dispatch {e : LoopEvent} {events : List LoopEvent} (hhandler : s.handler = [])
      (hevents : s.events = e :: events) :
      Reconfigures s .dispatch { s with events := events, handler := handlerActs e }
  | handle {act : HandlerAct} {handler : List HandlerAct} (hhandler : s.handler = act :: handler) :
      Reconfigures s .handle { s with net := runAct s.net act, handler := handler }
  | reconnect (on : Bool) :
      Reconfigures s (.reconnect on) { s with net := handleEvent s.net (.reconnect on) }

variable {emacEtv : UInt32}

theorem reconfigures_of_step {s t : EthReconfig} {a : ReconfigStep}
    (h : reconfigStep emacEtv s a = some t) : Reconfigures s a t := by
  cases a with
  | setVlan cfg =>
      obtain ⟨hpc, h⟩ := Option.ite_none_right_eq_some.mp h
      cases h
      exact .setVlan _ hpc
  | checkNetif =>
      obtain ⟨hpc, h⟩ := Option.ite_none_right_eq_some.mp h
      by_cases hnetif : (s.net.ethState.isSome && s.netif) = true
      · rw [if_pos hnetif] at h
        cases h
        exact .stopDhcp hpc hnetif
      · rw [if_neg hnetif] at h
        cases h
        exact .skipDhcp hpc hnetif
  | startDhcp =>
      obtain ⟨hpc, h⟩ := Option.ite_none_right_eq_some.mp h
      cases h
      exact .startDhcp hpc
  | wake expired =>
      cases hbits : s.net.eventGroup with
      | none =>
          simp only [reconfigStep, hbits] at h
          cases h
      | some bits =>
          simp only [reconfigStep, hbits] at h
          obtain ⟨⟨hpc, hwake⟩, h⟩ := Option.ite_none_right_eq_some.mp h
          cases h
          exact .wake hpc hbits hwake
  | signal =>
      cases hpc : s.pc with
      | signalling expired =>
          simp only [reconfigStep, hpc] at h
          cases h
          exact .signal hpc
      | entry | restart | delaying | waiting | ended =>
          simp only [reconfigStep, hpc] at h
          cases h
  | post e =>
      cases h
      exact .post e
  | dispatch =>
      cases hhandler : s.handler with
      | cons act handler =>
          simp only [reconfigStep, hhandler] at h
          cases h
      | nil =>
          cases hevents : s.events with
          | nil =>
              simp only [reconfigStep, hhandler, hevents] at h
              cases h
          | cons e events =>
              simp only [reconfigStep, hhandler, hevents] at h
              cases h
              exact .dispatch hhandler hevents
  | handle =>
      cases hhandler : s.handler with
      | nil =>
          simp only [reconfigStep, hhandler] at h
          cases h
      | cons act handler =>
          simp only [reconfigStep, hhandler] at h
          cases h
          exact .handle hhandler
  | reconnect on =>
      cases h
      exact .reconnect on

theorem eventGroup_of_step {s t : EthReconfig} {a : ReconfigStep} (h : Reconfigures s a t)
    (ht : t.net.eventGroup ≠ none) : s.net.eventGroup ≠ none := by
  obtain ⟨bits', hbits'⟩ := Option.ne_none_iff_exists'.mp ht
  cases h with
  | setVlan regs hpc | stopDhcp hpc hnetif | skipDhcp hpc hnetif | startDhcp hpc
  | wake hpc hbits hwake | post e | dispatch hhandler hevents => exact ht
  | handle hhandler =>
      obtain ⟨bits, hbits, _⟩ := hasIp_of_runAct hbits'
      exact Option.ne_none_iff_exists'.mpr ⟨bits, hbits⟩
  | signal hpc | reconnect on =>
      obtain ⟨bits, hbits, _⟩ := hasIp_of_reconnect hbits'
      exact Option.ne_none_iff_exists'.mpr ⟨bits, hbits⟩

/-- Only a got-IP event makes an address due. -/
theorem addressDue_of_step {s t : EthReconfig} {a : ReconfigStep} (h : Reconfigures s a t)
    (hne : a ≠ .post .gotIp) (hdue : AddressDue t) : AddressDue s := by
  obtain ⟨bits', hbits', hdue⟩ := hdue
  cases h with
  | setVlan regs hpc | stopDhcp hpc hnetif | skipDhcp hpc hnetif | startDhcp hpc
  | wake hpc hbits hwake => exact ⟨bits', hbits', hdue⟩
  | post e =>
      refine ⟨bits', hbits', hdue.imp_right (.imp_right fun hmem => ?_)⟩
      refine (List.mem_append.mp hmem).resolve_right fun hlast => hne ?_
      rw [List.mem_singleton.mp hlast]
  | dispatch hhandler hevents =>
      refine ⟨bits', hbits', hdue.imp_right fun hlater => Or.inr ?_⟩
      rw [hevents]
      exact List.mem_cons.mpr (hlater.imp_left fun hacts => (exists_setsHasIp_iff.mp hacts).symm)
  | handle hhandler =>
      obtain ⟨bits, hbits, hset⟩ := hasIp_of_runAct hbits'
      refine ⟨bits, hbits, ?_⟩
      rw [hhandler]
      rcases hdue with hdue | ⟨act', hmem, hsets⟩ | hmem
      · exact (hset hdue).imp_right fun hsets => Or.inl ⟨_, List.mem_cons_self, hsets⟩
      · exact Or.inr (Or.inl ⟨act', List.mem_cons_of_mem _ hmem, hsets⟩)
      · exact Or.inr (Or.inr hmem)
  | signal hpc | reconnect on =>
      obtain ⟨bits, hbits, hset⟩ := hasIp_of_reconnect hbits'
      exact ⟨bits, hbits, hdue.imp_left hset⟩

/-! ## A clear restart announces fresh addresses only -/

/-- A wait that finds the address bit finds it for an event since `esp_netif_dhcpc_start`. -/
structure AnnouncesFresh (s : EthReconfig × SinceStart) : Prop where
  before : s.1.pc = .entry ∨ s.1.pc = .restart → s.2 = none
  started : s.1.pc = .waiting → s.1.net.eventGroup ≠ none → s.2 ≠ none
  due : s.1.pc = .waiting → AddressDue s.1 → s.2 = some true
  woken : s.1.pc = .signalling false → s.2 = some true

theorem AddressDue.eventGroup_ne_none {s : EthReconfig} (h : AddressDue s) :
    s.net.eventGroup ≠ none := by
  obtain ⟨bits, hbits, _⟩ := h
  exact Option.ne_none_iff_exists'.mpr ⟨bits, hbits⟩

theorem nextSince_some_true {s : EthReconfig} {a : ReconfigStep} (ha : a ≠ .startDhcp) :
    nextSince s a (some true) = some true := by
  unfold nextSince
  split
  · exact absurd rfl ha
  · rfl
  · rfl

theorem nextSince_none {s : EthReconfig} {a : ReconfigStep} (ha : a ≠ .startDhcp) :
    nextSince s a none = none := by
  unfold nextSince
  split
  · exact absurd rfl ha
  · rfl
  · rfl

theorem nextSince_ne_none {s : EthReconfig} {a : ReconfigStep} {since : SinceStart}
    (h : since ≠ none) : nextSince s a since ≠ none := by
  unfold nextSince
  split
  · nofun
  · exact fun hmap => h (Option.map_eq_none_iff.mp hmap)
  · exact h

/-- A step of the event loop or of another task. -/
theorem AnnouncesFresh.of_loop {s t : EthReconfig × SinceStart} {a : ReconfigStep}
    (hs : AnnouncesFresh s) (h : Reconfigures s.1 a t.1) (hpc : t.1.pc = s.1.pc)
    (ha : a ≠ .startDhcp) (hghost : t.2 = nextSince s.1 a s.2) : AnnouncesFresh t := by
  refine ⟨fun hbefore => ?_, fun hwaiting hgroup => ?_, fun hwaiting hdue => ?_,
    fun hwoken => ?_⟩
  · rw [hghost, hs.before (hpc ▸ hbefore)]
    exact nextSince_none ha
  · rw [hghost]
    exact nextSince_ne_none (hs.started (hpc ▸ hwaiting) (eventGroup_of_step h hgroup))
  · rw [hghost]
    by_cases hpost : a = .post .gotIp
    · have hgroup := eventGroup_of_step h hdue.eventGroup_ne_none
      have hstarted := hs.started (hpc ▸ hwaiting) hgroup
      obtain ⟨got, hgot⟩ := Option.ne_none_iff_exists'.mp hstarted
      rw [hpost, hgot]
      rfl
    · rw [hs.due (hpc ▸ hwaiting) (addressDue_of_step h hpost hdue)]
      exact nextSince_some_true ha
  · rw [hghost, hs.woken (hpc ▸ hwoken)]
    exact nextSince_some_true ha

theorem announcesFresh_of_step {s t : EthReconfig × SinceStart} {a : ReconfigStep}
    (hs : AnnouncesFresh s) (hclear : RestartsClear s a) (h : sinceStep emacEtv s a = some t) :
    AnnouncesFresh t := by
  obtain ⟨hstep, hghost⟩ := withGhost_eq_some_iff.mp h
  have hkind := reconfigures_of_step hstep
  obtain ⟨s, since⟩ := s
  obtain ⟨t, since'⟩ := t
  cases id hkind with
  | setVlan regs hpc =>
      refine ⟨fun _ => ?_, nofun, nofun, nofun⟩
      rw [hghost]
      exact hs.before (Or.inl hpc)
  | stopDhcp hpc hnetif => exact ⟨nofun, nofun, nofun, nofun⟩
  | skipDhcp hpc hnetif =>
      refine ⟨nofun, fun _ hgroup => ?_, fun _ hdue => ?_, nofun⟩
      · exact absurd (hclear hpc hgroup) hnetif
      · exact absurd (hclear hpc hdue.eventGroup_ne_none) hnetif
  | startDhcp hpc =>
      refine ⟨nofun, fun _ _ => ?_, fun _ hdue => absurd hdue (hclear hpc), nofun⟩
      rw [hghost]
      nofun
  | wake hpc hbits hwake =>
      refine ⟨nofun, nofun, nofun, fun hwoken => ?_⟩
      cases hwoken
      have hset := hwake.resolve_left Bool.false_ne_true
      rw [hghost]
      exact hs.due hpc ⟨_, hbits, Or.inl hset⟩
  | signal hpc => exact ⟨nofun, nofun, nofun, nofun⟩
  | post e => exact hs.of_loop hkind rfl nofun hghost
  | dispatch hhandler hevents => exact hs.of_loop hkind rfl nofun hghost
  | handle hhandler => exact hs.of_loop hkind rfl nofun hghost
  | reconnect on => exact hs.of_loop hkind rfl nofun hghost

theorem signalsFresh_of_announces {s : EthReconfig × SinceStart} {a : ReconfigStep}
    (hs : AnnouncesFresh s) : SignalsFresh s a :=
  fun _ hpc => hs.woken hpc

/-! ## Any other restart may announce a stale address -/

/-- The task, if it goes on without another restart, signals a stale address. -/
abbrev Misleads (emacEtv : UInt32) : EthReconfig × SinceStart → Prop :=
  CanBreak (sinceStep emacEtv) SignalsFresh fun b => b.afterRestart = true

theorem sinceStep_of_step {s : EthReconfig × SinceStart} {a : ReconfigStep} {t : EthReconfig}
    (h : reconfigStep emacEtv s.1 a = some t) :
    sinceStep emacEtv s a = some (t, nextSince s.1 a s.2) :=
  withGhost_eq_some_iff.mpr ⟨h, rfl⟩

theorem misleads_of_set {s : EthReconfig × SinceStart} {bits : BitVec 32}
    (hpc : s.1.pc = .waiting) (hbits : s.1.net.eventGroup = some bits)
    (hset : AnySet bits eventEthHasIp) (hstale : s.2 ≠ some true) : Misleads emacEtv s := by
  have hwake : reconfigStep emacEtv s.1 (.wake false) =
      some { s.1 with pc := .signalling false } := by
    simp only [reconfigStep, hbits]
    exact if_pos ⟨hpc, Or.inr hset⟩
  refine .of_step rfl (sinceStep_of_step hwake) ?_
  exact .of_not_ok (b := ReconfigStep.signal) rfl fun hfresh => hstale (hfresh rfl rfl)

theorem step_handle {s : EthReconfig} {act : HandlerAct} {handler : List HandlerAct}
    (hhandler : s.handler = act :: handler) :
    reconfigStep emacEtv s .handle =
      some { s with net := runAct s.net act, handler := handler } := by
  simp only [reconfigStep, hhandler]

/-- The handler in progress comes to set the bit. -/
theorem misleads_of_handler {acts : List HandlerAct} {s : EthReconfig × SinceStart}
    {bits : BitVec 32} (hhandler : s.1.handler = acts) (hpc : s.1.pc = .waiting)
    (hbits : s.1.net.eventGroup = some bits) (hstale : s.2 ≠ some true)
    (hacts : ∃ act ∈ acts, act.setsHasIp = true) : Misleads emacEtv s := by
  induction acts generalizing s bits with
  | nil =>
      obtain ⟨_, hmem, _⟩ := hacts
      cases hmem
  | cons act acts ih =>
      obtain ⟨bits', hbits', hset⟩ := eventGroup_runAct hbits
      refine .of_step rfl (sinceStep_of_step (step_handle hhandler)) ?_
      obtain ⟨act', hmem, hsets⟩ := hacts
      rcases List.mem_cons.mp hmem with rfl | hmem
      · exact misleads_of_set hpc hbits' (hset hsets) hstale
      · exact ih rfl hpc hbits' hstale ⟨act', hmem, hsets⟩

/-- An event in the queue comes to set the bit. -/
theorem misleads_of_events {events : List LoopEvent} (hevent : LoopEvent.gotIp ∈ events) :
    ∀ (acts : List HandlerAct) {s : EthReconfig × SinceStart} {bits : BitVec 32},
      s.1.handler = acts → s.1.events = events → s.1.pc = .waiting →
        s.1.net.eventGroup = some bits → s.2 ≠ some true → Misleads emacEtv s := by
  induction events with
  | nil => cases hevent
  | cons e events ih =>
      intro acts
      -- the handler in progress ends before the next event is dispatched
      induction acts with
      | cons act acts ihacts =>
          intro s bits hhandler hevents hpc hbits hstale
          obtain ⟨bits', hbits', _⟩ := eventGroup_runAct hbits
          refine .of_step rfl (sinceStep_of_step (step_handle hhandler)) ?_
          exact ihacts rfl hevents hpc hbits' hstale
      | nil =>
          intro s bits hhandler hevents hpc hbits hstale
          have hdispatch : reconfigStep emacEtv s.1 .dispatch =
              some { s.1 with events := events, handler := handlerActs e } := by
            simp only [reconfigStep, hhandler, hevents]
          refine .of_step rfl (sinceStep_of_step hdispatch) ?_
          rcases List.mem_cons.mp hevent with heq | hmem
          · exact misleads_of_handler rfl hpc hbits hstale (exists_setsHasIp_iff.mpr heq.symm)
          · exact ih hmem _ rfl rfl hpc hbits hstale

theorem misleads_of_due {s : EthReconfig × SinceStart} (hpc : s.1.pc = .waiting)
    (hdue : AddressDue s.1) (hstale : s.2 ≠ some true) : Misleads emacEtv s := by
  obtain ⟨bits, hbits, hset | hacts | hevent⟩ := hdue
  · exact misleads_of_set hpc hbits hset hstale
  · exact misleads_of_handler rfl hpc hbits hstale hacts
  · exact misleads_of_events hevent _ rfl rfl hpc hbits hstale

/-- A restart that is not clear may mislead the task. -/
theorem misleads_of_restart {s : EthReconfig × SinceStart} {a : ReconfigStep}
    (hs : AnnouncesFresh s) (hnot : ¬ RestartsClear s a) :
    ∃ t, sinceStep emacEtv s a = some t ∧ Misleads emacEtv t := by
  cases a with
  | checkNetif =>
      obtain ⟨hpc, hnot⟩ := Classical.not_imp.mp hnot
      obtain ⟨hgroup, hnetif⟩ := Classical.not_imp.mp hnot
      obtain ⟨bits, hbits⟩ := Option.ne_none_iff_exists'.mp hgroup
      have hskip : reconfigStep emacEtv s.1 .checkNetif = some { s.1 with pc := .waiting } := by
        rw [reconfigStep, if_pos hpc, if_neg hnetif]
      refine ⟨_, sinceStep_of_step hskip, ?_⟩
      -- without a restart the next got-IP event is not one since the restart
      have hnone : s.2 = none := hs.before (Or.inr hpc)
      refine .of_step (b := ReconfigStep.post .gotIp) rfl rfl (misleads_of_due rfl ?_ ?_)
      · exact ⟨bits, hbits, Or.inr (Or.inr (List.mem_append_right _ (List.mem_singleton.mpr rfl)))⟩
      · show Option.map _ s.2 ≠ some true
        rw [hnone]
        nofun
  | startDhcp =>
      obtain ⟨hpc, hnot⟩ := Classical.not_imp.mp hnot
      have hstart : reconfigStep emacEtv s.1 .startDhcp = some { s.1 with pc := .waiting } :=
        if_pos hpc
      refine ⟨_, sinceStep_of_step hstart, misleads_of_due rfl (not_not.mp hnot) nofun⟩
  | setVlan cfg | wake expired | signal | post e | dispatch | handle | reconnect on =>
      exact absurd trivial hnot

/-! ## Every run -/

/-- From every state of the event group the task signals `EVENT_RECONNECT` only after a got-IP
event since `esp_netif_dhcpc_start` or after its wait has expired, also when task and event loop
go on in any way without another restart after any part of the run, if and only if the run
restarts DHCP only while no address is announced. -/
theorem signalsFresh_iff (emacEtv : UInt32) (s : EthReconfig) (hpc : s.pc = .entry)
    (steps : List ReconfigStep) :
    (∀ done own, done <+: steps → (∀ b ∈ own, b.afterRestart = true) →
        AllSteps (sinceStep emacEtv) SignalsFresh (s, none) (done ++ own)) ↔
      AllSteps (sinceStep emacEtv) RestartsClear (s, none) steps := by
  have hstart : AnnouncesFresh (s, none) := by
    refine ⟨fun _ => rfl, fun hwaiting => ?_, fun hwaiting => ?_, fun hwoken => ?_⟩
    · rw [hpc] at hwaiting
      cases hwaiting
    · rw [hpc] at hwaiting
      cases hwaiting
    · rw [hpc] at hwoken
      cases hwoken
  have hown : ∀ s b, ReconfigStep.afterRestart b = true → RestartsClear s b := by
    intro s b hb
    cases b with
    | checkNetif | startDhcp => cases hb
    | setVlan cfg | wake expired | signal | post e | dispatch | handle | reconnect on => trivial
  have hok : ∀ s a, AnnouncesFresh s → RestartsClear s a → SignalsFresh s a :=
    fun _ _ hs _ => signalsFresh_of_announces hs
  have hkeeps : ∀ s a t, AnnouncesFresh s → RestartsClear s a →
      sinceStep emacEtv s a = some t → AnnouncesFresh t :=
    fun _ _ _ hs hclear hstep => announcesFresh_of_step hs hclear hstep
  exact allSteps_own_iff hok hkeeps hown (fun _ _ hs hnot => misleads_of_restart hs hnot) hstart

/-- The task is created on a network on which these events have been handled. -/
def reconfigAfter (events : List NetEvent) : EthReconfig where
  net := afterEvents events
  netif := true
  regs := ⟨0, 0⟩
  events := []
  handler := []
  pc := .entry

/-- The link is up, and the first address comes after the restart. -/
def firstAddressSteps : List ReconfigStep :=
  [.setVlan (some 5), .checkNetif, .startDhcp, .post .gotIp, .dispatch, .handle, .handle,
    .wake false, .signal]

theorem signalsFresh_iff_firstAddress :
    AllSteps (sinceStep 0x10000) RestartsClear (reconfigAfter [.eth .connected], none)
        firstAddressSteps ∧
      ((∀ done own, done <+: firstAddressSteps → (∀ b ∈ own, b.afterRestart = true) →
          AllSteps (sinceStep 0x10000) SignalsFresh (reconfigAfter [.eth .connected], none)
            (done ++ own)) ↔
        AllSteps (sinceStep 0x10000) RestartsClear (reconfigAfter [.eth .connected], none)
          firstAddressSteps) :=
  ⟨by decide, signalsFresh_iff 0x10000 (reconfigAfter [.eth .connected]) rfl firstAddressSteps⟩

/-- The VLAN is changed on a network that has an address: the wait returns at once. -/
theorem not_signalsFresh_secondAddress :
    (run (sinceStep 0x10000) (reconfigAfter [.eth .connected, .gotIp], none)
        [.setVlan (some 5), .checkNetif, .startDhcp, .wake false, .signal]).isSome = true ∧
      ¬ AllSteps (sinceStep 0x10000) SignalsFresh
        (reconfigAfter [.eth .connected, .gotIp], none)
        [.setVlan (some 5), .checkNetif, .startDhcp, .wake false, .signal] := by
  exact ⟨by decide, by decide⟩

end Esp32Deskflow.Network
