/-
  Device/Monitor.lean --- the monitoring loop of `app_main` and the status LED of `led_rgb.c`.

  The loop samples the event group and the two USB states at different moments, and other tasks
  change them in between.  The address bit is never cleared, so the loop can report that the
  network is up, and never that it is down; from then on the LED is green or blue.
-/
import Esp32Deskflow.Foundation.Transition
import Esp32Deskflow.Network.EthNetwork

set_option autoImplicit false

namespace Esp32Deskflow.Device

open Esp32Deskflow.Foundation Esp32Deskflow.Foundation.Transition
  Esp32Deskflow.Foundation.EventGroup Esp32Deskflow.Network

/-! ## The LED -/

/-- `LED_RGB_MAX_DUTY`. -/
def ledRgbMaxDuty : UInt8 := 255

/-- The duties of `LEDC_CHANNEL_0`, `LEDC_CHANNEL_1` and `LEDC_CHANNEL_2`; the LED has a common
anode. -/
structure LedDuty where
  red : UInt8
  green : UInt8
  blue : UInt8
  deriving DecidableEq, Repr

/-- `led_rgb_set_raw`. -/
def ledRgbSetRaw (r g b : UInt8) : LedDuty :=
  ⟨ledRgbMaxDuty - r, ledRgbMaxDuty - g, ledRgbMaxDuty - b⟩

/-- `led_rgb_state`: green, blue, yellow, red. -/
def ledRgbState (ethConnected usbConnected : Bool) : LedDuty :=
  if ethConnected && usbConnected then ledRgbSetRaw 0 ledRgbMaxDuty 0
  else if ethConnected then ledRgbSetRaw 0 0 ledRgbMaxDuty
  else if usbConnected then ledRgbSetRaw ledRgbMaxDuty ledRgbMaxDuty 0
  else ledRgbSetRaw ledRgbMaxDuty 0 0

/-- The LED is green or blue. -/
def LedDuty.showsEth (d : LedDuty) : Bool := d.red == ledRgbMaxDuty

theorem showsEth_ledRgbState (eth usb : Bool) : (ledRgbState eth usb).showsEth = eth := by
  revert eth usb
  decide

/-! ## The loop -/

/-- What the loop logs about the network. -/
inductive NetworkLine where
  | up
  | down
  deriving DecidableEq, Repr

/-- Where the loop is: in `xEventGroupWaitBits`, before `tusb_device_is_mounted` and
`usb_host_msc_is_mounted`, before the LED is set, and in its delay. -/
inductive MonitorPc where
  | waiting
  | tusb (hasIp : Bool)
  | msc (hasIp : Bool)
  | led (hasIp usb : Bool)
  | delaying
  deriving DecidableEq, Repr

/-- The loop with what it reads.  `lines` and `leds` are what it has logged and set so far. -/
structure Monitor where
  net : EthNetwork
  tusbMounted : Bool
  mscMounted : Bool
  prevHasIp : Bool
  pc : MonitorPc
  lines : List NetworkLine
  leds : List LedDuty
  deriving DecidableEq, Repr

/-- At the first `xEventGroupWaitBits`; the network may have had events since `eth_init`. -/
def Monitor.start (events : List NetEvent) (tusbMounted mscMounted : Bool) : Monitor where
  net := afterEvents events
  tusbMounted := tusbMounted
  mscMounted := mscMounted
  prevHasIp := false
  pc := .waiting
  lines := []
  leds := []

/-- An event, or a step of the loop. -/
inductive MonitorStep where
  /-- a handler of the event loop, and another task that uses `EVENT_RECONNECT` -/
  | net (e : NetEvent)
  | tusbMount (mounted : Bool)
  | mscMount (mounted : Bool)
  /-- `xEventGroupWaitBits` returns, with its time expired or not -/
  | wake (expired : Bool)
  | readTusb
  | readMsc
  | setLed
  | delayOver
  deriving DecidableEq, Repr

/-- The bits that the loop waits for. -/
def monitorBits : BitVec 32 := eventEthLinkUp ||| eventEthHasIp ||| eventEthLinkDown

/-- The loop has got the bits. -/
def Monitor.sampled (m : Monitor) (hasIp : Bool) : Monitor :=
  { m with
    lines :=
      if hasIp = m.prevHasIp then m.lines else m.lines ++ [if hasIp then .up else .down]
    prevHasIp := hasIp
    pc := .tusb hasIp }

/-- One step of the loop among the events. -/
def monitorStep (m : Monitor) : MonitorStep → Option Monitor
  | .net e => some { m with net := handleEvent m.net e }
  | .tusbMount mounted => some { m with tusbMounted := mounted }
  | .mscMount mounted => some { m with mscMounted := mounted }
  | .wake expired =>
      match m.net.eventGroup with
      | none => none
      | some bits =>
          if m.pc = .waiting ∧ (expired = true ∨ AnySet bits monitorBits) then
            some (m.sampled (reportsNetworkUp bits))
          else none
  | .readTusb =>
      match m.pc with
      | .tusb hasIp =>
          some { m with pc := if m.tusbMounted then .led hasIp true else .msc hasIp }
      | .waiting | .msc _ | .led _ _ | .delaying => none
  | .readMsc =>
      match m.pc with
      | .msc hasIp => some { m with pc := .led hasIp m.mscMounted }
      | .waiting | .tusb _ | .led _ _ | .delaying => none
  | .setLed =>
      match m.pc with
      | .led hasIp usb =>
          some { m with leds := m.leds ++ [ledRgbState hasIp usb], pc := .delaying }
      | .waiting | .tusb _ | .msc _ | .delaying => none
  | .delayOver => if m.pc = .delaying then some { m with pc := .waiting } else none

/-! ## The address bit is latched -/

/-- What the loop has sampled, if it has not set the LED since. -/
def MonitorPc.hasIp : MonitorPc → Option Bool
  | .tusb hasIp | .msc hasIp | .led hasIp _ => some hasIp
  | .waiting | .delaying => none

/-- The bits are those after some events, and what the loop holds, has logged and shown is what
`prevHasIp` says: it is set if there was an address, and then for good. -/
structure Latched (m : Monitor) : Prop where
  events : ∃ events, m.net = afterEvents events ∧
    (m.prevHasIp = true → NetEvent.gotIp ∈ events)
  lines : m.lines = if m.prevHasIp then [.up] else []
  sampled : ∀ hasIp, m.pc.hasIp = some hasIp → hasIp = m.prevHasIp
  shown : ∀ d ∈ m.leds, d.showsEth = true → m.prevHasIp = true
  sorted : m.leds.Pairwise fun d d' => d.showsEth = true → d'.showsEth = true

variable {m m' : Monitor}

theorem Latched.start (events : List NetEvent) (tusbMounted mscMounted : Bool) :
    Latched (.start events tusbMounted mscMounted) where
  events := ⟨events, rfl, nofun⟩
  lines := rfl
  sampled := nofun
  shown := nofun
  sorted := List.Pairwise.nil

/-- Nothing but the bits changes. -/
theorem Latched.net (h : Latched m) (e : NetEvent) :
    Latched { m with net := handleEvent m.net e } := by
  obtain ⟨events, hnet, hgot⟩ := h.events
  refine { h with events := ⟨events ++ [e], ?_, fun hprev => ?_⟩ }
  · rw [afterEvents_concat, hnet]
  · exact List.mem_append_left _ (hgot hprev)

/-- The loop goes on with what it has sampled. -/
theorem Latched.goto (h : Latched m) {pc : MonitorPc}
    (hpc : ∀ hasIp, pc.hasIp = some hasIp → m.pc.hasIp = some hasIp) :
    Latched { m with pc := pc } :=
  { h with sampled := fun hasIp hhas => h.sampled hasIp (hpc hasIp hhas) }

/-- The loop samples the bits: what it has sampled before stays true. -/
theorem Latched.sample (h : Latched m) {bits : BitVec 32} (hbits : m.net.eventGroup = some bits) :
    Latched (m.sampled (reportsNetworkUp bits)) := by
  obtain ⟨events, hnet, hgot⟩ := h.events
  obtain ⟨bits', hbits', hip⟩ := hasIp_afterEvents events
  rw [← hnet, hbits] at hbits'
  cases hbits'
  have hkeeps : m.prevHasIp = true → reportsNetworkUp bits = true := fun hprev =>
    hip.mpr (hgot hprev)
  refine
    { events := ⟨events, hnet, hip.mp⟩
      lines := ?_
      sampled := fun hasIp hhas => (Option.some.inj hhas).symm
      shown := fun d hd hshows => hkeeps (h.shown d hd hshows)
      sorted := h.sorted }
  have hlines := h.lines
  unfold Monitor.sampled
  cases hprev : m.prevHasIp with
  | true =>
      rw [hprev] at hlines
      simp [hkeeps hprev, hlines]
  | false =>
      rw [hprev] at hlines
      cases hup : reportsNetworkUp bits <;> simp [hlines]

theorem Latched.setLed (h : Latched m) {hasIp usb : Bool} (hpc : m.pc = .led hasIp usb) :
    Latched { m with leds := m.leds ++ [ledRgbState hasIp usb], pc := .delaying } := by
  have hprev : hasIp = m.prevHasIp := h.sampled hasIp (by rw [hpc]; rfl)
  refine { h with sampled := nofun, shown := fun d hd hshows => ?_, sorted := ?_ }
  · rcases List.mem_append.mp hd with hd | hd
    · exact h.shown d hd hshows
    · rw [List.mem_singleton.mp hd, showsEth_ledRgbState] at hshows
      rw [← hprev, hshows]
  · refine List.pairwise_append.mpr ⟨h.sorted, List.pairwise_singleton _ _, ?_⟩
    intro d hd d' hd' hshows
    rw [List.mem_singleton.mp hd', showsEth_ledRgbState, hprev]
    exact h.shown d hd hshows

theorem monitorStep_latched {a : MonitorStep} (h : Latched m) (hstep : monitorStep m a = some m') :
    Latched m' := by
  cases a with
  | net e =>
      cases hstep
      exact h.net e
  | tusbMount mounted =>
      cases hstep
      exact { h with }
  | mscMount mounted =>
      cases hstep
      exact { h with }
  | wake expired =>
      cases hbits : m.net.eventGroup with
      | none =>
          simp only [monitorStep, hbits] at hstep
          cases hstep
      | some bits =>
          simp only [monitorStep, hbits] at hstep
          obtain ⟨_, hm⟩ := Option.ite_none_right_eq_some.mp hstep
          cases hm
          exact h.sample hbits
  | readTusb =>
      cases hpc : m.pc with
      | tusb hasIp =>
          simp only [monitorStep, hpc] at hstep
          cases hstep
          refine h.goto fun hasIp' hhas => ?_
          rw [hpc, ← hhas]
          split <;> rfl
      | waiting | msc | led | delaying =>
          simp only [monitorStep, hpc] at hstep
          cases hstep
  | readMsc =>
      cases hpc : m.pc with
      | msc hasIp =>
          simp only [monitorStep, hpc] at hstep
          cases hstep
          refine h.goto fun hasIp' hhas => ?_
          rw [hpc, ← hhas]
          rfl
      | waiting | tusb | led | delaying =>
          simp only [monitorStep, hpc] at hstep
          cases hstep
  | setLed =>
      cases hpc : m.pc with
      | led hasIp usb =>
          simp only [monitorStep, hpc] at hstep
          cases hstep
          exact h.setLed hpc
      | waiting | tusb | msc | delaying =>
          simp only [monitorStep, hpc] at hstep
          cases hstep
  | delayOver =>
      obtain ⟨_, hm⟩ := Option.ite_none_right_eq_some.mp hstep
      cases hm
      exact h.goto nofun

/-- In every run of the loop among the events of the network and of the USB ports: the line
"Network: down" is never logged and "Network: up" at most once; the LED is red or yellow for a
while, perhaps for ever, and then green or blue for good, whatever happens to the link. -/
theorem monitor_latches {events : List NetEvent} {tusbMounted mscMounted : Bool}
    {steps : List MonitorStep}
    (hrun : run monitorStep (.start events tusbMounted mscMounted) steps = some m) :
    (m.lines = [] ∨ m.lines = [.up]) ∧
      m.leds.Pairwise (fun d d' => d.showsEth = true → d'.showsEth = true) ∧
      ((∃ d ∈ m.leds, d.showsEth = true) → m.lines = [.up]) := by
  have h : Latched m := run_invariant (fun _ _ _ => monitorStep_latched)
    (Latched.start events tusbMounted mscMounted) hrun
  have hlines := h.lines
  refine ⟨?_, h.sorted, ?_⟩
  · split at hlines
    · exact Or.inr hlines
    · exact Or.inl hlines
  · rintro ⟨d, hd, hshows⟩
    rw [hlines, if_pos (h.shown d hd hshows)]

/-- One iteration without USB, if nothing happens in it. -/
def quietIteration : List MonitorStep := [.wake true, .readTusb, .readMsc, .setLed, .delayOver]

/-- An address is got, and the link is lost. -/
def lostLink : List MonitorStep :=
  quietIteration ++ .net (.eth .connected) :: .net .gotIp :: quietIteration ++
    .net (.eth .disconnected) :: quietIteration

/-- The LED is red, and blue, and stays blue. -/
theorem monitor_latches_lostLink :
    ∃ m, run monitorStep (.start [] false false) lostLink = some m ∧
      m.leds = [ledRgbState false false, ledRgbState true false, ledRgbState true false] ∧
      m.lines = [.up] := by
  have hend : ∃ m ∈ run monitorStep (.start [] false false) lostLink,
      m.leds = [ledRgbState false false, ledRgbState true false, ledRgbState true false] := by
    decide
  obtain ⟨m, hrun, hleds⟩ := hend
  refine ⟨m, hrun, hleds, (monitor_latches hrun).2.2 ⟨ledRgbState true false, ?_, rfl⟩⟩
  rw [hleds]
  exact List.mem_cons_of_mem _ List.mem_cons_self

end Esp32Deskflow.Device
