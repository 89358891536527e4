/-
  Network/EthInit.lean --- `eth_init`, `eth_start` and `eth_stop`, followed by what they do with
  the interface, the MAC, the PHY, the driver and its glue.

  A path of `eth_init` that fails gives back what it has acquired.  It leaves the pointers in
  `eth_state_t` as they are, and `eth_stop` asks an uninstalled driver for its MAC.
-/
import Esp32Deskflow.Foundation.EspErr
import Esp32Deskflow.Foundation.HandleLog

set_option autoImplicit false

namespace Esp32Deskflow.Network

open Esp32Deskflow.Foundation Esp32Deskflow.Foundation.HandleLog
  Esp32Deskflow.Foundation.Transition

/-! ## State -/

/-- What `eth_init` acquires.  There is one of each: the default event loop is created once, so
`eth_init` does not return a second time. -/
inductive EthResource where
  | netif
  | mac
  | phy
  | driver
  | glue
  deriving DecidableEq, Repr

/-- A call that acquires, uses or gives back a resource. -/
abbrev EthCall := HandleCall EthResource

/-- Which of the pointers `eth_handle`, `eth_netif` and `glue` of `eth_state_t` and `s_eth_state`
are not null, whether the default event loop exists, and which handlers are registered. -/
structure EthPointers where
  ethHandle : Bool
  ethNetif : Bool
  glue : Bool
  ethState : Bool
  eventLoop : Bool
  ethHandler : Bool
  gotIpHandler : Bool
  deriving DecidableEq, Repr

/-- Before the first call. -/
def EthPointers.boot : EthPointers where
  ethHandle := false
  ethNetif := false
  glue := false
  ethState := false
  eventLoop := false
  ethHandler := false
  gotIpHandler := false

/-- The results of the calls of `eth_init`; a Boolean says that a pointer is not null. -/
structure EthInitIo where
  netifInit : EspErr := .ok
  eventLoop : EspErr := .ok
  netif : Bool := true
  mac : Bool := true
  phy : Bool := true
  install : EspErr := .ok
  glue : Bool := true
  attach : EspErr := .ok
  ethHandler : EspErr := .ok
  gotIpHandler : EspErr := .ok
  deriving DecidableEq, Repr

/-- The calls of a function, the pointers afterwards, and its result. -/
structure EthDone where
  calls : List EthCall
  pointers : EthPointers
  result : EspErr
  deriving DecidableEq, Repr

/-! ## The functions -/

/-- The calls behind `esp_eth_driver_uninstall` in a path that fails. -/
def ethUninstall : List EthCall :=
  [.release .driver, .release .mac, .release .phy, .release .netif]

/-- `eth_init` after `esp_eth_new_netif_glue`; `none` is an abort of `ESP_ERROR_CHECK`. -/
def ethRegister (p : EthPointers) (io : EthInitIo) : Option EthDone :=
  if io.attach ≠ .ok then none
  else if io.ethHandler ≠ .ok then
    some ⟨.use .netif :: .use .glue :: .release .glue :: ethUninstall, p, io.ethHandler⟩
  else if io.gotIpHandler ≠ .ok then
    some ⟨.use .netif :: .use .glue :: .release .glue :: ethUninstall,
      { p with ethHandler := false }, io.gotIpHandler⟩
  else
    some ⟨[.use .netif, .use .glue], { p with ethHandler := true, gotIpHandler := true }, .ok⟩

/-- Calls made before the others. -/
def EthDone.after (calls : List EthCall) (done : EthDone) : EthDone :=
  { done with calls := calls ++ done.calls }

/-- `eth_init` after `esp_eth_phy_new_generic`. -/
def ethInstall (p : EthPointers) (io : EthInitIo) : Option EthDone :=
  if io.install ≠ .ok then
    some ⟨[.use .mac, .use .phy, .release .mac, .release .phy, .release .netif], p, .fail⟩
  else
    let p := { p with ethHandle := true }
    if io.glue then
      (ethRegister { p with glue := true } io).map
        (.after [.use .mac, .use .phy, .acquire .driver, .use .driver, .acquire .glue])
    else
      some ⟨[.use .mac, .use .phy, .acquire .driver, .use .driver] ++ ethUninstall, p, .fail⟩

/-- `eth_init`, with the results of its calls. -/
def ethInitWith (p : EthPointers) (io : EthInitIo) : Option EthDone :=
  -- `esp_event_loop_create_default` fails if there is a default event loop
  if io.netifInit ≠ .ok ∨ p.eventLoop = true ∨ io.eventLoop ≠ .ok then none
  else
    let p := { p with
      ethHandle := false, ethNetif := false, glue := false, ethState := true, eventLoop := true }
    if io.netif = false then some ⟨[], p, .fail⟩
    else
      let p := { p with ethNetif := true }
      if io.mac = false then some ⟨[.acquire .netif, .release .netif], p, .fail⟩
      else if io.phy = false then
        some ⟨[.acquire .netif, .acquire .mac, .release .mac, .release .netif], p, .fail⟩
      else (ethInstall p io).map (.after [.acquire .netif, .acquire .mac, .acquire .phy])

/-- `eth_start`, with the result of `esp_eth_start`. -/
def ethStart (p : EthPointers) (result : EspErr) : EthDone :=
  if p.ethHandle then ⟨[.use .driver], p, result⟩ else ⟨[], p, .invalidArg⟩

/-- `eth_stop`; `mac` and `phy` say that `esp_eth_get_mac_instance` and
`esp_eth_get_phy_instance` find one. -/
def ethStop (p : EthPointers) (mac phy : Bool) : EthDone where
  calls :=
    (if p.ethHandle then
      [.use .driver, .release .glue, .release .driver, .use .driver, .use .driver] ++
        (if mac then [.release .mac] else []) ++ (if phy then [.release .phy] else [])
    else []) ++ (if p.ethNetif then [.release .netif] else [])
  pointers :=
    { p with
      ethHandle := false
      glue := p.glue && !p.ethHandle
      ethNetif := false
      ethState := false
      ethHandler := false
      gotIpHandler := false }
  result := .ok

/-- `esp_netif_dhcpc_stop` and `esp_netif_dhcpc_start` of `eth_reconfig_task`. -/
def ethRestartDhcp (p : EthPointers) : EthDone :=
  ⟨if p.ethState && p.ethNetif then [.use .netif, .use .netif] else [], p, .ok⟩

/-! ## `eth_init` gives back what it has acquired -/

/-- Everything that `eth_init` acquires. -/
def ethResources : Finset EthResource := {.netif, .mac, .phy, .driver, .glue}

/-- What is held after `eth_init`. -/
def heldAfter (result : EspErr) : Finset EthResource := if result = .ok then ethResources else ∅

/-- The pointers after an `eth_init` that has returned `ESP_OK`. -/
def EthPointers.initialized : EthPointers where
  ethHandle := true
  ethNetif := true
  glue := true
  ethState := true
  eventLoop := true
  ethHandler := true
  gotIpHandler := true

theorem heldAfter_of_ne {result : EspErr} (h : result ≠ .ok) : heldAfter result = ∅ := if_neg h

theorem run_after {live live' : Finset EthResource} {calls : List EthCall} {done : EthDone}
    (h : run serve live calls = some live') :
    run serve live (done.after calls).calls = run serve live' done.calls := by
  rw [EthDone.after, run_append, h, Option.bind_some]

theorem ethRegister_accounts {p : EthPointers} {io : EthInitIo} {done : EthDone}
    (h : ethRegister p io = some done) :
    run serve ethResources done.calls = some (heldAfter done.result) ∧
      (done.result = .ok →
        done.pointers = { p with ethHandler := true, gotIpHandler := true }) := by
  have hback : run serve ethResources
      (.use .netif :: .use .glue :: .release .glue :: ethUninstall) = some ∅ := by decide
  have hkept : run serve ethResources [.use .netif, .use .glue] = some ethResources := by decide
  unfold ethRegister at h
  split at h
  · cases h
  · split at h
    · next hfailed =>
        cases h
        refine ⟨?_, fun hok => absurd hok hfailed⟩
        rw [heldAfter_of_ne hfailed]
        exact hback
    · split at h
      · next hfailed =>
          cases h
          refine ⟨?_, fun hok => absurd hok hfailed⟩
          rw [heldAfter_of_ne hfailed]
          exact hback
      · cases h
        exact ⟨hkept, fun _ => rfl⟩

theorem ethInstall_accounts {p : EthPointers} {io : EthInitIo} {done : EthDone}
    (h : ethInstall p io = some done) :
    run serve {.netif, .mac, .phy} done.calls = some (heldAfter done.result) ∧
      (done.result = .ok → done.pointers = { p with
        ethHandle := true, glue := true, ethHandler := true, gotIpHandler := true }) := by
  have hnone : run serve {.netif, .mac, .phy} ([.use .mac, .use .phy, .release .mac,
      .release .phy, .release .netif] : List EthCall) = some ∅ := by decide
  have hback : run serve {.netif, .mac, .phy} ([.use .mac, .use .phy, .acquire .driver,
      .use .driver] ++ ethUninstall) = some ∅ := by decide
  have hall : run serve {.netif, .mac, .phy} ([.use .mac, .use .phy, .acquire .driver,
      .use .driver, .acquire .glue] : List EthCall) = some ethResources := by decide
  unfold ethInstall at h
  split at h
  · cases h
    exact ⟨hnone, nofun⟩
  · simp only at h
    split at h
    · obtain ⟨rest, hrest, rfl⟩ := Option.map_eq_some_iff.mp h
      obtain ⟨hserved, hpointers⟩ := ethRegister_accounts hrest
      exact ⟨(run_after hall).trans hserved, hpointers⟩
    · cases h
      exact ⟨hback, nofun⟩

/-- The calls of an `eth_init` that returns are served: it uses nothing it does not hold, gives
back once each what it has acquired if it fails, and holds everything if it does not. -/
theorem ethInitWith_accounts {p : EthPointers} {io : EthInitIo} {done : EthDone}
    (h : ethInitWith p io = some done) :
    run serve ∅ done.calls = some (heldAfter done.result) ∧
      (done.result = .ok → done.pointers = .initialized) := by
  have hnetif : run serve ∅ ([.acquire .netif, .release .netif] : List EthCall) = some ∅ := by
    decide
  have hmac : run serve ∅ ([.acquire .netif, .acquire .mac, .release .mac,
      .release .netif] : List EthCall) = some ∅ := by decide
  have hthree : run serve ∅ ([.acquire .netif, .acquire .mac, .acquire .phy] : List EthCall) =
      some {.netif, .mac, .phy} := by decide
  unfold ethInitWith at h
  split at h
  · cases h
  · simp only at h
    split at h
    · cases h
      exact ⟨rfl, nofun⟩
    · split at h
      · cases h
        exact ⟨hnetif, nofun⟩
      · split at h
        · cases h
          exact ⟨hmac, nofun⟩
        · obtain ⟨rest, hrest, rfl⟩ := Option.map_eq_some_iff.mp h
          obtain ⟨hserved, hpointers⟩ := ethInstall_accounts hrest
          exact ⟨(run_after hthree).trans hserved, hpointers⟩

/-- The PHY cannot be created: the MAC and the interface are given back. -/
theorem ethInitWith_accounts_noPhy :
    ∃ done, ethInitWith .boot { phy := false } = some done ∧ done.result = .fail ∧
      run serve ∅ done.calls = some ∅ := by
  refine ⟨_, rfl, rfl, ?_⟩
  have hserved := (@ethInitWith_accounts .boot { phy := false } _ rfl).1
  exact hserved

/-! ## Runs of calls -/

/-- The pointers, the result of `eth_init` if it has been called, and all calls so far. -/
structure EthLife where
  pointers : EthPointers
  initResult : Option EspErr
  calls : List EthCall
  deriving DecidableEq, Repr

/-- Before the first call. -/
def EthLife.boot : EthLife where
  pointers := .boot
  initResult := none
  calls := []

/-- The functions of `eth_network.c` that use the driver or the interface. -/
inductive EthUse where
  | init (io : EthInitIo)
  | start (result : EspErr)
  | stop (mac phy : Bool)
  | restartDhcp
  deriving DecidableEq, Repr

/-- The state after one more function. -/
def EthLife.did (s : EthLife) (done : EthDone) : EthLife :=
  { s with pointers := done.pointers, calls := s.calls ++ done.calls }

/-- One more function is called. -/
def ethLifeStep (s : EthLife) : EthUse → Option EthLife
  | .init io =>
      (ethInitWith s.pointers io).map fun done => { s.did done with initResult := some done.result }
  | .start result => some (s.did (ethStart s.pointers result))
  | .stop mac phy => some (s.did (ethStop s.pointers mac phy))
  | .restartDhcp => some (s.did (ethRestartDhcp s.pointers))

/-- Everything used or given back was held. -/
def EthLife.Served (s : EthLife) : Prop := ∃ live, run serve ∅ s.calls = some live

/-- The driver is started and the interface restarted only after an `eth_init` that has returned
`ESP_OK`, if the pointers to them are set; and `eth_stop` finds nothing to stop. -/
def Sound (s : EthLife) : EthUse → Prop
  | .init _ => True
  | .start _ => s.pointers.ethHandle = true → s.initResult = some .ok
  | .stop _ _ => s.pointers.ethHandle = false ∧ s.pointers.ethNetif = false
  | .restartDhcp =>
      s.pointers.ethState = true → s.pointers.ethNetif = true → s.initResult = some .ok

instance (s : EthLife) : DecidablePred (Sound s)
  | .init _ => isTrue trivial
  | .start _ => inferInstanceAs (Decidable (_ → _))
  | .stop _ _ => inferInstanceAs (Decidable (_ ∧ _))
  | .restartDhcp => inferInstanceAs (Decidable (_ → _ → _))

/-- What is held, if everything was sound. -/
def EthLife.held (s : EthLife) : Finset EthResource :=
  match s.initResult with
  | none => ∅
  | some result => heldAfter result

/-- What is held is what `eth_init` has left; before it, nothing is set. -/
structure EthLife.Held (s : EthLife) : Prop where
  served : run serve ∅ s.calls = some s.held
  before : s.initResult = none → s.pointers.ethHandle = false ∧ s.pointers.ethNetif = false
  loop : s.initResult = none ↔ s.pointers.eventLoop = false
  initialized : s.initResult = some .ok → s.pointers = .initialized

theorem EthLife.Held.boot : EthLife.boot.Held where
  served := rfl
  before := fun _ => ⟨rfl, rfl⟩
  loop := iff_of_true rfl rfl
  initialized := nofun

variable {s t : EthLife} {a : EthUse}

theorem held_of_ok (h : s.initResult = some .ok) : s.held = ethResources := by
  rw [EthLife.held, h]
  rfl

theorem held_of_not_ok (h : s.initResult ≠ some .ok) : s.held = ∅ := by
  unfold EthLife.held
  cases hresult : s.initResult with
  | none => rfl
  | some result =>
      refine heldAfter_of_ne fun hok => h ?_
      rw [hresult, hok]

theorem EthLife.Held.served_did (h : s.Held) {done : EthDone} :
    (s.did done).Served ↔ ∃ live, run serve s.held done.calls = some live := by
  unfold EthLife.Served EthLife.did
  rw [run_append, h.served, Option.bind_some]

theorem served_of_did {done : EthDone} (h : (s.did done).Served) : s.Served := by
  obtain ⟨live, hlive⟩ := h
  obtain ⟨m, hm, _⟩ := run_append_iff.mp hlive
  exact ⟨m, hm⟩

theorem served_of_step (hstep : ethLifeStep s a = some t) (ht : t.Served) : s.Served := by
  cases a with
  | init io =>
      obtain ⟨done, _, rfl⟩ := Option.map_eq_some_iff.mp hstep
      exact @served_of_did s done ht
  | start | stop | restartDhcp =>
      cases hstep
      exact served_of_did ht

/-! ## One call -/

theorem eventLoop_ethRegister {p : EthPointers} {io : EthInitIo} {done : EthDone}
    (h : ethRegister p io = some done) : done.pointers.eventLoop = p.eventLoop := by
  unfold ethRegister at h
  split at h
  · cases h
  · split at h
    · cases h
      rfl
    · split at h <;> cases h <;> rfl

theorem eventLoop_ethInstall {p : EthPointers} {io : EthInitIo} {done : EthDone}
    (h : ethInstall p io = some done) : done.pointers.eventLoop = p.eventLoop := by
  unfold ethInstall at h
  split at h
  · cases h
    rfl
  · simp only at h
    split at h
    · obtain ⟨rest, hrest, rfl⟩ := Option.map_eq_some_iff.mp h
      have hsame := eventLoop_ethRegister hrest
      exact hsame
    · cases h
      rfl

/-- The default event loop is created once. -/
theorem eventLoop_ethInitWith {p : EthPointers} {io : EthInitIo} {done : EthDone}
    (h : ethInitWith p io = some done) :
    p.eventLoop = false ∧ done.pointers.eventLoop = true := by
  unfold ethInitWith at h
  split at h
  · cases h
  · next hcreated =>
      rw [not_or, not_or, Bool.not_eq_true] at hcreated
      refine ⟨hcreated.2.1, ?_⟩
      simp only at h
      split at h
      · cases h
        rfl
      · split at h
        · cases h
          rfl
        · split at h
          · cases h
            rfl
          · obtain ⟨rest, hrest, rfl⟩ := Option.map_eq_some_iff.mp h
            have hsame := eventLoop_ethInstall hrest
            exact hsame

theorem EthLife.Held.init (h : s.Held) {io : EthInitIo}
    (hstep : ethLifeStep s (.init io) = some t) : t.Held := by
  obtain ⟨done, hdone, rfl⟩ := Option.map_eq_some_iff.mp hstep
  obtain ⟨hserved, hpointers⟩ := ethInitWith_accounts hdone
  obtain ⟨hbefore, hafter⟩ := eventLoop_ethInitWith hdone
  have hempty : s.held = ∅ := by
    rw [EthLife.held, h.loop.mpr hbefore]
  refine
    { served := ?_
      before := nofun
      loop := iff_of_false nofun (by simp [EthLife.did, hafter])
      initialized := fun hok => hpointers (Option.some.inj hok) }
  unfold EthLife.did
  rw [run_append, h.served, hempty, Option.bind_some]
  exact hserved

/-- A call that leaves the pointers and what is held as they are. -/
theorem EthLife.Held.keep (h : s.Held) {done : EthDone} (hpointers : done.pointers = s.pointers)
    (hcalls : run serve s.held done.calls = some s.held) : (s.did done).Held where
  served := by
    rw [EthLife.did, run_append, h.served, Option.bind_some]
    exact hcalls
  before := by
    rw [EthLife.did, hpointers]
    exact h.before
  loop := by
    rw [EthLife.did, hpointers]
    exact h.loop
  initialized := by
    rw [EthLife.did, hpointers]
    exact h.initialized

theorem EthLife.Held.sound (h : s.Held) (hstep : ethLifeStep s a = some t) (hsound : Sound s a) :
    t.Held := by
  have hdriver : run serve ethResources [.use .driver] = some ethResources := by decide
  have hnetif : run serve ethResources [.use .netif, .use .netif] = some ethResources := by decide
  cases a with
  | init io => exact h.init hstep
  | start result =>
      cases hstep
      unfold ethStart
      split
      · next hhandle =>
          refine h.keep rfl ?_
          rw [held_of_ok (hsound hhandle)]
          exact hdriver
      · exact h.keep rfl rfl
  | stop mac phy =>
      cases hstep
      obtain ⟨hhandle, hnull⟩ := hsound
      have hcalls : (ethStop s.pointers mac phy).calls = [] := by simp [ethStop, hhandle, hnull]
      refine
        { served := ?_
          before := fun _ => ⟨rfl, rfl⟩
          loop := h.loop
          initialized := fun hok => ?_ }
      · rw [EthLife.did, hcalls, List.append_nil]
        exact h.served
      · rw [h.initialized hok] at hhandle
        cases hhandle
  | restartDhcp =>
      cases hstep
      unfold ethRestartDhcp
      split
      · next hboth =>
          rw [Bool.and_eq_true] at hboth
          refine h.keep rfl ?_
          rw [held_of_ok (hsound hboth.1 hboth.2)]
          exact hnetif
      · exact h.keep rfl rfl

theorem EthLife.Held.unsound (h : s.Held) (hstep : ethLifeStep s a = some t)
    (hnot : ¬ Sound s a) : ¬ t.Served := by
  have hrefused : ∀ done : EthDone, run serve s.held done.calls = none → ¬ (s.did done).Served := by
    intro done hnone hserved
    obtain ⟨live, hlive⟩ := h.served_did.mp hserved
    rw [hnone] at hlive
    cases hlive
  cases a with
  | init io => exact absurd trivial hnot
  | start result =>
      cases hstep
      obtain ⟨hhandle, hfailed⟩ := Classical.not_imp.mp hnot
      refine hrefused _ ?_
      rw [held_of_not_ok hfailed, ethStart, if_pos hhandle]
      rfl
  | stop mac phy =>
      cases hstep
      refine hrefused _ ?_
      cases hhandle : s.pointers.ethHandle with
      | true =>
          -- the driver is asked for its MAC after it was uninstalled
          have hstale : run serve s.held ([.use .driver, .release .glue, .release .driver,
              .use .driver, .use .driver] : List EthCall) = none := by
            by_cases hok : s.initResult = some .ok
            · rw [held_of_ok hok]
              decide
            · rw [held_of_not_ok hok]
              rfl
          unfold ethStop
          rw [hhandle, if_pos rfl, List.append_assoc, List.append_assoc, run_append, hstale]
          rfl
      | false =>
          -- the interface was destroyed by the `eth_init` that failed
          have hnetif : s.pointers.ethNetif = true := by
            rw [← Bool.not_eq_false]
            exact fun hnull => hnot ⟨hhandle, hnull⟩
          have hfailed : s.initResult ≠ some .ok := by
            intro hok
            rw [h.initialized hok] at hhandle
            cases hhandle
          unfold ethStop
          rw [held_of_not_ok hfailed, hhandle, hnetif]
          rfl
  | restartDhcp =>
      cases hstep
      obtain ⟨hstate, hrest⟩ := Classical.not_imp.mp hnot
      obtain ⟨hnetif, hfailed⟩ := Classical.not_imp.mp hrest
      refine hrefused _ ?_
      rw [held_of_not_ok hfailed, ethRestartDhcp, hstate, hnetif]
      rfl

/-! ## Runs -/

/-- In every run from boot, what is used or given back was held if and only if `eth_start` and
the restart of DHCP follow a successful `eth_init` wherever they find their pointer set, and
`eth_stop` never finds anything to stop. -/
theorem ethLife_served_iff {uses : List EthUse} (hrun : run ethLifeStep .boot uses = some t) :
    t.Served ↔ AllSteps ethLifeStep Sound .boot uses := by
  have hinv : ∀ s a t, (s.Served → s.Held) → ethLifeStep s a = some t → (t.Served → t.Held) := by
    intro s a t hs hstep ht
    have hheld := hs (served_of_step hstep ht)
    by_cases hsound : Sound s a
    · exact hheld.sound hstep hsound
    · exact absurd ht (hheld.unsound hstep hsound)
  have hiff : ∀ s a t, (s.Served → s.Held) → ethLifeStep s a = some t →
      (t.Served ↔ s.Served ∧ Sound s a) := by
    intro s a t hs hstep
    constructor
    · intro ht
      have hserved := served_of_step hstep ht
      refine ⟨hserved, ?_⟩
      by_contra hnot
      exact (hs hserved).unsound hstep hnot ht
    · rintro ⟨hserved, hsound⟩
      exact ⟨_, ((hs hserved).sound hstep hsound).served⟩
  rw [run_iff_allSteps hinv hiff (fun _ => EthLife.Held.boot) hrun]
  exact and_iff_right ⟨∅, rfl⟩

/-- Ethernet is initialized, started and stopped. -/
def initStartStop : List EthUse := [.init {}, .start .ok, .stop true true]

theorem ethLife_served_iff_initStartStop :
    ∃ t, run ethLifeStep .boot initStartStop = some t ∧ ¬ t.Served := by
  refine ⟨_, rfl, fun hserved => ?_⟩
  have hsound := (@ethLife_served_iff _ initStartStop rfl).mp hserved
  revert hsound
  decide

end Esp32Deskflow.Network
