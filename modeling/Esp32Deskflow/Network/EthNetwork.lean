/-
  Network/EthNetwork.lean --- the event handlers of `eth_network.c`, the network status
  bits that the client and the monitor of `main.c` read, and the VLAN registers.

  The link bits follow the link.  The address bit is set by the first address and never
  cleared, so it is true of the network until a link is lost that had an address.
-/
import Esp32Deskflow.Foundation.Bytes
import Esp32Deskflow.Foundation.EventGroup
import Esp32Deskflow.Foundation.History
import Mathlib.Data.List.Induction

set_option autoImplicit false

namespace Esp32Deskflow.Network

open Esp32Deskflow.Foundation Esp32Deskflow.Foundation.EventGroup
  Esp32Deskflow.Foundation.History

/-! ## The handlers -/

/-- `EVENT_ETH_LINK_UP`. -/
def eventEthLinkUp : BitVec 32 := 1 <<< 3

/-- `EVENT_ETH_HAS_IP`. -/
def eventEthHasIp : BitVec 32 := 1 <<< 4

/-- `EVENT_ETH_LINK_DOWN`. -/
def eventEthLinkDown : BitVec 32 := 1 <<< 5

/-- `EVENT_RECONNECT`. -/
def eventReconnect : BitVec 32 := 1 <<< 6

/-- The flags of `eth_state_t`. -/
structure EthState where
  linkUp : Bool
  hasIp : Bool
  deriving DecidableEq, Repr

/-- `s_eth_state` and the bits of `s_event_group`; `none` is a null pointer. -/
structure EthNetwork where
  ethState : Option EthState
  eventGroup : Option (BitVec 32)
  deriving DecidableEq, Repr

/-- After `eth_init` with a new event group. -/
def ethInit : EthNetwork where
  ethState := some { linkUp := false, hasIp := false }
  eventGroup := some 0

/-- The `ETH_EVENT` ids. -/
inductive EthEvent where
  | start
  | stop
  | connected
  | disconnected
  | other
  deriving DecidableEq, Repr

/-- `eth_event_handler`. -/
def ethEventHandler (n : EthNetwork) : EthEvent → EthNetwork
  | .connected =>
      { ethState := n.ethState.map fun st => { st with linkUp := true }
        eventGroup := n.eventGroup.map fun bits =>
          clearBits (setBits bits eventEthLinkUp) eventEthLinkDown }
  | .disconnected =>
      { ethState := n.ethState.map fun st => { st with linkUp := false }
        eventGroup := n.eventGroup.map fun bits =>
          setBits (clearBits bits eventEthLinkUp) eventEthLinkDown }
  | .start => n
  | .stop => n
  | .other => n

/-- `got_ip_event_handler`. -/
def gotIpEventHandler (n : EthNetwork) : EthNetwork :=
  { ethState := n.ethState.map fun st => { st with hasIp := true }
    eventGroup := n.eventGroup.map fun bits => setBits bits eventEthHasIp }

/-- An event for one of the handlers, or another task setting or clearing
`EVENT_RECONNECT`. -/
inductive NetEvent where
  | eth (e : EthEvent)
  | gotIp
  | reconnect (on : Bool)
  deriving DecidableEq, Repr

/-- One event, in its handler. -/
def handleEvent (n : EthNetwork) : NetEvent → EthNetwork
  | .eth e => ethEventHandler n e
  | .gotIp => gotIpEventHandler n
  | .reconnect on =>
      { n with
        eventGroup := n.eventGroup.map fun bits =>
          if on then setBits bits eventReconnect else clearBits bits eventReconnect }

/-- The network after the events. -/
def afterEvents (events : List NetEvent) : EthNetwork := events.foldl handleEvent ethInit

/-- The bit on which `barrier_client_task` stops waiting and the monitor of `app_main`
reports the network up. -/
def reportsNetworkUp (bits : BitVec 32) : Bool := AnySet bits eventEthHasIp

/-- Whether an address was got since the last link loss. -/
def ipSinceDisconnect (events : List NetEvent) : Bool :=
  events.foldl
    (fun ip e =>
      match e with
      | .gotIp => true
      | .eth .disconnected => false
      | _ => ip)
    false

/-- The link bits and the link flag say the same. -/
def LinkTrue (n : EthNetwork) : Prop :=
  ∃ st bits, n.ethState = some st ∧ n.eventGroup = some bits ∧
    (AnySet bits eventEthLinkUp ↔ st.linkUp = true) ∧
    ¬ (AnySet bits eventEthLinkUp ∧ AnySet bits eventEthLinkDown)

/-- After the events the address bit is set only if there is an address since the last link
loss. -/
def AddressTrue (n : EthNetwork) (events : List NetEvent) : Prop :=
  ∀ bits, n.eventGroup = some bits → reportsNetworkUp bits = true →
    ipSinceDisconnect events = true

/-! ## What the bits say after any events -/

theorem afterEvents_concat (events : List NetEvent) (e : NetEvent) :
    afterEvents (events ++ [e]) = handleEvent (afterEvents events) e := by
  rw [afterEvents, List.foldl_append]
  rfl

theorem linkDown_linkUp : ¬ AnySet eventEthLinkDown eventEthLinkUp := by decide

theorem linkTrue_afterEvents (events : List NetEvent) : LinkTrue (afterEvents events) := by
  induction events using List.reverseRecOn with
  | nil => exact ⟨_, _, rfl, rfl, by decide, by decide⟩
  | append_singleton events e ih =>
      obtain ⟨st, bits, hst, hbits, hlink, hboth⟩ := ih
      rw [afterEvents_concat]
      unfold LinkTrue handleEvent
      cases e with
      | eth e =>
          cases e with
          | connected =>
              unfold ethEventHandler
              rw [hst, hbits]
              refine ⟨_, _, rfl, rfl, ?_, fun h => not_anySet_clearBits _ _ h.2⟩
              rw [anySet_clearBits_of_disjoint linkDown_linkUp, anySet_setBits]
              simp only [iff_true]
              exact Or.inr (by decide)
          | disconnected =>
              have hup : ¬ AnySet (setBits (clearBits bits eventEthLinkUp) eventEthLinkDown)
                  eventEthLinkUp := by
                rw [anySet_setBits_of_disjoint linkDown_linkUp]
                exact not_anySet_clearBits _ _
              unfold ethEventHandler
              rw [hst, hbits]
              exact ⟨_, _, rfl, rfl, iff_of_false hup Bool.false_ne_true, fun h => hup h.1⟩
          | start => exact ⟨st, bits, hst, hbits, hlink, hboth⟩
          | stop => exact ⟨st, bits, hst, hbits, hlink, hboth⟩
          | other => exact ⟨st, bits, hst, hbits, hlink, hboth⟩
      | gotIp =>
          unfold gotIpEventHandler
          rw [hst, hbits]
          refine ⟨_, _, rfl, rfl, ?_, ?_⟩
          · rw [anySet_setBits_of_disjoint (by decide)]
            exact hlink
          · rw [anySet_setBits_of_disjoint (by decide), anySet_setBits_of_disjoint (by decide)]
            exact hboth
      | reconnect on =>
          rw [hbits]
          refine ⟨st, _, hst, rfl, ?_⟩
          cases on with
          | true =>
              simp only [if_true]
              rw [anySet_setBits_of_disjoint (by decide), anySet_setBits_of_disjoint (by decide)]
              exact ⟨hlink, hboth⟩
          | false =>
              simp only [Bool.false_eq_true, if_false]
              rw [anySet_clearBits_of_disjoint (by decide),
                anySet_clearBits_of_disjoint (by decide)]
              exact ⟨hlink, hboth⟩

/-- The address bit is set by the first address, and stays. -/
theorem hasIp_afterEvents (events : List NetEvent) :
    ∃ bits, (afterEvents events).eventGroup = some bits ∧
      (reportsNetworkUp bits = true ↔ NetEvent.gotIp ∈ events) := by
  unfold reportsNetworkUp
  simp only [decide_eq_true_eq]
  induction events using List.reverseRecOn with
  | nil => exact ⟨0, rfl, iff_of_false (not_anySet_zero _) List.not_mem_nil⟩
  | append_singleton events e ih =>
      obtain ⟨bits, hbits, hip⟩ := ih
      have hkeeps : ∀ bits', (AnySet bits' eventEthHasIp ↔ AnySet bits eventEthHasIp) →
          e ≠ .gotIp → (AnySet bits' eventEthHasIp ↔ NetEvent.gotIp ∈ events ++ [e]) := by
        intro bits' hsame hne
        rw [hsame, hip, List.mem_append, List.mem_singleton, or_iff_left hne.symm]
      rw [afterEvents_concat]
      unfold handleEvent
      cases e with
      | eth e =>
          unfold ethEventHandler
          cases e with
          | connected =>
              rw [hbits]
              refine ⟨_, rfl, hkeeps _ ?_ nofun⟩
              rw [anySet_clearBits_of_disjoint (by decide), anySet_setBits_of_disjoint (by decide)]
          | disconnected =>
              rw [hbits]
              refine ⟨_, rfl, hkeeps _ ?_ nofun⟩
              rw [anySet_setBits_of_disjoint (by decide), anySet_clearBits_of_disjoint (by decide)]
          | start => exact ⟨bits, hbits, hkeeps _ Iff.rfl nofun⟩
          | stop => exact ⟨bits, hbits, hkeeps _ Iff.rfl nofun⟩
          | other => exact ⟨bits, hbits, hkeeps _ Iff.rfl nofun⟩
      | gotIp =>
          unfold gotIpEventHandler
          rw [hbits]
          refine ⟨_, rfl, iff_of_true ?_ (by simp)⟩
          rw [anySet_setBits]
          exact Or.inr (by decide)
      | reconnect on =>
          rw [hbits]
          refine ⟨_, rfl, hkeeps _ ?_ nofun⟩
          split
          · rw [anySet_setBits_of_disjoint (by decide)]
          · rw [anySet_clearBits_of_disjoint (by decide)]

/-! ## When the address bit tells the truth -/

/-- A link is lost only while no address was ever got. -/
def LostWithoutAddress (before : List NetEvent) (e : NetEvent) : Prop :=
  e = .eth .disconnected → NetEvent.gotIp ∉ before

theorem ipSinceDisconnect_concat (events : List NetEvent) (e : NetEvent) :
    ipSinceDisconnect (events ++ [e]) =
      match e with
      | .gotIp => true
      | .eth .disconnected => false
      | _ => ipSinceDisconnect events := by
  rw [ipSinceDisconnect, List.foldl_append]
  rfl

theorem ipSinceDisconnect_of_always {events : List NetEvent}
    (h : Always LostWithoutAddress events) (hip : NetEvent.gotIp ∈ events) :
    ipSinceDisconnect events = true := by
  induction events using List.reverseRecOn with
  | nil => exact absurd hip List.not_mem_nil
  | append_singleton events e ih =>
      have hlast := h events e [] rfl
      have hrest := ih h.left
      rw [ipSinceDisconnect_concat]
      rw [List.mem_append, List.mem_singleton] at hip
      split
      · rfl
      · exact (hlast rfl (hip.resolve_right nofun)).elim
      · next hgot _ => exact hrest (hip.resolve_right fun heq => hgot heq.symm)

theorem addressTrue_iff (events : List NetEvent) :
    AddressTrue (afterEvents events) events ↔
      (NetEvent.gotIp ∈ events → ipSinceDisconnect events = true) := by
  obtain ⟨bits, hbits, hip⟩ := hasIp_afterEvents events
  unfold AddressTrue
  rw [hbits]
  constructor
  · exact fun h hgot => h bits rfl (hip.mpr hgot)
  · intro h bits' hbits' hup
    cases hbits'
    exact h (hip.mp hup)

/-- After every handler the link bits tell the truth; the address bit does if and only if
no link is lost after an address was got. -/
theorem networkStatus_true_iff (events : List NetEvent) :
    (∀ before, before <+: events → LinkTrue (afterEvents before)) ∧
      ((∀ before, before <+: events → AddressTrue (afterEvents before) before) ↔
        Always LostWithoutAddress events) := by
  refine ⟨fun before _ => linkTrue_afterEvents before, ?_, ?_⟩
  · rintro h before e after hsplit rfl hgot
    have hlost : before ++ [.eth .disconnected] <+: events :=
      ⟨after, by rw [hsplit, List.append_assoc, List.singleton_append]⟩
    have hsince := (addressTrue_iff _).mp (h _ hlost) (List.mem_append_left _ hgot)
    rw [ipSinceDisconnect_concat] at hsince
    cases hsince
  · rintro h before ⟨after, rfl⟩
    exact (addressTrue_iff before).mpr (ipSinceDisconnect_of_always h.left)

/-- A link that was up and had an address is lost: the monitor goes on reporting the network
up. -/
theorem networkStatus_stale :
    ¬ ∀ before, before <+: [.eth .connected, .gotIp, .eth .disconnected] →
      AddressTrue (afterEvents before) before := by
  intro h
  have htrue := (addressTrue_iff _).mp (h _ (List.prefix_refl _)) (by decide)
  exact absurd htrue (by decide)

/-! ## The VLAN registers -/

/-- `EMAC_VLANTAG_REG` and `EMAC_VLANTAGINCLUSIONORREPLACEMENT_REG`. -/
structure VlanRegs where
  tag : UInt32
  inclusion : UInt32
  deriving DecidableEq, Repr

/-- What is written to the registers for a VLAN, with the bit `EMAC_ETV` of the first. -/
def vlanRegs (emacEtv vid : UInt32) : VlanRegs where
  tag := vid ||| emacEtv
  inclusion := vid ||| ((2 : UInt32) <<< 16) ||| ((1 : UInt32) <<< 18)

/-- `eth_set_vlan`. -/
def ethSetVlan (emacEtv : UInt32) (vlanId : Int16) (regs : VlanRegs) : VlanRegs :=
  if vlanId = -1 then ⟨0, 0⟩
  else if vlanId < 1 ∨ 4094 < vlanId then regs
  else vlanRegs emacEtv (vlanId.toInt32 &&& 0x0FFF).toUInt32

/-- The mask leaves a VLAN number as it is. -/
theorem vlan_mask {vlanId : Int16} (hlow : 1 ≤ vlanId.toInt) (hhigh : vlanId.toInt ≤ 4094) :
    (vlanId.toInt32 &&& 0x0FFF).toUInt32 = UInt32.ofInt vlanId.toInt := by
  have hmsb : vlanId.toBitVec.msb = false := by
    rw [BitVec.msb_eq_toInt, decide_eq_false_iff_not, Int16.toInt_toBitVec]
    omega
  have hnat : (vlanId.toBitVec.toNat : Int) = vlanId.toInt := by
    rw [← Int16.toInt_toBitVec, BitVec.toInt_eq_toNat_of_msb hmsb]
  have hword := uint32_toNat_ofInt vlanId.toInt
  apply UInt32.toNat_inj.mp
  show (vlanId.toBitVec.signExtend 32 &&& 0xFFF#32).toNat = _
  rw [BitVec.toNat_and, BitVec.signExtend_eq_setWidth_of_msb_false hmsb, BitVec.toNat_setWidth,
    show (0xFFF#32).toNat = 2 ^ 12 - 1 from rfl, Nat.and_two_pow_sub_one_eq_mod]
  omega

/-- The registers take a VLAN as it is. -/
theorem ethSetVlan_vlan (emacEtv : UInt32) {vlanId : Int16} (hlow : 1 ≤ vlanId.toInt)
    (hhigh : vlanId.toInt ≤ 4094) (regs : VlanRegs) :
    ethSetVlan emacEtv vlanId regs = vlanRegs emacEtv (UInt32.ofInt vlanId.toInt) := by
  have hne : vlanId ≠ -1 := by
    rintro rfl
    exact absurd hlow (by decide)
  have hrange : ¬ (vlanId < 1 ∨ 4094 < vlanId) := by
    rw [Int16.lt_iff_toInt_lt, Int16.lt_iff_toInt_lt]
    exact not_or.mpr ⟨Int.not_lt.mpr hlow, Int.not_lt.mpr hhigh⟩
  rw [ethSetVlan, if_neg hne, if_neg hrange, vlan_mask hlow hhigh]

end Esp32Deskflow.Network
