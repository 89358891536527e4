/-
  Web/UartStream.lean --- the bytes that go from the UART to the WebSocket.

  A sender hands each chunk that it reads to `uart_ws_queue_send` once, in its order, and a
  chunk that is refused is dropped.  Two senders that read at the same time can pass each
  other; a sender that is created alone cannot.
-/
import Esp32Deskflow.Web.UartSenders

set_option autoImplicit false

namespace Esp32Deskflow.Web

open Esp32Deskflow.Foundation Esp32Deskflow.Foundation.Transition

/-! ## What the senders read and hand over -/

/-- What a sender gets out of the UART by a step. -/
def SenderPc.reads (pc : SenderPc) (io : SenderIo) : List Bytes :=
  match pc with
  | .read => if groveUartRead 2048 io.read = [] then [] else [groveUartRead 2048 io.read]
  | .check | .receive | .queue _ | .ended => []

/-- What a sender has read and not yet handed over. -/
def SenderPc.held : SenderPc → List Bytes
  | .queue data => [data]
  | .check | .receive | .read | .ended => []

/-- The chunk that a sender reads by the step. -/
def chunksRead (s : UartWs) : UartWsStep → List Bytes
  | .sender i io => (s.senders[i]?.map fun pc => pc.reads io).getD []
  | _ => []

/-- The chunk that a sender hands to `uart_ws_queue_send` by the step. -/
def chunksHanded (s : UartWs) : UartWsStep → List Bytes
  | .sender i _ => (s.senders[i]?.map SenderPc.held).getD []
  | _ => []

/-- The chunk that `uart_ws_queue_send` queues by the step. -/
def chunksQueued (s : UartWs) : UartWsStep → List Bytes
  | .sender i io => if io.queued then (s.senders[i]?.map SenderPc.held).getD [] else []
  | _ => []

/-- The step, if it is one of the sender `i`. -/
def UartWsStep.isBy (i : Nat) : UartWsStep → Bool
  | .sender j _ => i == j
  | _ => false

/-- The chunks that the sender `i` reads. -/
def readBy (i : Nat) (s : UartWs) (a : UartWsStep) : List Bytes :=
  if a.isBy i then chunksRead s a else []

/-- The chunks that the sender `i` hands over. -/
def handedBy (i : Nat) (s : UartWs) (a : UartWsStep) : List Bytes :=
  if a.isBy i then chunksHanded s a else []

/-- What the senders hold. -/
def UartWs.held (s : UartWs) : List Bytes := s.senders.flatMap SenderPc.held

/-- What the sender `i` holds. -/
def UartWs.heldBy (s : UartWs) (i : Nat) : List Bytes :=
  (s.senders[i]?.map SenderPc.held).getD []

/-! ## One step -/

variable {s t : UartWs} {i : Nat}

/-- A sender hands over what it holds, and then holds what it has read. -/
theorem senderStep_stream {io : SenderIo} (h : senderStep s i io = some t) :
    ∃ pc pc', s.senders[i]? = some pc ∧ t.senders = s.senders.set i pc' ∧
      pc'.held = pc.reads io ∧ pc ≠ .ended ∧
      t.work.map (·.data) = s.work.map (·.data) ++ if io.queued then pc.held else [] := by
  have hnone : ∀ held : List Bytes, held = [] →
      s.work.map (·.data) = s.work.map (·.data) ++ if io.queued then held else [] := by
    rintro held rfl
    rw [ite_self, List.append_nil]
  cases hpc : s.senders[i]? with
  | none =>
      simp only [senderStep, hpc] at h
      cases h
  | some pc =>
      cases pc with
      | check =>
          simp only [senderStep, hpc] at h
          cases h
          refine ⟨.check, _, rfl, rfl, ?_, (by intro h; cases h), hnone _ rfl⟩
          split <;> rfl
      | receive =>
          cases hevent : io.event with
          | none =>
              simp only [senderStep, hpc, hevent] at h
              cases h
              exact ⟨.receive, _, rfl, rfl, rfl, (by intro h; cases h), hnone _ rfl⟩
          | some event =>
              cases event with
              | data | other =>
                  simp only [senderStep, hpc, hevent] at h
                  cases h
                  exact ⟨.receive, _, rfl, rfl, rfl, (by intro h; cases h), hnone _ rfl⟩
      | read =>
          cases hdata : groveUartRead 2048 io.read with
          | nil =>
              simp only [senderStep, hpc, hdata] at h
              cases h
              exact ⟨.read, _, rfl, rfl, by simp [SenderPc.reads, SenderPc.held, hdata],
                (by intro h; cases h), hnone _ rfl⟩
          | cons b bs =>
              simp only [senderStep, hpc, hdata] at h
              cases h
              exact ⟨.read, _, rfl, rfl, by simp [SenderPc.reads, SenderPc.held, hdata],
                (by intro h; cases h), hnone _ rfl⟩
      | queue data =>
          simp only [senderStep, hpc] at h
          cases h
          refine ⟨.queue data, _, rfl, rfl, rfl, (by intro h; cases h), ?_⟩
          cases io.queued with
          | true => simp [SenderPc.held]
          | false => simp
      | ended =>
          simp only [senderStep, hpc] at h
          cases h

/-- The HTTP server adds senders and leaves what is queued. -/
theorem serverStep_stream {a : UartWsStep} (h : uartWsStep s a = some t)
    (ha : a.ofSender = false) :
    t.work = s.work ∧ (t.senders = s.senders ∨ t.senders = s.senders ++ [.check]) := by
  cases sendersMove_of_step h with
  | keep hsenders hwork hhandler => exact ⟨hwork, .inl hsenders⟩
  | enable fd => exact ⟨rfl, .inl rfl⟩
  | create hhandler => exact ⟨rfl, .inr rfl⟩
  | sender pc pc' hpc hlive hsenders hhandler hrunning => cases ha

theorem heldBy_of_some {pc : SenderPc} (hpc : s.senders[i]? = some pc) : s.heldBy i = pc.held := by
  rw [UartWs.heldBy, hpc]
  rfl

theorem heldBy_set {j : Nat} {pc pc' : SenderPc} (hpc : s.senders[j]? = some pc)
    (ht : t.senders = s.senders.set j pc') :
    t.heldBy i = if i = j then pc'.held else s.heldBy i := by
  have hlt : j < s.senders.length := lt_of_getElem? hpc
  unfold UartWs.heldBy
  rw [ht]
  split
  · next heq =>
      subst heq
      rw [List.getElem?_set_self hlt]
      rfl
  · next hne => rw [List.getElem?_set_ne (Ne.symm hne)]

/-- The HTTP server adds a sender that holds nothing. -/
theorem heldBy_server {a : UartWsStep} (h : uartWsStep s a = some t) (ha : a.ofSender = false) :
    t.heldBy i = s.heldBy i := by
  unfold UartWs.heldBy
  rcases (serverStep_stream h ha).2 with hsame | hmore
  · rw [hsame]
  · rw [hmore, List.getElem?_append]
    split
    · rfl
    · next hnew =>
        rw [List.getElem?_eq_none (Nat.le_of_not_lt hnew)]
        cases i - s.senders.length with
        | zero => rfl
        | succ n => rfl

/-- What one sender has read: it was handed over, or is held. -/
theorem step_conserves {a : UartWsStep} (h : uartWsStep s a = some t) :
    s.heldBy i ++ readBy i s a = handedBy i s a ++ t.heldBy i := by
  cases a with
  | sender j io =>
      obtain ⟨pc, pc', hpc, hsenders, hheld, _, _⟩ := senderStep_stream h
      rw [heldBy_set hpc hsenders]
      unfold readBy handedBy UartWsStep.isBy
      by_cases hij : i = j
      · subst hij
        simp only [BEq.rfl, if_true, chunksRead, chunksHanded, hpc, Option.map_some,
          Option.getD_some, heldBy_of_some hpc, hheld]
      · have hne : (i == j) = false := beq_false_of_ne hij
        simp only [hne, Bool.false_eq_true, if_false, if_neg hij, List.append_nil,
          List.nil_append]
  | frame | delayOver | clear | connect | enable | create | length | payload | cleanup =>
      rw [heldBy_server h rfl]
      exact List.append_nil _

/-- What is queued: what was, and the chunk of the step. -/
theorem step_queues {a : UartWsStep} (h : uartWsStep s a = some t) :
    t.work.map (·.data) = s.work.map (·.data) ++ chunksQueued s a := by
  cases a with
  | sender j io =>
      obtain ⟨pc, pc', hpc, _, _, _, hwork⟩ := senderStep_stream h
      simp only [hwork, chunksQueued, hpc, Option.map_some, Option.getD_some]
  | frame | delayOver | clear | connect | enable | create | length | payload | cleanup =>
      rw [(serverStep_stream h rfl).1]
      exact (List.append_nil _).symm

theorem chunksQueued_sublist (s : UartWs) (a : UartWsStep) :
    (chunksQueued s a).Sublist (chunksHanded s a) := by
  cases a with
  | sender i io =>
      change (if io.queued then _ else _ : List Bytes).Sublist _
      split
      · exact List.Sublist.refl _
      · exact List.nil_sublist _
  | frame | delayOver | clear | connect | enable | create | length | payload | cleanup =>
      exact List.Sublist.refl _

/-! ## Runs -/

theorem work_of_run {steps : List UartWsStep} (hrun : run uartWsStep s steps = some t) :
    s.work.map (·.data) ++ emitted uartWsStep chunksQueued s steps = t.work.map (·.data) := by
  have hstep : ∀ (s : UartWs) (a : UartWsStep) (t : UartWs), True → True →
      uartWsStep s a = some t →
        s.work.map (·.data) ++ chunksQueued s a = [] ++ t.work.map (·.data) :=
    fun _ _ _ _ _ h => (step_queues h).symm
  have hconserved := emitted_conserved (fun _ _ _ _ _ _ => trivial) hstep trivial
    (allSteps_of_forall fun _ _ _ => trivial) hrun
  rwa [emitted_nothing, List.nil_append] at hconserved

/-- In every run, whatever connections come and go and however the senders take turns: each
sender hands over the chunks that it reads, each once and in order, but for one that it still
holds; and what is queued for the HTTP server is, in order, what was handed over and not
refused. -/
theorem uart_chunks_conserved {steps : List UartWsStep}
    (hrun : run uartWsStep .initial steps = some t) :
    (∀ i, emitted uartWsStep (readBy i) .initial steps =
      emitted uartWsStep (handedBy i) .initial steps ++ t.heldBy i) ∧
      t.work.map (·.data) = emitted uartWsStep chunksQueued .initial steps ∧
      (t.work.map (·.data)).Sublist (emitted uartWsStep chunksHanded .initial steps) := by
  have hwork := work_of_run hrun
  refine ⟨fun i => ?_, hwork.symm, ?_⟩
  · have hstep : ∀ (s : UartWs) (a : UartWsStep) (t : UartWs), True → True →
        uartWsStep s a = some t →
          s.heldBy i ++ readBy i s a = handedBy i s a ++ t.heldBy i :=
      fun _ _ _ _ _ h => step_conserves h
    exact emitted_conserved (fun _ _ _ _ _ _ => trivial) hstep trivial
      (allSteps_of_forall fun _ _ _ => trivial) hrun
  · rw [← hwork]
    exact emitted_sublist chunksQueued_sublist _ steps

/-- The sender of the first connection has read a chunk when a second connection comes; the
sender of the second one reads the next chunk and hands it over first. -/
def passingSteps : List UartWsStep :=
  [.frame 1 54, .cleanup, .clear, .connect, .enable, .create true, .length (some 0),
    .sender 0 {}, .sender 0 { event := some .data }, .sender 0 { read := some [1] },
    .frame 1 55, .cleanup, .delayOver, .clear, .connect, .enable, .create true,
    .sender 1 {}, .sender 1 { event := some .data }, .sender 1 { read := some [2] },
    .sender 1 {}, .sender 0 { queued := false }]

theorem uart_chunks_conserved_passing :
    (run uartWsStep .initial passingSteps).isSome = true ∧
      ∃ t, run uartWsStep .initial passingSteps = some t ∧
        emitted uartWsStep (readBy 0) .initial passingSteps =
          emitted uartWsStep (handedBy 0) .initial passingSteps ++ t.heldBy 0 := by
  have hsome : (run uartWsStep .initial passingSteps).isSome = true := by decide
  obtain ⟨t, ht⟩ := Option.isSome_iff_exists.mp hsome
  exact ⟨hsome, t, ht, (uart_chunks_conserved ht).1 0⟩

/-! ## Senders that are created alone -/

/-- Of senders that are created alone only the newest holds a chunk. -/
theorem held_of_serves (hs : Serves s) : s.held = s.heldBy (s.senders.length - 1) := by
  rcases List.eq_nil_or_concat s.senders with hnil | ⟨old, pc, hconcat⟩
  · rw [UartWs.held, UartWs.heldBy, hnil]
    rfl
  · have hold : old.flatMap SenderPc.held = [] := by
      refine List.flatMap_eq_nil_iff.mpr fun q hq => ?_
      obtain ⟨i, hi⟩ := List.mem_iff_getElem?.mp hq
      have hlt := (List.getElem?_eq_some_iff.mp hi).1
      by_contra hne
      have hlive : q ≠ .ended := fun h => hne (by rw [h, SenderPc.held])
      have hnewest := hs.newest i q (by rw [hconcat, List.concat_eq_append,
        List.getElem?_append_left hlt, hi]) hlive
      rw [hconcat, List.length_concat] at hnewest
      omega
    rw [UartWs.held, UartWs.heldBy, hconcat, List.concat_eq_append, List.flatMap_append, hold,
      List.length_append, List.length_singleton, Nat.add_sub_cancel, List.getElem?_concat_length]
    exact List.append_nil _

theorem held_server {a : UartWsStep} (h : uartWsStep s a = some t) (ha : a.ofSender = false) :
    t.held = s.held := by
  unfold UartWs.held
  rcases (serverStep_stream h ha).2 with hsame | hmore
  · rw [hsame]
  · rw [hmore, List.flatMap_append]
    exact List.append_nil _

theorem step_conserves_of_serves {a : UartWsStep} (hs : Serves s) (halone : CreatesAlone s a)
    (h : uartWsStep s a = some t) :
    s.held ++ chunksRead s a = chunksHanded s a ++ t.held := by
  cases a with
  | sender j io =>
      obtain ⟨pc, pc', hpc, hsenders, _, hlive, _⟩ := senderStep_stream h
      have hnewest := hs.newest j pc hpc hlive
      have hlength : t.senders.length = s.senders.length := by rw [hsenders, List.length_set]
      have hlast : s.senders.length - 1 = j := by omega
      have hconserved := step_conserves (i := j) h
      unfold readBy handedBy UartWsStep.isBy at hconserved
      rw [held_of_serves hs, held_of_serves (serves_of_step hs halone h), hlength, hlast]
      simpa only [BEq.rfl, if_true] using hconserved
  | frame | delayOver | clear | connect | enable | create | length | payload | cleanup =>
      rw [held_server h rfl]
      exact List.append_nil _

theorem chunks_of_createsAlone {steps : List UartWsStep}
    (halone : AllSteps uartWsStep CreatesAlone .initial steps)
    (hrun : run uartWsStep .initial steps = some t) :
    emitted uartWsStep chunksRead .initial steps =
      emitted uartWsStep chunksHanded .initial steps ++ t.held :=
  emitted_conserved (fun _ _ _ hs halone h => serves_of_step hs halone h)
    (fun _ _ _ hs halone h => step_conserves_of_serves hs halone h) serves_initial halone hrun

instance (s : UartWs) : Decidable (∃ fd, s.handler = .creating fd) :=
  match hhandler : s.handler with
  | .creating fd => isTrue ⟨fd, rfl⟩
  | .idle | .cleanup _ | .delaying _ | .clearing _ | .connecting _ _ | .enabling _ | .length _
  | .payload => isFalse (by rintro ⟨fd, h⟩; cases h)

instance (s : UartWs) : (a : UartWsStep) → Decidable (CreatesAlone s a)
  | .create true =>
      have : Decidable (∀ pc ∈ s.senders, pc = .ended) := List.decidableBAll _ _
      inferInstanceAs (Decidable (_ → _))
  | .create false | .frame _ _ | .cleanup | .delayOver | .clear | .connect | .enable | .length _
  | .payload _ | .sender _ _ => isTrue trivial

/-! ## A sender that is created while another goes on -/

/-- The senders, if they go on alone, come to where the sender `i` holds a chunk. -/
def CanHold (s : UartWs) (i : Nat) : Prop :=
  ∃ own u data, (∀ b ∈ own, b.ofSender = true) ∧ run uartWsStep s own = some u ∧
    u.senders[i]? = some (.queue data) ∧ u.running = s.running ∧
      ∀ j, j ≠ i → u.senders[j]? = s.senders[j]?

theorem canHold_queue {data : Bytes} (hpc : s.senders[i]? = some (.queue data)) : CanHold s i :=
  ⟨[], s, data, nofun, rfl, hpc, rfl, fun _ _ => rfl⟩

theorem canHold_of_step {io : SenderIo} {pc' : SenderPc}
    (hstep : uartWsStep s (.sender i io) = some (s.setSender i pc'))
    (h : CanHold (s.setSender i pc') i) : CanHold s i := by
  obtain ⟨own, u, data, hown, hrun, hqueue, hrunning, hothers⟩ := h
  refine ⟨.sender i io :: own, u, data, List.forall_mem_cons.mpr ⟨rfl, hown⟩,
    run_cons_iff.mpr ⟨_, hstep, hrun⟩, hqueue, hrunning, fun j hj => (hothers j hj).trans ?_⟩
  exact List.getElem?_set_ne (Ne.symm hj)

theorem canHold_read (hpc : s.senders[i]? = some .read) : CanHold s i := by
  have hstep : uartWsStep s (.sender i { read := some [0] }) =
      some (s.setSender i (.queue [0])) := by
    simp only [uartWsStep, senderStep, hpc, groveUartRead, List.take]
  exact canHold_of_step hstep (canHold_queue (getElem?_setSender hpc))

theorem canHold_receive (hpc : s.senders[i]? = some .receive) : CanHold s i := by
  have hstep : uartWsStep s (.sender i { event := some .data }) = some (s.setSender i .read) := by
    simp only [uartWsStep, senderStep, hpc]
  exact canHold_of_step hstep (canHold_read (getElem?_setSender hpc))

theorem canHold_of_live {pc : SenderPc} (hpc : s.senders[i]? = some pc) (hlive : pc ≠ .ended)
    (hrunning : s.running = true) : CanHold s i := by
  cases pc with
  | check =>
      have hstep : uartWsStep s (.sender i {}) = some (s.setSender i .receive) := by
        simp only [uartWsStep, senderStep, hpc, hrunning, if_true]
      exact canHold_of_step hstep (canHold_receive (getElem?_setSender hpc))
  | receive => exact canHold_receive hpc
  | read => exact canHold_read hpc
  | queue data => exact canHold_queue hpc
  | ended => exact absurd rfl hlive

/-- A sender that begins its loop reads a chunk and hands it over, whatever the others hold. -/
theorem passes_of_check (hpc : s.senders[i]? = some .check) (hrunning : s.running = true)
    (b : UInt8) :
    ∃ own u, (∀ a ∈ own, a.ofSender = true) ∧ run uartWsStep s own = some u ∧
      emitted uartWsStep chunksRead s own = [[b]] ∧
      emitted uartWsStep chunksHanded s own = [[b]] := by
  have hcheck : uartWsStep s (.sender i {}) = some (s.setSender i .receive) := by
    simp only [uartWsStep, senderStep, hpc, hrunning, if_true]
  have hpc₁ : (s.setSender i .receive).senders[i]? = some .receive := getElem?_setSender hpc
  have hreceive : uartWsStep (s.setSender i .receive) (.sender i { event := some .data }) =
      some ((s.setSender i .receive).setSender i .read) := by
    simp only [uartWsStep, senderStep, hpc₁]
  have hpc₂ : ((s.setSender i .receive).setSender i .read).senders[i]? = some .read :=
    getElem?_setSender hpc₁
  have hread : uartWsStep ((s.setSender i .receive).setSender i .read)
      (.sender i { read := some [b] }) =
        some (((s.setSender i .receive).setSender i .read).setSender i (.queue [b])) := by
    simp only [uartWsStep, senderStep, hpc₂, groveUartRead, List.take]
  have hpc₃ : (((s.setSender i .receive).setSender i .read).setSender i
      (.queue [b])).senders[i]? = some (.queue [b]) := getElem?_setSender hpc₂
  generalize hs₁ : s.setSender i .receive = s₁ at *
  generalize hs₂ : s₁.setSender i .read = s₂ at *
  generalize hs₃ : s₂.setSender i (.queue [b]) = s₃ at *
  obtain ⟨u, hqueue⟩ : ∃ u, uartWsStep s₃ (.sender i {}) = some u := by
    simp only [uartWsStep, senderStep, hpc₃]
    exact ⟨_, rfl⟩
  refine ⟨[.sender i {}, .sender i { event := some .data }, .sender i { read := some [b] },
    .sender i {}], u, ?_, ?_, ?_, ?_⟩
  · intro a ha
    simp only [List.mem_cons, List.not_mem_nil, or_false] at ha
    rcases ha with rfl | rfl | rfl | rfl <;> rfl
  · exact run_cons_iff.mpr ⟨_, hcheck, run_cons_iff.mpr ⟨_, hreceive,
      run_cons_iff.mpr ⟨_, hread, run_cons_iff.mpr ⟨_, hqueue, rfl⟩⟩⟩⟩
  · rw [emitted_cons_of_some hcheck, emitted_cons_of_some hreceive, emitted_cons_of_some hread,
      emitted_cons_of_some hqueue]
    simp only [chunksRead, hpc, hpc₁, hpc₂, hpc₃, Option.map_some, Option.getD_some,
      SenderPc.reads, groveUartRead, List.take, emitted, reduceCtorEq, if_false, List.nil_append,
      List.append_nil]
  · rw [emitted_cons_of_some hcheck, emitted_cons_of_some hreceive, emitted_cons_of_some hread,
      emitted_cons_of_some hqueue]
    simp only [chunksHanded, hpc, hpc₁, hpc₂, hpc₃, Option.map_some, Option.getD_some,
      SenderPc.held, emitted, List.nil_append, List.append_nil]

theorem length_held_of_step {a : UartWsStep} (h : uartWsStep s a = some t) :
    s.held.length + (chunksRead s a).length = (chunksHanded s a).length + t.held.length := by
  cases a with
  | sender j io =>
      obtain ⟨pc, pc', hpc, hsenders, hheld, _, _⟩ := senderStep_stream h
      obtain ⟨hlt, hat⟩ := List.getElem?_eq_some_iff.mp hpc
      obtain ⟨before, after, hsplit, _, hset⟩ := @List.exists_of_set _ j pc' s.senders hlt
      have hread : chunksRead s (.sender j io) = pc.reads io := by
        simp only [chunksRead, hpc, Option.map_some, Option.getD_some]
      have hhanded : chunksHanded s (.sender j io) = pc.held := by
        simp only [chunksHanded, hpc, Option.map_some, Option.getD_some]
      rw [hat] at hsplit
      rw [hread, hhanded, ← hheld, UartWs.held, UartWs.held, hsenders, hset, hsplit]
      simp only [List.flatMap_append, List.flatMap_cons, List.length_append]
      omega
  | frame | delayOver | clear | connect | enable | create | length | payload | cleanup =>
      rw [held_server h rfl]
      exact Nat.add_comm _ _

theorem length_held_of_run {steps : List UartWsStep}
    (hrun : run uartWsStep .initial steps = some t) :
    (emitted uartWsStep chunksRead .initial steps).length =
      (emitted uartWsStep chunksHanded .initial steps).length + t.held.length := by
  have hstep : ∀ (s : UartWs) (a : UartWsStep) (t : UartWs), uartWsStep s a = some t →
      s.held.length + (chunksRead s a).length = (chunksHanded s a).length + t.held.length :=
    fun _ _ _ h => length_held_of_step h
  have hlength := emitted_length_conserved hstep hrun
  have hnone : UartWs.initial.held.length = 0 := rfl
  omega

theorem length_held_pos {data : Bytes} (hpc : s.senders[i]? = some (.queue data)) :
    0 < s.held.length :=
  List.length_pos_of_mem (List.mem_flatMap.mpr
    ⟨_, List.mem_of_getElem? hpc, List.mem_singleton.mpr rfl⟩)

/-- While a chunk is held, a chunk that is read later is handed over before it. -/
theorem not_prefix_of_passes {read handed : List Bytes} (hless : handed.length < read.length) :
    ∃ b : UInt8, ¬ handed ++ [[b]] <+: read ++ [[b]] := by
  by_cases hprefix : handed <+: read
  · obtain ⟨rest, rfl⟩ := hprefix
    cases rest with
    | nil =>
        rw [List.append_nil] at hless
        exact absurd hless (Nat.lt_irrefl _)
    | cons next rest =>
        obtain ⟨b, hb⟩ : ∃ b : UInt8, [b] ≠ next := by
          by_cases hzero : [0] = next
          · exact ⟨1, by rw [← hzero]; decide⟩
          · exact ⟨0, hzero⟩
        refine ⟨b, fun h => hb ?_⟩
        rw [List.append_assoc, List.prefix_append_right_inj] at h
        exact (List.cons_prefix_cons.mp h).1
  · refine ⟨0, fun h => hprefix ?_⟩
    exact List.prefix_of_prefix_length_le ((List.prefix_append _ _).trans h)
      (List.prefix_append _ _) (Nat.le_of_lt hless)

theorem exists_create_of_not_alone {a : UartWsStep} (hs : Serves s) (hnot : ¬ CreatesAlone s a) :
    ∃ t i pc, uartWsStep s a = some t ∧ t.running = true ∧ i < s.senders.length ∧
      t.senders[i]? = some pc ∧ pc ≠ .ended ∧ t.senders[s.senders.length]? = some .check := by
  cases a with
  | create created =>
      cases created with
      | true =>
          obtain ⟨⟨fd, hhandler⟩, hnot⟩ := Classical.not_imp.mp hnot
          obtain ⟨pc, hmem, hlive⟩ : ∃ pc ∈ s.senders, pc ≠ .ended := by
            simpa only [not_forall, exists_prop] using hnot
          obtain ⟨i, hi⟩ := List.mem_iff_getElem?.mp hmem
          have hlt := lt_of_getElem? hi
          have hstep : uartWsStep s (.create true) = some { s with
              senders := s.senders ++ [.check]
              senderTask := some s.senders.length
              handler := .length fd } := by
            simp only [uartWsStep, hhandler, if_true]
          exact ⟨_, i, pc, hstep, hs.running fd hhandler, hlt,
            (List.getElem?_append_left hlt).trans hi, hlive, List.getElem?_concat_length⟩
      | false => exact absurd trivial hnot
  | frame hd fd | cleanup | delayOver | clear | connect | enable | length len | payload r
  | sender i io => exact absurd trivial hnot

/-- In a run, and also when the senders go on alone after any part of it, the chunks are handed
over in the order in which they are read, each once, if and only if every sender is created when
all senders before it have left their loops. -/
theorem uart_chunks_ordered_iff {steps : List UartWsStep}
    (hrun : run uartWsStep .initial steps = some t) :
    (∀ done own u, done <+: steps → (∀ b ∈ own, b.ofSender = true) →
        run uartWsStep .initial (done ++ own) = some u →
          emitted uartWsStep chunksHanded .initial (done ++ own) <+:
            emitted uartWsStep chunksRead .initial (done ++ own)) ↔
      AllSteps uartWsStep CreatesAlone .initial steps := by
  constructor
  · intro hordered
    by_contra hnot
    obtain ⟨done, a, rest, m, rfl, hdone, hgood, ha⟩ := exists_first_not_good hrun hnot
    have hserves : Serves m := run_invariant_of_good
      (fun _ _ _ hs halone h => serves_of_step hs halone h) serves_initial hgood hdone
    obtain ⟨n, i, pc, hstep, hrunning, hlt, hpc, hlive, hnew⟩ :=
      exists_create_of_not_alone hserves ha
    obtain ⟨own, u, data, hown, hrunOwn, hqueue, hrunningU, hothers⟩ :=
      canHold_of_live hpc hlive hrunning
    have hdoneA : run uartWsStep .initial (done ++ [a]) = some n :=
      run_append_iff.mpr ⟨m, hdone, run_cons_iff.mpr ⟨n, hstep, rfl⟩⟩
    have hheld : run uartWsStep .initial (done ++ [a] ++ own) = some u :=
      run_append_iff.mpr ⟨n, hdoneA, hrunOwn⟩
    have hless : (emitted uartWsStep chunksHanded .initial (done ++ [a] ++ own)).length <
        (emitted uartWsStep chunksRead .initial (done ++ [a] ++ own)).length := by
      have hlength := length_held_of_run hheld
      have hpos := length_held_pos hqueue
      omega
    obtain ⟨b, hnotPrefix⟩ := not_prefix_of_passes hless
    have hcheck : u.senders[m.senders.length]? = some .check :=
      (hothers _ (Nat.ne_of_gt hlt)).trans hnew
    obtain ⟨pass, v, hpass, hrunPass, hread, hhanded⟩ :=
      passes_of_check hcheck (hrunningU.trans hrunning) b
    refine hnotPrefix ?_
    have hall : ∀ b ∈ own ++ pass, UartWsStep.ofSender b = true :=
      List.forall_mem_append.mpr ⟨hown, hpass⟩
    have hrunAll : run uartWsStep .initial (done ++ [a] ++ own ++ pass) = some v :=
      run_append_iff.mpr ⟨u, hheld, hrunPass⟩
    rw [List.append_assoc] at hrunAll
    have hprefix := hordered (done ++ [a]) (own ++ pass) v
      ⟨rest, List.append_assoc _ _ _⟩ hall hrunAll
    rwa [← List.append_assoc, emitted_append hheld, emitted_append hheld, hread, hhanded]
      at hprefix
  · rintro halone done own u ⟨rest, rfl⟩ hown hrunOwn
    have hall : AllSteps uartWsStep CreatesAlone .initial (done ++ own) := by
      refine halone.of_append.append_of_forall fun b hb s => ?_
      have hsender := hown b hb
      cases b with
      | sender i io => trivial
      | frame hd fd | cleanup | delayOver | clear | connect | enable | create created
      | length len | payload r => cases hsender
    exact ⟨u.held, (chunks_of_createsAlone hall hrunOwn).symm⟩

/-- The second sender is created while the first one holds a chunk. -/
theorem uart_chunks_ordered_iff_passing :
    (run uartWsStep .initial passingSteps).isSome = true ∧
      ¬ ∀ done own u, done <+: passingSteps → (∀ b ∈ own, UartWsStep.ofSender b = true) →
        run uartWsStep .initial (done ++ own) = some u →
          emitted uartWsStep chunksHanded .initial (done ++ own) <+:
            emitted uartWsStep chunksRead .initial (done ++ own) := by
  have hsome : (run uartWsStep .initial passingSteps).isSome = true := by decide
  obtain ⟨t, ht⟩ := Option.isSome_iff_exists.mp hsome
  have hnot : ¬ AllSteps uartWsStep CreatesAlone .initial passingSteps := by decide
  exact ⟨hsome, fun h => hnot ((uart_chunks_ordered_iff ht).mp h)⟩

end Esp32Deskflow.Web
