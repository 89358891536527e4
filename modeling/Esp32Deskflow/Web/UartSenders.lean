/-
  Web/UartSenders.lean --- the WebSocket bridge to the UART: `uart_ws_handler`,
  `uart_ws_cleanup`, and the sender tasks.

  The handler runs on the thread of the HTTP server, once for every frame; a step of it or of
  a sender is one access to `running` or `sender_task`, or one call that can wait or fail.  The
  fields `server` and `fd` are written together, and read together by `uart_ws_queue_send`.  All
  senders poll one flag.  `uart_ws_cleanup` clears it, waits 50 ms and goes on without asking
  whether the sender has seen it, and the next connection sets it again.
-/
import Esp32Deskflow.Foundation.Transition
import Esp32Deskflow.Web.UartRead

set_option autoImplicit false

namespace Esp32Deskflow.Web

open Esp32Deskflow.Foundation Esp32Deskflow.Foundation.Transition

/-! ## State -/

/-- Where a sender task is: before it tests `running`, in `xQueueReceive`, before
`grove_uart_read`, before it queues what it has read, and after its loop. -/
inductive SenderPc where
  | check
  | receive
  | read
  | queue (data : Bytes)
  | ended
  deriving DecidableEq, Repr

/-- What `uart_ws_handler` does after a cleanup: store a new connection, or return. -/
inductive AfterCleanup where
  | connect (hd : Nat) (fd : Int)
  | leave
  deriving DecidableEq, Repr

/-- Where the thread of the HTTP server is. -/
inductive WsHandlerPc where
  | idle
  /-- `uart_ws_cleanup`: at its test, in its wait, and at its last statements -/
  | cleanup (after : AfterCleanup)
  | delaying (after : AfterCleanup)
  | clearing (after : AfterCleanup)
  /-- a new connection: before the context, the flag and the task -/
  | connecting (hd : Nat) (fd : Int)
  | enabling (fd : Int)
  | creating (fd : Int)
  /-- before the length of the frame and before its payload -/
  | length (fd : Int)
  | payload
  deriving DecidableEq, Repr

/-- `async_ws_send_arg_t`. -/
structure AsyncWsSendArg where
  hd : Option Nat
  fd : Int
  data : Bytes
  deriving DecidableEq, Repr

/-- `g_ws_ctx`, the thread of the HTTP server, the senders in the order of their creation, what
they have queued for the HTTP server, and what was written to the UART. -/
structure UartWs where
  server : Option Nat
  fd : Int
  running : Bool
  senderTask : Option Nat
  handler : WsHandlerPc
  senders : List SenderPc
  work : List AsyncWsSendArg
  written : List Bytes
  deriving DecidableEq, Repr

/-- Before the first connection. -/
def UartWs.initial : UartWs where
  server := none
  fd := 0
  running := false
  senderTask := none
  handler := .idle
  senders := []
  work := []
  written := []

/-- A sender goes on to another place. -/
def UartWs.setSender (s : UartWs) (i : Nat) (pc : SenderPc) : UartWs :=
  { s with senders := s.senders.set i pc }

/-! ## Steps -/

/-- The `type` of a `uart_event_t`. -/
inductive UartEventType where
  | data
  | other
  deriving DecidableEq, Repr

/-- What a step of a sender gets: the event of `xQueueReceive`, if it comes in time, what
`uart_read_bytes` delivers, and whether `uart_ws_queue_send` returns `ESP_OK`. -/
structure SenderIo where
  event : Option UartEventType := none
  read : Option Bytes := none
  queued : Bool := true

/-- `uart_ws_sender_task`. -/
def senderStep (s : UartWs) (i : Nat) (io : SenderIo) : Option UartWs :=
  match s.senders[i]? with
  | none => none
  | some .check => some (s.setSender i (if s.running then .receive else .ended))
  | some .receive =>
      match io.event with
      | some .data => some (s.setSender i .read)
      | some .other => some (s.setSender i .check)
      | none => some (s.setSender i .check)
  | some .read =>
      match groveUartRead 2048 io.read with
      | [] => some (s.setSender i .check)
      | b :: bs => some (s.setSender i (.queue (b :: bs)))
  | some (.queue data) =>
      some { s.setSender i .check with
        work := if io.queued then s.work ++ [⟨s.server, s.fd, data⟩] else s.work }
  | some .ended => none

/-- `httpd_ws_type_t`. -/
inductive WsFrameType where
  | text
  | binary
  | other
  deriving DecidableEq, Repr

/-- How the payload of a frame is received. -/
inductive WsPayload where
  | noMem
  | failed
  | received (type : WsFrameType) (payload : Bytes)
  deriving DecidableEq, Repr

/-- One step of the handler or of a sender. -/
inductive UartWsStep where
  /-- the HTTP server calls `uart_ws_handler` -/
  | frame (hd : Nat) (fd : Int)
  | cleanup
  | delayOver
  | clear
  | connect
  | enable
  | create (created : Bool)
  /-- the first `httpd_ws_recv_frame`: the length of the frame, or an error -/
  | length (len : Option Nat)
  | payload (r : WsPayload)
  | sender (i : Nat) (io : SenderIo)

/-- `uart_ws_handler` with `uart_ws_cleanup`, and the senders. -/
def uartWsStep (s : UartWs) : UartWsStep → Option UartWs
  | .frame hd fd =>
      if s.handler = .idle then
        some { s with handler := if fd ≠ s.fd then .cleanup (.connect hd fd) else .length fd }
      else none
  | .cleanup =>
      match s.handler with
      | .cleanup after =>
          if s.senderTask.isSome then some { s with running := false, handler := .delaying after }
          else some { s with handler := .clearing after }
      | _ => none
  | .delayOver =>
      match s.handler with
      | .delaying after => some { s with senderTask := none, handler := .clearing after }
      | _ => none
  | .clear =>
      match s.handler with
      | .clearing (.connect hd fd) =>
          some { s with server := none, fd := -1, handler := .connecting hd fd }
      | .clearing .leave => some { s with server := none, fd := -1, handler := .idle }
      | _ => none
  | .connect =>
      match s.handler with
      | .connecting hd fd => some { s with server := some hd, fd := fd, handler := .enabling fd }
      | _ => none
  | .enable =>
      match s.handler with
      | .enabling fd => some { s with running := true, handler := .creating fd }
      | _ => none
  | .create created =>
      match s.handler with
      | .creating fd =>
          if created then
            some { s with
              senders := s.senders ++ [.check]
              senderTask := some s.senders.length
              handler := .length fd }
          else some { s with running := false, handler := .idle }
      | _ => none
  | .length len =>
      match s.handler, len with
      | .length fd, none =>
          some { s with handler := if fd = s.fd then .cleanup .leave else .idle }
      | .length _, some 0 => some { s with handler := .idle }
      | .length _, some (_ + 1) => some { s with handler := .payload }
      | _, _ => none
  | .payload r =>
      match s.handler, r with
      | .payload, .noMem => some { s with handler := .cleanup .leave }
      | .payload, .failed => some { s with handler := .cleanup .leave }
      | .payload, .received .text payload =>
          some { s with written := s.written ++ [payload], handler := .idle }
      | .payload, .received .binary payload =>
          some { s with written := s.written ++ [payload], handler := .idle }
      | .payload, .received .other _ => some { s with handler := .idle }
      | _, _ => none
  | .sender i io => senderStep s i io

/-! ## Who reads -/

/-- If the step is a `grove_uart_read` of a sender, it is the sender created last. -/
def ReadsNewest (s : UartWs) : UartWsStep → Prop
  | .sender i _ => s.senders[i]? = some .read → i + 1 = s.senders.length
  | _ => True

instance (s : UartWs) : (a : UartWsStep) → Decidable (ReadsNewest s a)
  | .sender _ _ => inferInstanceAs (Decidable (_ → _))
  | .frame _ _ | .cleanup | .delayOver | .clear | .connect | .enable | .create _ | .length _
  | .payload _ => isTrue trivial

/-- If the step creates a sender, every sender before it has left its loop. -/
def CreatesAlone (s : UartWs) : UartWsStep → Prop
  | .create true => (∃ fd, s.handler = .creating fd) → ∀ pc ∈ s.senders, pc = .ended
  | _ => True

/-- A sender moves. -/
def UartWsStep.ofSender : UartWsStep → Bool
  | .sender _ _ => true
  | .frame _ _ | .cleanup | .delayOver | .clear | .connect | .enable | .create _ | .length _
  | .payload _ => false

/-! ## What a step does to the senders -/

/-- A step keeps the senders, sets the flag, creates a sender or moves one. -/
inductive SendersMove (s : UartWs) : UartWsStep → UartWs → Prop
  | keep {a : UartWsStep} {t : UartWs} (hsenders : t.senders = s.senders)
      (hwork : t.work = s.work) (hhandler : ∀ fd, t.handler ≠ .creating fd) : SendersMove s a t
  | enable (fd : Int) : SendersMove s .enable { s with running := true, handler := .creating fd }
  | create {fd : Int} (hhandler : s.handler = .creating fd) :
      SendersMove s (.create true) { s with
        senders := s.senders ++ [.check]
        senderTask := some s.senders.length
        handler := .length fd }
  | sender {i : Nat} {io : SenderIo} {t : UartWs} (pc pc' : SenderPc)
      (hpc : s.senders[i]? = some pc) (hlive : pc ≠ .ended)
      (hsenders : t.senders = s.senders.set i pc') (hhandler : t.handler = s.handler)
      (hrunning : t.running = s.running) : SendersMove s (.sender i io) t

theorem sendersMove_of_sender {s t : UartWs} {i : Nat} {io : SenderIo}
    (h : senderStep s i io = some t) : SendersMove s (.sender i io) t := by
  cases hpc : s.senders[i]? with
  | none =>
      simp only [senderStep, hpc] at h
      cases h
  | some pc =>
      cases pc with
      | check =>
          simp only [senderStep, hpc] at h
          cases h
          exact .sender .check _ hpc nofun rfl rfl rfl
      | receive =>
          cases hevent : io.event with
          | none =>
              simp only [senderStep, hpc, hevent] at h
              cases h
              exact .sender .receive _ hpc nofun rfl rfl rfl
          | some event =>
              cases event with
              | data | other =>
                  simp only [senderStep, hpc, hevent] at h
                  cases h
                  exact .sender .receive _ hpc nofun rfl rfl rfl
      | read =>
          cases hdata : groveUartRead 2048 io.read with
          | nil | cons b bs =>
              simp only [senderStep, hpc, hdata] at h
              cases h
              exact .sender .read _ hpc nofun rfl rfl rfl
      | queue data =>
          simp only [senderStep, hpc] at h
          cases h
          exact .sender (.queue data) _ hpc nofun rfl rfl rfl
      | ended =>
          simp only [senderStep, hpc] at h
          cases h

/-- The handler at the end of a connection. -/
theorem sendersMove_of_cleanup {s t : UartWs} {a : UartWsStep}
    (ha : a = .cleanup ∨ a = .delayOver ∨ a = .clear) (h : uartWsStep s a = some t) :
    SendersMove s a t := by
  rcases ha with rfl | rfl | rfl
  · -- cleanup
    simp only [uartWsStep] at h
    split at h
    · split at h <;> cases h <;> exact .keep rfl rfl nofun
    · cases h
  · -- delayOver
    simp only [uartWsStep] at h
    split at h
    · cases h
      exact .keep rfl rfl nofun
    · cases h
  · -- clear
    simp only [uartWsStep] at h
    split at h
    · cases h
      exact .keep rfl rfl nofun
    · cases h
      exact .keep rfl rfl nofun
    · cases h

/-- The handler at the beginning of a connection. -/
theorem sendersMove_of_connection {s t : UartWs} {a : UartWsStep}
    (ha : a = .connect ∨ a = .enable ∨ ∃ created, a = .create created)
    (h : uartWsStep s a = some t) : SendersMove s a t := by
  rcases ha with rfl | rfl | ⟨created, rfl⟩
  · -- connect
    simp only [uartWsStep] at h
    split at h
    · cases h
      exact .keep rfl rfl nofun
    · cases h
  · -- enable
    simp only [uartWsStep] at h
    split at h
    · next fd hhandler =>
        cases h
        exact .enable fd
    · cases h
  · -- create
    simp only [uartWsStep] at h
    split at h
    · next fd hhandler =>
        cases created with
        | true =>
            cases h
            exact .create hhandler
        | false =>
            cases h
            exact .keep rfl rfl nofun
    · cases h

/-- The handler at a frame. -/
theorem sendersMove_of_frame {s t : UartWs} {a : UartWsStep}
    (ha : (∃ hd fd, a = .frame hd fd) ∨ (∃ len, a = .length len) ∨ ∃ r, a = .payload r)
    (h : uartWsStep s a = some t) : SendersMove s a t := by
  rcases ha with ⟨hd, fd, rfl⟩ | ⟨len, rfl⟩ | ⟨r, rfl⟩
  · -- frame
    obtain ⟨_, h⟩ := Option.ite_none_right_eq_some.mp h
    cases h
    refine .keep rfl rfl fun fd' => ?_
    by_cases hfd : fd ≠ s.fd
    · simp only [if_pos hfd]
      nofun
    · simp only [if_neg hfd]
      nofun
  · -- length
    simp only [uartWsStep] at h
    split at h
    · next fd hhandler =>
        cases h
        refine .keep rfl rfl fun fd' => ?_
        by_cases hfd : fd = s.fd
        · simp only [if_pos hfd]
          nofun
        · simp only [if_neg hfd]
          nofun
    · cases h
      exact .keep rfl rfl nofun
    · cases h
      exact .keep rfl rfl nofun
    · cases h
  · -- payload
    simp only [uartWsStep] at h
    split at h
    · -- no memory for the payload
      cases h
      exact .keep rfl rfl nofun
    · -- the payload is not received
      cases h
      exact .keep rfl rfl nofun
    · -- a text frame
      cases h
      exact .keep rfl rfl nofun
    · -- a binary frame
      cases h
      exact .keep rfl rfl nofun
    · -- another frame
      cases h
      exact .keep rfl rfl nofun
    · cases h

theorem sendersMove_of_step {s t : UartWs} {a : UartWsStep} (h : uartWsStep s a = some t) :
    SendersMove s a t := by
  cases a with
  | cleanup => exact sendersMove_of_cleanup (.inl rfl) h
  | delayOver => exact sendersMove_of_cleanup (.inr (.inl rfl)) h
  | clear => exact sendersMove_of_cleanup (.inr (.inr rfl)) h
  | connect => exact sendersMove_of_connection (.inl rfl) h
  | enable => exact sendersMove_of_connection (.inr (.inl rfl)) h
  | create created => exact sendersMove_of_connection (.inr (.inr ⟨created, rfl⟩)) h
  | frame hd fd => exact sendersMove_of_frame (.inl ⟨hd, fd, rfl⟩) h
  | length len => exact sendersMove_of_frame (.inr (.inl ⟨len, rfl⟩)) h
  | payload r => exact sendersMove_of_frame (.inr (.inr ⟨r, rfl⟩)) h
  | sender i io => exact sendersMove_of_sender h

/-! ## A sender that is created alone reads alone -/

/-- Only the sender created last can be in its loop, and a task is created with `running` set. -/
structure Serves (s : UartWs) : Prop where
  newest : ∀ i pc, s.senders[i]? = some pc → pc ≠ .ended → i + 1 = s.senders.length
  running : ∀ fd, s.handler = .creating fd → s.running = true

theorem serves_initial : Serves UartWs.initial := ⟨nofun, nofun⟩

theorem serves_of_step {s t : UartWs} {a : UartWsStep} (hs : Serves s) (halone : CreatesAlone s a)
    (h : uartWsStep s a = some t) : Serves t := by
  cases sendersMove_of_step h with
  | keep hsenders hwork hhandler =>
      refine ⟨?_, fun fd hcreating => absurd hcreating (hhandler fd)⟩
      rw [hsenders]
      exact hs.newest
  | enable fd => exact ⟨hs.newest, fun _ _ => rfl⟩
  | create hhandler =>
      refine ⟨fun i pc hpc hlive => ?_, nofun⟩
      have hended := halone ⟨_, hhandler⟩
      by_cases hi : i < s.senders.length
      · rw [List.getElem?_append_left hi] at hpc
        exact absurd (hended pc (List.mem_of_getElem? hpc)) hlive
      · have hlt := (List.getElem?_eq_some_iff.mp hpc).1
        rw [List.length_append, List.length_singleton] at hlt
        rw [List.length_append, List.length_singleton]
        omega
  | sender pc pc' hpc hlive hsenders hhandler hrunning =>
      refine ⟨fun j pc'' hj hlive' => ?_, ?_⟩
      · rw [hsenders, List.length_set]
        rw [hsenders, List.getElem?_set] at hj
        split at hj
        · rename_i heq
          rw [← heq]
          exact hs.newest _ pc hpc hlive
        · exact hs.newest j pc'' hj hlive'
      · intro fd hcreating
        rw [hhandler] at hcreating
        rw [hrunning]
        exact hs.running fd hcreating

theorem readsNewest_of_serves {s : UartWs} {a : UartWsStep} (hs : Serves s) : ReadsNewest s a := by
  cases a with
  | sender i io => exact fun hread => hs.newest i .read hread nofun
  | frame hd fd | cleanup | delayOver | clear | connect | enable | create created | length len
  | payload r => trivial

/-! ## A sender that is still in its loop reads again -/

/-- The senders, if they go on alone, read for an older connection. -/
abbrev StaleRead : UartWs → Prop :=
  CanBreak uartWsStep ReadsNewest fun b => b.ofSender = true

theorem lt_of_getElem? {s : UartWs} {i : Nat} {pc : SenderPc} (hpc : s.senders[i]? = some pc) :
    i < s.senders.length := (List.getElem?_eq_some_iff.mp hpc).1

theorem getElem?_setSender {s : UartWs} {i : Nat} {pc pc' : SenderPc}
    (hpc : s.senders[i]? = some pc) : (s.setSender i pc').senders[i]? = some pc' :=
  List.getElem?_set_self (lt_of_getElem? hpc)

theorem length_setSender {s : UartWs} {i : Nat} {pc : SenderPc} :
    (s.setSender i pc).senders.length = s.senders.length := List.length_set

theorem staleRead_read {s : UartWs} {i : Nat} (hpc : s.senders[i]? = some .read)
    (hold : i + 1 ≠ s.senders.length) : StaleRead s :=
  .of_not_ok (b := UartWsStep.sender i {}) rfl fun hok => hold (hok hpc)

theorem staleRead_receive {s : UartWs} {i : Nat} (hpc : s.senders[i]? = some .receive)
    (hold : i + 1 ≠ s.senders.length) : StaleRead s := by
  have hstep : uartWsStep s (.sender i { event := some .data }) = some (s.setSender i .read) := by
    simp only [uartWsStep, senderStep, hpc]
  refine .of_step rfl hstep (staleRead_read (getElem?_setSender hpc) ?_)
  rw [length_setSender]
  exact hold

theorem staleRead_check {s : UartWs} {i : Nat} (hpc : s.senders[i]? = some .check)
    (hrunning : s.running = true) (hold : i + 1 ≠ s.senders.length) : StaleRead s := by
  have hstep : uartWsStep s (.sender i {}) = some (s.setSender i .receive) := by
    simp only [uartWsStep, senderStep, hpc, hrunning, if_true]
  refine .of_step rfl hstep (staleRead_receive (getElem?_setSender hpc) ?_)
  rw [length_setSender]
  exact hold

/-- With `running` set every sender in its loop comes to read. -/
theorem staleRead_of_live {s : UartWs} {i : Nat} {pc : SenderPc} (hpc : s.senders[i]? = some pc)
    (hlive : pc ≠ .ended) (hrunning : s.running = true) (hold : i + 1 ≠ s.senders.length) :
    StaleRead s := by
  cases pc with
  | check => exact staleRead_check hpc hrunning hold
  | receive => exact staleRead_receive hpc hold
  | read => exact staleRead_read hpc hold
  | queue data =>
      have hstep : uartWsStep s (.sender i { queued := false }) = some (s.setSender i .check) := by
        simp only [uartWsStep, senderStep, hpc]
        rfl
      refine .of_step rfl hstep (staleRead_check (getElem?_setSender hpc) hrunning ?_)
      rw [length_setSender]
      exact hold
  | ended => exact absurd rfl hlive

theorem staleRead_of_create {s : UartWs} {a : UartWsStep} (hs : Serves s)
    (hnot : ¬ CreatesAlone s a) : ∃ t, uartWsStep s a = some t ∧ StaleRead t := by
  cases a with
  | create created =>
      cases created with
      | true =>
          obtain ⟨⟨fd, hhandler⟩, hnot⟩ := Classical.not_imp.mp hnot
          obtain ⟨pc, hmem, hlive⟩ : ∃ pc ∈ s.senders, pc ≠ .ended := by
            simpa only [not_forall, exists_prop] using hnot
          obtain ⟨i, hi⟩ := List.mem_iff_getElem?.mp hmem
          have hlt := lt_of_getElem? hi
          have hstep : uartWsStep s (.create true) = some { s with
              senders := s.senders ++ [.check]
              senderTask := some s.senders.length
              handler := .length fd } := by
            simp only [uartWsStep, hhandler, if_true]
          have hold : (s.senders ++ [SenderPc.check])[i]? = some pc :=
            (List.getElem?_append_left hlt).trans hi
          refine ⟨_, hstep, staleRead_of_live hold hlive (hs.running fd hhandler) ?_⟩
          rw [List.length_append, List.length_singleton]
          omega
      | false => exact absurd trivial hnot
  | frame hd fd | cleanup | delayOver | clear | connect | enable | length len | payload r
  | sender i io => exact absurd trivial hnot

/-! ## Every run -/

/-- In a run, and also when the senders go on alone after any part of it, no sender but the one
created last reads the UART, if and only if every sender is created when all senders before it
have left their loops. -/
theorem readsNewest_iff (steps : List UartWsStep) :
    (∀ done own, done <+: steps → (∀ b ∈ own, b.ofSender = true) →
        AllSteps uartWsStep ReadsNewest UartWs.initial (done ++ own)) ↔
      AllSteps uartWsStep CreatesAlone UartWs.initial steps := by
  have hok : ∀ s a, Serves s → CreatesAlone s a → ReadsNewest s a :=
    fun _ _ hs _ => readsNewest_of_serves hs
  have hkeeps : ∀ s a t, Serves s → CreatesAlone s a → uartWsStep s a = some t → Serves t :=
    fun _ _ _ hs halone hstep => serves_of_step hs halone hstep
  have hown : ∀ s b, UartWsStep.ofSender b = true → CreatesAlone s b := by
    intro s b hb
    cases b with
    | sender i io => trivial
    | frame hd fd | cleanup | delayOver | clear | connect | enable | create created | length len
    | payload r => cases hb
  exact allSteps_own_iff hok hkeeps hown (fun _ _ hs hnot => staleRead_of_create hs hnot)
    serves_initial

/-- A second connection comes while the sender of the first waits for an event. -/
def secondConnectionSteps : List UartWsStep :=
  [.frame 1 54, .cleanup, .clear, .connect, .enable, .create true, .length (some 0),
    .sender 0 {}, .frame 1 55, .cleanup, .delayOver, .clear, .connect, .enable, .create true,
    .sender 0 { event := some .data }, .sender 0 {}]

/-- Both senders run, and the first one reads. -/
theorem not_readsNewest_secondConnection :
    (run uartWsStep UartWs.initial secondConnectionSteps).isSome = true ∧
      ¬ AllSteps uartWsStep ReadsNewest UartWs.initial secondConnectionSteps := by
  exact ⟨by decide, by decide⟩

end Esp32Deskflow.Web
