/-
  Web/HttpRequest.lean --- what the handlers of `web_server.c` get from a request and
  what they do besides their own work.

  A handler reads the body of its request by one call of `httpd_req_recv` into a buffer
  on its stack.  The call may deliver fewer bytes than the request announced.
-/
import Esp32Deskflow.Foundation.EspErr
import Esp32Deskflow.Libc.Str

set_option autoImplicit false

namespace Esp32Deskflow.Web

open Esp32Deskflow.Foundation Esp32Deskflow.Libc

/-- A request with a body: `content_len`, and what `httpd_req_recv` puts into the buffer.
`none` is a return value below zero. -/
structure HttpRequest where
  contentLen : Nat
  received : Option Bytes
  received_le : ∀ body ∈ received, body.length ≤ contentLen
  deriving Repr

/-- The call fails, delivers nothing, or delivers bytes. -/
theorem HttpRequest.received_cases (req : HttpRequest) :
    req.received = none ∨ req.received = some [] ∨
      ∃ b bs, req.received = some (b :: bs) ∧ (b :: bs).length ≤ req.contentLen := by
  cases hreceived : req.received with
  | none => exact .inl rfl
  | some body =>
      cases body with
      | nil => exact .inr (.inl rfl)
      | cons b bs => exact .inr (.inr ⟨b, bs, rfl, req.received_le _ hreceived⟩)

/-- A request whose body is delivered whole.  That one call of `httpd_req_recv` does so is an
assumption on it: `settings_post_handler` and `cert_upload_handler` do not compare its result with
`content_len`. -/
def HttpRequest.whole (body : Bytes) : HttpRequest where
  contentLen := body.length
  received := some body
  received_le := by
    rintro _ ⟨⟩
    exact Nat.le_refl _

/-- The status of a response. -/
inductive HttpStatus where
  | ok
  | badRequest
  | contentTooLarge
  | internalServerError
  deriving DecidableEq, Repr

/-- What a handler does outside of its own memory: `httpd_resp_sendstr` and
`httpd_resp_send_err`, `eth_reconfig_one_shot`, the bit `EVENT_RECONNECT`, and the
notification of the client task. -/
inductive WebAction where
  | respond (status : HttpStatus) (text : Bytes)
  | ethReconfigOneShot
  | setReconnect
  | notifyClient
  deriving DecidableEq, Repr

/-- Whether `s_event_group` is set, and whether `barrier_client_get_task_handle` gives a
task. -/
structure WebPeers where
  eventGroup : Bool
  clientTask : Bool
  deriving DecidableEq, Repr

/-- `xEventGroupSetBits` for `EVENT_RECONNECT`, behind its check. -/
def WebPeers.setReconnect (peers : WebPeers) : List WebAction :=
  if peers.eventGroup then [.setReconnect] else []

/-- `xTaskNotifyGive` for the client task, behind its check. -/
def WebPeers.notifyClient (peers : WebPeers) : List WebAction :=
  if peers.clientTask then [.notifyClient] else []

/-! ## The buffer of a handler -/

/-- A body shorter than the zeroed buffer is followed by a terminator. -/
theorem write_zeroed {n : Nat} {body : Bytes} (h : body.length < n) :
    ∃ buf, (Buffer.zeroed n).write 0 body = some buf ∧ Holds buf.bytes (cString body) := by
  obtain ⟨buf, hbuf⟩ := (Buffer.zeroed n).exists_write (show 0 + body.length ≤ n by omega)
  refine ⟨buf, hbuf, ?_⟩
  obtain ⟨k, hk⟩ : ∃ k, n - body.length = k + 1 := ⟨n - body.length - 1, by omega⟩
  have hbytes : buf.bytes = body ++ 0 :: List.replicate k 0 := by
    rw [Buffer.write_eq_some hbuf, Nat.zero_add, List.take_zero, List.nil_append,
      Buffer.zeroed, List.drop_replicate, hk, List.replicate_succ]
  rw [hbytes]
  exact holds_terminated body _

/-- A body shorter than the buffer and a terminator behind it. -/
theorem write_terminated {n : Nat} (stack : Buffer n) {body : Bytes} (h : body.length < n) :
    ∃ buf buf', stack.write 0 body = some buf ∧ buf.write body.length [0] = some buf' ∧
      Holds buf'.bytes (cString body) := by
  obtain ⟨buf, hbuf⟩ := stack.exists_write (show 0 + body.length ≤ n by omega)
  obtain ⟨buf', hbuf'⟩ := buf.exists_write (show body.length + [(0 : UInt8)].length ≤ n from h)
  refine ⟨buf, buf', hbuf, hbuf', ?_⟩
  have htake : buf.bytes.take body.length = body := by
    rw [Buffer.write_eq_some hbuf, List.take_zero, List.nil_append]
    exact List.take_left
  rw [Buffer.write_eq_some hbuf', htake]
  exact holds_terminated body _

/-- A terminator does not fit behind a body that fills the buffer. -/
theorem write_terminator_overrun {n : Nat} (buf : Buffer n) : buf.write n [0] = none := by
  unfold Buffer.write
  exact dif_neg (Nat.not_succ_le_self n)

/-- A number of bytes from an offset on; `none` if they are not all in the region. -/
def blockAt (m : Bytes) (i n : Nat) : Option Bytes :=
  if i + n ≤ m.length then some ((m.drop i).take n) else none

theorem blockAt_of_le {m : Bytes} {i n : Nat} (h : i + n ≤ m.length) :
    blockAt m i n = some ((m.drop i).take n) := if_pos h

/-! ## Searching a body -/

/-- `s = strstr(buf, key); if (s) ...`: a field is read behind its key and keeps its value
without one. -/
def keyedField {β : Type} (buf key : Bytes) (old : β) (read : Nat → Option β) : Option β :=
  (strstr buf 0 key).bind fun
    | none => some old
    | some s => read (s + key.length)

section

variable {buf text key rest : Bytes}

/-- A field keeps its value or is read at a place inside the text. -/
theorem keyedField_cases {β : Type} (h : Holds buf text) (key : Bytes) (old : β)
    (read : Nat → Option β) :
    keyedField buf key old read = some old ∨
      key <:+: text ∧ ∃ s ≤ text.length, keyedField buf key old read = read s := by
  rw [keyedField, strstr_of_holds h (Nat.zero_le _), List.drop_zero, Option.bind_some]
  cases hfound : indexOf key text with
  | none => exact .inl rfl
  | some n =>
      obtain ⟨front, behind, htext, _⟩ := indexOf_eq_some hfound
      refine .inr ⟨⟨front, behind, ?_⟩, n + key.length, indexOf_le hfound, ?_⟩
      · rw [htext, List.append_assoc]
      · simp only [Option.map_some, Nat.zero_add]

/-- A field is read where the text goes on behind the first occurrence of its key. -/
theorem keyedField_found {β : Type} (h : Holds buf text) (hafter : after key text = some rest)
    (old : β) (read : Nat → Option β) :
    ∃ s ≤ text.length, text.drop s = rest ∧ keyedField buf key old read = read s := by
  obtain ⟨n, hfound, hle, hrest⟩ := after_eq_some hafter
  refine ⟨n + key.length, hle, hrest, ?_⟩
  rw [keyedField, strstr_of_holds h (Nat.zero_le _), List.drop_zero, hfound]
  simp only [Option.map_some, Option.bind_some, Nat.zero_add]

/-- A field whose reader stays inside the text has a value, its old one without the key. -/
theorem keyedField_safe {β : Type} (h : Holds buf text) (key : Bytes) (old : β)
    {read : Nat → Option β} (hread : ∀ s ≤ text.length, ∃ v, read s = some v) :
    ∃ v, keyedField buf key old read = some v ∧ (¬ key <:+: text → v = old) := by
  obtain hold | ⟨hkey, s, hs, hfield⟩ := keyedField_cases h key old read
  · exact ⟨old, hold, fun _ => rfl⟩
  · obtain ⟨v, hv⟩ := hread s hs
    exact ⟨v, hfield.trans hv, fun hnone => absurd hkey hnone⟩

end

end Esp32Deskflow.Web
