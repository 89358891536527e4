/-
  Web/RequestBodies.lean --- the buffers of the three handlers that read a body.

  `settings_post_handler` keeps one byte of its zeroed buffer for the terminator, and
  `uart_write_handler` writes no terminator.  `cert_upload_handler` writes one behind the
  body and admits bodies that fill its buffer.
-/
import Esp32Deskflow.Web.CertUpload
import Esp32Deskflow.Web.SettingsPost

set_option autoImplicit false

namespace Esp32Deskflow.Web

open Esp32Deskflow.Foundation Esp32Deskflow.Libc Esp32Deskflow.Config

/-! ## `uart_write_handler` -/

/-- What a call of the handler returns, the bytes it gave to `grove_uart_write`, and what it
did. -/
structure UartWritten where
  ret : EspErr
  written : Option Bytes
  actions : List WebAction
  deriving DecidableEq, Repr

/-- The response, `{"written":%d}`. -/
def writtenText (ret : Nat) : Bytes := ascii "\x7b\"written\":" ++ (decimal ret ++ [125])

/-- `uart_write_handler`; `stack` and `respStack` are what its two arrays hold at the
start. -/
def uartWriteHandler (stack : Buffer 4096) (respStack : Buffer 32) (req : HttpRequest) :
    Option UartWritten :=
  if 4096 < req.contentLen then
    some ⟨.ok, none, [.respond .contentTooLarge (ascii "Payload too large")]⟩
  else
    match req.received with
    | none | some [] => some ⟨.ok, none, [.respond .badRequest (ascii "Bad request")]⟩
    | some body => do
        let buf ← stack.write 0 body
        let ret := body.length
        let data ← blockAt buf.bytes 0 ret
        let resp ← snprintf respStack (writtenText ret)
        let n := (writtenText ret).length
        let sent ← blockAt resp.bytes 0 n
        return ⟨.ok, some data, [.respond .ok sent]⟩

/-! ## Every admitted length -/

section

variable (peers : WebPeers) (io : CertIo) (stack : Buffer 4096) (respStack : Buffer 32)
  (req : HttpRequest)

/-- The response of `uart_write_handler` fits its array, whatever the length. -/
theorem writtenText_length {n : Nat} (hn : n ≤ 4096) : (writtenText n).length ≤ 16 := by
  have hdigits : (decimal n).length ≤ 4 := decimal_length_le (by decide) (by omega)
  have hprefix : (ascii "\x7b\"written\":").length = 11 := by decide +kernel
  rw [writtenText, List.length_append, List.length_append, hprefix, List.length_singleton]
  omega

theorem uartWriteHandler_defined : ∃ out, uartWriteHandler stack respStack req = some out := by
  by_cases hlen : 4096 < req.contentLen
  · exact ⟨_, if_pos hlen⟩
  · rw [uartWriteHandler, if_neg hlen]
    rcases req.received_cases with hfailed | hnothing | ⟨b, bs, hreceived, hfits⟩
    · rw [hfailed]
      exact ⟨_, rfl⟩
    · rw [hnothing]
      exact ⟨_, rfl⟩
    · rw [hreceived]
      have hresp := writtenText_length (show (b :: bs).length ≤ 4096 by omega)
      obtain ⟨buf, hbuf⟩ := stack.exists_write (show 0 + (b :: bs).length ≤ 4096 by omega)
      obtain ⟨resp, hwrite⟩ : ∃ resp, snprintf respStack (writtenText (b :: bs).length) =
          some resp := by
        refine respStack.exists_write ?_
        rw [List.length_append, List.length_take, List.length_singleton]
        omega
      have hdata := blockAt_of_le (m := buf.bytes) (i := 0) (n := (b :: bs).length)
        (by rw [buf.size_eq]; omega)
      have hsent := blockAt_of_le (m := resp.bytes) (i := 0)
        (n := (writtenText (b :: bs).length).length) (by rw [resp.size_eq]; omega)
      simp only [hbuf, hdata, hwrite, hsent, Option.bind_eq_bind, Option.bind_some,
        Option.pure_def]
      exact ⟨_, rfl⟩

/-- The body fills the buffer of `cert_upload_handler`. -/
def FillsBuffer (req : HttpRequest) : Prop :=
  req.contentLen ≤ 4096 ∧ ∃ body, req.received = some body ∧ body.length = 4096

/-- The handler leaves its buffer exactly for a body that fills it. -/
theorem certUploadHandler_cases (st : CertStore) :
    (FillsBuffer req ∧ certUploadHandler peers io stack req st = none) ∨
      (¬ FillsBuffer req ∧ ∃ out, certUploadHandler peers io stack req st = some out) := by
  unfold FillsBuffer certUploadHandler
  by_cases hlen : 4096 < req.contentLen
  · exact .inr ⟨fun hfull => by omega, _, by rw [certUploadCalls, if_pos hlen]; rfl⟩
  · have hle : req.contentLen ≤ 4096 := by omega
    rcases req.received_cases with hfailed | hnothing | ⟨b, bs, hreceived, hfits⟩
    · refine .inr ⟨?_, _, by rw [certUploadCalls, if_neg hlen, hfailed]; rfl⟩
      rintro ⟨-, _, hsome, -⟩
      rw [hfailed] at hsome
      cases hsome
    · refine .inr ⟨?_, _, by rw [certUploadCalls, if_neg hlen, hnothing]; rfl⟩
      rintro ⟨-, _, hsome, hfull⟩
      rw [hnothing] at hsome
      cases hsome
      cases hfull
    · by_cases hroom : (b :: bs).length < 4096
      · refine .inr ⟨?_, ?_⟩
        · rintro ⟨-, _, hsome, hfull⟩
          rw [hreceived] at hsome
          cases hsome
          omega
        · rw [certUploadCalls_eq _ peers stack st hle hreceived (List.cons_ne_nil b bs) hroom]
          exact ⟨_, rfl⟩
      · have hfull : (b :: bs).length = 4096 := by omega
        rw [certUploadCalls_overrun _ peers stack st hle hreceived hfull]
        exact .inl ⟨⟨hle, _, hreceived, hfull⟩, rfl⟩

/-- For every request and every number of bytes that is delivered of it: the three handlers
stay inside of their buffers if and only if the body does not fill the one of
`cert_upload_handler`. -/
theorem requestBodies_inside_iff (saveIo : SaveIo) (cfg : ConfigStore) (st : CertStore) :
    ((∃ out, settingsPostHandler peers saveIo req cfg = some out) ∧
      (∃ out, certUploadHandler peers io stack req st = some out) ∧
      ∃ out, uartWriteHandler stack respStack req = some out) ↔ ¬ FillsBuffer req := by
  rcases certUploadHandler_cases peers io stack req st with
    ⟨hfull, hnone⟩ | ⟨hroom, out, hout⟩
  · refine iff_of_false ?_ (not_not.mpr hfull)
    rintro ⟨-, ⟨out, hout⟩, -⟩
    rw [hnone] at hout
    cases hout
  · exact iff_of_true ⟨settingsPostHandler_defined peers saveIo cfg req, ⟨out, hout⟩,
      uartWriteHandler_defined stack respStack req⟩ hroom

end

/-- A request of 4096 bytes that is delivered whole. -/
def fullRequest : HttpRequest := .whole (List.replicate 4096 97)

/-- It passes the check of its length, and its terminator goes to index 4096 of the buffer. -/
theorem not_inside_fullRequest :
    fullRequest.contentLen = 4096 ∧ (Buffer.zeroed 4096).write 4096 [0] = none ∧
      ¬ ∃ out, certUploadHandler ⟨true, true⟩ certIoOk (.zeroed 4096) fullRequest noCerts =
        some out := by
  have hlen : fullRequest.contentLen = 4096 := List.length_replicate
  refine ⟨hlen, write_terminator_overrun _, ?_⟩
  rintro ⟨out, hout⟩
  rcases certUploadHandler_cases ⟨true, true⟩ certIoOk (.zeroed 4096) fullRequest noCerts with
    ⟨-, hnone⟩ | ⟨hroom, -⟩
  · cases hout.symm.trans hnone
  · exact hroom ⟨Nat.le_of_eq hlen, _, rfl, List.length_replicate⟩

end Esp32Deskflow.Web
