/-
  Network/TlsClient.lean --- `tls_client.c`, over the results of esp-tls.

  An `esp_tls_t` handle is the list of the bytes that the server is still to deliver
  on the connection; how they are cut into reads, and when a call times out, is
  decided by the results of the esp-tls calls, which are arguments.
-/
import Esp32Deskflow.Foundation.Bytes
import Esp32Deskflow.Foundation.EspErr

set_option autoImplicit false

namespace Esp32Deskflow.Network

open Esp32Deskflow.Foundation

/-! ## Results of esp-tls -/

/-- A result of `esp_tls_conn_read` or `esp_tls_conn_write`: a positive number of
bytes, zero, or a negative value whose last error is
`ESP_ERR_ESP_TLS_CONNECTION_TIMEOUT` or another one. -/
inductive EspTlsResult where
  | moved (n : Nat)
  | closed
  | timedOut
  | failed
  deriving DecidableEq, Repr, Inhabited

/-- How far `tls_client_connect` gets; `inbound` is all that the server will send. -/
inductive ConnectResult where
  | noCerts
  | initFailed
  | connFailed
  | connected (inbound : Bytes)
  deriving DecidableEq, Repr, Inhabited

/-! ## The client -/

/-- `struct tls_client`. -/
structure TlsClient where
  server : Bytes
  port : Int
  connected : Bool
  tls : Option Bytes
  deriving DecidableEq, Repr

/-- `TLS_WRITE_MAX_RETRIES`. -/
def tlsWriteMaxRetries : Nat := 30

/-- `tls_client_create`; `allocated` is the result of `calloc`. -/
def tlsClientCreate (allocated : Bool) (server : Bytes) (port : Int) : Option TlsClient :=
  if allocated then some { server, port, connected := false, tls := none } else none

/-- `esp_tls_conn_destroy` and the two assignments that follow it everywhere. -/
def TlsClient.dropTls (client : TlsClient) : TlsClient :=
  { client with tls := none, connected := false }

/-- `tls_client_close`. -/
def tlsClientClose (client : Option TlsClient) : Option TlsClient :=
  client.map TlsClient.dropTls

/-- `tls_client_destroy`: the pointer is not used again before it is assigned. -/
def tlsClientDestroy (_client : Option TlsClient) : Option TlsClient := none

/-- `tls_client_connect`: its result and the client afterwards. -/
def tlsClientConnect (client : Option TlsClient) (result : ConnectResult) :
    EspErr × Option TlsClient :=
  match client with
  | none => (.invalidArg, none)
  | some client =>
      let client := if client.connected then client.dropTls else client
      match result with
      | .noCerts => (.notFound, some client)
      | .initFailed | .connFailed => (.fail, some client)
      | .connected inbound => (.ok, some { client with tls := some inbound, connected := true })

/-! ## Reading -/

/-- The result of `tls_client_read`: bytes, 0, `TLS_ERR_TIMEOUT` or -1. -/
inductive ReadResult where
  | bytes (bs : Bytes)
  | closed
  | timeout
  | error
  deriving DecidableEq, Repr

/-- `tls_client_read`.  A result that does not fit the request or the stream is no run. -/
def tlsClientRead (client : Option TlsClient) (result : EspTlsResult) (len : Nat) :
    Option (ReadResult × Option TlsClient) :=
  match client with
  | none => some (.error, none)
  | some client =>
      match client.connected, client.tls with
      | true, some inbound =>
          match result with
          | .moved n =>
              if 0 < n ∧ n ≤ len ∧ n ≤ inbound.length then
                some (.bytes (inbound.take n), some { client with tls := some (inbound.drop n) })
              else none
          | .closed => some (.closed, some client.dropTls)
          | .timedOut => some (.timeout, some client)
          | .failed => some (.error, some client.dropTls)
      | _, _ => some (.error, some client)

/-- The bytes still to be read. -/
def inbound (client : Option TlsClient) : Bytes := (client.bind TlsClient.tls).getD []

/-- Reads and writes reach esp-tls. -/
def Usable (client : Option TlsClient) : Prop :=
  ∃ c, client = some c ∧ c.connected = true ∧ c.tls.isSome

/-- A read that delivers bytes takes them from the front of the stream. -/
theorem tlsClientRead_bytes {client client' : Option TlsClient} {result : EspTlsResult}
    {len : Nat} {bs : Bytes} (h : tlsClientRead client result len = some (.bytes bs, client')) :
    result = .moved bs.length ∧ bs.length ≤ len ∧ Usable client ∧ Usable client' ∧
      inbound client = bs ++ inbound client' := by
  unfold tlsClientRead at h
  split at h
  · cases h
  · split at h
    · rename_i c _ _ stream hconn htls
      split at h
      · split at h
        · rename_i n hn
          cases h
          refine ⟨by rw [List.length_take]; congr 1; omega, ?_, ⟨_, rfl, hconn, by simp [htls]⟩,
            ⟨_, rfl, hconn, rfl⟩, ?_⟩
          · rw [List.length_take]; omega
          · simp [inbound, htls]
        · cases h
      · cases h
      · cases h
      · cases h
    · cases h

/-- A read that times out leaves the stream as it is. -/
theorem tlsClientRead_timeout {client client' : Option TlsClient} {result : EspTlsResult}
    {len : Nat} (h : tlsClientRead client result len = some (.timeout, client')) :
    result = .timedOut ∧ client' = client := by
  unfold tlsClientRead at h
  split at h
  · cases h
  · split at h
    · split at h
      · split at h <;> cases h
      · cases h
      · cases h
        exact ⟨rfl, rfl⟩
      · cases h
    · cases h

/-- A read never brings a connection back. -/
theorem tlsClientRead_usable {client client' : Option TlsClient} {result : EspTlsResult}
    {len : Nat} {r : ReadResult} (h : tlsClientRead client result len = some (r, client'))
    (husable : Usable client') : Usable client := by
  unfold tlsClientRead at h
  split at h
  · cases h
    exact husable
  · split at h
    · rename_i c _ _ stream hconn htls
      exact ⟨c, rfl, hconn, by simp [htls]⟩
    · cases h
      exact husable

/-! ## Writing -/

/-- The return value of `tls_client_write` and what esp-tls accepted of the buffer. -/
structure WriteResult where
  sent : Int
  accepted : Nat
  client : TlsClient
  deriving DecidableEq, Repr

/-- The loop of `tls_client_write`, one esp-tls result for each turn. -/
def writeLoop (len : Nat) (client : TlsClient) (offset retries : Nat)
    (results : List EspTlsResult) : Option WriteResult :=
  if len ≤ offset then some ⟨len, offset, client⟩
  else
    match results with
    | [] => none
    | .moved n :: rest =>
        if 0 < n ∧ n ≤ len - offset then writeLoop len client (offset + n) 0 rest else none
    | .closed :: _ => some ⟨offset, offset, { client with connected := false }⟩
    | .timedOut :: rest =>
        if tlsWriteMaxRetries ≤ retries + 1 then some ⟨-1, offset, client.dropTls⟩
        else writeLoop len client offset (retries + 1) rest
    | .failed :: _ => some ⟨offset, offset, client.dropTls⟩

/-- `tls_client_write` of a buffer of `len` bytes: the return value, how many bytes were
accepted, and the client. -/
def tlsClientWrite (client : Option TlsClient) (len : Nat) (results : List EspTlsResult) :
    Option (Int × Nat × Option TlsClient) :=
  match client with
  | none => some (-1, 0, none)
  | some client =>
      match client.connected, client.tls with
      | true, some _ =>
          (writeLoop len client 0 0 results).map fun out =>
            (out.sent, out.accepted, some out.client)
      | _, _ => some (-1, 0, some client)

/-- A connection whose handle is gone is of no use. -/
theorem not_usable_dropTls (client : TlsClient) : ¬ Usable (some client.dropTls) := by
  rintro ⟨c, hc, hconn, _⟩
  cases hc
  cases hconn

/-- The turns of the loop up to the one that ends it. -/
inductive WriteTurns (len : Nat) (client : TlsClient) :
    Nat → Nat → List EspTlsResult → WriteResult → Prop where
  | done {offset retries : Nat} {results : List EspTlsResult} (hdone : len ≤ offset) :
      WriteTurns len client offset retries results ⟨len, offset, client⟩
  | moved {offset retries n : Nat} {rest : List EspTlsResult} {out : WriteResult}
      (hmore : offset < len) (hfit : 0 < n ∧ n ≤ len - offset)
      (hrest : WriteTurns len client (offset + n) 0 rest out) :
      WriteTurns len client offset retries (.moved n :: rest) out
  | closed {offset retries : Nat} {rest : List EspTlsResult} (hmore : offset < len) :
      WriteTurns len client offset retries (.closed :: rest)
        ⟨offset, offset, { client with connected := false }⟩
  | failed {offset retries : Nat} {rest : List EspTlsResult} (hmore : offset < len) :
      WriteTurns len client offset retries (.failed :: rest) ⟨offset, offset, client.dropTls⟩
  | gaveUp {offset retries : Nat} {rest : List EspTlsResult} (hmore : offset < len)
      (hlast : tlsWriteMaxRetries ≤ retries + 1) :
      WriteTurns len client offset retries (.timedOut :: rest) ⟨-1, offset, client.dropTls⟩
  | again {offset retries : Nat} {rest : List EspTlsResult} {out : WriteResult}
      (hmore : offset < len) (hnext : retries + 1 < tlsWriteMaxRetries)
      (hrest : WriteTurns len client offset (retries + 1) rest out) :
      WriteTurns len client offset retries (.timedOut :: rest) out

theorem writeLoop_turns {len : Nat} {client : TlsClient} {offset retries : Nat}
    {results : List EspTlsResult} {out : WriteResult}
    (h : writeLoop len client offset retries results = some out) :
    WriteTurns len client offset retries results out := by
  induction results generalizing offset retries with
  | nil =>
      unfold writeLoop at h
      split at h
      · next hdone =>
          cases h
          exact .done hdone
      · cases h
  | cons r rest ih =>
      unfold writeLoop at h
      split at h
      · next hdone =>
          cases h
          exact .done hdone
      · next hnot =>
          have hmore : offset < len := Nat.not_le.mp hnot
          cases r with
          | moved n =>
              simp only at h
              split at h
              · next hfit => exact .moved hmore hfit (ih h)
              · cases h
          | closed =>
              cases h
              exact .closed hmore
          | failed =>
              cases h
              exact .failed hmore
          | timedOut =>
              simp only at h
              split at h
              · next hlast =>
                  cases h
                  exact .gaveUp hmore hlast
              · next hlast => exact .again hmore (Nat.not_le.mp hlast) (ih h)

/-- The loop takes exactly these turns. -/
theorem writeLoop_iff {len : Nat} {client : TlsClient} {offset retries : Nat}
    {results : List EspTlsResult} {out : WriteResult} :
    writeLoop len client offset retries results = some out ↔
      WriteTurns len client offset retries results out := by
  refine ⟨writeLoop_turns, fun hturns => ?_⟩
  induction hturns with
  | done hdone => rw [writeLoop.eq_def, if_pos hdone]
  | moved hmore hfit _ ih =>
      rw [writeLoop.eq_def, if_neg (Nat.not_le.mpr hmore)]
      simp only [if_pos hfit]
      exact ih
  | closed hmore => rw [writeLoop.eq_def, if_neg (Nat.not_le.mpr hmore)]
  | failed hmore => rw [writeLoop.eq_def, if_neg (Nat.not_le.mpr hmore)]
  | gaveUp hmore hlast =>
      rw [writeLoop.eq_def, if_neg (Nat.not_le.mpr hmore)]
      simp only [if_pos hlast]
  | again hmore hnext _ ih =>
      rw [writeLoop.eq_def, if_neg (Nat.not_le.mpr hmore)]
      simp only [if_neg (Nat.not_le.mpr hnext)]
      exact ih

theorem writeLoop_spec {len : Nat} {client : TlsClient} {offset retries : Nat}
    {results : List EspTlsResult} {out : WriteResult} (hle : offset ≤ len)
    (h : writeLoop len client offset retries results = some out) :
    out.accepted ≤ len ∧ (0 ≤ out.sent → out.accepted = len ∨ ¬ Usable (some out.client)) ∧
      (Usable (some out.client) → out.client = client) := by
  replace h := writeLoop_turns h
  induction h with
  | done hdone => exact ⟨hle, fun _ => Or.inl (Nat.le_antisymm hle hdone), fun _ => rfl⟩
  | moved hmore hfit hrest ih => exact ih (by omega)
  | closed hmore =>
      have hgone : ¬ Usable (some { client with connected := false }) := by
        rintro ⟨c, hc, hconn, _⟩
        cases hc
        cases hconn
      exact ⟨hle, fun _ => Or.inr hgone, fun husable => absurd husable hgone⟩
  | failed hmore =>
      have hgone := not_usable_dropTls client
      exact ⟨hle, fun _ => Or.inr hgone, fun husable => absurd husable hgone⟩
  | gaveUp hmore hlast =>
      have hgone := not_usable_dropTls client
      exact ⟨hle, fun _ => Or.inr hgone, fun husable => absurd husable hgone⟩
  | again hmore hnext hrest ih => exact ih hle

/-- A write that does not report an error is complete, or the connection is gone; a write
that leaves the connection leaves it as it was. -/
theorem tlsClientWrite_spec {client client' : Option TlsClient} {len accepted : Nat}
    {results : List EspTlsResult} {sent : Int}
    (h : tlsClientWrite client len results = some (sent, accepted, client')) :
    accepted ≤ len ∧ (0 ≤ sent → accepted = len ∨ ¬ Usable client') ∧
      (Usable client' → client' = client) := by
  unfold tlsClientWrite at h
  split at h
  · cases h
    exact ⟨Nat.zero_le _, fun hneg => absurd hneg (by decide), fun _ => rfl⟩
  · split at h
    · obtain ⟨out, hout, hval⟩ := Option.map_eq_some_iff.mp h
      cases hval
      obtain ⟨hle, hcomplete, hsame⟩ := writeLoop_spec (Nat.zero_le _) hout
      exact ⟨hle, hcomplete, fun husable => congrArg some (hsame husable)⟩
    · cases h
      exact ⟨Nat.zero_le _, fun hneg => absurd hneg (by decide), fun _ => rfl⟩

/-- The loop returns what was accepted, or an error. -/
theorem writeLoop_sent {len : Nat} {client : TlsClient} {offset retries : Nat}
    {results : List EspTlsResult} {out : WriteResult} (hle : offset ≤ len)
    (h : writeLoop len client offset retries results = some out) :
    out.sent = out.accepted ∨ out.sent = -1 := by
  replace h := writeLoop_turns h
  induction h with
  | done hdone => exact Or.inl (congrArg Int.ofNat (Nat.le_antisymm hdone hle))
  | moved hmore hfit hrest ih => exact ih (by omega)
  | closed hmore | failed hmore => exact Or.inl rfl
  | gaveUp hmore hlast => exact Or.inr rfl
  | again hmore hnext hrest ih => exact ih hle

/-- `tls_client_write` returns `len` only when all of the buffer was accepted. -/
theorem tlsClientWrite_len {client client' : Option TlsClient} {len accepted : Nat}
    {results : List EspTlsResult}
    (h : tlsClientWrite client len results = some ((len : Int), accepted, client')) :
    accepted = len := by
  have hminus : ((len : Int) = -1) → False := by
    intro hneg
    omega
  unfold tlsClientWrite at h
  split at h
  · have hsent : (-1 : Int) = len := congrArg Prod.fst (Option.some.inj h)
    exact absurd hsent.symm hminus
  · split at h
    · obtain ⟨out, hout, hval⟩ := Option.map_eq_some_iff.mp h
      obtain ⟨hsent, hrest⟩ := Prod.mk.inj hval
      obtain ⟨haccepted, _⟩ := Prod.mk.inj hrest
      rcases writeLoop_sent (Nat.zero_le _) hout with hall | herr
      · rw [← haccepted]
        exact Int.ofNat.inj (hall.symm.trans hsent)
      · exact absurd (hsent.symm.trans herr) hminus
    · have hsent : (-1 : Int) = len := congrArg Prod.fst (Option.some.inj h)
      exact absurd hsent.symm hminus

/-- Enough timeouts in a row end the loop, whatever would come next. -/
theorem writeLoop_timeouts {len : Nat} {client : TlsClient} {offset retries k : Nat}
    (hk : 0 < k) (henough : tlsWriteMaxRetries ≤ retries + k) :
    ∃ out, ∀ more, WriteTurns len client offset retries
      (List.replicate k .timedOut ++ more) out := by
  rcases Nat.lt_or_ge offset len with hmore | hdone
  · refine ⟨⟨-1, offset, client.dropTls⟩, fun more => ?_⟩
    induction k generalizing retries with
    | zero => exact absurd hk (Nat.lt_irrefl 0)
    | succ k ih =>
        rw [List.replicate_succ, List.cons_append]
        rcases Nat.lt_or_ge (retries + 1) tlsWriteMaxRetries with hnext | hlast
        · exact .again hmore hnext (ih (by omega) (by omega))
        · exact .gaveUp hmore hlast
  · exact ⟨⟨len, offset, client⟩, fun more => .done hdone⟩

/-- After the first results of any call, thirty timeouts in a row end it. -/
theorem writeLoop_ends {len : Nat} {client : TlsClient} {offset retries : Nat}
    {pre post : List EspTlsResult} {out : WriteResult}
    (h : WriteTurns len client offset retries (pre ++ post) out) :
    ∃ out', ∀ more, WriteTurns len client offset retries
      (pre ++ (List.replicate tlsWriteMaxRetries .timedOut ++ more)) out' := by
  induction pre generalizing offset retries with
  | nil => exact writeLoop_timeouts (by decide) (Nat.le_add_left _ _)
  | cons r pre ih =>
      cases h with
      | done hdone => exact ⟨_, fun more => .done hdone⟩
      | moved hmore hfit hrest =>
          obtain ⟨out', hout'⟩ := ih hrest
          exact ⟨out', fun more => .moved hmore hfit (hout' more)⟩
      | closed hmore => exact ⟨_, fun more => .closed hmore⟩
      | failed hmore => exact ⟨_, fun more => .failed hmore⟩
      | gaveUp hmore hlast => exact ⟨_, fun more => .gaveUp hmore hlast⟩
      | again hmore hnext hrest =>
          obtain ⟨out', hout'⟩ := ih hrest
          exact ⟨out', fun more => .again hmore hnext (hout' more)⟩

/-- `tls_client_write` ends after at most thirty timeouts in a row. -/
theorem tlsClientWrite_ends {client : Option TlsClient} {len : Nat}
    {pre post : List EspTlsResult} {result : Int × Nat × Option TlsClient}
    (h : tlsClientWrite client len (pre ++ post) = some result) :
    ∃ result', ∀ more, tlsClientWrite client len
      (pre ++ (List.replicate tlsWriteMaxRetries .timedOut ++ more)) = some result' := by
  unfold tlsClientWrite at h ⊢
  split at h
  · exact ⟨_, fun _ => rfl⟩
  · next client =>
      split at h
      · obtain ⟨out, hout, _⟩ := Option.map_eq_some_iff.mp h
        obtain ⟨out', hout'⟩ := writeLoop_ends (writeLoop_turns hout)
        refine ⟨(out'.sent, out'.accepted, some out'.client), fun more => ?_⟩
        simp only [writeLoop_iff.mpr (hout' more), Option.map_some]
      · exact ⟨_, fun _ => rfl⟩

end Esp32Deskflow.Network
