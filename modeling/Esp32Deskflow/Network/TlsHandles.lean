/-
  Network/TlsHandles.lean --- the esp-tls handles of `tls_client.c`.

  `TlsClient` follows the bytes of a connection; here the same functions are followed by what
  they do with the handle behind it.  Handles are numbered in the order in which `esp_tls_init`
  hands them out.  `tls` and `connected` are cleared together everywhere but after a write that
  finds the connection closed, which clears `connected` alone.
-/
import Esp32Deskflow.Foundation.HandleLog
import Esp32Deskflow.Network.TlsClient
import Mathlib.Data.Finset.Card

set_option autoImplicit false

namespace Esp32Deskflow.Network

open Esp32Deskflow.Foundation Esp32Deskflow.Foundation.HandleLog
  Esp32Deskflow.Foundation.Transition

/-! ## The calls of the client -/

/-- `esp_tls_init`, a call with the handle, or `esp_tls_conn_destroy`. -/
abbrev EspTlsCall := HandleCall Nat

/-- The fields of `struct tls_client` that a call changes. -/
structure HandleClient where
  connected : Bool
  tls : Option Nat
  deriving DecidableEq, Repr

/-- The calls that a function makes, and the client afterwards. -/
structure Traced where
  calls : List EspTlsCall
  client : HandleClient
  deriving DecidableEq, Repr

/-- One call before the others. -/
def Traced.cons (call : EspTlsCall) (out : Traced) : Traced :=
  { out with calls := call :: out.calls }

/-- Calls before the others. -/
def Traced.append (calls : List EspTlsCall) (out : Traced) : Traced :=
  { out with calls := calls ++ out.calls }

/-- The client after `tls_client_create`. -/
def handleCreate : HandleClient where
  connected := false
  tls := none

/-- `tls_client_close`. -/
def handleClose (c : HandleClient) : Traced :=
  match c.tls with
  | some h => ⟨[.release h], { tls := none, connected := false }⟩
  | none => ⟨[], { c with connected := false }⟩

/-- `tls_client_connect` after its first statement; `next` is what `esp_tls_init` hands out. -/
def handleNew (c : HandleClient) (next : Nat) : ConnectResult → Traced
  | .noCerts => ⟨[], c⟩
  | .initFailed => ⟨[], c⟩
  -- `esp_tls_conn_new_sync` and `esp_tls_get_error_handle`
  | .connFailed => ⟨[.acquire next, .use next, .use next, .release next], c⟩
  | .connected _ => ⟨[.acquire next, .use next], { tls := some next, connected := true }⟩

/-- `tls_client_connect`. -/
def handleConnect (c : HandleClient) (next : Nat) (result : ConnectResult) : Traced :=
  let closed := if c.connected then handleClose c else ⟨[], c⟩
  (handleNew closed.client next result).append closed.calls

/-- The handles that `tls_client_connect` gets from `esp_tls_init`. -/
def connectHandles : ConnectResult → Nat
  | .noCerts | .initFailed => 0
  | .connFailed | .connected _ => 1

/-- `tls_client_read`; `buf` says that the buffer is not null. -/
def handleRead (c : HandleClient) (buf : Bool) (result : EspTlsResult) : Traced :=
  match c.connected, c.tls, buf with
  | true, some h, true =>
      match result with
      | .moved _ => ⟨[.use h], c⟩
      | .closed => ⟨[.use h, .release h], { tls := none, connected := false }⟩
      | .timedOut => ⟨[.use h, .use h], c⟩
      | .failed => ⟨[.use h, .use h, .release h], { tls := none, connected := false }⟩
  | _, _, _ => ⟨[], c⟩

/-- The loop of `tls_client_write` with the handle `h`. -/
def handleWriteLoop (len : Nat) (c : HandleClient) (h offset retries : Nat)
    (results : List EspTlsResult) : Option Traced :=
  if len ≤ offset then some ⟨[], c⟩
  else
    match results with
    | [] => none
    | .moved n :: rest =>
        if 0 < n ∧ n ≤ len - offset then
          (handleWriteLoop len c h (offset + n) 0 rest).map (.cons (.use h))
        else none
    | .closed :: _ => some ⟨[.use h], { c with connected := false }⟩
    | .timedOut :: rest =>
        if tlsWriteMaxRetries ≤ retries + 1 then
          some ⟨[.use h, .use h, .release h], { tls := none, connected := false }⟩
        else
          (handleWriteLoop len c h offset (retries + 1) rest).map fun out =>
            .cons (.use h) (.cons (.use h) out)
    | .failed :: _ => some ⟨[.use h, .use h, .release h], { tls := none, connected := false }⟩

/-- `tls_client_write`. -/
def handleWrite (c : HandleClient) (buf : Bool) (len : Nat) (results : List EspTlsResult) :
    Option Traced :=
  match c.connected, c.tls, buf with
  | true, some h, true => handleWriteLoop len c h 0 0 results
  | _, _, _ => some ⟨[], c⟩

/-! ## The client and its bytes -/

/-- `connected`, and whether there is a handle. -/
def HandleClient.flags (c : HandleClient) : Bool × Bool := (c.connected, c.tls.isSome)

/-- The same of the client with its bytes. -/
def TlsClient.flags (client : TlsClient) : Bool × Bool := (client.connected, client.tls.isSome)

theorem flags_handleClose (c : HandleClient) (client : TlsClient) :
    (handleClose c).client.flags = client.dropTls.flags := by
  unfold handleClose
  cases htls : c.tls with
  | none => rfl
  | some h => rfl

theorem tls_of_flags {c : HandleClient} {client : TlsClient} (h : c.flags = client.flags) :
    (client.tls = none → c.tls = none) ∧ (∀ bs, client.tls = some bs → ∃ k, c.tls = some k) := by
  have htls : c.tls.isSome = client.tls.isSome := (Prod.mk.inj h).2
  constructor
  · intro hnone
    rw [hnone] at htls
    exact Option.not_isSome_iff_eq_none.mp (Bool.eq_false_iff.mp htls)
  · intro bs hsome
    rw [hsome] at htls
    exact Option.isSome_iff_exists.mp htls

theorem flags_handleConnect {c : HandleClient} {client : TlsClient} (h : c.flags = client.flags)
    (next : Nat) (result : ConnectResult) :
    ∃ client', (tlsClientConnect (some client) result).2 = some client' ∧
      (handleConnect c next result).client.flags = client'.flags := by
  obtain ⟨hconnected, htls⟩ := Prod.mk.inj h
  have hclosed : (if c.connected then handleClose c else ⟨[], c⟩ : Traced).client.flags =
      (if client.connected then client.dropTls else client).flags := by
    rw [hconnected]
    split
    · exact flags_handleClose c client
    · exact h
  cases result with
  | noCerts | initFailed | connFailed => exact ⟨_, rfl, hclosed⟩
  | connected inbound => exact ⟨_, rfl, rfl⟩

theorem flags_handleRead {c : HandleClient} {client client' : TlsClient}
    (h : c.flags = client.flags) {result : EspTlsResult} {len : Nat} {r : ReadResult}
    (hread : tlsClientRead (some client) result len = some (r, some client')) :
    (handleRead c true result).client.flags = client'.flags := by
  have hconnected : c.connected = client.connected := (Prod.mk.inj h).1
  cases hc : client.connected with
  | false =>
      simp only [tlsClientRead, hc] at hread
      cases hread
      simp only [handleRead, hconnected, hc]
      exact h
  | true =>
      cases ht : client.tls with
      | none =>
          simp only [tlsClientRead, hc, ht] at hread
          cases hread
          simp only [handleRead, hconnected, hc, (tls_of_flags h).1 ht]
          exact h
      | some inbound =>
          obtain ⟨k, hk⟩ := (tls_of_flags h).2 inbound ht
          simp only [tlsClientRead, hc, ht] at hread
          simp only [handleRead, hconnected, hc, hk]
          cases result with
          | moved n =>
              obtain ⟨_, hread⟩ := Option.ite_none_right_eq_some.mp hread
              cases hread
              exact h.trans (Prod.ext hc (congrArg Option.isSome ht))
          | closed | failed =>
              cases hread
              rfl
          | timedOut =>
              cases hread
              exact h

theorem flags_handleWriteLoop {len : Nat} {client : TlsClient} {offset retries : Nat}
    {results : List EspTlsResult} {out : WriteResult} {c : HandleClient} (k : Nat)
    (hflags : c.flags = client.flags)
    (hturns : WriteTurns len client offset retries results out) :
    ∃ t, handleWriteLoop len c k offset retries results = some t ∧
      t.client.flags = out.client.flags := by
  induction hturns with
  | done hdone => exact ⟨_, by rw [handleWriteLoop.eq_def, if_pos hdone], hflags⟩
  | moved hmore hfit _ ih =>
      obtain ⟨t, ht, hout⟩ := ih
      refine ⟨t.cons (.use k), ?_, hout⟩
      rw [handleWriteLoop.eq_def, if_neg (Nat.not_le.mpr hmore)]
      simp only [if_pos hfit, ht, Option.map_some]
  | closed hmore =>
      refine ⟨_, by rw [handleWriteLoop.eq_def, if_neg (Nat.not_le.mpr hmore)], ?_⟩
      exact congrArg (Prod.mk false) (congrArg Prod.snd hflags)
  | failed hmore => exact ⟨_, by rw [handleWriteLoop.eq_def, if_neg (Nat.not_le.mpr hmore)], rfl⟩
  | gaveUp hmore hlast =>
      refine ⟨⟨[.use k, .use k, .release k], { tls := none, connected := false }⟩, ?_, rfl⟩
      rw [handleWriteLoop.eq_def, if_neg (Nat.not_le.mpr hmore)]
      simp only [if_pos hlast]
  | again hmore hnext _ ih =>
      obtain ⟨t, ht, hout⟩ := ih
      refine ⟨(t.cons (.use k)).cons (.use k), ?_, hout⟩
      rw [handleWriteLoop.eq_def, if_neg (Nat.not_le.mpr hmore)]
      simp only [if_neg (Nat.not_le.mpr hnext), ht, Option.map_some]

theorem flags_handleWrite {c : HandleClient} {client client' : TlsClient}
    (h : c.flags = client.flags) {len accepted : Nat} {results : List EspTlsResult} {sent : Int}
    (hwrite : tlsClientWrite (some client) len results = some (sent, accepted, some client')) :
    ∃ t, handleWrite c true len results = some t ∧ t.client.flags = client'.flags := by
  have hconnected : c.connected = client.connected := (Prod.mk.inj h).1
  cases hc : client.connected with
  | false =>
      simp only [tlsClientWrite, hc] at hwrite
      cases hwrite
      simp only [handleWrite, hconnected, hc]
      exact ⟨_, rfl, h⟩
  | true =>
      cases ht : client.tls with
      | none =>
          simp only [tlsClientWrite, hc, ht] at hwrite
          cases hwrite
          simp only [handleWrite, hconnected, hc, (tls_of_flags h).1 ht]
          exact ⟨_, rfl, h⟩
      | some inbound =>
          obtain ⟨k, hk⟩ := (tls_of_flags h).2 inbound ht
          simp only [tlsClientWrite, hc, ht] at hwrite
          obtain ⟨out, hout, hval⟩ := Option.map_eq_some_iff.mp hwrite
          cases hval
          simp only [handleWrite, hconnected, hc, hk]
          exact flags_handleWriteLoop k h (writeLoop_turns hout)

/-! ## Sequences of calls -/

/-- A call of a function of `tls_client.c`, with the results of esp-tls. -/
inductive ClientCall where
  | connect (result : ConnectResult)
  | read (buf : Bool) (result : EspTlsResult)
  | write (buf : Bool) (len : Nat) (results : List EspTlsResult)
  | close
  | destroy
  deriving DecidableEq, Repr

/-- The client, until it is destroyed; the number of handles that `esp_tls_init` has handed out;
and what was done with them. -/
structure TlsSystem where
  client : Option HandleClient
  next : Nat
  calls : List EspTlsCall
  deriving DecidableEq, Repr

/-- After `tls_client_create`. -/
def TlsSystem.initial : TlsSystem where
  client := some handleCreate
  next := 0
  calls := []

/-- The system after a function. -/
def TlsSystem.after (s : TlsSystem) (out : Traced) : TlsSystem :=
  { s with client := some out.client, calls := s.calls ++ out.calls }

/-- One more function is called; there is none after `tls_client_destroy`. -/
def tlsStep (s : TlsSystem) : ClientCall → Option TlsSystem
  | .connect result =>
      s.client.map fun c =>
        { s.after (handleConnect c s.next result) with next := s.next + connectHandles result }
  | .read buf result => s.client.map fun c => s.after (handleRead c buf result)
  | .write buf len results => s.client.bind fun c => (handleWrite c buf len results).map s.after
  | .close => s.client.map fun c => s.after (handleClose c)
  | .destroy => s.client.map fun c => { s.after (handleClose c) with client := none }

/-- The handles are in order when those of `live` are not destroyed yet: none was used or
destroyed that was not live, at most one is live, a connected client holds it, and after
`tls_client_destroy` each was destroyed exactly once. -/
structure InOrder (s : TlsSystem) (live : Finset Nat) : Prop where
  served : run serve ∅ s.calls = some live
  one : live.card ≤ 1
  held : ∀ c, s.client = some c → c.connected = true → ∃ h ∈ live, c.tls = some h
  returned : s.client = none → ∀ h < s.next,
    s.calls.count (.acquire h) = 1 ∧ s.calls.count (.release h) = 1

/-- A connection is made only when no handle is left in `tls`, or `tls_client_close` takes it. -/
def KeepsHandle (s : TlsSystem) : ClientCall → Prop
  | .connect (.connected _) => ∀ c, s.client = some c → c.connected = true ∨ c.tls = none
  | _ => True

/-! ## A single call -/

/-- The handles that are live: one that the client holds, and the lost ones. -/
def withHeld (lost : Finset Nat) : Option Nat → Finset Nat
  | none => lost
  | some h => insert h lost

/-- A call without `esp_tls_init`: the handle stays, or it is destroyed and forgotten. -/
structure Keeps (lost : Finset Nat) (c : HandleClient) (out : Traced) : Prop where
  runs : run serve (withHeld lost c.tls) out.calls = some (withHeld lost out.client.tls)
  tls : out.client.tls = c.tls ∨ out.client.tls = none
  connected : out.client.connected = true → out.client.tls ≠ none
  quiet : ∀ h, HandleCall.acquire h ∉ out.calls

section

variable {lost : Finset Nat} {c : HandleClient} {h : Nat}

theorem keeps_same (hconn : c.connected = true → c.tls ≠ none) : Keeps lost c ⟨[], c⟩ :=
  ⟨rfl, Or.inl rfl, hconn, fun _ => List.not_mem_nil⟩

theorem run_release_held (hapart : h ∉ lost) :
    run serve (insert h lost) [.release h] = some lost := by
  rw [run_release (Finset.mem_insert_self h lost), Finset.erase_insert hapart, run_nil]

theorem keeps_close (hapart : ∀ h, c.tls = some h → h ∉ lost) : Keeps lost c (handleClose c) := by
  unfold handleClose
  cases htls : c.tls with
  | none => exact ⟨by rw [htls]; rfl, Or.inr rfl, nofun, fun _ => List.not_mem_nil⟩
  | some h =>
      refine ⟨?_, Or.inr rfl, nofun, fun k hk => nomatch List.mem_singleton.mp hk⟩
      rw [htls]
      exact run_release_held (hapart h htls)

/-- A use of the handle in front of a call. -/
theorem Keeps.cons_use {out : Traced} (htls : c.tls = some h) (hout : Keeps lost c out) :
    Keeps lost c (out.cons (.use h)) := by
  refine ⟨?_, hout.tls, hout.connected, fun k hk => ?_⟩
  · have hruns := hout.runs
    rw [htls] at hruns ⊢
    exact (run_use (Finset.mem_insert_self h lost) _).trans hruns
  · exact (List.mem_cons.mp hk).elim nofun (hout.quiet k)

/-- `esp_tls_conn_destroy` and the two assignments. -/
theorem keeps_drop (htls : c.tls = some h) (hapart : h ∉ lost) :
    Keeps lost c ⟨[.release h], { tls := none, connected := false }⟩ := by
  refine ⟨?_, Or.inr rfl, nofun, fun k hk => nomatch List.mem_singleton.mp hk⟩
  rw [htls]
  exact run_release_held hapart

theorem keeps_forget : Keeps lost c ⟨[], { c with connected := false }⟩ :=
  ⟨rfl, Or.inl rfl, nofun, fun _ => List.not_mem_nil⟩

theorem keeps_read (hapart : ∀ h, c.tls = some h → h ∉ lost)
    (hconn : c.connected = true → c.tls ≠ none) (buf : Bool) (result : EspTlsResult) :
    Keeps lost c (handleRead c buf result) := by
  unfold handleRead
  split
  · rename_i h hconnected htls
    cases result with
    | moved n => exact (keeps_same hconn).cons_use htls
    | closed => exact (keeps_drop htls (hapart h htls)).cons_use htls
    | timedOut => exact ((keeps_same hconn).cons_use htls).cons_use htls
    | failed => exact ((keeps_drop htls (hapart h htls)).cons_use htls).cons_use htls
  · exact keeps_same hconn

theorem keeps_writeLoop {len offset retries : Nat} {results : List EspTlsResult} {out : Traced}
    (htls : c.tls = some h) (hapart : h ∉ lost)
    (hout : handleWriteLoop len c h offset retries results = some out) : Keeps lost c out := by
  have hconn : c.connected = true → c.tls ≠ none := fun _ => htls ▸ nofun
  induction results generalizing offset retries out with
  | nil =>
      rw [handleWriteLoop.eq_def] at hout
      by_cases hdone : len ≤ offset
      · rw [if_pos hdone] at hout
        cases hout
        exact keeps_same hconn
      · rw [if_neg hdone] at hout
        cases hout
  | cons result rest ih =>
      rw [handleWriteLoop.eq_def] at hout
      by_cases hdone : len ≤ offset
      · rw [if_pos hdone] at hout
        cases hout
        exact keeps_same hconn
      · rw [if_neg hdone] at hout
        cases result with
        | moved n =>
            obtain ⟨_, hout⟩ := Option.ite_none_right_eq_some.mp hout
            obtain ⟨t, ht, rfl⟩ := Option.map_eq_some_iff.mp hout
            exact (ih ht).cons_use htls
        | closed =>
            cases hout
            exact keeps_forget.cons_use htls
        | timedOut =>
            by_cases hlast : tlsWriteMaxRetries ≤ retries + 1
            · simp only [if_pos hlast] at hout
              cases hout
              exact ((keeps_drop htls hapart).cons_use htls).cons_use htls
            · simp only [if_neg hlast] at hout
              obtain ⟨t, ht, rfl⟩ := Option.map_eq_some_iff.mp hout
              exact ((ih ht).cons_use htls).cons_use htls
        | failed =>
            cases hout
            exact ((keeps_drop htls hapart).cons_use htls).cons_use htls

theorem keeps_write (hapart : ∀ h, c.tls = some h → h ∉ lost)
    (hconn : c.connected = true → c.tls ≠ none) {buf : Bool} {len : Nat}
    {results : List EspTlsResult} {out : Traced}
    (hout : handleWrite c buf len results = some out) : Keeps lost c out := by
  unfold handleWrite at hout
  split at hout
  · rename_i h hconnected htls
    exact keeps_writeLoop htls (hapart h htls) hout
  · cases hout
    exact keeps_same hconn

end

/-! ## What a run owns -/

/-- The handle of the client. -/
def TlsSystem.tls (s : TlsSystem) : Option Nat := s.client.bind HandleClient.tls

/-- No handle is misused, and those that are live are the one of the client and the lost ones. -/
structure Owns (s : TlsSystem) (lost : Finset Nat) : Prop where
  live : run serve ∅ s.calls = some (withHeld lost s.tls)
  apart : ∀ h, s.tls = some h → h ∉ lost
  below : ∀ h ∈ withHeld lost s.tls, h < s.next
  connected : ∀ c, s.client = some c → c.connected = true → c.tls ≠ none
  numbered : ∀ h, s.calls.count (.acquire h) = if h < s.next then 1 else 0

theorem owns_initial : Owns TlsSystem.initial ∅ := by
  refine ⟨rfl, nofun, fun h hh => absurd hh (Finset.notMem_empty h), ?_, fun h => ?_⟩
  · rintro c hc hconnected
    cases hc
    cases hconnected
  · exact (if_neg (Nat.not_lt_zero h)).symm

/-- A connected client holds a live handle. -/
theorem Owns.holds {s : TlsSystem} {lost : Finset Nat} {c : HandleClient} (hs : Owns s lost)
    (hc : s.client = some c) (hconnected : c.connected = true) :
    ∃ h ∈ withHeld lost s.tls, c.tls = some h := by
  obtain ⟨h, hh⟩ := Option.ne_none_iff_exists'.mp (hs.connected c hc hconnected)
  refine ⟨h, ?_, hh⟩
  rw [TlsSystem.tls, hc, Option.bind_some, hh]
  exact Finset.mem_insert_self h lost

theorem withHeld_subset {lost : Finset Nat} {tls tls' : Option Nat} (h : tls' = tls ∨ tls' = none) :
    withHeld lost tls' ⊆ withHeld lost tls := by
  rcases h with rfl | rfl
  · exact Finset.Subset.refl _
  · cases tls with
    | none => exact Finset.Subset.refl _
    | some k => exact Finset.subset_insert k lost

theorem Owns.after_keeps {s : TlsSystem} {lost : Finset Nat} {c : HandleClient} {out : Traced}
    (hs : Owns s lost) (hc : s.client = some c) (hout : Keeps lost c out) :
    Owns (s.after out) lost := by
  have htls : s.tls = c.tls := by rw [TlsSystem.tls, hc, Option.bind_some]
  refine ⟨?_, fun h hh => ?_, fun h hh => ?_, ?_, fun h => ?_⟩
  · refine run_append_iff.mpr ⟨_, hs.live, ?_⟩
    rw [htls]
    exact hout.runs
  · rcases hout.tls with hsame | hnone
    · exact hs.apart h (htls.trans (hsame.symm.trans hh))
    · cases hnone.symm.trans hh
  · refine hs.below h ?_
    rw [htls]
    exact withHeld_subset hout.tls hh
  · rintro _ ⟨⟩
    exact hout.connected
  · rw [TlsSystem.after, List.count_append, List.count_eq_zero_of_not_mem (hout.quiet h)]
    exact hs.numbered h

/-- One handle more. -/
theorem Owns.count_next {s : TlsSystem} {lost : Finset Nat} (hs : Owns s lost)
    {calls : List EspTlsCall} (hcalls : ∀ h, HandleCall.acquire h ∉ calls) (h : Nat) :
    (s.calls ++ .acquire s.next :: calls).count (.acquire h) =
      if h < s.next + 1 then 1 else 0 := by
  rw [List.count_append, hs.numbered h, List.count_cons,
    List.count_eq_zero_of_not_mem (hcalls h)]
  simp only [beq_iff_eq, HandleCall.acquire.injEq]
  by_cases hlt : h < s.next
  · rw [if_pos hlt, if_neg (Nat.ne_of_gt hlt), if_pos (Nat.lt_succ_of_lt hlt)]
  · by_cases heq : s.next = h
    · rw [if_neg hlt, if_pos heq, if_pos (by omega)]
    · rw [if_neg hlt, if_neg heq, if_neg (by omega)]

/-- A connection that is made loses the handle that stands in `tls`. -/
def lostBy (lost : Finset Nat) (tls : Option Nat) : ConnectResult → Finset Nat
  | .noCerts | .initFailed | .connFailed => lost
  | .connected _ => withHeld lost tls

/-- What `tls_client_connect` does after its first statement. -/
theorem Owns.after_new {s : TlsSystem} {lost : Finset Nat} {c : HandleClient} (hs : Owns s lost)
    (hc : s.client = some c) (result : ConnectResult) :
    Owns { s.after (handleNew c s.next result) with next := s.next + connectHandles result }
      (lostBy lost c.tls result) := by
  have htls : s.tls = c.tls := by rw [TlsSystem.tls, hc, Option.bind_some]
  have hlive := hs.live
  have hbelow := hs.below
  have hapart := hs.apart
  rw [htls] at hlive hbelow hapart
  have hnew : s.next ∉ withHeld lost c.tls := fun hmem =>
    absurd (hbelow _ hmem) (Nat.lt_irrefl _)
  have hheld := Finset.mem_insert_self s.next (withHeld lost c.tls)
  cases result with
  | noCerts => exact hs.after_keeps hc (keeps_same (hs.connected c hc))
  | initFailed => exact hs.after_keeps hc (keeps_same (hs.connected c hc))
  | connFailed =>
      have hrun : run serve (withHeld lost c.tls) (handleNew c s.next .connFailed).calls =
          some (withHeld lost c.tls) := by
        rw [handleNew, run_acquire hnew, run_use hheld, run_use hheld, run_release hheld,
          Finset.erase_insert hnew, run_nil]
      refine ⟨run_append_iff.mpr ⟨_, hlive, hrun⟩, hapart,
        fun h hh => Nat.lt_succ_of_lt (hbelow h hh), ?_, ?_⟩
      · rintro _ ⟨⟩
        exact hs.connected c hc
      · exact hs.count_next fun h hmem => by simp at hmem
  | connected inbound =>
      have hrun : run serve (withHeld lost c.tls) (handleNew c s.next (.connected inbound)).calls =
          some (insert s.next (withHeld lost c.tls)) := by
        rw [handleNew, run_acquire hnew, run_use hheld, run_nil]
      refine ⟨run_append_iff.mpr ⟨_, hlive, hrun⟩, ?_, fun h hh => ?_, ?_, ?_⟩
      · rintro _ ⟨⟩
        exact hnew
      · rcases Finset.mem_insert.mp hh with rfl | hmem
        · exact Nat.lt_succ_self _
        · exact Nat.lt_succ_of_lt (hbelow h hmem)
      · rintro _ ⟨⟩
        nofun
      · exact hs.count_next fun h hmem => by simp at hmem

theorem handleClose_tls (c : HandleClient) : (handleClose c).client.tls = none := by
  unfold handleClose
  cases htls : c.tls with
  | none => rfl
  | some h => rfl

/-- `tls_client_close`, also when `tls_client_connect` calls it for a connected client. -/
theorem Owns.after_close {s : TlsSystem} {lost : Finset Nat} {c : HandleClient} (hs : Owns s lost)
    (hc : s.client = some c) : Owns (s.after (handleClose c)) lost := by
  have htls : s.tls = c.tls := by rw [TlsSystem.tls, hc, Option.bind_some]
  exact hs.after_keeps hc (keeps_close fun h hh => hs.apart h (htls.trans hh))

theorem Owns.after_connect {s : TlsSystem} {lost : Finset Nat} {c : HandleClient}
    (hs : Owns s lost) (hc : s.client = some c) (result : ConnectResult) :
    Owns { s.after (handleConnect c s.next result) with next := s.next + connectHandles result }
      (lostBy lost (if c.connected then none else c.tls) result) := by
  have hafter (closed : Traced) (hclosed : Owns (s.after closed) lost) :
      Owns { s.after ((handleNew closed.client s.next result).append closed.calls) with
          next := s.next + connectHandles result } (lostBy lost closed.client.tls result) := by
    have hnew := hclosed.after_new rfl result
    rw [TlsSystem.after, TlsSystem.after, List.append_assoc] at hnew
    exact hnew
  unfold handleConnect
  by_cases hconnected : c.connected = true
  · simp only [if_pos hconnected]
    have hclose := hafter (handleClose c) (hs.after_close hc)
    rw [handleClose_tls] at hclose
    exact hclose
  · simp only [if_neg hconnected]
    exact hafter ⟨[], c⟩ (hs.after_keeps hc (keeps_same (hs.connected c hc)))

/-! ## Every run -/

/-- No call misuses a handle; a call that keeps its handle loses none. -/
theorem owns_of_step {s t : TlsSystem} {lost : Finset Nat} {call : ClientCall} (hs : Owns s lost)
    (hstep : tlsStep s call = some t) :
    ∃ lost', Owns t lost' ∧ (KeepsHandle s call → lost' = lost) := by
  cases call with
  | connect result =>
      obtain ⟨c, hc, rfl⟩ := Option.map_eq_some_iff.mp hstep
      refine ⟨_, hs.after_connect hc result, fun hkeeps => ?_⟩
      cases result with
      | noCerts | initFailed | connFailed => rfl
      | connected inbound =>
          rcases hkeeps c hc with hconnected | hnone
          · rw [lostBy, if_pos hconnected, withHeld]
          · rw [lostBy, hnone, ite_self, withHeld]
  | read buf result =>
      obtain ⟨c, hc, rfl⟩ := Option.map_eq_some_iff.mp hstep
      have htls : s.tls = c.tls := by rw [TlsSystem.tls, hc, Option.bind_some]
      have hread := keeps_read (fun h hh => hs.apart h (htls.trans hh)) (hs.connected c hc) buf
        result
      exact ⟨lost, hs.after_keeps hc hread, fun _ => rfl⟩
  | write buf len results =>
      obtain ⟨c, hc, hstep⟩ := Option.bind_eq_some_iff.mp hstep
      obtain ⟨out, hout, rfl⟩ := Option.map_eq_some_iff.mp hstep
      have htls : s.tls = c.tls := by rw [TlsSystem.tls, hc, Option.bind_some]
      have hwrite := keeps_write (fun h hh => hs.apart h (htls.trans hh)) (hs.connected c hc) hout
      exact ⟨lost, hs.after_keeps hc hwrite, fun _ => rfl⟩
  | close =>
      obtain ⟨c, hc, rfl⟩ := Option.map_eq_some_iff.mp hstep
      exact ⟨lost, hs.after_close hc, fun _ => rfl⟩
  | destroy =>
      obtain ⟨c, hc, rfl⟩ := Option.map_eq_some_iff.mp hstep
      have hclose := hs.after_close hc
      have hnone : (s.after (handleClose c)).tls = none := handleClose_tls c
      refine ⟨lost, ⟨?_, nofun, ?_, nofun, hclose.numbered⟩, fun _ => rfl⟩
      · have hlive := hclose.live
        rw [hnone] at hlive
        exact hlive
      · have hbelow := hclose.below
        rw [hnone] at hbelow
        exact hbelow

/-- In every run no handle is used or destroyed that is not live, and a connected client holds a
live one. -/
theorem served_of_run {calls : List ClientCall} {t : TlsSystem}
    (hrun : run tlsStep TlsSystem.initial calls = some t) :
    ∃ live, run serve ∅ t.calls = some live ∧
      ∀ c, t.client = some c → c.connected = true → ∃ h ∈ live, c.tls = some h := by
  have hstep : ∀ s call t, (∃ lost, Owns s lost) → tlsStep s call = some t →
      ∃ lost, Owns t lost := by
    rintro s call t ⟨lost, hs⟩ hstep
    obtain ⟨lost', ht, _⟩ := owns_of_step hs hstep
    exact ⟨lost', ht⟩
  obtain ⟨lost, ht⟩ := run_invariant hstep ⟨∅, owns_initial⟩ hrun
  exact ⟨_, ht.live, fun c hc hconnected => ht.holds hc hconnected⟩

theorem inOrder_of_owns {s : TlsSystem} (hs : Owns s ∅) : InOrder s (withHeld ∅ s.tls) := by
  refine ⟨hs.live, ?_, fun c hc hconnected => hs.holds hc hconnected, fun hnone h hlt => ?_⟩
  · cases s.tls with
    | none => exact Nat.zero_le 1
    | some h => exact Finset.card_insert_le h ∅
  · have htls : s.tls = none := by rw [TlsSystem.tls, hnone, Option.bind_none]
    have hlive := hs.live
    rw [htls] at hlive
    have hcount := count_acquire hlive h
    have hacquired : s.calls.count (.acquire h) = 1 := (hs.numbered h).trans (if_pos hlt)
    rw [withHeld, if_neg (Finset.notMem_empty h)] at hcount
    exact ⟨hacquired, hcount.symm.trans hacquired⟩

/-- A connection that is made over a handle leaves two handles. -/
theorem not_inOrder_of_overwrite {s : TlsSystem} {call : ClientCall} (hs : Owns s ∅)
    (hnot : ¬ KeepsHandle s call) : ∃ t, tlsStep s call = some t ∧ ∀ live, ¬ InOrder t live := by
  cases call with
  | connect result =>
      cases result with
      | connected inbound =>
          simp only [KeepsHandle, not_forall, not_or] at hnot
          obtain ⟨c, hc, hconnected, hsome⟩ := hnot
          obtain ⟨h, hh⟩ := Option.ne_none_iff_exists'.mp hsome
          have ht := hs.after_connect hc (.connected inbound)
          rw [if_neg hconnected, hh] at ht
          refine ⟨_, congrArg (Option.map _) hc, fun live hlive => ?_⟩
          have hone := hlive.one
          have hsame := hlive.served.symm.trans ht.live
          have hapart : s.next ∉ (insert h ∅ : Finset Nat) := ht.apart s.next rfl
          rw [Option.some.inj hsame] at hone
          change (insert s.next (insert h ∅ : Finset Nat)).card ≤ 1 at hone
          rw [Finset.card_insert_of_notMem hapart, Finset.card_insert_of_notMem
            (Finset.notMem_empty h), Finset.card_empty] at hone
          exact absurd hone (by decide)
      | noCerts | initFailed | connFailed => exact absurd trivial hnot
  | read buf result | write buf len results | close | destroy => exact absurd trivial hnot

/-- The handles are in order in every state of a run if and only if no connection of the run is
made by a client that is not connected but still has a handle. -/
theorem tlsHandles_iff (calls : List ClientCall) :
    AllStates tlsStep (fun s => ∃ live, InOrder s live) TlsSystem.initial calls ↔
      AllSteps tlsStep KeepsHandle TlsSystem.initial calls := by
  have hinitial : ∃ live, InOrder TlsSystem.initial live := ⟨_, inOrder_of_owns owns_initial⟩
  have hkeeps : ∀ s call t, Owns s ∅ → KeepsHandle s call → tlsStep s call = some t →
      Owns t ∅ := by
    intro s call t hs hkeep hstep
    obtain ⟨lost, ht, hlost⟩ := owns_of_step hs hstep
    rw [hlost hkeep] at ht
    exact ht
  have hiff : ∀ s call, Owns s ∅ →
      ((∀ t, tlsStep s call = some t → ∃ live, InOrder t live) ↔ KeepsHandle s call) := by
    intro s call hs
    refine ⟨fun hall => ?_, fun hkeep t hstep => ?_⟩
    · by_contra hnot
      obtain ⟨t, hstep, hbad⟩ := not_inOrder_of_overwrite hs hnot
      obtain ⟨live, hlive⟩ := hall t hstep
      exact hbad live hlive
    · exact ⟨_, inOrder_of_owns (hkeeps s call t hs hkeep hstep)⟩
  rw [allStates_iff, and_iff_right hinitial]
  exact allSteps_congr hiff hkeeps owns_initial

/-- A write finds the connection closed, and the client connects again. -/
def reconnectCalls : List ClientCall :=
  [.connect (.connected []), .write true 1 [.closed], .connect (.connected []), .destroy]

/-- The first handle is never destroyed. -/
theorem not_inOrder_reconnect :
    (∃ t, run tlsStep TlsSystem.initial reconnectCalls = some t ∧ t.client = none ∧
      t.calls.count (.acquire 0) = 1 ∧ t.calls.count (.release 0) = 0) ∧
      ¬ AllStates tlsStep (fun s => ∃ live, InOrder s live) TlsSystem.initial reconnectCalls := by
  have hrun : run tlsStep TlsSystem.initial reconnectCalls =
      some ⟨none, 2, [.acquire 0, .use 0, .use 0, .acquire 1, .use 1, .release 1]⟩ := by decide
  refine ⟨⟨_, hrun, rfl, by decide, by decide⟩, fun hall => ?_⟩
  obtain ⟨live, hlive⟩ := hall.last hrun
  exact absurd (hlive.returned rfl 0 (by decide)).2 (by decide)

end Esp32Deskflow.Network
