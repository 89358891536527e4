/-
  Barrier/PartialSend.lean --- what a successful `send_packet` has sent.

  `tls_client_write` leaves its loop with -1 when the timeouts run out, but with the
  number of bytes written so far when the server closes the connection or another error
  comes up, and `send_packet` looks at the sign only.
-/
import Esp32Deskflow.Barrier.ClientCalls

set_option autoImplicit false

namespace Esp32Deskflow.Barrier

open Esp32Deskflow.Foundation Esp32Deskflow.Network

/-! ## Timeouts in a row -/

section Runs

variable {α : Type}

/-- A run of one element ends where another one stands. -/
theorem replicate_isPrefix_le {a x : α} {m r : Nat} {xs : List α} (hx : x ≠ a)
    (h : List.replicate m a <+: List.replicate r a ++ x :: xs) : m ≤ r := by
  induction r generalizing m with
  | zero =>
      cases m with
      | zero => exact Nat.le_refl 0
      | succ m => exact absurd (List.cons_prefix_cons.mp h).1.symm hx
  | succ r ih =>
      cases m with
      | zero => exact Nat.zero_le _
      | succ m => exact Nat.succ_le_succ (ih (List.cons_prefix_cons.mp h).2)

/-- A long run lies behind a shorter one that another element ends. -/
theorem replicate_infix_behind_iff {a x : α} {m r : Nat} {xs : List α} (hx : x ≠ a) (hr : r < m) :
    List.replicate m a <:+: List.replicate r a ++ x :: xs ↔ List.replicate m a <:+: xs := by
  induction r with
  | zero =>
      rw [List.replicate_zero, List.nil_append, List.infix_cons_iff]
      refine or_iff_right fun hstart => ?_
      have hle := replicate_isPrefix_le (r := 0) hx hstart
      exact Nat.not_lt.mpr hle hr
  | succ r ih =>
      rw [List.replicate_succ, List.cons_append, List.infix_cons_iff, ih (Nat.lt_of_succ_lt hr)]
      refine or_iff_right fun hstart => ?_
      have hle := replicate_isPrefix_le (r := r + 1) hx hstart
      exact Nat.not_lt.mpr hle hr

end Runs

/-! ## Writes that break off -/

/-- The bytes that a call of `esp_tls_conn_write` has accepted. -/
def movedBytes : EspTlsResult → Nat
  | .moved n => n
  | .closed | .timedOut | .failed => 0

/-- A result after which `tls_client_write` calls `esp_tls_conn_write` again. -/
def goesOn : EspTlsResult → Bool
  | .moved _ | .timedOut => true
  | .closed | .failed => false

/-- With `offset` of `len` bytes accepted and after `retries` timeouts in a row, a call returns zero
or fails, other than by a timeout, before all is accepted; and until then no
`TLS_WRITE_MAX_RETRIES` timeouts come in a row. -/
def BreaksOffAt (len offset retries : Nat) (results : List EspTlsResult) : Prop :=
  ∃ before r rest, results = before ++ r :: rest ∧ goesOn r = false ∧
    (∀ x ∈ before, goesOn x = true) ∧ offset + (before.map movedBytes).sum < len ∧
    ¬ List.replicate tlsWriteMaxRetries .timedOut <:+: List.replicate retries .timedOut ++ before

/-- The same from the beginning of `tls_client_write`. -/
def BreaksOff (len : Nat) (results : List EspTlsResult) : Prop := BreaksOffAt len 0 0 results

theorem breaksOffAt_stop {len offset retries : Nat} {r : EspTlsResult} {rest : List EspTlsResult}
    (hr : goesOn r = false) (hlt : offset < len) (hretries : retries < tlsWriteMaxRetries) :
    BreaksOffAt len offset retries (r :: rest) := by
  refine ⟨[], r, rest, rfl, hr, nofun, hlt, fun hrow => ?_⟩
  have hle := hrow.length_le
  rw [List.append_nil, List.length_replicate, List.length_replicate] at hle
  exact Nat.not_lt.mpr hle hretries

/-- A turn that goes on takes the question to the next one. -/
theorem breaksOffAt_cons_iff {len offset retries : Nat} {r : EspTlsResult}
    {rest : List EspTlsResult} (hr : goesOn r = true) :
    BreaksOffAt len offset retries (r :: rest) ↔
      ∃ before s rest', rest = before ++ s :: rest' ∧ goesOn s = false ∧
        (∀ x ∈ before, goesOn x = true) ∧
        offset + movedBytes r + (before.map movedBytes).sum < len ∧
        ¬ List.replicate tlsWriteMaxRetries .timedOut <:+:
          List.replicate retries .timedOut ++ r :: before := by
  constructor
  · rintro ⟨before, s, rest', hresults, hs, hbefore, hlt, hrow⟩
    cases before with
    | nil =>
        obtain ⟨rfl, -⟩ := List.cons.inj hresults
        rw [hr] at hs
        cases hs
    | cons x before =>
        obtain ⟨rfl, hrest⟩ := List.cons.inj hresults
        rw [List.map_cons, List.sum_cons, ← Nat.add_assoc] at hlt
        exact ⟨before, s, rest', hrest, hs, fun y hy => hbefore y (List.mem_cons_of_mem _ hy), hlt,
          hrow⟩
  · rintro ⟨before, s, rest', hrest, hs, hbefore, hlt, hrow⟩
    refine ⟨r :: before, s, rest', by rw [hrest, List.cons_append], hs, ?_, ?_, hrow⟩
    · intro x hx
      rcases List.mem_cons.mp hx with rfl | hx
      · exact hr
      · exact hbefore x hx
    · rw [List.map_cons, List.sum_cons, ← Nat.add_assoc]
      exact hlt

theorem breaksOffAt_moved_iff {len offset retries n : Nat} {rest : List EspTlsResult}
    (hretries : retries < tlsWriteMaxRetries) :
    BreaksOffAt len offset retries (.moved n :: rest) ↔ BreaksOffAt len (offset + n) 0 rest := by
  rw [breaksOffAt_cons_iff rfl]
  refine exists₃_congr fun before s rest' => and_congr_right fun _ => and_congr_right fun _ =>
    and_congr_right fun _ => and_congr_right fun _ => not_congr ?_
  exact replicate_infix_behind_iff nofun hretries

theorem breaksOffAt_timedOut_iff {len offset retries : Nat} {rest : List EspTlsResult} :
    BreaksOffAt len offset retries (.timedOut :: rest) ↔
      BreaksOffAt len offset (retries + 1) rest := by
  rw [breaksOffAt_cons_iff rfl]
  refine exists₃_congr fun before s rest' => and_congr_right fun _ => and_congr_right fun _ =>
    and_congr_right fun _ => and_congr_right fun _ => not_congr ?_
  rw [List.replicate_succ', List.append_assoc, List.singleton_append]

/-- The loop returns a number that is not negative before all is accepted exactly if it breaks
off. -/
theorem writeLoop_short_iff {len : Nat} {client : TlsClient} {offset retries : Nat}
    {results : List EspTlsResult} {out : WriteResult} (hretries : retries < tlsWriteMaxRetries)
    (h : writeLoop len client offset retries results = some out) :
    (0 ≤ out.sent ∧ out.accepted < len) ↔ BreaksOffAt len offset retries results := by
  replace h := writeLoop_turns h
  induction h with
  | done hdone =>
      refine iff_of_false (fun hshort => Nat.not_lt.mpr hdone hshort.2) ?_
      rintro ⟨before, s, rest', -, -, -, hlt, -⟩
      omega
  | moved hmore hfit hrest ih =>
      rw [breaksOffAt_moved_iff hretries]
      exact ih (by decide)
  | closed hmore | failed hmore =>
      exact iff_of_true ⟨Int.natCast_nonneg _, hmore⟩ (breaksOffAt_stop rfl hmore hretries)
  | @gaveUp offset retries rest hmore hlast =>
      refine iff_of_false (fun hshort => absurd hshort.1 (Int.negSucc_not_nonneg 0).mp) ?_
      rw [breaksOffAt_timedOut_iff]
      rintro ⟨before, s, rest', -, -, -, -, hrow⟩
      have hall : retries + 1 = tlsWriteMaxRetries := Nat.le_antisymm hretries hlast
      rw [hall] at hrow
      exact hrow (List.prefix_append _ _).isInfix
  | again hmore hnext hrest ih =>
      rw [breaksOffAt_timedOut_iff]
      exact ih hnext

/-! ## The bytes on the wire -/

/-- What the calls of `esp_tls_conn_write` accept of `buf`, call by call: each is given the rest of
the buffer and takes its front. -/
def writePieces (buf : Bytes) (offset retries : Nat) (results : List EspTlsResult) : List Bytes :=
  if buf.length ≤ offset then []
  else
    match results with
    | .moved n :: rest => (buf.drop offset).take n :: writePieces buf (offset + n) 0 rest
    | .timedOut :: rest =>
        if tlsWriteMaxRetries ≤ retries + 1 then [] else writePieces buf offset (retries + 1) rest
    | _ => []

/-- The pieces follow each other without a gap or an overlap. -/
theorem writePieces_flatten {buf : Bytes} {client : TlsClient} {offset retries : Nat}
    {results : List EspTlsResult} {out : WriteResult} (hle : offset ≤ buf.length)
    (h : writeLoop buf.length client offset retries results = some out) :
    buf.take offset ++ (writePieces buf offset retries results).flatten =
      buf.take out.accepted := by
  replace h := writeLoop_turns h
  induction h with
  | done hdone => rw [writePieces.eq_def, if_pos hdone, List.flatten_nil, List.append_nil]
  | moved hmore hfit hrest ih =>
      rw [writePieces.eq_def, if_neg (Nat.not_le.mpr hmore), List.flatten_cons,
        ← List.append_assoc, ← List.take_add]
      exact ih (by omega)
  | closed hmore | failed hmore =>
      rw [writePieces.eq_def, if_neg (Nat.not_le.mpr hmore), List.flatten_nil, List.append_nil]
  | gaveUp hmore hlast =>
      rw [writePieces.eq_def, if_neg (Nat.not_le.mpr hmore)]
      simp only [if_pos hlast, List.flatten_nil, List.append_nil]
  | again hmore hnext hrest ih =>
      rw [writePieces.eq_def, if_neg (Nat.not_le.mpr hmore)]
      simp only [if_neg (Nat.not_le.mpr hnext)]
      exact ih hle

/-- What esp-tls accepts during `tls_client_write` of `buf`. -/
def acceptedPieces (tls : Option TlsClient) (buf : Bytes) (results : List EspTlsResult) :
    List Bytes :=
  match tls with
  | none => []
  | some client =>
      match client.connected, client.tls with
      | true, some _ => writePieces buf 0 0 results
      | _, _ => []

/-- The bytes that esp-tls accepts are the front of the buffer. -/
theorem acceptedPieces_flatten {tls tls' : Option TlsClient} {buf : Bytes} {sent : Int}
    {accepted : Nat} {results : List EspTlsResult}
    (h : tlsClientWrite tls buf.length results = some (sent, accepted, tls')) :
    (acceptedPieces tls buf results).flatten = buf.take accepted := by
  unfold tlsClientWrite at h
  split at h
  · cases h
    rfl
  · next client =>
      split at h
      · next stream hconn htls =>
          obtain ⟨out, hout, hval⟩ := Option.map_eq_some_iff.mp h
          cases hval
          have hpieces := writePieces_flatten (Nat.zero_le _) hout
          rw [List.take_zero, List.nil_append] at hpieces
          simp only [acceptedPieces, hconn, htls]
          exact hpieces
      · next hnot =>
          cases h
          rw [acceptedPieces, List.take_zero]
          split
          · next stream hconn htls => exact absurd htls (hnot stream hconn)
          · rfl

/-- The loop returns a negative number only with bytes of the buffer left. -/
theorem writeLoop_negative {len : Nat} {client : TlsClient} {offset retries : Nat}
    {results : List EspTlsResult} {out : WriteResult}
    (h : writeLoop len client offset retries results = some out) (hneg : out.sent < 0) :
    out.accepted < len := by
  replace h := writeLoop_turns h
  induction h with
  | done hdone => exact absurd hneg (Int.not_lt.mpr (Int.natCast_nonneg _))
  | moved hmore hfit hrest ih => exact ih hneg
  | closed hmore | failed hmore => exact absurd hneg (Int.not_lt.mpr (Int.natCast_nonneg _))
  | gaveUp hmore hlast => exact hmore
  | again hmore hnext hrest ih => exact ih hneg

theorem tlsClientWrite_negative {tls tls' : Option TlsClient} {len : Nat} {sent : Int}
    {accepted : Nat} {results : List EspTlsResult} (hlen : 0 < len)
    (h : tlsClientWrite tls len results = some (sent, accepted, tls')) (hneg : sent < 0) :
    accepted < len := by
  unfold tlsClientWrite at h
  split at h
  · cases h
    exact hlen
  · split at h
    · obtain ⟨out, hout, hval⟩ := Option.map_eq_some_iff.mp h
      cases hval
      exact writeLoop_negative hout hneg
    · cases h
      exact hlen

/-- The frame that `packet_serialize` leaves at the front of `write_buf`. -/
def serializedFrame (client : BarrierClient) (pkt : Packet) : Bytes :=
  match packetSerialize pkt client.writeBuf.bytes barrierWriteBufSize with
  | some (.ok, buf, outLen) => buf.take outLen
  | _ => []

/-- If `send_packet` returns `ESP_OK`, the bytes accepted by esp-tls, call after call, are those of
the frame. -/
def SentWhole (client : BarrierClient) (pkt : Packet) (writes : List EspTlsResult) : Prop :=
  ∀ client' events, sendPacket client pkt writes = some (.ok, client', events) →
    (acceptedPieces client.tls (serializedFrame client pkt) writes).flatten =
      serializedFrame client pkt

/-- `send_packet` gives the frame to `tls_client_write` and looks at the sign of the result. -/
theorem sendPacket_frame {client client' : BarrierClient} {pkt : Packet}
    {writes : List EspTlsResult} {err : EspErr} {events : List Event}
    (h : sendPacket client pkt writes = some (err, client', events)) :
    (serializedFrame client pkt).length = barrierHeaderLen + payloadDataLen pkt.type ∧
      ∃ sent accepted, err = (if sent < 0 then .fail else .ok) ∧
        tlsClientWrite client.tls (barrierHeaderLen + payloadDataLen pkt.type) writes =
          some (sent, accepted, client'.tls) := by
  have hroom := frame_fits pkt.type
  have hser := packetSerialize_eq hroom (Nat.le_of_eq client.writeBuf.size_eq.symm)
  obtain ⟨⟨err', buf, outLen⟩, hser', h⟩ := Option.bind_eq_some_iff.mp h
  rw [hser] at hser'
  cases hser'
  obtain ⟨writeBuf, hbuf, h⟩ := Option.bind_eq_some_iff.mp h
  simp only [ne_eq, not_true_eq_false, if_false] at h
  obtain ⟨⟨sent, accepted, tls⟩, hwrite, hval⟩ := Option.map_eq_some_iff.mp h
  cases hval
  refine ⟨?_, sent, accepted, rfl, hwrite⟩
  unfold Buffer.ofBytes at hbuf
  split at hbuf
  · next hsize =>
      simp only [serializedFrame, hser]
      rw [List.length_take, hsize]
      exact Nat.min_eq_left hroom
  · cases hbuf

/-! ## Sends reported as successful -/

/-- `tls_client_write` returns no negative number although bytes are missing exactly if it reaches
esp-tls and breaks off. -/
theorem tlsClientWrite_short_iff {tls tls' : Option TlsClient} {buf : Bytes} {sent : Int}
    {accepted : Nat} {results : List EspTlsResult}
    (h : tlsClientWrite tls buf.length results = some (sent, accepted, tls')) :
    (0 ≤ sent → (acceptedPieces tls buf results).flatten = buf) ↔
      ¬ (Usable tls ∧ BreaksOff buf.length results) := by
  unfold tlsClientWrite at h
  split at h
  · cases h
    refine iff_of_true (fun hneg => absurd hneg (Int.negSucc_not_nonneg 0).mp) ?_
    rintro ⟨⟨c, hc, -⟩, -⟩
    cases hc
  · next client =>
      split at h
      · next stream hconn htls =>
          obtain ⟨out, hout, hval⟩ := Option.map_eq_some_iff.mp h
          cases hval
          have husable : Usable (some client) := ⟨client, rfl, hconn, by rw [htls]; rfl⟩
          have hshort := writeLoop_short_iff (by decide) hout
          have hpieces := writePieces_flatten (Nat.zero_le _) hout
          have hle := (writeLoop_spec (Nat.zero_le _) hout).1
          rw [List.take_zero, List.nil_append] at hpieces
          rw [and_iff_right husable, BreaksOff, ← hshort, not_and, Nat.not_lt]
          refine forall_congr' fun _ => ?_
          have haccepted :
              acceptedPieces (some client) buf results = writePieces buf 0 0 results := by
            simp only [acceptedPieces, hconn, htls]
          rw [haccepted, hpieces, List.take_eq_self_iff]
      · next hnot =>
          cases h
          refine iff_of_true (fun hneg => absurd hneg (Int.negSucc_not_nonneg 0).mp) ?_
          rintro ⟨⟨c, hc, hconn, htls⟩, -⟩
          cases hc
          obtain ⟨stream, hstream⟩ := Option.isSome_iff_exists.mp htls
          exact hnot stream hconn hstream

/-- A send reported as successful is complete, exactly once and in order, exactly if the connection
is not usable, so that the send fails, or `esp_tls_conn_write` does not break off. -/
theorem sentWhole_iff {client client' : BarrierClient} {pkt : Packet} {writes : List EspTlsResult}
    {err : EspErr} {events : List Event}
    (h : sendPacket client pkt writes = some (err, client', events)) :
    SentWhole client pkt writes ↔
      ¬ (Usable client.tls ∧ BreaksOff (barrierHeaderLen + payloadDataLen pkt.type) writes) := by
  obtain ⟨hlength, sent, accepted, herr, hwrite⟩ := sendPacket_frame h
  rw [← hlength] at hwrite ⊢
  have hok : err = .ok ↔ 0 ≤ sent := by
    rw [herr]
    split
    · next hneg => exact iff_of_false nofun (Int.not_le.mpr hneg)
    · next hneg => exact iff_of_true rfl (Int.not_lt.mp hneg)
  rw [← tlsClientWrite_short_iff hwrite]
  constructor
  · intro hwhole hsent
    rw [hok.mpr hsent] at h
    exact hwhole client' events h
  · intro hpieces client'' events' hsend
    rw [hsend] at h
    cases h
    exact hpieces (hok.mp rfl)

/-- A client whose connection is usable. -/
def connectedClient : BarrierClient :=
  { state := .connected
    tls := some { server := [], port := 24800, connected := true, tls := some [] }
    reconnect := reconnectInit
    running := true
    readBuf := Buffer.zeroed _
    writeBuf := Buffer.zeroed _
    lastActivityMs := 0
    cursorEntered := false
    networkEvents := true }

/-- A keep-alive whose eight bytes go out in two pieces, with timeouts between them. -/
theorem sentWhole_iff_twoPieces :
    ∃ client' events, sendPacket connectedClient .calv [.moved 3, .timedOut, .timedOut, .moved 5] =
        some (.ok, client', events) ∧
      (SentWhole connectedClient .calv [.moved 3, .timedOut, .timedOut, .moved 5] ↔
        ¬ (Usable connectedClient.tls ∧
          BreaksOff 8 [.moved 3, .timedOut, .timedOut, .moved 5])) := by
  obtain ⟨⟨err, client', events⟩, hsend, rfl⟩ : ∃ result, sendPacket connectedClient .calv
      [.moved 3, .timedOut, .timedOut, .moved 5] = some result ∧ result.1 = .ok :=
    Option.map_eq_some_iff.mp (by decide +kernel)
  exact ⟨client', events, hsend, sentWhole_iff hsend⟩

/-- The server closes the connection after three bytes of a keep-alive: the send is reported as
successful. -/
theorem not_sentWhole_cut :
    ∃ client' events, sendPacket connectedClient .calv [.moved 3, .closed] =
        some (.ok, client', events) ∧
      (serializedFrame connectedClient .calv).length = 8 ∧
      acceptedPieces connectedClient.tls (serializedFrame connectedClient .calv)
        [.moved 3, .closed] = [[0, 0, 0]] ∧
      ¬ SentWhole connectedClient .calv [.moved 3, .closed] := by
  obtain ⟨⟨err, client', events⟩, hsend, rfl⟩ : ∃ result, sendPacket connectedClient .calv
      [.moved 3, .closed] = some result ∧ result.1 = .ok :=
    Option.map_eq_some_iff.mp (by decide +kernel)
  have hpieces : acceptedPieces connectedClient.tls (serializedFrame connectedClient .calv)
      [.moved 3, .closed] = [[0, 0, 0]] := by decide +kernel
  have hlength : (serializedFrame connectedClient .calv).length = 8 := by decide +kernel
  refine ⟨client', events, hsend, hlength, hpieces, fun hwhole => ?_⟩
  have hall := congrArg List.length (hwhole client' events hsend)
  rw [hpieces, hlength] at hall
  cases hall

end Esp32Deskflow.Barrier
