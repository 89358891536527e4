/-
  Barrier/ReadPacket.lean --- `read_packet` as a function of the stream.

  However the stream is cut into reads, and however many timeouts come between them, a
  reading loop ends with the next bytes of the stream, or with all of them and an error.
  What `read_packet` returns therefore depends on the stream only.
-/
import Esp32Deskflow.Barrier.ClientTask
import Esp32Deskflow.Barrier.PacketGrammar

set_option autoImplicit false

namespace Esp32Deskflow.Barrier

open Esp32Deskflow.Foundation Esp32Deskflow.Network Esp32Deskflow.Config

/-! ## Cutting a stream into reads -/

/-- The turns of a loop that wants `want` bytes when `avail` bytes arrive before the connection
ends: nonempty reads of at most what is asked for, timeouts before the deadline that no
notification follows, and the end of the connection when nothing is left. -/
def Cuts (start timeoutMs : UInt64) : Nat → Nat → List ReadStep → Prop
  | want, _, [] => want = 0
  | want, avail, s :: rest =>
      want ≠ 0 ∧
        match s.result with
        | .moved n =>
            0 < n ∧ n ≤ want ∧ n ≤ avail ∧ Cuts start timeoutMs (want - n) (avail - n) rest
        | .timedOut =>
            ¬ timeoutMs ≤ s.now - start ∧ s.notified = false ∧ Cuts start timeoutMs want avail rest
        | .closed | .failed => avail = 0 ∧ rest = []

section

variable {start timeoutMs : UInt64}

theorem cuts_nil_iff {want avail : Nat} : Cuts start timeoutMs want avail [] ↔ want = 0 := Iff.rfl

theorem cuts_moved_iff {want avail n : Nat} {now : UInt64} {notified : Bool}
    {rest : List ReadStep} :
    Cuts start timeoutMs want avail (⟨.moved n, now, notified⟩ :: rest) ↔
      want ≠ 0 ∧ 0 < n ∧ n ≤ want ∧ n ≤ avail ∧
        Cuts start timeoutMs (want - n) (avail - n) rest := Iff.rfl

theorem cuts_timedOut_iff {want avail : Nat} {now : UInt64} {notified : Bool}
    {rest : List ReadStep} :
    Cuts start timeoutMs want avail (⟨.timedOut, now, notified⟩ :: rest) ↔
      want ≠ 0 ∧ ¬ timeoutMs ≤ now - start ∧ notified = false ∧
        Cuts start timeoutMs want avail rest := Iff.rfl

/-- How a loop ends that gets all it wants, or the whole stream and then an error. -/
structure LoopTakes (want : Nat) (stream : Bytes) (rest : List ReadStep) (f : ReadEnd) : Prop where
  got : f.got = stream.take want
  left : inbound f.tls = stream.drop want
  err : f.err = if want ≤ stream.length then .ok else .fail
  usable : want ≤ stream.length → Usable f.tls
  rest : f.rest = rest

/-- A read of `n` bytes that are there. -/
theorem tlsClientRead_moved {tls : Option TlsClient} {n len : Nat} (husable : Usable tls)
    (hpos : 0 < n) (hlen : n ≤ len) (havail : n ≤ (inbound tls).length) :
    ∃ tls', tlsClientRead tls (.moved n) len = some (.bytes ((inbound tls).take n), tls') ∧
      Usable tls' ∧ inbound tls' = (inbound tls).drop n := by
  obtain ⟨c, rfl, hconn, hsome⟩ := husable
  obtain ⟨stream, htls⟩ := Option.isSome_iff_exists.mp hsome
  have hin : inbound (some c) = stream := by simp [inbound, htls]
  rw [hin] at havail ⊢
  refine ⟨some { c with tls := some (stream.drop n) }, ?_, ⟨_, rfl, hconn, rfl⟩, rfl⟩
  simp only [tlsClientRead, hconn, htls]
  rw [if_pos ⟨hpos, hlen, havail⟩]

theorem tlsClientRead_timedOut {tls : Option TlsClient} (len : Nat) (husable : Usable tls) :
    tlsClientRead tls .timedOut len = some (.timeout, tls) := by
  obtain ⟨c, rfl, hconn, hsome⟩ := husable
  obtain ⟨stream, htls⟩ := Option.isSome_iff_exists.mp hsome
  simp only [tlsClientRead, hconn, htls]

/-- The loop stops when the connection ends. -/
theorem readLoop_ended {tls : Option TlsClient} {want : Nat} {s : ReadStep} {more : List ReadStep}
    (husable : Usable tls) (hwant : want ≠ 0) (hnil : inbound tls = [])
    (hend : s.result = .closed ∨ s.result = .failed) :
    ∃ f, readLoop start timeoutMs want tls (s :: more) = some f ∧
      LoopTakes want (inbound tls) more f := by
  obtain ⟨c, rfl, hconn, hsome⟩ := husable
  obtain ⟨stream, htls⟩ := Option.isSome_iff_exists.mp hsome
  refine ⟨⟨.fail, [], some c.dropTls, more⟩, ?_, ?_, ?_, ?_, ?_, rfl⟩
  · rcases hend with hclosed | hfailed
    · simp [readLoop, hwant, tlsClientRead, hconn, htls, hclosed]
    · simp [readLoop, hwant, tlsClientRead, hconn, htls, hfailed]
  · rw [hnil, List.take_nil]
  · rw [hnil, List.drop_nil]
    rfl
  · rw [hnil, if_neg (by simpa using hwant)]
  · intro hfit
    rw [hnil] at hfit
    exact absurd (Nat.le_zero.mp hfit) hwant

/-- A reading loop takes what it wants from the front of the stream, whatever the cuts. -/
theorem readLoop_cuts {used : List ReadStep} (more : List ReadStep) :
    ∀ {want : Nat} {tls : Option TlsClient}, Usable tls →
      Cuts start timeoutMs want (inbound tls).length used →
      ∃ f, readLoop start timeoutMs want tls (used ++ more) = some f ∧
        LoopTakes want (inbound tls) more f := by
  induction used with
  | nil =>
      intro want tls husable hcuts
      obtain rfl := cuts_nil_iff.mp hcuts
      refine ⟨⟨.ok, [], tls, more⟩, by rw [List.nil_append, readLoop.eq_def, if_pos rfl], ?_⟩
      exact ⟨rfl, rfl, rfl, fun _ => husable, rfl⟩
  | cons s used ih =>
      intro want tls husable hcuts
      obtain ⟨result, now, notified⟩ := s
      cases result with
      | moved n =>
          obtain ⟨hwant, hpos, hle, havail, hrest⟩ := cuts_moved_iff.mp hcuts
          obtain ⟨tls', hread, husable', hin⟩ := tlsClientRead_moved husable hpos hle havail
          have hlen : ((inbound tls).take n).length = n := by
            rw [List.length_take, Nat.min_eq_left havail]
          have hcuts' : Cuts start timeoutMs (want - n) (inbound tls').length used := by
            rwa [hin, List.length_drop]
          obtain ⟨f, hf, htakes⟩ := ih husable' hcuts'
          refine ⟨{ f with got := (inbound tls).take n ++ f.got }, ?_, ?_, ?_, ?_, ?_, htakes.rest⟩
          · rw [List.cons_append, readLoop.eq_def, if_neg hwant]
            simp only [hread, hlen, hf, Option.map_some]
          · show (inbound tls).take n ++ f.got = _
            rw [htakes.got, hin, ← List.take_add, Nat.add_sub_cancel' hle]
          · show inbound f.tls = _
            rw [htakes.left, hin, List.drop_drop, Nat.add_sub_cancel' hle]
          · show f.err = _
            rw [htakes.err, hin, List.length_drop]
            refine if_congr ?_ rfl rfl
            omega
          · intro hfit
            refine htakes.usable ?_
            rw [hin, List.length_drop]
            omega
      | timedOut =>
          obtain ⟨hwant, hearly, hquiet, hrest⟩ := cuts_timedOut_iff.mp hcuts
          obtain ⟨f, hf, htakes⟩ := ih husable hrest
          refine ⟨f, ?_, htakes⟩
          rw [List.cons_append, readLoop.eq_def, if_neg hwant]
          simp only [tlsClientRead_timedOut want husable, if_neg hearly, hquiet]
          exact hf
      | closed =>
          obtain ⟨hwant, hnone, rfl⟩ := hcuts
          exact readLoop_ended husable hwant (List.length_eq_zero_iff.mp hnone) (Or.inl rfl)
      | failed =>
          obtain ⟨hwant, hnone, rfl⟩ := hcuts
          exact readLoop_ended husable hwant (List.length_eq_zero_iff.mp hnone) (Or.inr rfl)

end

/-! ## The next slice -/

/-- What `read_packet` returns on a stream, and what it leaves of it. -/
def SliceResult (stream : Bytes) (result : Except EspErr Packet) (left : Bytes) : Prop :=
  if stream.length < 4 then ∃ err, result = .error err
  else if payloadLen stream < 4 ∨ 1020 < payloadLen stream then
    result = .error .invalidSize ∧ left = stream.drop 4
  else if stream.length < 4 + payloadLen stream then ∃ err, result = .error err
  else
    packetParse (stream.take (4 + payloadLen stream)) (4 + payloadLen stream) = some result ∧
      left = stream.drop (4 + payloadLen stream)

section

variable {start timeoutMs : UInt64} {hs ps : List ReadStep}

/-- Both writes of the payload half fit into `read_buf`. -/
theorem readPayload_writes (client : BarrierClient) {n : UInt32} {got : Bytes} (hn : n.toNat ≤ 1020)
    (hgot : got.length ≤ n.toNat) :
    ∃ buf₁ buf₂, client.readBuf.write 0 (u32Bytes n) = some buf₁ ∧
      buf₁.write 4 got = some buf₂ := by
  have hsize : barrierReadBufSize = 1024 := rfl
  have hheader : 0 + (u32Bytes n).length ≤ barrierReadBufSize := by
    rw [u32Bytes_length]
    decide
  obtain ⟨buf₁, h₁⟩ := client.readBuf.exists_write hheader
  obtain ⟨buf₂, h₂⟩ := buf₁.exists_write (show 4 + got.length ≤ barrierReadBufSize by omega)
  exact ⟨buf₁, buf₂, h₁, h₂⟩

/-- The parser returns on a whole frame of the range. -/
theorem packetParse_slice {n : UInt32} {payload : Bytes} (hlow : 4 ≤ n.toNat)
    (hlen : payload.length = n.toNat) :
    ∃ result, packetParse (u32Bytes n ++ payload) (4 + n.toNat) = some result := by
  have hheader : barrierHeaderLen = 4 + barrierCodeLen := rfl
  have hcode : barrierCodeLen = 4 := rfl
  have hframe : (u32Bytes n ++ payload).length = 4 + n.toNat := by
    rw [List.length_append, u32Bytes_length, hlen]
  have hpayload : payloadLen (u32Bytes n ++ payload) = n.toNat := bigEndian_u32Bytes n
  refine packetParse_total (by omega) (by omega) fun hfit => ?_
  rw [frameData, List.length_drop]
  omega

/-- The payload half, behind a prefix that is in range. -/
theorem readPayload_cuts (client : BarrierClient) (more : List ReadStep) {n : UInt32}
    (hlow : 4 ≤ n.toNat) (hn : n.toNat ≤ 1020) (husable : Usable client.tls)
    (hcuts : Cuts start timeoutMs n.toNat (inbound client.tls).length ps) :
    ∃ result client' rest,
      readPayload client start timeoutMs (u32Bytes n) n.toNat (ps ++ more) =
        some (result, client', rest) ∧
      if (inbound client.tls).length < n.toNat then ∃ err, result = .error err
      else
        packetParse (u32Bytes n ++ (inbound client.tls).take n.toNat) (4 + n.toNat) = some result ∧
        inbound client'.tls = (inbound client.tls).drop n.toNat := by
  obtain ⟨f, hf, htakes⟩ := readLoop_cuts more husable hcuts
  have hgot : f.got.length ≤ n.toNat := by
    rw [htakes.got, List.length_take]
    exact Nat.min_le_left _ _
  obtain ⟨buf₁, buf₂, h₁, h₂⟩ := readPayload_writes client hn hgot
  simp only [readPayload, h₁, hf, h₂, Option.bind_some]
  by_cases hshort : (inbound client.tls).length < n.toNat
  · have herr : f.err = .fail := by rw [htakes.err, if_neg (by omega)]
    refine ⟨.error .fail, { client with tls := f.tls, readBuf := buf₂ }, f.rest, ?_, ?_⟩
    · rw [herr]
      rfl
    · rw [if_pos hshort]
      exact ⟨_, rfl⟩
  · have hfit : n.toNat ≤ (inbound client.tls).length := by omega
    have herr : f.err = .ok := by rw [htakes.err, if_pos hfit]
    have hlen : f.got.length = n.toNat := by rw [htakes.got, List.length_take, Nat.min_eq_left hfit]
    obtain ⟨result, hresult⟩ := packetParse_slice hlow hlen
    have hparse := packetParse_readBuf h₁ h₂ hlen
    rw [List.length_append, u32Bytes_length, hlen, hresult] at hparse
    refine ⟨result, { client with tls := f.tls, readBuf := buf₂ }, f.rest, ?_, ?_⟩
    · rw [herr, hparse]
      rfl
    · rw [if_neg hshort, ← htakes.got]
      exact ⟨hresult, htakes.left⟩

/-- The header half, when the stream has a header. -/
theorem readPacket_header {client : BarrierClient} (more : List ReadStep)
    (husable : Usable client.tls) (hheader : 4 ≤ (inbound client.tls).length)
    (hhs : Cuts start timeoutMs 4 (inbound client.tls).length hs) :
    ∃ (tls : Option TlsClient) (n : UInt32), Usable tls ∧
      inbound client.tls = u32Bytes n ++ inbound tls ∧
      readPacket client start timeoutMs (hs ++ more) =
        if n.toNat < 4 ∨ 1020 < n.toNat then
          some (.error .invalidSize, { client with tls }, more)
        else readPayload { client with tls } start timeoutMs (u32Bytes n) n.toNat more := by
  obtain ⟨f, hf, htakes⟩ := readLoop_cuts more husable hhs
  have hgot : f.got.length = 4 := by rw [htakes.got, List.length_take, Nat.min_eq_left hheader]
  obtain ⟨n, hbytes, hread⟩ := exists_prefix hgot
  have hsize : barrierReadBufSize = 1024 := rfl
  refine ⟨f.tls, n, htakes.usable hheader, ?_, ?_⟩
  · rw [← hbytes, htakes.got, htakes.left, List.take_append_drop]
  · have herr : f.err = .ok := by rw [htakes.err, if_pos hheader]
    simp only [readPacket, hf, Option.bind_some, herr, hread, htakes.rest]
    rw [if_neg (by simp)]
    by_cases hbig : 1020 < n.toNat
    · rw [if_pos (by omega), if_pos (Or.inr hbig)]
    · rw [if_neg (by omega)]
      by_cases hsmall : n.toNat < 4
      · rw [if_pos hsmall, if_pos (Or.inl hsmall)]
      · rw [if_neg hsmall, if_neg (by omega), hbytes]

/-- However the stream is cut into reads, `read_packet` parses its next slice. -/
theorem readPacket_slice {client : BarrierClient} {stream : Bytes} (more : List ReadStep)
    (husable : Usable client.tls) (hstream : inbound client.tls = stream)
    (hhs : Cuts start timeoutMs 4 stream.length hs)
    (hps : 4 ≤ stream.length → 4 ≤ payloadLen stream → payloadLen stream ≤ 1020 →
      Cuts start timeoutMs (payloadLen stream) (stream.length - 4) ps) :
    (∀ f, readLoop start timeoutMs 4 client.tls (hs ++ (ps ++ more)) = some f →
        f.got.length ≤ 4) ∧
      ∃ result client' rest,
        readPacket client start timeoutMs (hs ++ (ps ++ more)) = some (result, client', rest) ∧
          SliceResult stream result (inbound client'.tls) := by
  subst hstream
  obtain ⟨f, hf, htakes⟩ := readLoop_cuts (ps ++ more) husable hhs
  refine ⟨fun f' hf' => ?_, ?_⟩
  · cases hf.symm.trans hf'
    rw [htakes.got, List.length_take]
    exact Nat.min_le_left _ _
  by_cases hheader : 4 ≤ (inbound client.tls).length
  · obtain ⟨tls, n, husable', hsplit, hread⟩ := readPacket_header (ps ++ more) husable hheader hhs
    have hn : payloadLen (inbound client.tls) = n.toNat := by
      rw [hsplit]
      exact bigEndian_u32Bytes n
    have hlength : (inbound client.tls).length = 4 + (inbound tls).length := by
      rw [hsplit, List.length_append, u32Bytes_length]
    rw [hread]
    simp only [SliceResult, if_neg (Nat.not_lt.mpr hheader), hn]
    by_cases hrange : n.toNat < 4 ∨ 1020 < n.toNat
    · refine ⟨_, _, _, if_pos hrange, ?_⟩
      rw [if_pos hrange, hsplit]
      exact ⟨rfl, rfl⟩
    · have hcuts := hps hheader (by omega) (by omega)
      rw [hn, hlength, Nat.add_sub_cancel_left] at hcuts
      obtain ⟨result, client', rest, hcall, hresult⟩ :=
        readPayload_cuts { client with tls } more (by omega) (by omega) husable' hcuts
      refine ⟨result, client', rest, by rw [if_neg hrange, hcall], ?_⟩
      rw [if_neg hrange]
      by_cases hshort : (inbound tls).length < n.toNat
      · rw [if_pos hshort] at hresult
        rwa [if_pos (by omega)]
      · rw [if_neg hshort] at hresult
        have htake : (u32Bytes n ++ inbound tls).take (4 + n.toNat) =
            u32Bytes n ++ (inbound tls).take n.toNat := by
          rw [← u32Bytes_length n, List.take_length_add_append]
        have hdrop : (u32Bytes n ++ inbound tls).drop (4 + n.toNat) =
            (inbound tls).drop n.toNat := by
          rw [← u32Bytes_length n, List.drop_length_add_append]
        rw [if_neg (by omega), hsplit, htake, hdrop]
        exact hresult
  · have hfail : f.err = .fail := by rw [htakes.err, if_neg hheader]
    refine ⟨.error .fail, { client with tls := f.tls }, f.rest, ?_, ?_⟩
    · simp only [readPacket, hf, Option.bind_some, hfail]
      rfl
    · rw [SliceResult, if_pos (by omega)]
      exact ⟨_, rfl⟩

/-- A `DMMV` frame in five reads, with a timeout inside the header and one inside the data. -/
theorem readPacket_slice_dmmv :
    let stream : Bytes := [0, 0, 0, 8, 68, 77, 77, 86, 1, 44, 2, 88, 0]
    let client := { (World.initial configDefaults false).client with
      tls := some ⟨[], 24800, true, some stream⟩ }
    let hs : List ReadStep := [⟨.moved 1, 0, false⟩, ⟨.timedOut, 5, false⟩, ⟨.moved 3, 0, false⟩]
    let ps : List ReadStep := [⟨.moved 4, 0, false⟩, ⟨.moved 2, 0, false⟩, ⟨.timedOut, 9, false⟩,
      ⟨.moved 2, 0, false⟩]
    (∀ f, readLoop 0 100 4 client.tls (hs ++ (ps ++ [])) = some f → f.got.length ≤ 4) ∧
      ∃ result client' rest, readPacket client 0 100 (hs ++ (ps ++ [])) =
        some (result, client', rest) ∧ SliceResult stream result (inbound client'.tls) := by
  intro stream client hs ps
  refine readPacket_slice [] ⟨_, rfl, rfl, rfl⟩ rfl ?_ fun _ _ _ => ?_
  · simp [hs, stream, cuts_moved_iff, cuts_timedOut_iff, cuts_nil_iff]
  · have hlen : payloadLen stream = 8 := by decide
    rw [hlen]
    simp [ps, stream, cuts_moved_iff, cuts_timedOut_iff, cuts_nil_iff]

end

end Esp32Deskflow.Barrier
