/-
  Web/CertStores.lean --- the stores of a certificate upload, one by one.

  `cert_upload_handler` attempts up to three stores, each of which may find another state
  of the stick and of the heap.  One variable takes their results in turn, so the answer
  is that of the last one.
-/
import Esp32Deskflow.Web.CertUpload

set_option autoImplicit false

namespace Esp32Deskflow.Web

open Esp32Deskflow.Foundation Esp32Deskflow.Libc Esp32Deskflow.Config

/-! ## One store -/

/-- What `config_upload_cert` returns for a type that exists. -/
def storeResult (io : CertIo) : EspErr :=
  if io.mounted then
    if io.fopenOk then if io.mallocOk then .ok else .noMem else .fail
  else .notFound

/-- The file is written, and then there is no memory for the copy in RAM. -/
def RunsOutOfMemory (io : CertIo) : Prop :=
  io.mounted = true ∧ io.fopenOk = true ∧ io.mallocOk = false

instance (io : CertIo) : Decidable io.Works := inferInstanceAs (Decidable (_ ∧ _))

theorem storeResult_eq_ok_iff (io : CertIo) : storeResult io = .ok ↔ io.Works := by
  obtain ⟨mounted, fopenOk, mallocOk, fresh⟩ := io
  cases mounted <;> cases fopenOk <;> cases mallocOk <;> simp [storeResult, CertIo.Works]

section

variable (io : CertIo) (type : CertType) (data : Bytes) (s : CertStore)

theorem configUploadCert_result :
    (configUploadCert io (typeNumber type) data s).2 = storeResult io := by
  unfold configUploadCert storeResult
  rw [certType_typeNumber]
  split_ifs <;> rfl

/-- The file of the certificate is written if it can be opened; every other one stays. -/
theorem configUploadCert_file_eq (type' : CertType) :
    (configUploadCert io (typeNumber type) data s).1.file type' =
      if type' = type ∧ io.mounted = true ∧ io.fopenOk = true then some data
      else s.file type' := by
  unfold configUploadCert
  rw [certType_typeNumber]
  by_cases hmounted : io.mounted = true
  · by_cases hfopen : io.fopenOk = true
    · simp only [hmounted, hfopen, if_true, and_true]
      split <;> rfl
    · simp [hmounted, hfopen]
  · simp [hmounted]

/-- A store that fails leaves the copy in RAM alone. -/
theorem configUploadCert_ram_eq (hfail : storeResult io ≠ .ok) :
    (configUploadCert io (typeNumber type) data s).1.ram = s.ram := by
  unfold storeResult at hfail
  unfold configUploadCert
  rw [certType_typeNumber]
  split_ifs at hfail ⊢
  · exact absurd rfl hfail
  · rfl
  · rfl
  · rfl

/-- A store that fails has changed nothing exactly if it did not run out of memory, or the file
held the same bytes before. -/
theorem configUploadCert_unchanged_iff :
    ((configUploadCert io (typeNumber type) data s).2 ≠ .ok →
        (configUploadCert io (typeNumber type) data s).1.file type = s.file type ∧
          (configUploadCert io (typeNumber type) data s).1.ram type = s.ram type) ↔
      (RunsOutOfMemory io → s.file type = some data) := by
  rw [configUploadCert_result, configUploadCert_file_eq]
  constructor
  · rintro h ⟨hmounted, hfopen, hmalloc⟩
    have hfail : storeResult io ≠ .ok := by simp [storeResult, hmounted, hfopen, hmalloc]
    have hfile := (h hfail).1
    rw [if_pos ⟨rfl, hmounted, hfopen⟩] at hfile
    exact hfile.symm
  · intro h hfail
    refine ⟨?_, congrFun (configUploadCert_ram_eq io type data s hfail) type⟩
    split
    · rename_i hopened
      obtain ⟨-, hmounted, hfopen⟩ := hopened
      have hmalloc : io.mallocOk = false := by
        by_contra hmem
        rw [Bool.not_eq_false] at hmem
        exact hfail ((storeResult_eq_ok_iff io).mpr ⟨hmounted, hfopen, hmem⟩)
      exact (h ⟨hmounted, hfopen, hmalloc⟩).symm
    · rfl

end

/-! ## The stores of a body -/

/-- The calls that a list of stores makes. -/
def storeCalls (ios : CertType → CertIo) : CertStore → List (CertType × Bytes) → List StoreCall
  | _, [] => []
  | st, (type, data) :: stores =>
      let (st', r) := configUploadCert (ios type) (typeNumber type) data st
      ⟨type, st, st', r⟩ :: storeCalls ios st' stores

section

variable (ios : CertType → CertIo)

theorem pushAll_calls (u : UploadState) (stores : List (CertType × Bytes)) :
    (u.pushAll ios stores).calls = u.calls ++ storeCalls ios u.store stores := by
  induction stores generalizing u with
  | nil => exact (List.append_nil _).symm
  | cons f stores ih =>
      have hpush := ih (u.push (ios f.1) f.1 f.2)
      rw [UploadState.pushAll, List.foldl_cons]
      refine hpush.trans ?_
      simp [UploadState.push, storeCalls]

/-- The variable `r` ends with the result of the last store. -/
theorem pushAll_r (u : UploadState) (stores : List (CertType × Bytes)) :
    (u.pushAll ios stores).r = (stores.getLast?.map fun f => storeResult (ios f.1)).getD u.r := by
  induction stores generalizing u with
  | nil => rfl
  | cons f stores ih =>
      have hpush : (u.push (ios f.1) f.1 f.2).r = storeResult (ios f.1) :=
        configUploadCert_result (ios f.1) f.1 f.2 u.store
      rw [UploadState.pushAll, List.foldl_cons]
      refine (ih (u.push (ios f.1) f.1 f.2)).trans ?_
      rw [hpush, List.getLast?_cons]
      cases stores.getLast? <;> rfl

theorem storeCalls_ok_iff (st : CertStore) (stores : List (CertType × Bytes)) :
    (∀ call ∈ storeCalls ios st stores, call.result = .ok) ↔ ∀ f ∈ stores, (ios f.1).Works := by
  induction stores generalizing st with
  | nil => exact iff_of_true nofun nofun
  | cons f stores ih =>
      rw [storeCalls, List.forall_mem_cons, List.forall_mem_cons, ih]
      simp only [configUploadCert_result, storeResult_eq_ok_iff]

/-- What a call that fails leaves of its certificate. -/
def StoreCall.KeepsOnError (call : StoreCall) : Prop :=
  call.result ≠ .ok →
    call.after.file call.type = call.before.file call.type ∧
      call.after.ram call.type = call.before.ram call.type

theorem storeCalls_keepsOnError_iff {st : CertStore} {stores : List (CertType × Bytes)}
    (hnodup : (stores.map Prod.fst).Nodup) :
    (∀ call ∈ storeCalls ios st stores, call.KeepsOnError) ↔
      ∀ f ∈ stores, RunsOutOfMemory (ios f.1) → st.file f.1 = some f.2 := by
  induction stores generalizing st with
  | nil => exact iff_of_true nofun nofun
  | cons f stores ih =>
      obtain ⟨hfirst, hrest⟩ := List.nodup_cons.mp hnodup
      have hlater : ∀ g ∈ stores,
          (configUploadCert (ios f.1) (typeNumber f.1) f.2 st).1.file g.1 = st.file g.1 := by
        intro g hg
        have hne : g.1 ≠ f.1 := fun heq => hfirst (heq ▸ List.mem_map_of_mem hg)
        rw [configUploadCert_file_eq, if_neg fun hand => hne hand.1]
      rw [storeCalls, List.forall_mem_cons, List.forall_mem_cons, ih hrest]
      refine and_congr (configUploadCert_unchanged_iff (ios f.1) f.1 f.2 st) ?_
      exact forall₂_congr fun g hg => by rw [hlater g hg]

end

theorem bodyStores_nodup (text : Bytes) : ((bodyStores text).map Prod.fst).Nodup := by
  unfold bodyStores
  generalize fieldValue text caKey _ = ca
  generalize fieldValue text certKey _ = cert
  generalize fieldValue text keyKey _ = key
  cases ca <;> cases cert <;> cases key <;> simp

/-! ## The answer -/

/-- "ok" and `EVENT_RECONNECT` stand for stores that all succeeded, and a store that failed has
changed neither the file nor the copy in RAM. -/
structure Honest (out : CertUploaded) (calls : List StoreCall) : Prop where
  answer : .respond .ok (ascii "ok") ∈ out.actions ∨ .setReconnect ∈ out.actions →
    ∀ call ∈ calls, call.result = .ok
  keeps : ∀ call ∈ calls, call.KeepsOnError

section

variable (peers : WebPeers) (ios : CertType → CertIo) (stack : Buffer 4096) (st : CertStore)
  {req : HttpRequest} {body : Bytes}

/-- A body that leaves room for the terminator is answered according to the last store. -/
theorem certUploadCalls_of_body (hlen : req.contentLen ≤ 4096)
    (hreceived : req.received = some body) (hne : body ≠ []) (hroom : body.length < 4096) :
    ∃ out, certUploadCalls peers ios stack req st =
        some (out, storeCalls ios st (bodyStores (cString body))) ∧
      out.actions = if ∀ f ∈ (bodyStores (cString body)).getLast?, (ios f.1).Works then
        peers.setReconnect ++ [.respond .ok (ascii "ok")]
      else [.respond .internalServerError (ascii "Upload failed")] := by
  have hcalls := pushAll_calls ios ⟨st, .ok, []⟩ (bodyStores (cString body))
  have hr := pushAll_r ios ⟨st, .ok, []⟩ (bodyStores (cString body))
  have hok : (UploadState.pushAll ios ⟨st, .ok, []⟩ (bodyStores (cString body))).r = .ok ↔
      ∀ f ∈ (bodyStores (cString body)).getLast?, (ios f.1).Works := by
    rw [hr]
    cases (bodyStores (cString body)).getLast? with
    | none => exact iff_of_true rfl nofun
    | some f => simp [storeResult_eq_ok_iff]
  rw [List.nil_append] at hcalls
  simp only [certUploadCalls_eq ios peers stack st hlen hreceived hne hroom, hcalls]
  by_cases hlast : ∀ f ∈ (bodyStores (cString body)).getLast?, (ios f.1).Works
  · rw [if_pos (hok.mpr hlast), if_pos hlast]
    exact ⟨_, rfl, rfl⟩
  · rw [if_neg (mt hok.mp hlast), if_neg hlast]
    exact ⟨_, rfl, rfl⟩

/-- For every body that is read and every outcome of each store: the answer tells the truth and
every failed store left its certificate alone, if and only if the terminator has room, all
stores succeed if the last one does, and no store runs out of memory, unless it found its
file with the same content. -/
theorem certUploadCalls_honest_iff (hlen : req.contentLen ≤ 4096)
    (hreceived : req.received = some body) (hne : body ≠ []) :
    (∃ out calls, certUploadCalls peers ios stack req st = some (out, calls) ∧ Honest out calls) ↔
      body.length < 4096 ∧
      ((∀ f ∈ (bodyStores (cString body)).getLast?, (ios f.1).Works) →
        ∀ f ∈ bodyStores (cString body), (ios f.1).Works) ∧
      ∀ f ∈ bodyStores (cString body), RunsOutOfMemory (ios f.1) → st.file f.1 = some f.2 := by
  have hfits := req.received_le body hreceived
  by_cases hroom : body.length < 4096
  · obtain ⟨out, hout, hactions⟩ :=
      certUploadCalls_of_body peers ios stack st hlen hreceived hne hroom
    have hanswer : (.respond .ok (ascii "ok") ∈ out.actions ∨ .setReconnect ∈ out.actions) ↔
        ∀ f ∈ (bodyStores (cString body)).getLast?, (ios f.1).Works := by
      rw [hactions]
      split
      · rename_i hlast
        exact iff_of_true (.inl (List.mem_append_right _ List.mem_cons_self)) hlast
      · rename_i hlast
        exact iff_of_false (by simp) hlast
    have hall := storeCalls_ok_iff ios st (bodyStores (cString body))
    have hkeeps := @storeCalls_keepsOnError_iff ios st _ (bodyStores_nodup (cString body))
    constructor
    · rintro ⟨out', calls, hout', hhonest⟩
      rw [hout] at hout'
      cases hout'
      refine ⟨hroom, fun hlast => ?_, hkeeps.mp hhonest.keeps⟩
      exact hall.mp (hhonest.answer (hanswer.mpr hlast))
    · rintro ⟨-, hlast, hfiles⟩
      refine ⟨out, _, hout, fun hok => ?_, hkeeps.mpr hfiles⟩
      exact hall.mpr (hlast (hanswer.mp hok))
  · have hnone := certUploadCalls_overrun ios peers stack st hlen hreceived (by omega)
    refine iff_of_false ?_ fun h => hroom h.1
    rintro ⟨out, calls, hout, -⟩
    rw [hnone] at hout
    cases hout

end

/-- A body with two certificates. -/
def twoCerts : Bytes := ascii "\x7b\"ca\":\"A\",\"cert\":\"B\",\"key\":\"\"\x7d"

/-- The heap is full during the store of the first certificate. -/
def heapFullFirst : CertType → CertIo
  | .ca => ⟨true, true, false, 0⟩
  | .clientCert => ⟨true, true, true, 0⟩
  | .clientKey => ⟨true, true, true, 0⟩

theorem twoCerts_length : (HttpRequest.whole twoCerts).contentLen ≤ 4096 := by
  show twoCerts.length ≤ 4096
  decide +kernel

theorem twoCerts_ne_nil : twoCerts ≠ [] := by decide +kernel

theorem certUploadCalls_honest_iff_twoCerts :
    (∃ out calls, certUploadCalls ⟨true, true⟩ heapFullFirst (.zeroed 4096) (.whole twoCerts)
        noCerts = some (out, calls) ∧ Honest out calls) ↔
      twoCerts.length < 4096 ∧
      ((∀ f ∈ (bodyStores (cString twoCerts)).getLast?, (heapFullFirst f.1).Works) →
        ∀ f ∈ bodyStores (cString twoCerts), (heapFullFirst f.1).Works) ∧
      ∀ f ∈ bodyStores (cString twoCerts), RunsOutOfMemory (heapFullFirst f.1) →
        noCerts.file f.1 = some f.2 :=
  certUploadCalls_honest_iff ⟨true, true⟩ heapFullFirst (.zeroed 4096) noCerts twoCerts_length rfl
    twoCerts_ne_nil

/-- The first store fails after it has written the file, the second one succeeds, and the
answer is "ok". -/
theorem not_honest_twoCerts :
    ∃ out calls, certUploadCalls ⟨true, true⟩ heapFullFirst (.zeroed 4096) (.whole twoCerts)
        noCerts = some (out, calls) ∧
      calls.map (fun call => (call.type, call.result, call.before.file .ca, call.after.file .ca)) =
        [(.ca, .noMem, none, some [65]), (.clientCert, .ok, some [65], some [65])] ∧
      out.actions = [.setReconnect, .respond .ok (ascii "ok")] ∧ ¬ Honest out calls := by
  have hstores : bodyStores (cString twoCerts) = [(.ca, [65]), (.clientCert, [66])] := by
    decide +kernel
  obtain ⟨out, hout, hactions⟩ := certUploadCalls_of_body ⟨true, true⟩ heapFullFirst (.zeroed 4096)
    noCerts twoCerts_length rfl twoCerts_ne_nil (by decide +kernel)
  rw [hstores] at hout hactions
  have hlast : ∀ f ∈ [(CertType.ca, ([65] : Bytes)), (.clientCert, [66])].getLast?,
      (heapFullFirst f.1).Works := by
    rintro f ⟨⟩
    exact ⟨rfl, rfl, rfl⟩
  rw [if_pos hlast] at hactions
  refine ⟨out, _, hout, rfl, hactions, fun hhonest => ?_⟩
  have hok := hhonest.answer (.inl (hactions ▸ List.mem_append_right _ List.mem_cons_self)) _
    List.mem_cons_self
  cases hok

end Esp32Deskflow.Web
