/-
  Web/CertUpload.lean --- `cert_upload_handler`: the certificates sent by the settings page.

  The page sends the three texts by `JSON.stringify`, which writes a newline as a backslash
  and an `n`.  The handler cuts the texts out of the body and stores them as they stand there.
-/
import Esp32Deskflow.Config.Certs
import Esp32Deskflow.Foundation.CompactJson
import Esp32Deskflow.Web.HttpRequest

set_option autoImplicit false

namespace Esp32Deskflow.Web

open Esp32Deskflow.Foundation Esp32Deskflow.Libc Esp32Deskflow.Config

/-! ## The handler -/

/-- The argument of `config_upload_cert` for a certificate. -/
def typeNumber : CertType → Int
  | .ca => 0
  | .clientCert => 1
  | .clientKey => 2

/-- A call of `config_upload_cert`, with files and RAM before and after it. -/
structure StoreCall where
  type : CertType
  before : CertStore
  after : CertStore
  result : EspErr

/-- Where the handler stands: files and RAM, the variable `r`, and the calls made so far. -/
structure UploadState where
  store : CertStore
  r : EspErr
  calls : List StoreCall

/-- `r = config_upload_cert(type, data, len)`. -/
def UploadState.push (u : UploadState) (io : CertIo) (type : CertType) (data : Bytes) :
    UploadState :=
  let (store, r) := configUploadCert io (typeNumber type) data u.store
  { store := store, r := r, calls := u.calls ++ [⟨type, u.store, store, r⟩] }

/-- One field of the body: `findEnd` looks for the end of its value.  A value that is not empty
is stored, and the result of the store replaces the one before.  `none` if the copy leaves the
buffer. -/
def certField (io : CertIo) (buf key : Bytes) (findEnd : Nat → Option (Option Nat))
    (type : CertType) (u : UploadState) : Option UploadState :=
  keyedField buf key u fun s =>
    (findEnd s).bind fun
      | none => some u
      | some e =>
          let len := e - s
          if 0 < len then (blockAt buf s len).map (u.push io type) else some u

/-- The key of the CA certificate, up to its value. -/
def caKey : Bytes := ascii "\"ca\":\""

/-- The key of the client certificate. -/
def certKey : Bytes := ascii "\"cert\":\""

/-- The key of the client key. -/
def keyKey : Bytes := ascii "\"key\":\""

/-- What ends the values of `ca` and `cert` in the source: the quote, a comma and the next
quote. -/
def nextMember : Bytes := ascii "\",\""

/-- The three fields, one after the other; `ios` is what each store finds. -/
def certFields (ios : CertType → CertIo) (buf : Bytes) (u : UploadState) : Option UploadState :=
  (certField (ios .ca) buf caKey (fun s => strstr buf s nextMember) .ca u).bind fun u =>
    (certField (ios .clientCert) buf certKey (fun s => strstr buf s nextMember) .clientCert u).bind
      fun u => certField (ios .clientKey) buf keyKey (fun s => strchr buf s 34) .clientKey u

/-- What a call of the handler returns, what it leaves in the files and in RAM, and what it
did. -/
structure CertUploaded where
  ret : EspErr
  store : CertStore
  actions : List WebAction

/-- `cert_upload_handler`, with the calls of `config_upload_cert` that it makes; `stack` is what
its buffer holds at the start. -/
def certUploadCalls (peers : WebPeers) (ios : CertType → CertIo) (stack : Buffer 4096)
    (req : HttpRequest) (st : CertStore) : Option (CertUploaded × List StoreCall) :=
  if 4096 < req.contentLen then
    some (⟨.ok, st, [.respond .contentTooLarge (ascii "Payload too large")]⟩, [])
  else
    match req.received with
    | none | some [] => some (⟨.ok, st, [.respond .badRequest (ascii "Bad request")]⟩, [])
    | some body => do
        let buf ← stack.write 0 body
        let buf ← buf.write body.length [0]
        let u ← certFields ios buf.bytes { store := st, r := .ok, calls := [] }
        if u.r ≠ .ok then
          let actions := [.respond .internalServerError (ascii "Upload failed")]
          return (⟨.fail, u.store, actions⟩, u.calls)
        else
          return (⟨.ok, u.store, peers.setReconnect ++ [.respond .ok (ascii "ok")]⟩, u.calls)

/-- `cert_upload_handler`, when all stores find the same stick and heap. -/
def certUploadHandler (peers : WebPeers) (io : CertIo) (stack : Buffer 4096) (req : HttpRequest)
    (st : CertStore) : Option CertUploaded :=
  (certUploadCalls peers (fun _ => io) stack req st).map Prod.fst

/-! ## The stores that a body asks for -/

/-- The value behind the first occurrence of a key, up to its end, if it is not empty. -/
def fieldValue (text key : Bytes) (endOf : Bytes → Option Nat) : Option Bytes :=
  (after key text).bind fun rest =>
    (endOf rest).bind fun n => if 0 < n then some (rest.take n) else none

/-- The certificates in a body, in the order in which they are stored. -/
def bodyStores (text : Bytes) : List (CertType × Bytes) :=
  ((fieldValue text caKey (indexOf nextMember)).map (Prod.mk .ca)).toList ++
    (((fieldValue text certKey (indexOf nextMember)).map (Prod.mk .clientCert)).toList ++
      ((fieldValue text keyKey fun rest => rest.idxOf? 34).map (Prod.mk .clientKey)).toList)

/-- A list of stores, one after the other. -/
def UploadState.pushAll (ios : CertType → CertIo) (u : UploadState)
    (stores : List (CertType × Bytes)) : UploadState :=
  stores.foldl (fun u f => u.push (ios f.1) f.1 f.2) u

theorem certType_typeNumber (type : CertType) : certType (typeNumber type) = some type := by
  cases type <;> rfl

section

variable {buf text key : Bytes} (ios : CertType → CertIo)

/-- The end that is found lies inside the text, so the copy does too. -/
theorem certField_eq (h : Holds buf text) {findEnd : Nat → Option (Option Nat)}
    {endOf : Bytes → Option Nat}
    (hend : ∀ s ≤ text.length, findEnd s = some ((endOf (text.drop s)).map (s + ·)))
    (hin : ∀ rest n, endOf rest = some n → n ≤ rest.length) (type : CertType) (u : UploadState) :
    certField (ios type) buf key findEnd type u =
      some (u.pushAll ios ((fieldValue text key endOf).map (Prod.mk type)).toList) := by
  unfold certField keyedField fieldValue after
  rw [strstr_of_holds h (Nat.zero_le _), List.drop_zero, Option.bind_some]
  cases hfound : indexOf key text with
  | none => rfl
  | some i =>
      have hi := indexOf_le hfound
      simp only [Option.map_some, Option.bind_some, Nat.zero_add, hend _ hi]
      cases hstop : endOf (text.drop (i + key.length)) with
      | none => rfl
      | some n =>
          have hn := hin _ _ hstop
          rw [List.length_drop] at hn
          obtain ⟨-, rest, rfl⟩ := h
          have hdata : ((text ++ 0 :: rest).drop (i + key.length)).take n =
              (text.drop (i + key.length)).take n := by
            rw [List.drop_append_of_le_length hi,
              List.take_append_of_le_length (by rw [List.length_drop]; omega)]
          have hblock : i + key.length + n ≤ (text ++ 0 :: rest).length := by
            rw [List.length_append]
            omega
          simp only [Option.map_some, Option.bind_some, Nat.add_sub_cancel_left,
            blockAt_of_le hblock, hdata]
          split
          · rfl
          · rfl

/-- The handler stores the certificates in the body. -/
theorem certFields_eq (h : Holds buf text) (u : UploadState) :
    certFields ios buf u = some (u.pushAll ios (bodyStores text)) := by
  have hmember (s : Nat) (hs : s ≤ text.length) := strstr_of_holds h hs nextMember
  have hquote (s : Nat) (hs : s ≤ text.length) := strchr_of_holds h hs 34
  have hmemberIn (rest : Bytes) (n : Nat) (hn : indexOf nextMember rest = some n) :
      n ≤ rest.length := le_trans (Nat.le_add_right _ _) (indexOf_le hn)
  have hquoteIn (rest : Bytes) (n : Nat) (hn : rest.idxOf? 34 = some n) : n ≤ rest.length :=
    Nat.le_of_lt (List.idxOf?_eq_some_iff.mp hn).1
  unfold certFields
  rw [certField_eq ios h hmember hmemberIn, Option.bind_some,
    certField_eq ios h hmember hmemberIn, Option.bind_some,
    certField_eq ios h hquote hquoteIn]
  simp only [bodyStores, UploadState.pushAll, List.foldl_append]

/-- A call with a body that leaves room for the terminator. -/
theorem certUploadCalls_eq (peers : WebPeers) (stack : Buffer 4096) (st : CertStore)
    {req : HttpRequest} {body : Bytes} (hlen : req.contentLen ≤ 4096)
    (hreceived : req.received = some body) (hne : body ≠ []) (hroom : body.length < 4096) :
    certUploadCalls peers ios stack req st =
      let u := UploadState.pushAll ios ⟨st, .ok, []⟩ (bodyStores (cString body))
      some (if u.r = .ok then
          (⟨.ok, u.store, peers.setReconnect ++ [.respond .ok (ascii "ok")]⟩, u.calls)
        else (⟨.fail, u.store, [.respond .internalServerError (ascii "Upload failed")]⟩,
          u.calls)) := by
  obtain ⟨buf, buf', hbuf, hbuf', hholds⟩ := write_terminated stack hroom
  obtain ⟨b, bs, rfl⟩ := List.exists_cons_of_ne_nil hne
  rw [certUploadCalls, if_neg (Nat.not_lt.mpr hlen), hreceived]
  simp only [hbuf, hbuf', certFields_eq ios hholds, Option.bind_eq_bind, Option.bind_some,
    Option.pure_def, ite_not]
  split
  · rfl
  · rfl

/-- A body of 4096 bytes passes the check of its length, and its terminator is written behind
the buffer. -/
theorem certUploadCalls_overrun (peers : WebPeers) (stack : Buffer 4096) (st : CertStore)
    {req : HttpRequest} {body : Bytes} (hlen : req.contentLen ≤ 4096)
    (hreceived : req.received = some body) (hfull : body.length = 4096) :
    certUploadCalls peers ios stack req st = none := by
  obtain ⟨buf, hbuf⟩ := stack.exists_write (show 0 + body.length ≤ 4096 by omega)
  obtain ⟨b, bs, rfl⟩ : ∃ b bs, body = b :: bs :=
    List.exists_cons_of_ne_nil (List.ne_nil_of_length_pos (by omega))
  rw [certUploadCalls, if_neg (Nat.not_lt.mpr hlen), hreceived]
  simp only [hbuf, hfull, write_terminator_overrun, Option.bind_eq_bind, Option.bind_some,
    Option.bind_none]

end

/-! ## The upload of the settings page -/

/-- The name of a certificate in the page's object. -/
def certName : CertType → Bytes
  | .ca => ascii "ca"
  | .clientCert => ascii "cert"
  | .clientKey => ascii "key"

/-- The member of a certificate. -/
def uploadMember (texts : CertType → Bytes) (type : CertType) : JsonMember :=
  ⟨certName type, .text (texts type)⟩

/-- The members of the page's object. -/
def uploadMembers (texts : CertType → Bytes) : List JsonMember :=
  [uploadMember texts .ca, uploadMember texts .clientCert, uploadMember texts .clientKey]

/-- The page's object as `JSON.stringify` writes it. -/
def uploadBody (texts : CertType → Bytes) : Bytes := objectBytes (uploadMembers texts)

/-- A character of a PEM text. -/
def PemByte (b : UInt8) : Prop := b = 10 ∨ 32 ≤ b ∧ b ≤ 126 ∧ b ≠ 34 ∧ b ≠ 92

instance (b : UInt8) : Decidable (PemByte b) := inferInstanceAs (Decidable (_ ∨ _))

/-- Each text that is not empty is the content of its file, and the other files are as they
were. -/
structure StoredAsGiven (texts : CertType → Bytes) (before after : CertStore) : Prop where
  stored : ∀ type, texts type ≠ [] → after.file type = some (texts type)
  unchanged : ∀ type, texts type = [] → after.file type = before.file type

/-! ## PEM texts in a body -/

section

variable {s : Bytes}

theorem pem_quoteless (hpem : ∀ b ∈ s, PemByte b) : 34 ∉ s := fun h =>
  absurd (hpem 34 h) (by decide)

/-- Only newlines are written differently. -/
theorem escape_eq_self_iff (hpem : ∀ b ∈ s, PemByte b) : escape s = s ↔ 10 ∉ s := by
  constructor
  · intro heq hnewline
    have hbackslash : (92 : UInt8) ∈ escape s :=
      List.mem_flatMap.mpr ⟨10, hnewline, by decide⟩
    rw [heq] at hbackslash
    exact absurd (hpem 92 hbackslash) (by decide)
  · intro hnewline
    refine escape_of_plain fun b hb => ?_
    obtain rfl | ⟨hlow, _, hquote, hbackslash⟩ := hpem b hb
    · exact absurd hb hnewline
    · exact ⟨hlow, hquote, hbackslash⟩

theorem nul_not_mem_escape (hpem : ∀ b ∈ s, PemByte b) : 0 ∉ escape s := by
  intro hmem
  obtain ⟨b, hb, hnul⟩ := List.mem_flatMap.mp hmem
  obtain rfl | ⟨hlow, _, hquote, hbackslash⟩ := hpem b hb
  · exact absurd hnul (by decide)
  · rw [escapeByte_of_plain ⟨hlow, hquote, hbackslash⟩, List.mem_singleton] at hnul
    rw [← hnul] at hlow
    exact absurd hlow (by decide)

end

section

variable {texts : CertType → Bytes}

theorem certName_plain (type : CertType) : IsName (certName type) ∧ 0 ∉ certName type := by
  cases type <;> decide +kernel

theorem certName_ne {type type' : CertType} (h : type ≠ type') :
    certName type ≠ certName type' := by
  cases type <;> cases type' <;> first | exact absurd rfl h | decide +kernel

theorem nul_not_mem_uploadBody (hpem : ∀ type, ∀ b ∈ texts type, PemByte b) :
    0 ∉ uploadBody texts := by
  intro hmem
  obtain hpunct | ⟨m, hm, hin⟩ := @mem_objectBytes (uploadMembers texts) 0 hmem
  · exact absurd hpunct (by decide)
  · obtain ⟨type, rfl⟩ : ∃ type, m = uploadMember texts type := by
      simp only [uploadMembers, List.mem_cons, List.not_mem_nil, or_false] at hm
      obtain rfl | rfl | rfl := hm <;> exact ⟨_, rfl⟩
    obtain hname | hvalue := hin
    · exact (certName_plain type).2 hname
    · obtain hquote | hmem := JsonValue.mem_text_bytes.mp hvalue
      · exact absurd hquote (by decide)
      · exact nul_not_mem_escape (hpem type) hmem

/-- A search for a field finds its value, followed by the fields behind it. -/
theorem after_uploadBody (hpem : ∀ type, ∀ b ∈ texts type, PemByte b) (type : CertType)
    (front : List CertType) {back : List JsonMember}
    (hsplit : uploadMembers texts =
      front.map (uploadMember texts) ++ uploadMember texts type :: back)
    (hfront : type ∉ front) :
    after (memberPattern (certName type) [34]) (uploadBody texts) =
      some (escape (texts type) ++ 34 :: laterMembers back) := by
  have hpassed : ∀ x ∈ front.map (uploadMember texts), x.PassedBy (certName type) := by
    intro x hx
    obtain ⟨type', htype', rfl⟩ := List.mem_map.mp hx
    refine ⟨(certName_plain type').1, certName_ne ?_, pem_quoteless (hpem type')⟩
    rintro rfl
    exact hfront htype'
  have hvalue : (uploadMember texts type).value.bytes = [34] ++ (escape (texts type) ++ [34]) := rfl
  have hfound := @after_objectBytes (front.map (uploadMember texts)) back (uploadMember texts type)
    (certName_plain type).1 hpassed _ _ hvalue
  rw [List.append_assoc] at hfound
  rw [uploadBody, hsplit]
  exact hfound

end

/-! ## The stores of the upload -/

section

variable {text key v rest : Bytes}

/-- A field whose end is found right behind its value. -/
theorem fieldValue_eq (hafter : after key text = some (v ++ rest)) {endOf : Bytes → Option Nat}
    (hend : endOf (v ++ rest) = some v.length) :
    fieldValue text key endOf = if v = [] then none else some v := by
  rw [fieldValue, hafter, Option.bind_some, hend, Option.bind_some, List.take_left]
  simp only [List.length_pos_iff, ne_eq, ite_not]

/-- The end of a value that another member follows. -/
theorem indexOf_nextMember (hv : 34 ∉ v) (m : JsonMember) (back : List JsonMember) :
    indexOf nextMember (v ++ 34 :: laterMembers (m :: back)) = some v.length := by
  have hmark : nextMember = 34 :: [44, 34] := by decide +kernel
  have hfound := @indexOf_append_mark _ _ 34 [44, 34]
    (m.name ++ 34 :: 58 :: m.value.bytes ++ laterMembers back) v hv
  rw [hmark]
  exact hfound

/-- A text is stored as it stands in the body, if it is not empty. -/
def asEscaped (texts : CertType → Bytes) (type : CertType) : List (CertType × Bytes) :=
  if texts type = [] then [] else [(type, escape (texts type))]

/-- The page's body asks for the texts that are not empty, in their escaped form. -/
theorem bodyStores_uploadBody {texts : CertType → Bytes}
    (hpem : ∀ type, ∀ b ∈ texts type, PemByte b) :
    bodyStores (uploadBody texts) =
      asEscaped texts .ca ++ (asEscaped texts .clientCert ++ asEscaped texts .clientKey) := by
  have hquoteless (type : CertType) : 34 ∉ escape (texts type) :=
    quote_not_mem_escape (pem_quoteless (hpem type))
  have hstores : ∀ type,
      ((if escape (texts type) = [] then none else some (escape (texts type))).map
        (Prod.mk type)).toList = asEscaped texts type := by
    intro type
    by_cases hempty : texts type = []
    · rw [asEscaped, if_pos hempty, if_pos (escape_eq_nil_iff.mpr hempty)]
      rfl
    · rw [asEscaped, if_neg hempty, if_neg (mt escape_eq_nil_iff.mp hempty)]
      rfl
  have hca := fieldValue_eq (after_uploadBody hpem .ca [] rfl (by decide))
    (indexOf_nextMember (hquoteless .ca) _ _)
  have hcert := fieldValue_eq (after_uploadBody hpem .clientCert [.ca] rfl (by decide))
    (indexOf_nextMember (hquoteless .clientCert) _ _)
  have hkey := @fieldValue_eq _ _ _ _
    (after_uploadBody hpem .clientKey [.ca, .clientCert] rfl (by decide))
    (fun rest => rest.idxOf? 34) (idxOf_append_mark (hquoteless .clientKey) _)
  rw [← hstores, ← hstores, ← hstores, ← hca, ← hcert, ← hkey]
  rfl

end

/-! ## The handler on the page's body -/

section

variable {io : CertIo} {texts : CertType → Bytes}

theorem pushAll_append (ios : CertType → CertIo) (u : UploadState)
    (before after : List (CertType × Bytes)) :
    u.pushAll ios (before ++ after) = (u.pushAll ios before).pushAll ios after :=
  List.foldl_append

/-- What the store of one text does to the files. -/
theorem pushAll_asEscaped_file (hmounted : io.mounted = true) (hfopen : io.fopenOk = true)
    (u : UploadState) (type type' : CertType) :
    (u.pushAll (fun _ => io) (asEscaped texts type)).store.file type' =
      if type' = type ∧ texts type ≠ [] then some (escape (texts type))
      else u.store.file type' := by
  by_cases hempty : texts type = []
  · rw [asEscaped, if_pos hempty, if_neg (fun hand => hand.2 hempty)]
    rfl
  · rw [asEscaped, if_neg hempty]
    have hfile := configUploadCert_file hmounted hfopen (certType_typeNumber type)
      (escape (texts type)) u.store type'
    simp only [hempty, ne_eq, not_false_eq_true, and_true]
    exact hfile

theorem certUploadHandler_files (hmounted : io.mounted = true) (hfopen : io.fopenOk = true)
    (hpem : ∀ type, ∀ b ∈ texts type, PemByte b) (hlen : (uploadBody texts).length ≤ 4095)
    (peers : WebPeers) (stack : Buffer 4096) (st : CertStore) :
    ∃ out, certUploadHandler peers io stack (.whole (uploadBody texts)) st = some out ∧ ∀ type,
      out.store.file type =
        if texts type = [] then st.file type else some (escape (texts type)) := by
  have hfits : (HttpRequest.whole (uploadBody texts)).contentLen ≤ 4096 := by
    simp only [HttpRequest.whole]
    omega
  have hcalls := certUploadCalls_eq (fun _ => io) peers stack st hfits rfl
    (List.ne_nil_of_mem List.mem_cons_self) (show (uploadBody texts).length < 4096 by omega)
  rw [cString_eq_self (nul_not_mem_uploadBody hpem), bodyStores_uploadBody hpem] at hcalls
  have hfiles : ∀ type, (UploadState.pushAll (fun _ => io) ⟨st, .ok, []⟩
      (asEscaped texts .ca ++
        (asEscaped texts .clientCert ++ asEscaped texts .clientKey))).store.file type =
          if texts type = [] then st.file type else some (escape (texts type)) := by
    intro type
    rw [pushAll_append, pushAll_append, pushAll_asEscaped_file hmounted hfopen,
      pushAll_asEscaped_file hmounted hfopen, pushAll_asEscaped_file hmounted hfopen]
    cases type <;> simp
  rw [certUploadHandler, hcalls]
  simp only [Option.map_some]
  split
  · exact ⟨_, rfl, hfiles⟩
  · exact ⟨_, rfl, hfiles⟩

/-- An upload whose body fits stores its texts as they were given exactly if none of them
contains a newline and the terminator has room behind the body. -/
theorem certUpload_storedAsGiven_iff (hmounted : io.mounted = true) (hfopen : io.fopenOk = true)
    (hpem : ∀ type, ∀ b ∈ texts type, PemByte b) (hlimit : (uploadBody texts).length ≤ 4096)
    (peers : WebPeers) (stack : Buffer 4096) (st : CertStore) :
    (∃ out, certUploadHandler peers io stack (.whole (uploadBody texts)) st = some out ∧
        StoredAsGiven texts st out.store) ↔
      (∀ type, 10 ∉ texts type) ∧ (uploadBody texts).length < 4096 := by
  constructor
  · rintro ⟨out, hout, hstored⟩
    have hlen : (uploadBody texts).length < 4096 := by
      refine lt_of_le_of_ne hlimit fun heq => ?_
      rw [certUploadHandler, certUploadCalls_overrun (fun _ => io) peers stack st
        (Nat.le_of_eq heq) rfl heq] at hout
      cases hout
    refine ⟨fun type hnewline => ?_, hlen⟩
    obtain ⟨out', hout', hfiles⟩ :=
      certUploadHandler_files hmounted hfopen hpem (Nat.le_of_lt_succ hlen) peers stack st
    rw [hout] at hout'
    cases hout'
    have hne : texts type ≠ [] := List.ne_nil_of_mem hnewline
    have hfile := hfiles type
    rw [if_neg hne, hstored.stored type hne] at hfile
    exact (escape_eq_self_iff (hpem type)).mp (Option.some.inj hfile).symm hnewline
  · rintro ⟨hnewline, hlen⟩
    obtain ⟨out, hout, hfiles⟩ :=
      certUploadHandler_files hmounted hfopen hpem (Nat.le_of_lt_succ hlen) peers stack st
    refine ⟨out, hout, fun type hne => ?_, fun type hempty => ?_⟩
    · rw [hfiles type, if_neg hne, (escape_eq_self_iff (hpem type)).mpr (hnewline type)]
    · rw [hfiles type, if_pos hempty]

end

/-- A text of two lines for the key, and no other one. -/
def twoLineKey : CertType → Bytes
  | .clientKey => ascii "a\nb"
  | _ => []

theorem certUpload_storedAsGiven_iff_twoLineKey :
    (∃ out, certUploadHandler ⟨true, true⟩ certIoOk (.zeroed 4096) (.whole (uploadBody twoLineKey))
        noCerts = some out ∧ StoredAsGiven twoLineKey noCerts out.store) ↔
      (∀ type, 10 ∉ twoLineKey type) ∧ (uploadBody twoLineKey).length < 4096 :=
  certUpload_storedAsGiven_iff rfl rfl (by intro type; cases type <;> decide +kernel)
    (by decide +kernel) ⟨true, true⟩ (.zeroed 4096) noCerts

/-- The key file gets a backslash and an `n` instead of the newline. -/
theorem certUpload_twoLineKey :
    (∀ type, ∀ b ∈ twoLineKey type, PemByte b) ∧ (uploadBody twoLineKey).length ≤ 4096 ∧
      ∃ out, certUploadHandler ⟨true, true⟩ certIoOk (.zeroed 4096) (.whole (uploadBody twoLineKey))
        noCerts = some out ∧ out.store.file .clientKey = some (ascii "a\\nb") ∧
          ¬ StoredAsGiven twoLineKey noCerts out.store := by
  have hpem : ∀ type, ∀ b ∈ twoLineKey type, PemByte b := by
    intro type
    cases type <;> decide +kernel
  obtain ⟨out, hout, hfiles⟩ := @certUploadHandler_files certIoOk _ rfl rfl hpem
    (by decide +kernel) ⟨true, true⟩ (.zeroed 4096) noCerts
  have hfile : out.store.file .clientKey = some (ascii "a\\nb") := hfiles .clientKey
  refine ⟨hpem, by decide +kernel, out, hout, hfile, fun hstored => ?_⟩
  have hgiven := hstored.stored .clientKey (by decide +kernel)
  rw [hfile] at hgiven
  exact absurd hgiven (by decide +kernel)

end Esp32Deskflow.Web
