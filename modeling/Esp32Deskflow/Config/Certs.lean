/-
  Config/Certs.lean --- the certificate half of `config.c`: `_read_pem`,
  `config_load_certs` and `config_upload_cert`.

  An upload keeps the bytes as they came; loading strips the carriage returns, ends
  the text with a newline and counts the terminator in the length.  The two never
  leave the same credentials.
-/
import Esp32Deskflow.Foundation.Bytes
import Esp32Deskflow.Foundation.EspErr

set_option autoImplicit false

namespace Esp32Deskflow.Config

open Esp32Deskflow.Foundation

/-! ## The buffers and the files -/

/-- A certificate buffer in RAM, as `malloc` gave it, and the length kept with it. -/
structure RamCert where
  buf : Bytes
  len : Nat
  deriving DecidableEq, Repr

/-- What the TLS library is given. -/
def RamCert.content (c : RamCert) : Bytes := c.buf.take c.len

/-- The `type` argument of `config_upload_cert`. -/
inductive CertType where
  | ca
  | clientCert
  | clientKey
  deriving DecidableEq, Repr

/-- The `switch` over `type`. -/
def certType : Int → Option CertType
  | 0 => some .ca
  | 1 => some .clientCert
  | 2 => some .clientKey
  | _ => none

/-- The certificate files on the USB stick and the buffers in RAM. -/
structure CertStore where
  file : CertType → Option Bytes
  ram : CertType → Option RamCert

/-- What the calls outside of the module do: whether the stick is mounted, `fopen` and
`malloc` succeed, and the byte that `malloc` leaves behind the file's bytes. -/
structure CertIo where
  mounted : Bool
  fopenOk : Bool
  mallocOk : Bool
  fresh : UInt8
  deriving DecidableEq, Repr

/-! ## `_read_pem` -/

/-- The loop that strips carriage returns in place, from the index `i` on with `w` bytes
kept. -/
def stripCr : Nat → Nat → Nat → Bytes → Option (Bytes × Nat)
  | 0, _, w, b => some (b, w)
  | n + 1, i, w, b =>
      (load b i).bind fun c =>
        if c ≠ 13 then (store b w c).bind fun b => stripCr n (i + 1) (w + 1) b
        else stripCr n (i + 1) w b

/-- Whether the kept bytes lack a newline at their end. -/
def lacksNewline (b : Bytes) (w : Nat) : Option Bool :=
  if w = 0 then some true else (load b (w - 1)).map fun c => c ≠ 10

/-- `_read_pem` after `fread`: strip, end with a newline, terminate.  `fresh` is what stands behind
the bytes that `fread` returned, up to the end of the allocation. -/
def normalizePemRead (data fresh : Bytes) : Option RamCert :=
  (stripCr data.length 0 0 (data ++ fresh)).bind fun (b, w) =>
    (lacksNewline b w).bind fun lacks =>
      (if lacks then (store b w 10).map fun b => (b, w + 1) else some (b, w)).bind fun (b, w) =>
        (store b w 0).map fun b => { buf := b, len := w + 1 }

/-- The same when the file was read whole: one byte is left. -/
def normalizePem (data : Bytes) (fresh : UInt8) : Option RamCert := normalizePemRead data [fresh]

/-- `_read_pem`: `some none` is the result -1. -/
def readPem (io : CertIo) (file : Option Bytes) : Option (Option RamCert) :=
  match file with
  | none => some none
  | some data =>
      if io.fopenOk then
        if data = [] then some none
        else if io.mallocOk then (normalizePem data io.fresh).map some
        else some none
      else some none

/-! ## Loading and uploading -/

/-- `config_free_certs`. -/
def configFreeCerts (s : CertStore) : CertStore := { s with ram := fun _ => none }

/-- One of the three reads of `config_load_certs`: a failed one leaves the buffer empty. -/
def loadCert (io : CertIo) (type : CertType) (s : CertStore) : Option CertStore :=
  (readPem io (s.file type)).map fun cert =>
    { s with ram := fun type' => if type' = type then cert else s.ram type' }

/-- `config_load_certs`. -/
def configLoadCerts (io : CertIo) (s : CertStore) : Option (CertStore × EspErr) :=
  let s := configFreeCerts s
  if io.mounted then
    (loadCert io .ca s).bind fun s =>
      (loadCert io .clientCert s).bind fun s =>
        (loadCert io .clientKey s).map fun s =>
          if (s.ram .ca).isSome || (s.ram .clientCert).isSome || (s.ram .clientKey).isSome then
            (s, .ok)
          else (s, .notFound)
  else some (s, .notFound)

/-- `config_upload_cert`. -/
def configUploadCert (io : CertIo) (type : Int) (data : Bytes) (s : CertStore) :
    CertStore × EspErr :=
  match certType type with
  | none => (s, .invalidArg)
  | some type =>
      if io.mounted then
        if io.fopenOk then
          let s := { s with
            file := fun type' => if type' = type then some data else s.file type' }
          if io.mallocOk then
            let cert := { buf := data ++ [0], len := data.length }
            ({ s with ram := fun type' => if type' = type then some cert else s.ram type' }, .ok)
          else (s, .noMem)
        else (s, .fail)
      else (s, .notFound)

/-! ## What `_read_pem` leaves -/

/-- The bytes without carriage returns. -/
def withoutCr (data : Bytes) : Bytes := data.filter fun c => c ≠ 13

/-- The bytes with a newline at their end. -/
def withNewline (text : Bytes) : Bytes :=
  if text.getLast? = some 10 then text else text ++ [10]

/-- The text that `_read_pem` gives the PEM parser, without its terminator. -/
def pemText (data : Bytes) : Bytes := withNewline (withoutCr data)

/-- A kept byte goes behind the kept ones: over a stale byte, or over itself. -/
theorem store_kept (kept stale : Bytes) (c : UInt8) (rest : Bytes) :
    ∃ stale', stale'.length = stale.length ∧
      store (kept ++ (stale ++ c :: rest)) kept.length c =
        some (kept ++ [c] ++ (stale' ++ rest)) := by
  cases stale with
  | nil => exact ⟨[], rfl, by simp [store_append]⟩
  | cons s stale => exact ⟨stale ++ [c], by simp, by simp [store_append]⟩

/-- The kept bytes stand in front, in order; the write index never overtakes the read
index. -/
theorem stripCr_spec (todo slack : Bytes) {kept stale : Bytes} {i w : Nat}
    (hi : kept.length + stale.length = i) (hw : kept.length = w) :
    ∃ rest, stripCr todo.length i w (kept ++ (stale ++ (todo ++ slack))) =
        some (kept ++ withoutCr todo ++ rest, w + (withoutCr todo).length) ∧
      (kept ++ withoutCr todo ++ rest).length = i + todo.length + slack.length := by
  induction todo generalizing kept stale i w with
  | nil =>
      subst hi hw
      exact ⟨stale ++ slack, by simp [stripCr, withoutCr], by simp [withoutCr, Nat.add_assoc]⟩
  | cons c todo ih =>
      have hload : load (kept ++ (stale ++ (c :: todo ++ slack))) i = some c := by
        rw [← hi, load_append_right, ← Nat.add_zero stale.length, load_append_right]
        rfl
      rw [List.length_cons, stripCr, hload, Option.bind_some]
      by_cases hc : c = 13
      · -- the read index moves on alone, over one more stale byte
        have hi' : kept.length + (stale ++ [c]).length = i + 1 := by
          rw [List.length_append, List.length_singleton]
          omega
        have hkept : withoutCr (c :: todo) = withoutCr todo := by simp [withoutCr, hc]
        obtain ⟨rest, hrest, hlen⟩ := ih hi' hw
        rw [if_neg (not_not.mpr hc), hkept]
        refine ⟨rest, ?_, by omega⟩
        simpa using hrest
      · obtain ⟨stale', hstale, hstore⟩ := store_kept kept stale c (todo ++ slack)
        have hi' : (kept ++ [c]).length + stale'.length = i + 1 := by
          rw [List.length_append, List.length_singleton]
          omega
        have hw' : (kept ++ [c]).length = w + 1 := by
          rw [List.length_append, List.length_singleton, hw]
        have hkept : withoutCr (c :: todo) = c :: withoutCr todo := by simp [withoutCr, hc]
        obtain ⟨rest, hrest, hlen⟩ := ih hi' hw'
        rw [hw] at hstore
        rw [if_pos hc, List.cons_append, hstore, Option.bind_some, hkept]
        refine ⟨rest, ?_, ?_⟩
        · rw [hrest, List.append_assoc kept, List.singleton_append, List.length_cons]
          simp only [Nat.add_assoc, Nat.add_comm 1]
        · rw [List.append_assoc kept, List.singleton_append] at hlen
          omega

theorem lacksNewline_eq (text rest : Bytes) :
    lacksNewline (text ++ rest) text.length = some (decide (text.getLast? ≠ some 10)) := by
  rcases List.eq_nil_or_concat text with rfl | ⟨front, c, rfl⟩
  · rfl
  · rw [List.concat_eq_append, lacksNewline, if_neg (by simp)]
    have hload : load (front ++ [c] ++ rest) ((front ++ [c]).length - 1) = some c := by
      rw [List.length_append, List.length_singleton, Nat.add_sub_cancel, List.append_assoc,
        ← Nat.add_zero front.length, load_append_right]
      rfl
    rw [hload, Option.map_some, List.getLast?_append]
    simp

/-- A terminated text in a region of memory, with the length that counts the terminator. -/
theorem content_terminated (text rest : Bytes) :
    RamCert.content { buf := text ++ 0 :: rest, len := text.length + 1 } = text ++ [0] := by
  rw [RamCert.content, List.append_cons, ← List.length_singleton (a := (0 : UInt8)),
    ← List.length_append, List.take_left]

/-- The buffer that `_read_pem` leaves holds the terminated text.  It has no room for the
terminator if the file was read whole, nothing was stripped and a newline had to be added. -/
theorem normalizePemRead_cases (data : Bytes) {fresh : Bytes} (hfresh : fresh ≠ []) :
    (normalizePemRead data fresh = none ∧
      fresh.length = 1 ∧ withoutCr data = data ∧ data.getLast? ≠ some 10) ∨
    (∃ cert, normalizePemRead data fresh = some cert ∧
      cert.len = (pemText data).length + 1 ∧ cert.content = pemText data ++ [0]) ∧
      ¬ (fresh.length = 1 ∧ withoutCr data = data ∧ data.getLast? ≠ some 10) := by
  obtain ⟨rest, hstrip, hlen⟩ := @stripCr_spec data fresh [] [] 0 0 rfl rfl
  have hle : (withoutCr data).length ≤ data.length := List.length_filter_le _ _
  have hpos : 0 < fresh.length := List.length_pos_of_ne_nil hfresh
  rw [List.nil_append, List.length_append, Nat.zero_add] at hlen
  rw [List.nil_append, List.nil_append, List.nil_append, Nat.zero_add] at hstrip
  cases rest with
  | nil =>
      rw [List.length_nil] at hlen
      omega
  | cons r rest =>
      rw [List.length_cons] at hlen
      unfold normalizePemRead pemText withNewline
      rw [hstrip, Option.bind_some]
      simp only [lacksNewline_eq, Option.bind_some]
      by_cases hline : (withoutCr data).getLast? = some 10
      · rw [if_pos hline, if_neg (by simpa using hline), Option.bind_some, store_append,
          Option.map_some]
        refine .inr ⟨⟨_, rfl, rfl, content_terminated _ _⟩, ?_⟩
        rintro ⟨-, hsame, hlast⟩
        exact hlast (hsame ▸ hline)
      · rw [if_neg hline, if_pos (by simpa using hline), store_append, Option.map_some,
          Option.bind_some, List.append_cons]
        have hcount : (withoutCr data).length + 1 = (withoutCr data ++ [10]).length := by
          rw [List.length_append, List.length_singleton]
        simp only [hcount]
        cases rest with
        | nil =>
            -- nothing was stripped: the newline has taken the place of the terminator
            rw [List.length_nil] at hlen
            have hsame : withoutCr data = data :=
              List.Sublist.eq_of_length List.filter_sublist (by omega)
            rw [List.append_nil, store, if_neg (Nat.lt_irrefl _), Option.map_none]
            exact .inl ⟨rfl, by omega, hsame, hsame ▸ hline⟩
        | cons r' rest =>
            rw [store_append, Option.map_some]
            refine .inr ⟨⟨_, rfl, rfl, content_terminated _ _⟩, ?_⟩
            rintro ⟨hone, hsame, -⟩
            rw [List.length_cons, hsame] at hlen
            omega

/-- A file that is read whole. -/
theorem normalizePem_spec (data : Bytes) (fresh : UInt8) :
    match normalizePem data fresh with
    | some cert => cert.len = (pemText data).length + 1 ∧ cert.content = pemText data ++ [0]
    | none => withoutCr data = data ∧ data.getLast? ≠ some 10 := by
  rw [normalizePem]
  rcases normalizePemRead_cases data (List.cons_ne_nil fresh []) with
    ⟨hnone, -, hsame, hlast⟩ | ⟨⟨cert, hcert, hlen, hcontent⟩, -⟩
  · rw [hnone]
    exact ⟨hsame, hlast⟩
  · rw [hcert]
    exact ⟨hlen, hcontent⟩

/-- Nothing is stripped from bytes without carriage returns. -/
theorem withoutCr_eq_iff (data : Bytes) : withoutCr data = data ↔ 13 ∉ data := by
  rw [withoutCr, List.filter_eq_self]
  constructor
  · intro h hcr
    simpa using h 13 hcr
  · intro h c hc
    rw [decide_eq_true_eq]
    rintro rfl
    exact h hc

/-- For every file and every number of bytes that `fread` returns: `_read_pem` stays inside of its
allocation, and leaves the bytes read without carriage returns, with a newline at the end
and a terminator, all counted in the length, if and only if the file was not read whole,
has a carriage return or ends with a newline. -/
theorem normalizePemRead_iff {file fresh : Bytes} {r : Nat} (hr : r ≤ file.length)
    (hfresh : (file.take r).length + fresh.length = file.length + 1) :
    (∃ cert, normalizePemRead (file.take r) fresh = some cert ∧
      cert.content = withNewline (withoutCr (file.take r)) ++ [0] ∧
      cert.len = cert.content.length) ↔
      r ≠ file.length ∨ 13 ∈ file ∨ file.getLast? = some 10 := by
  have hne : fresh ≠ [] := by
    rintro rfl
    rw [List.length_take, List.length_nil] at hfresh
    omega
  rw [List.length_take, Nat.min_eq_left hr] at hfresh
  rcases normalizePemRead_cases (file.take r) hne with
    ⟨hnone, hone, hsame, hlast⟩ | ⟨⟨cert, hcert, hlen, hcontent⟩, hroom⟩
  · have hwhole : r = file.length := by omega
    rw [withoutCr_eq_iff] at hsame
    subst hwhole
    rw [List.take_length] at hsame hlast
    refine iff_of_false ?_ ?_
    · rintro ⟨cert, hcert, -⟩
      rw [hnone] at hcert
      cases hcert
    · rintro (hfalse | hcr | hline)
      · exact hfalse rfl
      · exact hsame hcr
      · exact hlast hline
  · refine iff_of_true ⟨cert, hcert, hcontent, ?_⟩ ?_
    · rw [hlen, hcontent, List.length_append, List.length_singleton]
    · by_contra hnot
      rw [not_or, not_or, not_not] at hnot
      obtain ⟨hwhole, hcr, hline⟩ := hnot
      subst hwhole
      rw [List.take_length] at hroom
      exact hroom ⟨by omega, (withoutCr_eq_iff file).mpr hcr, hline⟩

/-- A file of two lines, of which `fread` returns all but the last byte. -/
theorem normalizePemRead_iff_short :
    (∃ cert, normalizePemRead ((ascii "A\nB").take 2) [0, 0] = some cert ∧
      cert.content = withNewline (withoutCr ((ascii "A\nB").take 2)) ++ [0] ∧
      cert.len = cert.content.length) ↔
      2 ≠ (ascii "A\nB").length ∨ 13 ∈ ascii "A\nB" ∨ (ascii "A\nB").getLast? = some 10 :=
  normalizePemRead_iff (by decide) (by decide)

/-- A file with neither a carriage return nor a newline at its end: the terminator is written behind
the allocation. -/
theorem not_normalizePemRead_line :
    store (ascii "A" ++ [10]) 2 0 = none ∧
      ¬ ∃ cert, normalizePemRead ((ascii "A").take 1) [0] = some cert ∧
        cert.content = withNewline (withoutCr ((ascii "A").take 1)) ++ [0] ∧
        cert.len = cert.content.length := by
  refine ⟨by decide, ?_⟩
  rintro ⟨cert, hcert, -⟩
  have hnone : normalizePemRead ((ascii "A").take 1) [0] = none := by decide
  rw [hnone] at hcert
  cases hcert

/-! ## Uploading and loading -/

/-- The stick is mounted, and files and memory can be had. -/
def CertIo.Works (io : CertIo) : Prop :=
  io.mounted = true ∧ io.fopenOk = true ∧ io.mallocOk = true

/-- The two stores hold the same bytes and the same length for a certificate. -/
def SameCredentials (s t : CertStore) (type : CertType) : Prop :=
  ∃ a b, s.ram type = some a ∧ t.ram type = some b ∧ a.len = b.len ∧ a.content = b.content

variable {io : CertIo} {s t : CertStore}

theorem configUploadCert_spec (hio : io.Works) {type : Int} {ty : CertType}
    (htype : certType type = some ty) (data : Bytes) (s : CertStore) :
    ∃ t, configUploadCert io type data s = (t, .ok) ∧ t.file ty = some data ∧
      t.ram ty = some { buf := data ++ [0], len := data.length } := by
  obtain ⟨hmounted, hfopen, hmalloc⟩ := hio
  unfold configUploadCert
  simp only [htype, hmounted, hfopen, hmalloc, if_true]
  exact ⟨_, rfl, if_pos rfl, if_pos rfl⟩

/-- An upload writes its file and no other one. -/
theorem configUploadCert_file (hmounted : io.mounted = true) (hfopen : io.fopenOk = true)
    {type : Int} {ty : CertType} (htype : certType type = some ty) (data : Bytes) (st : CertStore)
    (type' : CertType) :
    (configUploadCert io type data st).1.file type' =
      if type' = ty then some data else st.file type' := by
  unfold configUploadCert
  simp only [htype, hmounted, hfopen, if_true]
  split <;> rfl

theorem loadCert_spec {type : CertType} (h : loadCert io type s = some t) :
    t.file = s.file ∧ readPem io (s.file type) = some (t.ram type) ∧
      ∀ type', type' ≠ type → t.ram type' = s.ram type' := by
  obtain ⟨cert, hcert, rfl⟩ := Option.map_eq_some_iff.mp h
  refine ⟨rfl, ?_, fun type' hne => if_neg hne⟩
  rw [hcert]
  exact congrArg some (if_pos rfl).symm

/-- After `config_load_certs` each buffer is what `_read_pem` made of its file. -/
theorem configLoadCerts_spec (hmounted : io.mounted = true) {r : EspErr}
    (h : configLoadCerts io s = some (t, r)) (type : CertType) :
    readPem io (s.file type) = some (t.ram type) := by
  unfold configLoadCerts at h
  rw [if_pos hmounted] at h
  obtain ⟨s₁, h₁, h⟩ := Option.bind_eq_some_iff.mp h
  obtain ⟨s₂, h₂, h⟩ := Option.bind_eq_some_iff.mp h
  obtain ⟨s₃, h₃, h⟩ := Option.map_eq_some_iff.mp h
  have ht : s₃ = t := by
    split at h
    · exact congrArg Prod.fst h
    · exact congrArg Prod.fst h
  obtain ⟨hfile₁, hram₁, hother₁⟩ := loadCert_spec h₁
  obtain ⟨hfile₂, hram₂, hother₂⟩ := loadCert_spec h₂
  obtain ⟨hfile₃, hram₃, hother₃⟩ := loadCert_spec h₃
  rw [hfile₁] at hram₂
  rw [hfile₂, hfile₁] at hram₃
  subst ht
  cases type with
  | ca => rw [hother₃ .ca nofun, hother₂ .ca nofun, ← hram₁]; rfl
  | clientCert => rw [hother₃ .clientCert nofun, ← hram₂]; rfl
  | clientKey => rw [← hram₃]; rfl

theorem readPem_of_works (hio : io.Works) {data : Bytes} (hne : data ≠ []) :
    readPem io (some data) = (normalizePem data io.fresh).map some := by
  unfold readPem
  simp only [hio.2.1, hio.2.2, if_true, if_neg hne]

/-- An upload leaves the bytes themselves, and a load of the file that it wrote leaves the
terminated text. -/
theorem upload_then_load {io' : CertIo} (hio : io.Works) (hio' : io'.Works) {type : Int}
    {ty : CertType} (htype : certType type = some ty) {data : Bytes} (hne : data ≠ [])
    (s : CertStore) {r : EspErr}
    (hload : configLoadCerts io' (configUploadCert io type data s).1 = some (t, r)) :
    ∃ up cert, (configUploadCert io type data s).1.ram ty = some up ∧ t.ram ty = some cert ∧
      up.content = data ∧ cert.content = pemText data ++ [0] := by
  obtain ⟨s', hup, hfile, hram⟩ := configUploadCert_spec hio htype data s
  rw [hup] at hload ⊢
  have hpem := configLoadCerts_spec hio'.1 hload ty
  rw [hfile, readPem_of_works hio' hne] at hpem
  obtain ⟨cert, hcert, htcert⟩ := Option.map_eq_some_iff.mp hpem
  have hspec := normalizePem_spec data io'.fresh
  rw [hcert] at hspec
  exact ⟨_, cert, hram, htcert.symm, List.take_left, hspec.2⟩

/-- An upload and a load of the same file never leave the same credentials: the loaded bytes
end with the terminator, the uploaded ones have none. -/
theorem upload_load_differ {io' : CertIo} (hio : io.Works) (hio' : io'.Works) {type : Int}
    {ty : CertType} (htype : certType type = some ty) {data : Bytes} (hne : data ≠ [])
    (hnul : (0 : UInt8) ∉ data) (s : CertStore) :
    (configUploadCert io type data s).2 = .ok ∧
      ¬ ∃ t r, configLoadCerts io' (configUploadCert io type data s).1 = some (t, r) ∧
        SameCredentials (configUploadCert io type data s).1 t ty := by
  refine ⟨?_, ?_⟩
  · obtain ⟨s', hup, _⟩ := configUploadCert_spec hio htype data s
    rw [hup]
  · rintro ⟨t, r, hload, a, b, ha, hb, _, hsame⟩
    obtain ⟨up, cert, hup, hcert, hdata, hpem⟩ := upload_then_load hio hio' htype hne s hload
    obtain rfl : up = a := Option.some.inj (hup.symm.trans ha)
    obtain rfl : cert = b := Option.some.inj (hcert.symm.trans hb)
    rw [hdata, hpem] at hsame
    apply hnul
    rw [hsame]
    simp

/-- A stick and a heap that work. -/
def certIoOk : CertIo where
  mounted := true
  fopenOk := true
  mallocOk := true
  fresh := 0

/-- No files, and nothing loaded. -/
def noCerts : CertStore where
  file _ := none
  ram _ := none

theorem upload_load_differ_line :
    (configUploadCert certIoOk 1 (ascii "A\n") noCerts).2 = .ok ∧
      ¬ ∃ t r, configLoadCerts certIoOk (configUploadCert certIoOk 1 (ascii "A\n") noCerts).1 =
          some (t, r) ∧
        SameCredentials (configUploadCert certIoOk 1 (ascii "A\n") noCerts).1 t .clientCert :=
  upload_load_differ ⟨rfl, rfl, rfl⟩ ⟨rfl, rfl, rfl⟩ rfl (by decide) (by decide) noCerts

/-- The upload of `A` and a newline counts two bytes, the load of the same file three. -/
theorem upload_load_lengths :
    ∃ t, configLoadCerts certIoOk (configUploadCert certIoOk 0 (ascii "A\n") noCerts).1 =
        some (t, .ok) ∧
      (configUploadCert certIoOk 0 (ascii "A\n") noCerts).1.ram .ca =
        some { buf := [65, 10, 0], len := 2 } ∧
      t.ram .ca = some { buf := [65, 10, 0], len := 3 } ∧
      ¬ SameCredentials (configUploadCert certIoOk 0 (ascii "A\n") noCerts).1 t .ca := by
  refine ⟨_, rfl, rfl, rfl, ?_⟩
  rintro ⟨a, b, ha, hb, hlen, _⟩
  obtain rfl := Option.some.inj ha
  obtain rfl := Option.some.inj hb
  exact absurd hlen (by decide)

end Esp32Deskflow.Config
