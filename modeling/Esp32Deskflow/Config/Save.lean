/-
  Config/Save.lean --- `config_save` with an outcome for each of its file calls.

  The text passes through a stream that may stop anywhere: `fprintf` may take only a
  part of it, and every call may bring only some of the waiting bytes to the file.
  Each call also has a return value, and the code looks at none but the one of `fopen`.
-/
import Esp32Deskflow.Config.RoundTrip

set_option autoImplicit false

namespace Esp32Deskflow.Config

open Esp32Deskflow.Foundation Esp32Deskflow.Libc Esp32Deskflow.Tusb

/-! ## The stream -/

/-- An output stream: the bytes in its file and those that still wait in a buffer of the
C library or of the file system. -/
structure OutStream where
  file : Bytes
  waiting : Bytes
  deriving DecidableEq, Repr

/-- How a call on the stream ends: its return value says whether it succeeded, and it
brings up to `moved` of the waiting bytes to the file. -/
structure CallOutcome where
  succeeds : Bool
  moved : Nat
  deriving DecidableEq, Repr

/-- A file that was opened for writing: what it held is gone. -/
def OutStream.opened : OutStream := ⟨[], []⟩

/-- The first `n` waiting bytes reach the file. -/
def OutStream.move (f : OutStream) (n : Nat) : OutStream where
  file := f.file ++ f.waiting.take n
  waiting := f.waiting.drop n

/-- `fprintf` of a text, of which it takes the first `taken` bytes. -/
def OutStream.fprintf (f : OutStream) (text : Bytes) (taken : Nat) (out : CallOutcome) :
    Bool × OutStream :=
  (out.succeeds, { f with waiting := f.waiting ++ text.take taken }.move out.moved)

/-- `fflush`, `fsync` and `fclose`. -/
def OutStream.flush (f : OutStream) (out : CallOutcome) : Bool × OutStream :=
  (out.succeeds, f.move out.moved)

/-- Two moves are one. -/
theorem OutStream.move_move (f : OutStream) (m n : Nat) :
    (f.move m).move n = f.move (m + n) := by
  simp only [OutStream.move, List.append_assoc, List.drop_drop, List.take_add]

/-! ## The save -/

/-- What the file system does during a save, call by call. -/
structure SaveCalls where
  fopen : Bool
  taken : Nat
  fprintf : CallOutcome
  fflush : CallOutcome
  fsync : CallOutcome
  fclose : CallOutcome
  deriving DecidableEq, Repr

/-- `config_save`, call by call. -/
def configSaveCalls (cfg : DeskflowConfig) (calls : SaveCalls) (st : ConfigStore) :
    Option (EspErr × ConfigStore) :=
  if st.mounted = false then some (.notFound, st)
  else if calls.fopen = false then some (.fail, st)
  else
    (settingsText cfg).map fun text =>
      let (_, f) := OutStream.opened.fprintf text calls.taken calls.fprintf
      let (_, f) := f.flush calls.fflush
      let (_, f) := f.flush calls.fsync
      let (_, f) := f.flush calls.fclose
      (.ok, { st with
        settings := some f.file
        sConfig := cfg
        layout := keycodesSetLayout st.layout cfg.keyboardLayout })

/-- How much of the text the calls bring to the file, of any text at least as long. -/
def SaveCalls.reached (calls : SaveCalls) : Nat :=
  min (calls.fprintf.moved + calls.fflush.moved + calls.fsync.moved + calls.fclose.moved)
    calls.taken

/-- The calls taken together. -/
def SaveCalls.io (calls : SaveCalls) : SaveIo := ⟨calls.fopen, calls.reached⟩

/-- All that the calls decide is whether the file opens and how much of the text reaches
it. -/
theorem configSaveCalls_eq (cfg : DeskflowConfig) (calls : SaveCalls) (st : ConfigStore) :
    configSaveCalls cfg calls st = configSave cfg calls.io st := by
  have hfile (text : Bytes) (n : Nat) : (OutStream.move ⟨[], text.take calls.taken⟩ n).file =
      text.take (min n calls.taken) := by
    rw [← List.take_take]
    rfl
  unfold configSaveCalls configSave
  simp only [SaveCalls.io, SaveCalls.reached, OutStream.fprintf, OutStream.flush,
    OutStream.move_move, OutStream.opened, List.nil_append, hfile]
  rfl

/-! ## What the result of a save says -/

/-- A caller may rely on the result: after `ESP_OK` the file holds the whole text and the
settings are in force, and after anything else both are as before. -/
def SaveReported (cfg : DeskflowConfig) (st : ConfigStore) (r : EspErr × ConfigStore) : Prop :=
  (r.1 = .ok →
    (∃ text, settingsText cfg = some text ∧ r.2.settings = some text) ∧ r.2.sConfig = cfg) ∧
  (r.1 ≠ .ok → r.2.settings = st.settings ∧ r.2.sConfig = st.sConfig)

/-- The result of a save can be relied on exactly if nothing was written at all or the
calls brought the whole text to the file: what they return makes no difference. -/
theorem configSaveCalls_reported_iff (cfg : DeskflowConfig) (calls : SaveCalls)
    (st : ConfigStore) :
    (∃ r, configSaveCalls cfg calls st = some r ∧ SaveReported cfg st r) ↔
      st.mounted = false ∨ calls.fopen = false ∨
        ∃ text, settingsText cfg = some text ∧ text.length ≤ calls.reached := by
  obtain ⟨text, htext⟩ : ∃ text, settingsText cfg = some text := ⟨_, settingsText_eq cfg⟩
  rw [configSaveCalls_eq]
  by_cases hmounted : st.mounted = false
  · have hsave : configSave cfg calls.io st = some (.notFound, st) := if_pos hmounted
    exact iff_of_true ⟨_, hsave, by simp [SaveReported]⟩ (.inl hmounted)
  · by_cases hopen : calls.fopen = false
    · have hsave : configSave cfg calls.io st = some (.fail, st) :=
        (if_neg hmounted).trans (if_pos hopen)
      exact iff_of_true ⟨_, hsave, by simp [SaveReported]⟩ (.inr (.inl hopen))
    · have hsave : configSave cfg calls.io st = _ := (if_neg hmounted).trans (if_neg hopen)
      rw [hsave, htext, Option.map_some]
      constructor
      · rintro ⟨r, hr, hok, -⟩
        cases hr
        obtain ⟨⟨text', htext', hfile⟩, -⟩ := hok rfl
        rw [htext] at htext'
        cases htext'
        have hwhole : text.length ≤ calls.reached :=
          (List.take_eq_self_iff text).mp (Option.some.inj hfile)
        exact .inr (.inr ⟨text, rfl, hwhole⟩)
      · rintro (hfalse | hfalse | ⟨text', heq, hwhole⟩)
        · exact absurd hfalse hmounted
        · exact absurd hfalse hopen
        · cases heq
          refine ⟨_, rfl, fun _ => ⟨⟨_, htext, ?_⟩, rfl⟩, fun hne => absurd rfl hne⟩
          exact congrArg some (List.take_of_length_le hwhole)

/-- A full stick: the text waits in the buffer, no byte of it reaches the file, and the
calls say so. -/
def fullStick : SaveCalls where
  fopen := true
  taken := 1000
  fprintf := ⟨true, 0⟩
  fflush := ⟨false, 0⟩
  fsync := ⟨false, 0⟩
  fclose := ⟨false, 0⟩

/-- The save reports success and leaves an empty file. -/
theorem configSaveCalls_fullStick :
    ∃ st', configSaveCalls unnamedConfig fullStick emptyStick = some (.ok, st') ∧
      st'.settings = some [] ∧ ¬ SaveReported unnamedConfig emptyStick (.ok, st') := by
  have hsave := configSaveCalls_eq unnamedConfig fullStick emptyStick
  have hempty : configSave unnamedConfig fullStick.io emptyStick = some (.ok, { emptyStick with
      settings := some []
      sConfig := unnamedConfig
      layout := keycodesSetLayout .us unnamedConfig.keyboardLayout }) := by
    decide +kernel
  rw [hempty] at hsave
  refine ⟨_, hsave, rfl, ?_⟩
  rintro ⟨hok, -⟩
  obtain ⟨⟨text, htext, hfile⟩, -⟩ := hok rfl
  rw [settingsText_eq] at htext
  cases htext
  exact absurd (congrArg (Option.map List.length) hfile) (by decide +kernel)

end Esp32Deskflow.Config
