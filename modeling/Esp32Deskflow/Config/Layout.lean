/-
  Config/Layout.lean --- the key table in force against the keyboard layout in the
  settings.

  The settings and the table are two variables.  A save sets both, and so does a load
  that opens the file, whatever it finds there; a load that returns early resets the
  settings alone.
-/
import Esp32Deskflow.Config.Load
import Esp32Deskflow.Foundation.Transition

set_option autoImplicit false

namespace Esp32Deskflow.Config

open Esp32Deskflow.Foundation Esp32Deskflow.Foundation.Transition Esp32Deskflow.Libc
  Esp32Deskflow.Tusb

/-! ## The calls -/

/-- A call that touches the settings, or a change of the USB stick between two calls. -/
inductive ConfigLabel where
  /-- `config_load`; `opens` is the answer of `fopen` if there is a file -/
  | load (opens : Bool)
  /-- `config_save` -/
  | save (cfg : DeskflowConfig) (io : SaveIo)
  /-- a stick is removed, plugged in or written elsewhere -/
  | stick (mounted : Bool) (settings : Option Bytes)

/-- One call. -/
def configStep (st : ConfigStore) : ConfigLabel → Option ConfigStore
  | .load opens => (configLoad opens st).map Prod.snd
  | .save cfg io => (configSave cfg io st).map Prod.snd
  | .stick mounted settings => some { st with mounted := mounted, settings := settings }

/-- `s_config` before any call: a static variable, all zero. -/
def zeroConfig : DeskflowConfig where
  server := ⟨[], by decide, by decide⟩
  port := 0
  deviceName := ⟨[], by decide, by decide⟩
  keepAwake := false
  jiggleInterval := 0
  screenWidth := 0
  screenHeight := 0
  scaling := 0
  keyboardLayout := 0
  vlanId := 0

/-- The state at boot, with whatever stick is there: `s_table` is `TABLE_US`. -/
def ConfigStore.boot (mounted : Bool) (settings : Option Bytes) : ConfigStore where
  mounted := mounted
  settings := settings
  sConfig := zeroConfig
  layout := .us

/-! ## The table follows the settings -/

/-- The table in force is the one of the layout in the settings. -/
def TableMatches (st : ConfigStore) : Prop :=
  (st.sConfig.keyboardLayout = 0 → st.layout.table = tableUs) ∧
    (st.sConfig.keyboardLayout = 1 → st.layout.table = tableDe)

/-- A load that returns before it opens the file finds the table of the defaults. -/
def FallsBackUnderUs (st : ConfigStore) : ConfigLabel → Prop
  | .load opens =>
      st.mounted = false ∨ opens = false ∨ st.settings = none → st.layout.table = tableUs
  | .save _ _ | .stick _ _ => True

/-- Setting the layout makes the table match. -/
theorem tableMatches_setLayout {st : ConfigStore} {current : KeyboardLayout}
    (h : st.layout = keycodesSetLayout current st.sConfig.keyboardLayout) : TableMatches st := by
  constructor
  · intro hlayout
    rw [h, hlayout]
    rfl
  · intro hlayout
    rw [h, hlayout]
    rfl

/-- After a fall back to the defaults the table matches exactly if it is that of the
defaults. -/
theorem tableMatches_defaults (st : ConfigStore) :
    TableMatches { st with sConfig := configDefaults } ↔ st.layout.table = tableUs := by
  have hne : configDefaults.keyboardLayout ≠ 1 := by decide
  exact ⟨fun h => h.1 rfl, fun h => ⟨fun _ => h, fun hde => absurd hde hne⟩⟩

/-- One call keeps the table right exactly if it is no early return under the other
table. -/
theorem tableMatches_step_iff {st st' : ConfigStore} {label : ConfigLabel}
    (hmatches : TableMatches st) (hstep : configStep st label = some st') :
    TableMatches st' ↔ FallsBackUnderUs st label := by
  cases label with
  | stick mounted settings =>
      cases hstep
      exact iff_of_true hmatches trivial
  | save cfg io =>
      refine iff_of_true ?_ trivial
      obtain ⟨⟨err, st''⟩, hsave, rfl⟩ := Option.map_eq_some_iff.mp hstep
      unfold configSave at hsave
      rw [settingsText_eq, Option.map_some] at hsave
      split_ifs at hsave
      · cases hsave
        exact hmatches
      · cases hsave
        exact hmatches
      · cases hsave
        exact tableMatches_setLayout rfl
  | load opens =>
      obtain ⟨⟨err, st''⟩, hload, rfl⟩ := Option.map_eq_some_iff.mp hstep
      rcases configLoad_cases opens st with
        ⟨text, hmounted, rfl, hsettings, hfile⟩ | ⟨hnone, hdefaults⟩
      · rw [hfile] at hload
        cases hload
        refine iff_of_true (tableMatches_setLayout rfl) ?_
        rintro (hfalse | hfalse | hfalse)
        · cases hfalse.symm.trans hmounted
        · cases hfalse
        · cases hfalse.symm.trans hsettings
      · rw [hdefaults] at hload
        cases hload
        exact (tableMatches_defaults st).trans
          ⟨fun hus _ => hus, fun himp => himp hnone⟩

/-- Every call returns. -/
theorem configStep_total (st : ConfigStore) (label : ConfigLabel) :
    ∃ st', configStep st label = some st' := by
  cases label with
  | stick mounted settings => exact ⟨_, rfl⟩
  | save cfg io =>
      obtain ⟨err, st', hsave⟩ := configSave_defined cfg io st
      exact ⟨st', by rw [configStep, hsave, Option.map_some]⟩
  | load opens =>
      rcases configLoad_cases opens st with ⟨text, -, -, -, hload⟩ | ⟨-, hload⟩
      · exact ⟨_, by rw [configStep, hload, Option.map_some]⟩
      · exact ⟨_, by rw [configStep, hload, Option.map_some]⟩

/-- In every sequence of calls from boot, the table matches the settings after each one
exactly if every load that does not open the file is made under the table of the
defaults. -/
theorem tableMatches_run_iff (mounted : Bool) (settings : Option Bytes)
    (labels : List ConfigLabel) :
    AllStates configStep TableMatches (.boot mounted settings) labels ↔
      AllSteps configStep FallsBackUnderUs (.boot mounted settings) labels := by
  obtain ⟨st, hrun⟩ := run_total configStep_total (.boot mounted settings) labels
  have hboot : TableMatches (.boot mounted settings) := @tableMatches_setLayout _ .us rfl
  have hiff : ∀ (s : ConfigStore) (label : ConfigLabel) (t : ConfigStore), True →
      TableMatches s → configStep s label = some t → (TableMatches t ↔ FallsBackUnderUs s label) :=
    fun _ _ _ _ hmatches hstep => tableMatches_step_iff hmatches hstep
  exact run_allStates_iff (fun _ _ _ _ _ => trivial) hiff trivial hboot hrun

/-- The defaults with the German keyboard. -/
def germanConfig : DeskflowConfig := { configDefaults with keyboardLayout := 1 }

/-- The German layout is saved, and a stick without a settings file is plugged in: the
settings say US and the table is German. -/
theorem not_tableMatches_otherStick :
    ∃ st, run configStep (.boot true none)
        [.save germanConfig ⟨true, 1000⟩, .stick true none, .load true] = some st ∧
      st.sConfig.keyboardLayout = 0 ∧ st.layout.table = tableDe ∧ ¬ TableMatches st := by
  have hrun : run configStep (.boot true none)
      [.save germanConfig ⟨true, 1000⟩, .stick true none, .load true] =
        some ⟨true, none, configDefaults, .de⟩ := by decide +kernel
  exact ⟨_, hrun, rfl, rfl, fun h => absurd (h.1 rfl) (by decide)⟩

end Esp32Deskflow.Config
