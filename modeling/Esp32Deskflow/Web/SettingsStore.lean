/-
  Web/SettingsStore.lean --- the settings from the page to the stick and back to the page.

  What the user of the settings page relies on is a store with two places: the settings
  in force, and those on the stick that a boot takes up.  The code keeps the first as a C
  structure and the second as a text, which may end too early; it reads what the page
  sends from JSON and shows the settings as JSON again.  Over any run of requests, boots,
  reloads and pulled sticks, the code shows what the abstract store shows.
-/
import Esp32Deskflow.Config.TornSave
import Esp32Deskflow.Foundation.Transition
import Esp32Deskflow.Web.SettingsGet

set_option autoImplicit false

namespace Esp32Deskflow.Web

open Esp32Deskflow.Foundation Esp32Deskflow.Foundation.Transition Esp32Deskflow.Libc
  Esp32Deskflow.Config Esp32Deskflow.Tusb

/-! ## What happens to the settings -/

/-- What the page, the device and the user do. -/
inductive StoreOp where
  /-- the page sends these settings, as an object with these members -/
  | post (cfg : DeskflowConfig) (ms : List JsonMember) (peers : WebPeers) (io : SaveIo)
  /-- the device boots -/
  | boot (opens : Bool)
  /-- `config_load` when a stick is plugged in -/
  | reload (opens : Bool)
  /-- the stick is mounted or pulled -/
  | setMounted (mounted : Bool)

/-- The store of `config.c`, and what the last request returned. -/
structure Settings where
  store : ConfigStore
  reply : EspErr
  deriving Repr

/-- One operation.  A boot finds `s_config` zeroed, and `config_load` sets every field of it. -/
def settingsStep (s : Settings) : StoreOp → Option Settings
  | .post _ ms peers io =>
      (settingsPostHandler peers io (.whole (objectBytes ms)) s.store).map fun out =>
        { store := out.store, reply := out.ret }
  | .boot opens =>
      (configLoad opens { s.store with layout := .us }).map fun r => { s with store := r.2 }
  | .reload opens => (configLoad opens s.store).map fun r => { s with store := r.2 }
  | .setMounted mounted => some { s with store := { s.store with mounted := mounted } }

/-- The store as the user sees it. -/
structure SavedSettings where
  mounted : Bool
  /-- the settings on the stick -/
  stick : Option DeskflowConfig
  /-- the settings in force -/
  current : DeskflowConfig
  reply : EspErr
  deriving DecidableEq, Repr

/-- The settings that a load takes up. -/
def SavedSettings.loaded (v : SavedSettings) (opens : Bool) : DeskflowConfig :=
  if v.mounted && opens then v.stick.getD configDefaults else configDefaults

/-- One operation on the store as the user sees it. -/
def savedStep (v : SavedSettings) : StoreOp → Option SavedSettings
  | .post cfg _ _ io =>
      if v.mounted && io.opens then
        some { v with
          stick := some (tornConfig cfg ((settingsPieces cfg).flatten.length - io.written))
          current := cfg
          reply := .ok }
      else some { v with reply := .fail }
  | .boot opens => some { v with current := v.loaded opens }
  | .reload opens => some { v with current := v.loaded opens }
  | .setMounted mounted => some { v with mounted := mounted }

/-- Settings that the page sends: what `JSON.stringify` gives is UTF-8, and neither text is
empty. -/
structure Keepable (cfg : DeskflowConfig) : Prop where
  sendable : Sendable cfg
  utf8 : Utf8Texts cfg
  server : cfg.server.bytes ≠ []
  deviceName : cfg.deviceName.bytes ≠ []

/-- The page sends its members in any order. -/
def GoodOp (_ : Settings) : StoreOp → Prop
  | .post cfg ms _ _ => Keepable cfg ∧ ms.Perm (settingsMembers cfg)
  | _ => True

/-! ## What the code stands for -/

/-- Texts that the file can hold and the page can show. -/
structure Readable (cfg : DeskflowConfig) : Prop where
  quoteFree : QuoteFree cfg
  noControl : NoControl cfg
  utf8 : Utf8Texts cfg

/-- A settings file gives these settings, and no file none. -/
structure StickShows (file : Option Bytes) (stick : Option DeskflowConfig) : Prop where
  present : file.isSome = stick.isSome
  read : ∀ text ∈ file, ∀ cfg ∈ stick, configOfScan (scanf loadPieces.flatten text) = cfg
  readable : ∀ cfg ∈ stick, Readable cfg

/-- The code is in a state that stands for this store. -/
structure Shows (s : Settings) (v : SavedSettings) : Prop where
  mounted : s.store.mounted = v.mounted
  stick : StickShows s.store.settings v.stick
  current : s.store.sConfig = v.current
  reply : s.reply = v.reply
  readable : Readable v.current

theorem noControl_defaults : NoControl configDefaults := by
  constructor
  · decide +kernel
  · decide +kernel

theorem utf8Texts_defaults : Utf8Texts configDefaults := by
  constructor
  · decide +kernel
  · decide +kernel

theorem readable_defaults : Readable configDefaults :=
  ⟨quoteFree_defaults, noControl_defaults, utf8Texts_defaults⟩

theorem Keepable.readable {cfg : DeskflowConfig} (h : Keepable cfg) : Readable cfg := by
  have hserver := h.sendable.server
  have hname := h.sendable.deviceName
  refine ⟨⟨⟨fun hq => ?_, fun hq => ?_⟩, fun hq => ?_, fun hq => ?_⟩,
    ⟨fun b hb => ?_, fun b hb => ?_⟩, h.utf8⟩
  · exact (hserver 34 hq).2.1 rfl
  · exact (hserver 92 hq).2.2 rfl
  · exact (hname 34 hq).2.1 rfl
  · exact (hname 92 hq).2.2 rfl
  · exact (hserver b hb).1
  · exact (hname b hb).1

theorem Keepable.storable {cfg : DeskflowConfig} (h : Keepable cfg) : Storable cfg where
  server := ⟨h.readable.quoteFree.server.1, h.server⟩
  deviceName := ⟨h.readable.quoteFree.deviceName.1, h.deviceName⟩

/-- What a cut leaves of readable settings is readable: the texts are kept or the defaults. -/
theorem Readable.torn {cfg : DeskflowConfig} (h : Readable cfg) (lost : Nat) :
    Readable (tornConfig cfg lost) := by
  unfold tornConfig
  split
  · exact ⟨⟨h.quoteFree.server, h.quoteFree.deviceName⟩, h.noControl, h.utf8⟩
  · exact readable_defaults

/-- A save leaves a file that gives what the cut left of the settings. -/
theorem Keepable.stickShows {cfg : DeskflowConfig} (h : Keepable cfg) (n : Nat) :
    StickShows (some ((settingsPieces cfg).flatten.take n))
      (some (tornConfig cfg ((settingsPieces cfg).flatten.length - n))) where
  present := rfl
  read := by
    intro text htext torn htorn
    cases htext
    cases htorn
    exact configOfScan_torn h.storable n
  readable := by
    intro torn htorn
    cases htorn
    exact h.readable.torn _

theorem SavedSettings.loaded_readable {v : SavedSettings}
    (hreadable : ∀ cfg ∈ v.stick, Readable cfg) (opens : Bool) : Readable (v.loaded opens) := by
  unfold SavedSettings.loaded
  split
  · cases hstick : v.stick with
    | none => exact readable_defaults
    | some cfg => exact hreadable cfg hstick
  · exact readable_defaults

/-! ## The operations -/

/-- A load takes up what the stick stands for. -/
theorem configLoad_loaded {st : ConfigStore} {v : SavedSettings} {opens : Bool}
    {r : EspErr × ConfigStore} (hmounted : st.mounted = v.mounted)
    (hstick : StickShows st.settings v.stick) (hload : configLoad opens st = some r) :
    ∃ layout, r.2 = { st with sConfig := v.loaded opens, layout := layout } := by
  unfold SavedSettings.loaded
  rw [← hmounted]
  by_cases htakes : st.mounted = true ∧ opens = true
  · obtain ⟨hthere, rfl⟩ := htakes
    rw [if_pos (by simp [hthere])]
    have hpresent := hstick.present
    cases hfile : st.settings with
    | none =>
        have hnone : v.stick = none := by simpa [hfile] using hpresent.symm
        unfold configLoad at hload
        rw [if_neg (by simp [hthere])] at hload
        simp only [hfile, Option.some.injEq] at hload
        subst hload
        exact ⟨st.layout, by rw [hnone]; rfl⟩
    | some text =>
        obtain ⟨cfg, hcfg⟩ := Option.isSome_iff_exists.mp (by rw [← hpresent, hfile]; rfl)
        rw [configLoad_settings hthere hfile, hstick.read text hfile cfg hcfg] at hload
        cases hload
        exact ⟨_, by rw [hcfg, hfile]; rfl⟩
  · rw [if_neg (by simpa using htakes)]
    unfold configLoad at hload
    split at hload
    · cases hload
      exact ⟨st.layout, rfl⟩
    · next hpulled =>
        have hclosed : opens = false := by
          simpa [Bool.eq_false_or_eq_true] using fun h => htakes ⟨by simpa using hpulled, h⟩
        simp only [hclosed, Option.some.injEq] at hload
        subst hload
        exact ⟨st.layout, rfl⟩

/-- The page's object is saved as `config_save` does it. -/
theorem settingsPostHandler_page {peers : WebPeers} {io : SaveIo} {st st' : ConfigStore}
    {cfg : DeskflowConfig} {ms : List JsonMember} {err : EspErr} (h : Sendable cfg)
    (hperm : ms.Perm (settingsMembers cfg)) (hsave : configSave cfg io st = some (err, st')) :
    ∃ out, settingsPostHandler peers io (.whole (objectBytes ms)) st = some out ∧
      out.store = st' ∧ out.ret = if err = .ok then .ok else .fail := by
  have hlen : (HttpRequest.whole (objectBytes ms)).contentLen ≤ 1023 := h.length_le hperm
  obtain ⟨b, bs, hbody⟩ : ∃ b bs, objectBytes ms = b :: bs := by
    cases ms with
    | nil => exact ⟨_, _, rfl⟩
    | cons m ms => exact ⟨_, _, rfl⟩
  obtain ⟨buf, hbuf, hcopied⟩ := write_zeroed (n := 1024) (Nat.lt_succ_of_le hlen)
  have hholds : Holds buf.bytes (objectBytes ms) :=
    (cString_eq_self (h.nul_not_mem hperm)) ▸ hcopied
  have hcfg := settingsOfBody_reads h hperm hholds st.sConfig
  have hreceived : (HttpRequest.whole (objectBytes ms)).received = some (b :: bs) :=
    congrArg some hbody
  rw [hbody] at hbuf
  rw [settingsPostHandler, if_neg (Nat.not_lt.mpr hlen), hreceived]
  simp only [hbuf, hcfg, hsave, Option.bind_eq_bind, Option.bind_some, Option.pure_def]
  by_cases hok : err = .ok
  · rw [if_neg (not_not_intro hok), if_pos hok]
    exact ⟨_, rfl, rfl, rfl⟩
  · rw [if_pos hok, if_neg hok]
    exact ⟨_, rfl, rfl, rfl⟩

theorem post_shows {s s' : Settings} {v : SavedSettings} {cfg : DeskflowConfig}
    {ms : List JsonMember} {peers : WebPeers} {io : SaveIo} (h : Shows s v)
    (hgood : GoodOp s (.post cfg ms peers io))
    (hstep : settingsStep s (.post cfg ms peers io) = some s') :
    ∃ v', savedStep v (.post cfg ms peers io) = some v' ∧ Shows s' v' := by
  obtain ⟨hkeepable, hperm⟩ := hgood
  obtain ⟨out, hout, rfl⟩ := Option.map_eq_some_iff.mp hstep
  have hfails : ∀ err, err ≠ EspErr.ok → configSave cfg io s.store = some (err, s.store) →
      Shows { store := out.store, reply := out.ret } { v with reply := .fail } := by
    intro err hne hsave
    obtain ⟨out', hout', hstore, hret⟩ := settingsPostHandler_page hkeepable.sendable hperm hsave
    rw [hout] at hout'
    cases hout'
    rw [if_neg hne] at hret
    refine ⟨?_, ?_, ?_, hret, h.readable⟩
    · rw [hstore]
      exact h.mounted
    · rw [hstore]
      exact h.stick
    · rw [hstore]
      exact h.current
  simp only [savedStep]
  by_cases hpulled : v.mounted = true
  · have hmounted : s.store.mounted = true := h.mounted.trans hpulled
    by_cases hopens : io.opens = true
    · have hsave : configSave cfg io s.store = some (.ok, { s.store with
          settings := some ((settingsPieces cfg).flatten.take io.written)
          sConfig := cfg
          layout := keycodesSetLayout s.store.layout cfg.keyboardLayout }) := by
        unfold configSave
        rw [if_neg (by simp [hmounted]), if_neg (by simp [hopens]), settingsText_eq,
          Option.map_some]
      obtain ⟨out', hout', hstore, hret⟩ := settingsPostHandler_page hkeepable.sendable hperm hsave
      rw [hout] at hout'
      cases hout'
      rw [if_pos (by simp [hpulled, hopens])]
      refine ⟨_, rfl, ?_, ?_, ?_, hret, hkeepable.readable⟩
      · rw [hstore]
        exact h.mounted
      · rw [hstore]
        exact hkeepable.stickShows io.written
      · rw [hstore]
    · have hclosed : io.opens = false := by simpa using hopens
      rw [if_neg (by simp [hclosed])]
      refine ⟨_, rfl, hfails .fail (by decide) ?_⟩
      unfold configSave
      rw [if_neg (by simp [hmounted]), if_pos hclosed]
  · have hpulled' : v.mounted = false := by simpa using hpulled
    rw [if_neg (by simp [hpulled'])]
    refine ⟨_, rfl, hfails .notFound (by decide) ?_⟩
    unfold configSave
    rw [if_pos (h.mounted.trans hpulled')]

theorem load_shows {s : Settings} {v : SavedSettings} {opens : Bool} {st : ConfigStore}
    {r : EspErr × ConfigStore} (h : Shows s v) (hmounted : st.mounted = s.store.mounted)
    (hsettings : st.settings = s.store.settings) (hload : configLoad opens st = some r) :
    Shows { s with store := r.2 } { v with current := v.loaded opens } := by
  obtain ⟨layout, hstore⟩ := configLoad_loaded (hmounted.trans h.mounted)
    (hsettings ▸ h.stick) hload
  refine ⟨?_, ?_, ?_, h.reply, SavedSettings.loaded_readable h.stick.readable opens⟩
  · rw [hstore]
    exact hmounted.trans h.mounted
  · rw [hstore]
    exact hsettings ▸ h.stick
  · rw [hstore]

/-- No operation reads or writes outside its buffers. -/
theorem settingsStep_defined (s : Settings) (op : StoreOp) : ∃ s', settingsStep s op = some s' := by
  have hloads : ∀ opens st, ∃ r, configLoad opens st = some r := by
    intro opens st
    unfold configLoad
    rw [parseScanf_loadFormat]
    split
    · exact ⟨_, rfl⟩
    · split <;> exact ⟨_, rfl⟩
  cases op with
  | post cfg ms peers io =>
      obtain ⟨out, hout⟩ :=
        settingsPostHandler_defined peers io s.store (.whole (objectBytes ms))
      exact ⟨_, by rw [settingsStep, hout, Option.map_some]⟩
  | boot opens =>
      obtain ⟨r, hload⟩ := hloads opens { s.store with layout := .us }
      exact ⟨_, by rw [settingsStep, hload, Option.map_some]⟩
  | reload opens =>
      obtain ⟨r, hload⟩ := hloads opens s.store
      exact ⟨_, by rw [settingsStep, hload, Option.map_some]⟩
  | setMounted mounted => exact ⟨_, rfl⟩

/-- Every good operation does to the code what it does to the abstract store. -/
theorem settingsStep_shows (s : Settings) (v : SavedSettings) (op : StoreOp) (h : Shows s v)
    (hgood : GoodOp s op) :
    ∃ s' v', settingsStep s op = some s' ∧ savedStep v op = some v' ∧ Shows s' v' := by
  obtain ⟨s', hstep⟩ := settingsStep_defined s op
  suffices hmatches : ∃ v', savedStep v op = some v' ∧ Shows s' v' by
    obtain ⟨v', hv', hshows⟩ := hmatches
    exact ⟨s', v', hstep, hv', hshows⟩
  cases op with
  | post cfg ms peers io => exact post_shows h hgood hstep
  | boot opens =>
      obtain ⟨r, hload, rfl⟩ := Option.map_eq_some_iff.mp hstep
      refine ⟨_, rfl, load_shows h ?_ ?_ hload⟩
      · rfl
      · rfl
  | reload opens =>
      obtain ⟨r, hload, rfl⟩ := Option.map_eq_some_iff.mp hstep
      exact ⟨_, rfl, load_shows h rfl rfl hload⟩
  | setMounted mounted =>
      cases hstep
      exact ⟨_, rfl, rfl, h.stick, h.current, h.reply, h.readable⟩

/-! ## Runs -/

/-- A device that was never configured, with an empty stick or none. -/
def Settings.fresh (mounted : Bool) (layout : KeyboardLayout) : Settings where
  store := { mounted := mounted, settings := none, sConfig := configDefaults, layout := layout }
  reply := .ok

/-- The same device, as the user sees it. -/
def SavedSettings.fresh (mounted : Bool) : SavedSettings where
  mounted := mounted
  stick := none
  current := configDefaults
  reply := .ok

theorem shows_fresh (mounted : Bool) (layout : KeyboardLayout) :
    Shows (.fresh mounted layout) (.fresh mounted) where
  mounted := rfl
  stick := ⟨rfl, fun _ h => (by cases h), fun _ h => (by cases h)⟩
  current := rfl
  reply := rfl
  readable := readable_defaults

/-- What `GET /api/settings` shows of the settings in force, if they fit the response: the reader
`readSettings` of compact JSON in UTF-8 gets them out of what is sent. -/
def PageShows (s : Settings) (cfg : DeskflowConfig) : Prop :=
  valuesLength cfg ≤ 110 → ∀ stack, ∃ out, settingsGetHandler stack s.store.sConfig = some out ∧
    out.sent.bind readSettings = some cfg

theorem Shows.pageShows {s : Settings} {v : SavedSettings} (h : Shows s v) :
    PageShows s v.current := by
  intro hfits stack
  obtain ⟨out, hout, -, -, hwhole, -⟩ := settingsGetHandler_eq stack v.current
  refine ⟨out, ?_, ?_⟩
  · rw [h.current]
    exact hout
  · rw [hwhole hfits, Option.bind_some]
    exact (readSettings_json h.readable.quoteFree).mpr ⟨h.readable.noControl, h.readable.utf8⟩

/-- Whatever is sent by the page, saved, refused, broken off, booted, reloaded and pulled: the
settings in force, the last answer and the page are those of the abstract store, in which a boot
with the stick gives back what the last save left there. -/
theorem settings_run_shows {mounted : Bool} {layout : KeyboardLayout} {ops : List StoreOp}
    (hgood : AllSteps settingsStep GoodOp (.fresh mounted layout) ops) :
    ∃ s v, run settingsStep (.fresh mounted layout) ops = some s ∧
      run savedStep (.fresh mounted) ops = some v ∧ s.store.sConfig = v.current ∧
      s.reply = v.reply ∧ PageShows s v.current := by
  obtain ⟨s, v, hrun, hsaved, hshows⟩ :=
    run_refines settingsStep_shows (shows_fresh mounted layout) hgood
  exact ⟨s, v, hrun, hsaved, hshows.current, hshows.reply, hshows.pageShows⟩

/-- Settings that differ from the defaults in a text, a choice and a signed number. -/
def officeConfig : DeskflowConfig :=
  { configDefaults with
    server := strncpy 64 serverSize_pos (ascii "10.0.0.2")
    keyboardLayout := 1
    vlanId := 7 }

theorem keepable_office : Keepable officeConfig where
  sendable := ⟨by decide +kernel, by decide +kernel, .inr (by decide)⟩
  utf8 := ⟨by decide +kernel, by decide +kernel⟩
  server := by decide +kernel
  deviceName := by decide +kernel

/-- The settings are sent with their members in the opposite order, the stick is pulled for one
boot, and the next boot takes them up again. -/
def officeRun : List StoreOp :=
  [.post officeConfig (settingsMembers officeConfig).reverse ⟨true, true⟩ ⟨true, 1000⟩,
    .setMounted false, .boot true, .setMounted true, .boot true]

theorem goodOps_office : AllSteps settingsStep GoodOp (.fresh true .us) officeRun :=
  ⟨⟨keepable_office, List.reverse_perm _⟩, fun _ _ => ⟨trivial, fun _ _ => ⟨trivial, fun _ _ =>
    ⟨trivial, fun _ _ => ⟨trivial, fun _ _ => trivial⟩⟩⟩⟩⟩

theorem settings_run_shows_office :
    ∃ s, run settingsStep (.fresh true .us) officeRun = some s ∧
      s.store.sConfig = officeConfig ∧ PageShows s officeConfig := by
  obtain ⟨s, v, hs, hv, hcurrent, -, hpage⟩ := settings_run_shows goodOps_office
  have hoffice : v.current = officeConfig := by
    have hsaved : (run savedStep (.fresh true) officeRun).map SavedSettings.current =
      some officeConfig := by decide +kernel
    rw [hv] at hsaved
    exact Option.some.inj hsaved
  exact ⟨s, hs, hcurrent.trans hoffice, hoffice ▸ hpage⟩

end Esp32Deskflow.Web
