/-
  Config/Config.lean --- `config.h` and `config.c`: the settings and their file on
  the USB stick.

  The two format strings are those of the source, byte for byte, and are given to
  the C library's `fprintf` and `fscanf`.  A `none` is a run without a defined
  result; neither function has one.
-/
import Esp32Deskflow.Foundation.EspErr
import Esp32Deskflow.Libc.CStr
import Esp32Deskflow.Libc.Format
import Esp32Deskflow.Tusb.Keycodes

set_option autoImplicit false

namespace Esp32Deskflow.Config

open Esp32Deskflow.Foundation Esp32Deskflow.Libc Esp32Deskflow.Tusb

/-! ## The settings -/

/-- `deskflow_config_t`. -/
structure DeskflowConfig where
  server : CStr 64
  port : UInt16
  deviceName : CStr 32
  keepAwake : Bool
  jiggleInterval : UInt16
  screenWidth : UInt16
  screenHeight : UInt16
  scaling : UInt16
  keyboardLayout : UInt8
  vlanId : Int16
  deriving DecidableEq, Repr

/-- The arrays `server` and `device_name` are not empty. -/
theorem serverSize_pos : 0 < 64 := by decide

theorem deviceNameSize_pos : 0 < 32 := by decide

/-- `config_load_defaults`: the settings without a readable file. -/
def configDefaults : DeskflowConfig where
  server := strncpy 64 (by decide) (ascii "192.168.1.10")
  port := 24800
  deviceName := strncpy 32 (by decide) (ascii "deskflow-client")
  keepAwake := false
  jiggleInterval := 30
  screenWidth := 1920
  screenHeight := 1080
  scaling := 100
  keyboardLayout := 0
  vlanId := -1

/-- What `config.c` reads and writes: the USB stick with the file
`/usb0/settings.json`, the variable `s_config` and the keyboard layout in force. -/
structure ConfigStore where
  mounted : Bool
  settings : Option Bytes
  sConfig : DeskflowConfig
  layout : KeyboardLayout
  deriving DecidableEq, Repr

/-! ## Saving -/

/-- The format string of `config_save`. -/
def saveFormat : Bytes :=
  ascii "\x7b \"server\": \"%s\",\n" ++
  ascii " \"port\": %u,\n" ++
  ascii " \"device_name\": \"%s\",\n" ++
  ascii " \"screen_width\": %u,\n" ++
  ascii " \"screen_height\": %u,\n" ++
  ascii " \"scaling\": %u,\n" ++
  ascii " \"jiggle_interval\": %u,\n" ++
  ascii " \"keep_awake\": %s,\n" ++
  ascii " \"keyboard_layout\": %u,\n" ++
  ascii " \"vlan_id\": %d\x7d"

/-- The text that `config_save` prints. -/
def settingsText (cfg : DeskflowConfig) : Option Bytes :=
  (parsePrintf saveFormat).bind fun directives =>
    printf directives
      [.str cfg.server.bytes, .num cfg.port.toNat, .str cfg.deviceName.bytes,
        .num cfg.screenWidth.toNat, .num cfg.screenHeight.toNat, .num cfg.scaling.toNat,
        .num cfg.jiggleInterval.toNat,
        .str (if cfg.keepAwake then ascii "true" else ascii "false"),
        .num cfg.keyboardLayout.toNat, .num cfg.vlanId.toInt]

/-- What the file system does during a save: whether the file can be opened, and how
many bytes of the text reach it.  The code ignores the results of `fprintf`, `fflush`,
`fsync` and `fclose`. -/
structure SaveIo where
  opens : Bool
  written : Nat
  deriving DecidableEq, Repr

/-- `config_save`. -/
def configSave (cfg : DeskflowConfig) (io : SaveIo) (st : ConfigStore) :
    Option (EspErr × ConfigStore) :=
  if st.mounted = false then some (.notFound, st)
  else if io.opens = false then some (.fail, st)
  else
    (settingsText cfg).map fun text =>
      (.ok, { st with
        settings := some (text.take io.written)
        sConfig := cfg
        layout := keycodesSetLayout st.layout cfg.keyboardLayout })

/-! ## Loading -/

/-- The format string of `config_load`. -/
def loadFormat : Bytes :=
  ascii "\x7b \"server\": \"%63[^\"]\",\n" ++
  ascii " \"port\": %d,\n" ++
  ascii " \"device_name\": \"%31[^\"]\",\n" ++
  ascii " \"screen_width\": %d,\n" ++
  ascii " \"screen_height\": %d,\n" ++
  ascii " \"scaling\": %d,\n" ++
  ascii " \"jiggle_interval\": %d,\n" ++
  ascii " \"keep_awake\": %7[^,\n],\n" ++
  ascii " \"keyboard_layout\": %d,\n" ++
  ascii " \"vlan_id\": %d\x7d"

/-- The settings read from a file: the defaults unless all ten values were assigned. -/
def configOfScan (values : List ScanValue) : DeskflowConfig :=
  match values with
  | [.str server, .int port, .str deviceName, .int sw, .int sh, .int sc, .int ji,
      .str keepStr, .int kl, .int vid] =>
      { configDefaults with
        server := strncpy 64 (by decide) server
        port := UInt16.ofInt port
        deviceName := strncpy 32 (by decide) deviceName
        screenWidth := UInt16.ofInt sw
        screenHeight := UInt16.ofInt sh
        scaling := UInt16.ofInt sc
        jiggleInterval := UInt16.ofInt ji
        keepAwake := cString keepStr == ascii "true"
        keyboardLayout := UInt8.ofInt kl
        vlanId := Int16.ofInt vid }
  | _ => configDefaults

/-- `config_load`; `opens` says whether `fopen` succeeds on an existing file.  Without a
file the keyboard layout stays as it was. -/
def configLoad (opens : Bool) (st : ConfigStore) : Option (EspErr × ConfigStore) :=
  if st.mounted = false then some (.ok, { st with sConfig := configDefaults })
  else
    match opens, st.settings with
    | true, some text =>
        (parseScanf .plain loadFormat).map fun directives =>
          let cfg := configOfScan (scanf directives text)
          (.ok, { st with
            sConfig := cfg
            layout := keycodesSetLayout st.layout cfg.keyboardLayout })
    | _, _ => some (.ok, { st with sConfig := configDefaults })

end Esp32Deskflow.Config
