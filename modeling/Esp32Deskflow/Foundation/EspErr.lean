/-
  Foundation/EspErr.lean --- the `esp_err_t` codes the firmware returns.
-/
import Mathlib.Init

set_option autoImplicit false

namespace Esp32Deskflow.Foundation

/-- The `esp_err_t` values that occur in the modelled functions. -/
inductive EspErr where
  | ok
  | fail
  | noMem
  | invalidArg
  | invalidState
  | invalidSize
  | notFound
  | timeout
  deriving DecidableEq, Repr, Inhabited

end Esp32Deskflow.Foundation
