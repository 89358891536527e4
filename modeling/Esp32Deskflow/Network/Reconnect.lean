/-
  Network/Reconnect.lean --- `reconnect.h` and `reconnect.c`: the retry counter and
  the backoff.

  An `int` is an integer; the value of `esp_random` is an argument.

  The product of `reconnect_delay` is computed before the cap: 1000 is 8 times 125, so
  that a shift by 29 leaves nothing of it in 32 bits.
-/
import Mathlib.Algebra.Group.Nat.Defs
import Mathlib.Data.Nat.Basic

set_option autoImplicit false

namespace Esp32Deskflow.Network

/-- `reconnect_t`. -/
structure Reconnect where
  maxRetries : Int
  baseDelayMs : UInt32
  maxDelayMs : UInt32
  jitterMs : UInt32
  retryCount : Int
  deriving DecidableEq, Repr

/-- `reconnect_init`: the structure after the call. -/
def reconnectInit : Reconnect where
  maxRetries := -1
  baseDelayMs := 1000
  maxDelayMs := 60000
  jitterMs := 5000
  retryCount := 0

/-- `reconnect_reset`. -/
def reconnectReset (rc : Reconnect) : Reconnect := { rc with retryCount := 0 }

/-- `reconnect_delay`: the delay in milliseconds and the structure after the call. -/
def reconnectDelay (rc : Reconnect) (random : UInt32) : UInt32 × Reconnect :=
  let shift : UInt8 := if 30 ≤ rc.retryCount then 30 else UInt8.ofInt rc.retryCount
  let delay := rc.baseDelayMs * (1 <<< shift.toUInt32)
  let delay := if rc.maxDelayMs < delay then rc.maxDelayMs else delay
  let delay := if 0 < rc.jitterMs then delay + random % rc.jitterMs else delay
  (delay, { rc with retryCount := rc.retryCount + 1 })

/-- `reconnect_should_retry`. -/
def reconnectShouldRetry (rc : Reconnect) : Bool :=
  rc.maxRetries < 0 || rc.retryCount < rc.maxRetries

/-! ## Calls in a row -/

/-- A call of `reconnect_init`, `reconnect_reset` or `reconnect_delay`. -/
inductive ReconnectCall where
  | init
  | reset
  | delay (random : UInt32)
  deriving DecidableEq, Repr

/-- The structure after a call. -/
def reconnectCall (rc : Reconnect) : ReconnectCall → Reconnect
  | .init => reconnectInit
  | .reset => reconnectReset rc
  | .delay random => (reconnectDelay rc random).2

/-- The structure after `reconnect_init` and then the given calls. -/
def afterCalls (calls : List ReconnectCall) : Reconnect := calls.foldl reconnectCall reconnectInit

/-- One call more, or none since the last `reconnect_init` or `reconnect_reset`. -/
def countDelay (n : Nat) : ReconnectCall → Nat
  | .init => 0
  | .reset => 0
  | .delay _ => n + 1

/-- The `reconnect_delay` calls since `reconnect_init` or the last `reconnect_reset`. -/
def delaysSince (calls : List ReconnectCall) : Nat := calls.foldl countDelay 0

/-- What the calls change is the retry counter. -/
theorem foldl_reconnectCall (calls : List ReconnectCall) (n : Nat) :
    calls.foldl reconnectCall { reconnectInit with retryCount := n } =
      { reconnectInit with retryCount := (calls.foldl countDelay n : Nat) } := by
  induction calls generalizing n with
  | nil => rfl
  | cons call calls ih =>
      cases call with
      | init => exact ih 0
      | reset => exact ih 0
      | delay random => exact ih (n + 1)

theorem afterCalls_eq (calls : List ReconnectCall) :
    afterCalls calls = { reconnectInit with retryCount := (delaysSince calls : Nat) } :=
  foldl_reconnectCall calls 0

/-! ## The delay without jitter -/

/-- The capped product for the retry counter `n`. -/
def backoff (n : Nat) : UInt32 :=
  let delay := (1000 : UInt32) * (1 <<< (UInt8.ofNat (min n 30)).toUInt32)
  if 60000 < delay then 60000 else delay

theorem reconnectDelay_eq (n : Nat) (random : UInt32) :
    (reconnectDelay { reconnectInit with retryCount := n } random).1 =
      backoff n + random % 5000 := by
  have hshift : (if (30 : Int) ≤ (n : Int) then (30 : UInt8) else UInt8.ofInt n) =
      UInt8.ofNat (min n 30) := by
    by_cases hn : 30 ≤ n
    · rw [if_pos (by omega), Nat.min_eq_right hn]
      rfl
    · rw [if_neg (by omega), Nat.min_eq_left (by omega)]
      exact congrArg UInt8.ofNat (by omega)
  have hjitter : (0 : UInt32) < 5000 := by decide
  simp only [reconnectDelay, reconnectInit, hshift, if_pos hjitter, backoff]

/-- Up to 28 retries the wrapped product is still on the right side of the cap. -/
theorem backoff_of_le {n : Nat} (hn : n ≤ 28) : (backoff n).toNat = min (1000 * 2 ^ n) 60000 := by
  have hall : ∀ m : Fin 29, (backoff m).toNat = min (1000 * 2 ^ m.val) 60000 := by decide
  exact hall ⟨n, by omega⟩

/-- From 29 retries on nothing is left of the product. -/
theorem backoff_of_ge {n : Nat} (hn : 29 ≤ n) : backoff n = 0 := by
  by_cases h30 : 30 ≤ n
  · rw [backoff, Nat.min_eq_right h30]
    rfl
  · obtain rfl : n = 29 := by omega
    rfl

theorem backoff_add_jitter_toNat (n : Nat) (random : UInt32) :
    (backoff n + random % 5000).toNat = (backoff n).toNat + random.toNat % 5000 := by
  have hcap : (backoff n).toNat ≤ 60000 := by
    by_cases hn : n ≤ 28
    · rw [backoff_of_le hn]
      exact Nat.min_le_right _ _
    · rw [backoff_of_ge (by omega)]
      exact Nat.zero_le _
  have hjitter : random.toNat % 5000 < 5000 := Nat.mod_lt _ (by decide)
  have hmod : (random % 5000).toNat = random.toNat % 5000 := UInt32.toNat_mod random 5000
  rw [UInt32.toNat_add, hmod]
  exact Nat.mod_eq_of_lt (by omega)

/-- Without jitter the delay grows with the retries, up to the 28th. -/
theorem backoff_mono {m n : Nat} (hmn : m ≤ n) (hn : n ≤ 28) :
    (backoff m).toNat ≤ (backoff n).toNat := by
  rw [backoff_of_le hn, backoff_of_le (le_trans hmn hn)]
  have hpow : 2 ^ m ≤ 2 ^ n := Nat.pow_le_pow_right (by decide) hmn
  omega

/-! ## Exponential up to the cap -/

/-- The delay that the next call returns. -/
def nextDelay (calls : List ReconnectCall) (random : UInt32) : UInt32 :=
  (reconnectDelay (afterCalls calls) random).1

/-- The next call returns the capped power of two with less than five seconds of jitter, and
with the same jitter no call with fewer retries behind it returns more. -/
structure ExponentialBackoff (calls : List ReconnectCall) : Prop where
  exact : ∀ random, ∃ j < 5000,
    (nextDelay calls random).toNat = min (1000 * 2 ^ delaysSince calls) 60000 + j
  mono : ∀ earlier, delaysSince earlier ≤ delaysSince calls →
    ∀ random, nextDelay earlier random ≤ nextDelay calls random

theorem nextDelay_toNat (calls : List ReconnectCall) (random : UInt32) :
    (nextDelay calls random).toNat = (backoff (delaysSince calls)).toNat + random.toNat % 5000 := by
  rw [nextDelay, afterCalls_eq, reconnectDelay_eq, backoff_add_jitter_toNat]

/-- The backoff is as documented exactly up to 28 calls without a reset. -/
theorem exponentialBackoff_iff (calls : List ReconnectCall)
    (hint : delaysSince calls < 2 ^ 31) :
    ExponentialBackoff calls ↔ delaysSince calls ≤ 28 := by
  constructor
  · intro h
    by_contra hn
    obtain ⟨j, hj, hdelay⟩ := h.exact 0
    rw [nextDelay_toNat, backoff_of_ge (by omega)] at hdelay
    have hpow : 2 ^ 29 ≤ 2 ^ delaysSince calls := Nat.pow_le_pow_right (by decide) (by omega)
    have hzero : (0 : UInt32).toNat = 0 := rfl
    omega
  · intro hn
    refine ⟨fun random => ⟨random.toNat % 5000, Nat.mod_lt _ (by decide), ?_⟩, ?_⟩
    · rw [nextDelay_toNat, backoff_of_le hn]
    · intro earlier hle random
      have hmono := backoff_mono hle hn
      rw [UInt32.le_iff_toNat_le, nextDelay_toNat, nextDelay_toNat]
      omega

theorem exponentialBackoff_iff_first :
    delaysSince [] < 2 ^ 31 ∧ (ExponentialBackoff [] ↔ delaysSince [] ≤ 28) :=
  ⟨by decide, exponentialBackoff_iff [] (by decide)⟩

/-- After 29 retries the next one waits for the jitter only. -/
theorem not_exponentialBackoff :
    ¬ ∀ calls, delaysSince calls < 2 ^ 31 → ExponentialBackoff calls := by
  intro hall
  obtain ⟨j, hj, hdelay⟩ := (hall (List.replicate 29 (.delay 0)) (by decide)).exact 0
  have hzero : nextDelay (List.replicate 29 (.delay 0)) 0 = 0 := by decide
  have hcount : delaysSince (List.replicate 29 (.delay 0)) = 29 := by decide
  rw [hzero, hcount] at hdelay
  have hnat : (0 : UInt32).toNat = 0 := rfl
  omega

end Esp32Deskflow.Network
