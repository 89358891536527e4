/-
  Web/LogRedirect.lean --- `esp_log_ws_redirect` of `main.c`: a log line on its way into the
  ring of the log stream.

  The line is printed into 256 bytes, and as many bytes are pushed as the whole line has.  How
  many of them are read is decided by `web_log_push`, which stops where the ring is full.
-/
import Esp32Deskflow.Libc.CStr
import Esp32Deskflow.Web.LogRing
import Mathlib.Algebra.Group.Nat.Defs

set_option autoImplicit false

namespace Esp32Deskflow.Web

open Esp32Deskflow.Foundation Esp32Deskflow.Foundation.Transition Esp32Deskflow.Libc

/-! ## The redirection -/

/-- What `vsnprintf` returns: the length of the whole text, if it is an `int`. -/
def vsnprintfLength (text : Bytes) : Int := if text.length < 2 ^ 31 then text.length else -1

/-- What `n` bytes of memory hold from the start of an array on; `behind` is what lies behind
it. -/
def memoryFrom (array : Bytes) (behind : Nat → UInt8) (n : Nat) : Bytes :=
  array.take n ++ (List.range (n - array.length)).map behind

/-- The stack of a call: what `buf` holds before, and what lies behind it. -/
structure RedirectStack where
  buf : Buffer 256
  behind : Nat → UInt8

/-- The `vprintf` that was there before: its result, or a null pointer, and the level of the pin
that switches it on. -/
structure OrigVprintf where
  result : Option Int
  level : Bool
  deriving DecidableEq, Repr

/-- The lines of `esp_log_ws_redirect` for a connected log client, with the results of the frames
of the drain; `none`: `vsnprintf` writes out of the array. -/
def forwardLine (stack : RedirectStack) (s : LogStream) (text : Bytes) (first second : EspErr) :
    Option LogStream :=
  (snprintf stack.buf text).map fun buf =>
    let len := vsnprintfLength text
    if 0 < len then webLogPush s (memoryFrom buf.bytes stack.behind len.toNat) first second else s

/-- `esp_log_ws_redirect` of a line whose text is `text`: the return value, and the log stream. -/
def espLogWsRedirect (orig : OrigVprintf) (stack : RedirectStack) (s : LogStream) (text : Bytes)
    (first second : EspErr) : Option (Int × LogStream) :=
  let r :=
    match orig.result with
    | some r => if orig.level then r else 0
    | none => 0
  (if s.connected then forwardLine stack s text first second else some s).map fun t => (r, t)

/-! ## What is stored -/

/-- The bytes that the ring has room for. -/
def LogStream.room (s : LogStream) : Nat := logRingBufSize - 1 - s.pending.length

/-- The call stores the text, or the first 255 bytes of a longer one, cut only where the ring is
full. -/
def Forwards (orig : OrigVprintf) (stack : RedirectStack) (s : LogStream) (text : Bytes)
    (first second : EspErr) : Prop :=
  ∃ r t, espLogWsRedirect orig stack s text first second = some (r, t) ∧
    t.stored = s.stored ++ (text.take 255).take s.room

/-- The text fits the array, or the ring is full before the 255 bytes of text in it have been
stored; a text whose length is not an `int` is not pushed, which only a full ring hides. -/
def EndsInText (s : LogStream) (text : Bytes) : Prop :=
  text.length ≤ 255 ∨ s.room = 0 ∨ s.room ≤ 255 ∧ text.length < 2 ^ 31

instance (s : LogStream) (text : Bytes) : Decidable (EndsInText s text) :=
  inferInstanceAs (Decidable (_ ∨ _ ∨ _ ∧ _))

section

variable {s : LogStream} {r : Ring UInt8 logRingBufSize} {text : Bytes}

/-- `vsnprintf` never fails, and the array starts with the text up to its 255th byte. -/
theorem snprintf_text (buf : Buffer 256) (text : Bytes) :
    ∃ out, snprintf buf text = some out ∧
      out.bytes.take (min text.length 255) = text.take 255 := by
  obtain ⟨out, hout⟩ : ∃ out, buf.write 0 (text.take 255 ++ [0]) = some out := by
    refine buf.exists_write ?_
    rw [List.length_append, List.length_take, List.length_singleton]
    omega
  refine ⟨out, hout, ?_⟩
  rw [Buffer.write_eq_some hout, List.take_zero, List.nil_append, List.append_assoc]
  refine List.take_left' ?_
  rw [List.length_take, Nat.min_comm]

theorem length_memoryFrom (array : Bytes) (behind : Nat → UInt8) (n : Nat) :
    (memoryFrom array behind n).length = n := by
  rw [memoryFrom, List.length_append, List.length_take, List.length_map, List.length_range]
  omega

theorem take_memoryFrom {array : Bytes} (behind : Nat → UInt8) {n k : Nat} (hk : k ≤ n)
    (harray : k ≤ array.length) : (memoryFrom array behind n).take k = array.take k := by
  have hle : k ≤ (array.take n).length := by
    rw [List.length_take]
    omega
  rw [memoryFrom, List.take_append_of_le_length hle, List.take_take, Nat.min_eq_left hk]

/-- A push stores as many bytes of the memory as the ring has room for. -/
theorem webLogPush_stored (h : s.Shows r) (hconn : s.connected = true) (data : Bytes)
    (first second : EspErr) :
    (webLogPush s data first second).stored = s.stored ++ data.take s.room := by
  obtain ⟨t, ht, _, _, hstored, _⟩ := logCall_spec h hconn (.push data first second)
  obtain rfl := Option.some.inj ht
  exact hstored

/-- What is stored of a text whose length is an `int`: as many bytes of the memory as it has. -/
theorem forwardLine_stored (h : s.Shows r) (hconn : s.connected = true)
    (hlen : text.length < 2 ^ 31) (stack : RedirectStack) (first second : EspErr) :
    ∃ (out : Buffer 256) (t : LogStream), out.bytes.take (min text.length 255) = text.take 255 ∧
      forwardLine stack s text first second = some t ∧
      t.stored = s.stored ++ (memoryFrom out.bytes stack.behind text.length).take s.room := by
  obtain ⟨out, hout, htext⟩ := snprintf_text stack.buf text
  have hreturned : vsnprintfLength text = text.length := if_pos hlen
  refine ⟨out, _, htext, by rw [forwardLine, hout, Option.map_some], ?_⟩
  simp only [hreturned, Int.toNat_natCast]
  by_cases hpos : (0 : Int) < text.length
  · rw [if_pos hpos]
    exact webLogPush_stored h hconn _ first second
  · have hzero : text.length = 0 := by omega
    rw [if_neg hpos, hzero, memoryFrom, List.take_zero, Nat.zero_sub, List.range_zero,
      List.map_nil, List.append_nil, List.take_nil, List.append_nil]

/-- A text that is too long for an `int` is not pushed. -/
theorem forwardLine_huge (hlen : 2 ^ 31 ≤ text.length) (stack : RedirectStack)
    (first second : EspErr) : forwardLine stack s text first second = some s := by
  obtain ⟨out, hout, _⟩ := snprintf_text stack.buf text
  have hreturned : vsnprintfLength text = -1 := if_neg (Nat.not_lt.mpr hlen)
  rw [forwardLine, hout, Option.map_some, hreturned]
  exact congrArg some (if_neg (by decide))

theorem forwards_iff_forwardLine (hconn : s.connected = true) (orig : OrigVprintf)
    (stack : RedirectStack) (first second : EspErr) :
    Forwards orig stack s text first second ↔
      ∃ t, forwardLine stack s text first second = some t ∧
        t.stored = s.stored ++ (text.take 255).take s.room := by
  unfold Forwards espLogWsRedirect
  rw [if_pos hconn]
  constructor
  · rintro ⟨v, t, hcall, hstored⟩
    obtain ⟨t', ht', heq⟩ := Option.map_eq_some_iff.mp hcall
    obtain rfl := (Prod.mk.inj heq).2
    exact ⟨t', ht', hstored⟩
  · rintro ⟨t, ht, hstored⟩
    rw [ht]
    exact ⟨_, t, rfl, hstored⟩

/-- The bytes of the memory are those of the text as far as the ring takes them, unless the text
is longer than the array holds and the ring has room for more than that. -/
theorem take_memory_eq_iff {array : Bytes} (behind : Nat → UInt8)
    (htext : array.take (min text.length 255) = text.take 255)
    (harray : min text.length 255 ≤ array.length) (room : Nat) :
    (memoryFrom array behind text.length).take room = (text.take 255).take room ↔
      text.length ≤ 255 ∨ room ≤ 255 := by
  have hfront := take_memoryFrom behind (Nat.min_le_left text.length 255) harray
  rw [← htext, ← hfront, List.take_take, List.take_eq_take_iff, length_memoryFrom]
  omega

theorem forwards_iff_of_shows (h : s.Shows r) (hconn : s.connected = true) (orig : OrigVprintf)
    (stack : RedirectStack) (first second : EspErr) :
    Forwards orig stack s text first second ↔ EndsInText s text := by
  rw [forwards_iff_forwardLine hconn]
  by_cases hlen : text.length < 2 ^ 31
  · obtain ⟨out, t, htext, ht, hstored⟩ := forwardLine_stored h hconn hlen stack first second
    have harray : min text.length 255 ≤ out.bytes.length := by
      rw [out.size_eq]
      omega
    have hiff := take_memory_eq_iff stack.behind htext harray s.room
    have hends : EndsInText s text ↔ text.length ≤ 255 ∨ s.room ≤ 255 := by
      unfold EndsInText
      omega
    rw [hends, ← hiff]
    constructor
    · rintro ⟨t', ht', hforwards⟩
      obtain rfl := Option.some.inj (ht.symm.trans ht')
      exact List.append_cancel_left (hstored.symm.trans hforwards)
    · intro hsame
      exact ⟨t, ht, hstored.trans (congrArg (s.stored ++ ·) hsame)⟩
  · have hhuge := Nat.not_lt.mp hlen
    have hends : EndsInText s text ↔ s.room = 0 := by
      unfold EndsInText
      omega
    rw [hends, forwardLine_huge hhuge]
    have hcut : ((text.take 255).take s.room).length = min s.room 255 := by
      rw [List.length_take, List.length_take]
      omega
    constructor
    · rintro ⟨t, ht, hforwards⟩
      obtain rfl := Option.some.inj ht
      rw [List.self_eq_append_right.mp hforwards, List.length_nil] at hcut
      omega
    · intro hroom
      refine ⟨s, rfl, ?_⟩
      rw [hroom, List.take_zero, List.append_nil]

end

/-! ## Every log line -/

/-- After every past of the server, with a log client connected, a line is forwarded as its text
or the first 255 bytes of it if and only if it fits the array or the ring is full before its
end. -/
theorem redirect_forwards_iff {history : List LogEvent} {s : LogStream}
    (hrun : run logStep logBoot history = some s) (hconn : s.connected = true) (text : Bytes)
    (orig : OrigVprintf) (stack : RedirectStack) (first second : EspErr) :
    Forwards orig stack s text first second ↔ EndsInText s text := by
  obtain ⟨r, hr⟩ := run_invariant (fun _ _ _ => logStep_shows) logBoot_shows hrun
  exact forwards_iff_of_shows hr hconn orig stack first second

/-- A stack of zeros, and no `vprintf` to go on to. -/
def zeroStack : RedirectStack where
  buf := Buffer.zeroed 256
  behind := fun _ => 0

theorem redirect_forwards_iff_short :
    Forwards ⟨none, false⟩ zeroStack (logWsNewClient logBoot) (List.replicate 255 65) .ok .ok ↔
      EndsInText (logWsNewClient logBoot) (List.replicate 255 65) :=
  @redirect_forwards_iff [.newClient] _ rfl rfl _ _ _ _ _

/-- Of a line of 256 bytes the terminator is forwarded instead of the last one. -/
theorem not_forwards_long :
    run logStep logBoot [.newClient] = some (logWsNewClient logBoot) ∧
      ¬ Forwards ⟨none, false⟩ zeroStack (logWsNewClient logBoot) (List.replicate 256 65)
        .ok .ok := by
  obtain ⟨r, hr⟩ := logBoot_shows
  refine ⟨rfl, fun hforwards => ?_⟩
  have hends := (forwards_iff_of_shows hr.newClient rfl _ _ _ _).mp hforwards
  have hempty := hr.newClient.pending_eq.trans (Ring.contents_clear _)
  unfold EndsInText LogStream.room at hends
  rw [hempty, List.length_nil, List.length_replicate] at hends
  exact absurd hends (by decide)

end Esp32Deskflow.Web
