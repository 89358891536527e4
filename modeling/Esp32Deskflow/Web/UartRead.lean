/-
  Web/UartRead.lean --- `uart_read_handler`: the bytes received by the UART as JSON.

  The response is printed piece by piece into an array of five bytes for each byte received
  and 32 more.  `n` counts what the pieces would need, as `snprintf` returns it, and the loop
  ends early if less than six bytes are left.
-/
import Esp32Deskflow.Foundation.EspErr
import Esp32Deskflow.Foundation.JsonNumbers
import Esp32Deskflow.Libc.CStr

set_option autoImplicit false

namespace Esp32Deskflow.Web

open Esp32Deskflow.Foundation Esp32Deskflow.Libc

/-! ## The handler -/

/-- `grove_uart_read`; `read` is what `uart_read_bytes` delivers of at most `len` bytes, `none` a
negative result. -/
def groveUartRead (len : Nat) (read : Option Bytes) : Bytes :=
  match read with
  | none => []
  | some bytes => bytes.take len

/-- `resp_size`. -/
def respSize (bytes : Bytes) : Nat := bytes.length * 5 + 32

/-- `resp` and `n`. -/
structure Response (size : Nat) where
  resp : Buffer size
  n : Nat
  deriving DecidableEq, Repr

/-- `n += snprintf(resp + n, resp_size - (size_t)n, ...)`, with the difference of two `size_t`. -/
def Response.print {size : Nat} (r : Response size) (text : Bytes) : Option (Response size) :=
  (snprintfAt r.resp r.n (UInt32.ofNat size - UInt32.ofNat r.n).toNat text).map fun resp =>
    ⟨resp, r.n + text.length⟩

/-- `"%s%d"` with `i ? "," : ""` and `buf[i]`. -/
def byteText (i : Nat) (b : UInt8) : Option Bytes :=
  (parsePrintf (ascii "%s%d")).bind fun directives =>
    printf directives [.str (if i = 0 then [] else ascii ","), .num b.toNat]

/-- The end of the response, with the number of bytes. -/
def countText (count : Nat) : Option Bytes :=
  (parsePrintf (ascii "],\"count\":%u\x7d")).bind fun directives =>
    printf directives [.num count]

/-- The loop, from the byte at `i`. -/
def printBytes {size : Nat} (r : Response size) (i : Nat) : Bytes → Option (Response size)
  | [] => some r
  | b :: bs =>
      if (r.n : Int) < (size : Int) - 6 then
        (byteText i b).bind fun text =>
          (r.print text).bind fun r => printBytes r (i + 1) bs
      else some r

/-- The opening, and the bytes. -/
def printOpened {size : Nat} (resp : Buffer size) (bytes : Bytes) : Option (Response size) :=
  (Response.print ⟨resp, 0⟩ (ascii "\x7b\"bytes\":[")).bind fun r => printBytes r 0 bytes

/-- The bytes that `httpd_resp_send` gets; `none` if it, or a piece, reaches out of the array. -/
def uartReadText (bytes : Bytes) (resp : Buffer (respSize bytes)) : Option Bytes :=
  (printOpened resp bytes).bind fun r =>
    (countText bytes.length).bind fun text =>
      (r.print text).bind fun r =>
        if r.n ≤ respSize bytes then some (r.resp.bytes.take r.n) else none

/-- `uart_read_handler`; `bufAllocated` and `resp` are the results of the two calls of `malloc`. -/
def uartReadHandler (bufAllocated : Bool) (read : Option Bytes)
    (resp : Option (Buffer (respSize (groveUartRead 4096 read)))) : Option (Except EspErr Bytes) :=
  if bufAllocated then
    match resp with
    | none => some (.error .noMem)
    | some resp => (uartReadText (groveUartRead 4096 read) resp).map .ok
  else some (.error .noMem)

/-! ## What is printed -/

/-- The object that lists the bytes and counts them. -/
def uartObject (bytes : Bytes) : Bytes :=
  ascii "\x7b\"bytes\":" ++ (arrayBytes (bytes.map UInt8.toNat) ++
    (ascii ",\"count\":" ++ (decimal bytes.length ++ ascii "\x7d")))

/-- The text in front of the byte behind `done`. -/
def openedText (done : Bytes) : Bytes :=
  ascii "\x7b\"bytes\":[" ++ numbersBytes (done.map UInt8.toNat)

theorem byteText_eq (i : Nat) (b : UInt8) :
    byteText i b = some ((if i = 0 then [] else [44]) ++ decimal b.toNat) := by
  have hformat : parsePrintf (ascii "%s%d") = some [.str, .signed] := by decide
  have hcomma : ascii "," = [44] := by decide
  rw [byteText, hformat, hcomma, Option.bind_some]
  simp only [printf, Option.map_some, List.append_nil]
  rfl

theorem countText_eq (count : Nat) :
    countText count = some (93 :: (ascii ",\"count\":" ++ (decimal count ++ ascii "\x7d"))) := by
  have hformat : parsePrintf (ascii "],\"count\":%u\x7d") =
      some ((93 :: ascii ",\"count\":").map .lit ++ (.unsigned :: (ascii "\x7d").map .lit)) := by
    decide
  have hclose : printf ((ascii "\x7d").map .lit) [] = some (ascii "\x7d") := by decide
  rw [countText, hformat, Option.bind_some, printf_lits, printf, hclose]
  rfl

/-- Opening, bytes and count are the object. -/
theorem openedText_append (bytes : Bytes) :
    openedText bytes ++ 93 :: (ascii ",\"count\":" ++ (decimal bytes.length ++ ascii "\x7d")) =
      uartObject bytes := by
  have hopen : ascii "\x7b\"bytes\":[" = ascii "\x7b\"bytes\":" ++ [91] := by decide
  simp only [openedText, uartObject, arrayBytes, hopen, List.append_assoc, List.cons_append,
    List.nil_append]

theorem openedText_concat (done : Bytes) (b : UInt8) :
    openedText (done ++ [b]) =
      openedText done ++ ((if done.length = 0 then [] else [44]) ++ decimal b.toNat) := by
  have hempty : (done.map UInt8.toNat = []) = (done.length = 0) := by
    rw [List.map_eq_nil_iff, List.length_eq_zero_iff]
  rw [openedText, List.map_append, List.map_singleton, numbersBytes_concat, openedText,
    List.append_assoc]
  simp only [hempty]

/-! ## The array is long enough -/

/-- `n` is the length of the text printed so far, which is stored with room for a terminator. -/
structure RespText {size : Nat} (r : Response size) (text : Bytes) : Prop where
  length : r.n = text.length
  fits : text.length < size
  stored : r.resp.bytes.take text.length = text

theorem RespText.print {size : Nat} {r : Response size} {text more : Bytes} (h : RespText r text)
    (hsize : size < 2 ^ 32) (hfits : r.n + more.length < size) :
    ∃ r', r.print more = some r' ∧ RespText r' (text ++ more) := by
  have hn := h.length
  have hroom : (UInt32.ofNat size - UInt32.ofNat r.n).toNat = size - r.n := by
    have hcap : (UInt32.ofNat size).toNat = size := UInt32.toNat_ofNat_of_lt' hsize
    have hlen : (UInt32.ofNat r.n).toNat = r.n :=
      UInt32.toNat_ofNat_of_lt' (lt_trans (by omega) hsize)
    have hle : UInt32.ofNat r.n ≤ UInt32.ofNat size := by
      rw [UInt32.le_iff_toNat_le, hcap, hlen]
      omega
    rw [UInt32.toNat_sub_of_le _ _ hle, hcap, hlen]
  have hplace : r.n + (size - r.n) ≤ size := by omega
  have hshort : more.length < size - r.n := by omega
  obtain ⟨resp, hresp, htext⟩ := snprintfAt_fits r.resp hplace hshort
  refine ⟨⟨resp, r.n + more.length⟩, ?_, ?_, ?_, ?_⟩
  · rw [Response.print, hroom, hresp, Option.map_some]
  · rw [List.length_append, hn]
  · rw [List.length_append, ← hn]
    exact hfits
  · rw [List.length_append, ← hn, htext, hn, h.stored]

/-- Three digits and a comma for each byte. -/
theorem length_openedText_le (done : Bytes) : (openedText done).length ≤ 10 + 4 * done.length := by
  have hopen : (ascii "\x7b\"bytes\":[").length = 10 := by decide
  have hdigits : ∀ n ∈ done.map UInt8.toNat, (decimal n).length ≤ 3 := by
    intro n hn
    obtain ⟨b, _, rfl⟩ := List.mem_map.mp hn
    have hb := b.toNat_lt
    exact decimal_length_le (by decide) (by omega)
  have hnumbers := length_numbersBytes_le hdigits
  rw [List.length_map] at hnumbers
  rw [openedText, List.length_append, hopen]
  omega

/-- In front of a byte the guard holds, and its text fits. -/
theorem turn_fits {size : Nat} {r : Response size} {done : Bytes} (h : RespText r (openedText done))
    (hsize : (done.length + 1) * 5 + 32 ≤ size) (b : UInt8) :
    (r.n : Int) < (size : Int) - 6 ∧ ∃ text, byteText done.length b = some text ∧
      r.n + text.length < size ∧ openedText (done ++ [b]) = openedText done ++ text := by
  have hn := h.length
  have hlen := length_openedText_le done
  have hb := b.toNat_lt
  have hdigits : (decimal b.toNat).length ≤ 3 := decimal_length_le (by decide) (by omega)
  have hcomma : (if done.length = 0 then [] else [(44 : UInt8)]).length ≤ 1 := by
    split <;> decide
  refine ⟨by omega, _, byteText_eq done.length b, ?_, openedText_concat done b⟩
  rw [List.length_append]
  omega

theorem printBytes_text {size : Nat} (hsize : size < 2 ^ 32) {rest : Bytes} {done : Bytes}
    {r : Response size} (h : RespText r (openedText done))
    (hroom : (done ++ rest).length * 5 + 32 ≤ size) :
    ∃ r', printBytes r done.length rest = some r' ∧ RespText r' (openedText (done ++ rest)) := by
  induction rest generalizing done r with
  | nil =>
      rw [List.append_nil]
      exact ⟨r, rfl, h⟩
  | cons b rest ih =>
      have hlen : (done.length + 1) * 5 + 32 ≤ size := by
        rw [List.length_append, List.length_cons] at hroom
        omega
      obtain ⟨hguard, text, htext, hfits, hconcat⟩ := turn_fits h hlen b
      obtain ⟨r', hprint, hr'⟩ := h.print hsize hfits
      rw [← hconcat] at hr'
      have hsplit : done ++ b :: rest = (done ++ [b]) ++ rest := by simp
      rw [hsplit] at hroom ⊢
      obtain ⟨r'', hrest, hr''⟩ := ih hr' hroom
      rw [List.length_append, List.length_singleton] at hrest
      refine ⟨r'', ?_, hr''⟩
      rw [printBytes, if_pos hguard, htext, Option.bind_some, hprint, Option.bind_some, hrest]

/-- After the opening and any number of bytes. -/
theorem printOpened_text {size : Nat} (hsize : size < 2 ^ 32) (resp : Buffer size) {done : Bytes}
    (hroom : done.length * 5 + 32 ≤ size) :
    ∃ r, printOpened resp done = some r ∧ RespText r (openedText done) := by
  have hstart : RespText ⟨resp, 0⟩ [] := ⟨rfl, by rw [List.length_nil]; omega, rfl⟩
  have hopen : 0 + (ascii "\x7b\"bytes\":[").length < size := by
    have hten : (ascii "\x7b\"bytes\":[").length = 10 := by decide
    omega
  obtain ⟨r, hprint, hr⟩ := hstart.print hsize hopen
  have hr : RespText r (openedText []) := by
    rw [openedText, List.map_nil, numbersBytes, List.append_nil]
    exact hr
  obtain ⟨r', hrest, hr'⟩ := printBytes_text hsize hr hroom
  refine ⟨r', ?_, hr'⟩
  rw [printOpened, hprint, Option.bind_some]
  exact hrest

/-! ## Reading the object -/

/-- The rest of a text behind what it has to start with. -/
def readLiteral (lit s : Bytes) : Option Bytes :=
  if lit <+: s then some (s.drop lit.length) else none

/-- The bytes and the count of an object as `uartObject` writes it. -/
def readUartObject (s : Bytes) : Option (Bytes × Nat) :=
  (readLiteral (ascii "\x7b\"bytes\":") s).bind fun s =>
    (readArray s).bind fun (ns, s) =>
      (readLiteral (ascii ",\"count\":") s).bind fun s =>
        (readNatural s).bind fun (count, s) =>
          if s = ascii "\x7d" ∧ ∀ n ∈ ns, n < 256 then some (ns.map Nat.toUInt8, count) else none

theorem readLiteral_append (lit s : Bytes) : readLiteral lit (lit ++ s) = some s := by
  rw [readLiteral, if_pos (List.prefix_append lit s), List.drop_left]

theorem readUartObject_uartObject (bytes : Bytes) :
    readUartObject (uartObject bytes) = some (bytes, bytes.length) := by
  have hcount : readNatural (decimal bytes.length ++ ascii "\x7d") =
      some (bytes.length, ascii "\x7d") := by
    have hbrace : (ascii "\x7d").head? = some 125 := by decide
    refine readNatural_decimal bytes.length ?_
    rw [hbrace]
    rintro b ⟨⟩
    decide
  have hsmall : ∀ n ∈ bytes.map UInt8.toNat, n < 256 := by
    intro n hn
    obtain ⟨b, _, rfl⟩ := List.mem_map.mp hn
    exact b.toNat_lt
  have hback : (bytes.map UInt8.toNat).map Nat.toUInt8 = bytes := by
    rw [List.map_map]
    exact (List.map_congr_left fun b _ => UInt8.ofNat_toNat).trans (List.map_id bytes)
  rw [readUartObject, uartObject, readLiteral_append, Option.bind_some, readArray_arrayBytes,
    Option.bind_some]
  simp only [readLiteral_append, Option.bind_some, hcount]
  rw [if_pos ⟨trivial, hsmall⟩, hback]

/-! ## The response is complete -/

/-- In front of every byte the loop goes on, no piece is cut, the text is the object, and it is
read back as the bytes. -/
structure UartReadComplete (bytes : Bytes) (resp : Buffer (respSize bytes)) : Prop where
  turns : ∀ done b rest, bytes = done ++ b :: rest →
    ∃ r text, printOpened resp done = some r ∧ (r.n : Int) < (respSize bytes : Int) - 6 ∧
      byteText done.length b = some text ∧ r.n + text.length < respSize bytes
  tail : ∃ r text, printOpened resp bytes = some r ∧ countText bytes.length = some text ∧
    r.n + text.length < respSize bytes
  whole : uartReadText bytes resp = some (uartObject bytes)
  readsBack : readUartObject (uartObject bytes) = some (bytes, bytes.length)

theorem length_groveUartRead_le (len : Nat) (read : Option Bytes) :
    (groveUartRead len read).length ≤ len := by
  cases read with
  | none => exact Nat.zero_le _
  | some bytes => exact List.length_take_le len bytes

theorem uartReadComplete_of_le {bytes : Bytes} (hbytes : bytes.length ≤ 4096)
    (resp : Buffer (respSize bytes)) : UartReadComplete bytes resp := by
  have hcap : respSize bytes = bytes.length * 5 + 32 := rfl
  have hsize : respSize bytes < 2 ^ 32 := by omega
  obtain ⟨r, hopened, hr⟩ := printOpened_text hsize resp (Nat.le_of_eq hcap.symm)
  have hfits : r.n + (93 :: (ascii ",\"count\":" ++
      (decimal bytes.length ++ ascii "\x7d"))).length < respSize bytes := by
    have hname : (ascii ",\"count\":").length = 9 := by decide
    have hclose : (ascii "\x7d").length = 1 := by decide
    have hdigits : (decimal bytes.length).length ≤ 4 := decimal_length_le (by decide) (by omega)
    have hlen := length_openedText_le bytes
    have hn := hr.length
    rw [List.length_cons, List.length_append, List.length_append, hname, hclose]
    omega
  refine ⟨?_, ⟨r, _, hopened, countText_eq _, hfits⟩, ?_, readUartObject_uartObject bytes⟩
  · intro done b rest hsplit
    have hlen : (done.length + 1) * 5 + 32 ≤ respSize bytes := by
      rw [hcap, hsplit, List.length_append, List.length_cons]
      omega
    have hroom : done.length * 5 + 32 ≤ respSize bytes := by omega
    obtain ⟨r, hprint, hr⟩ := printOpened_text hsize resp hroom
    obtain ⟨hguard, text, htext, hfits, _⟩ := turn_fits hr hlen b
    exact ⟨r, text, hprint, hguard, htext, hfits⟩
  · obtain ⟨r', hprint, hr'⟩ := hr.print hsize hfits
    rw [openedText_append] at hr'
    have hn := hr'.length
    rw [uartReadText, hopened, Option.bind_some, countText_eq, Option.bind_some, hprint,
      Option.bind_some, if_pos (hn ▸ Nat.le_of_lt hr'.fits), hn, hr'.stored]

/-- Whatever `grove_uart_read` delivers, the response lists all of it. -/
theorem uartRead_complete (read : Option Bytes)
    (resp : Buffer (respSize (groveUartRead 4096 read))) :
    UartReadComplete (groveUartRead 4096 read) resp ∧
      uartReadHandler true read (some resp) =
        some (.ok (uartObject (groveUartRead 4096 read))) := by
  have hcomplete := uartReadComplete_of_le (length_groveUartRead_le 4096 read) resp
  refine ⟨hcomplete, ?_⟩
  rw [uartReadHandler, if_pos rfl, hcomplete.whole, Option.map_some]

end Esp32Deskflow.Web
