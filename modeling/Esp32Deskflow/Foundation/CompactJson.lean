/-
  Foundation/CompactJson.lean --- JSON objects of texts and numbers, written without spaces.

  The text of an object is searched for the name of a member as it stands in the object,
  with its quotes and its colon.  A quote opens or closes a name or a text; only where it
  opens the name searched for does the pattern go on.
-/
import Esp32Deskflow.Foundation.Bytes
import Esp32Deskflow.Foundation.Occurrence
import Mathlib.Algebra.GroupWithZero.Nat

set_option autoImplicit false

namespace Esp32Deskflow.Foundation

/-! ## Texts -/

/-- A digit of a hexadecimal number, in lower case. -/
def hexDigit (n : UInt8) : UInt8 := if n < 10 then 48 + n else 87 + n

/-- A byte inside the quotes of a text. -/
def escapeByte (b : UInt8) : Bytes :=
  if b = 34 ∨ b = 92 then [92, b]
  else if b = 8 then [92, 98]
  else if b = 9 then [92, 116]
  else if b = 10 then [92, 110]
  else if b = 12 then [92, 102]
  else if b = 13 then [92, 114]
  else if b < 32 then [92, 117, 48, 48, hexDigit (b / 16), hexDigit (b % 16)]
  else [b]

/-- A text inside its quotes, as `JSON.stringify` writes it. -/
def escape (s : Bytes) : Bytes := s.flatMap escapeByte

/-- A byte that stands for itself. -/
def PlainByte (b : UInt8) : Prop := 32 ≤ b ∧ b ≠ 34 ∧ b ≠ 92

instance (b : UInt8) : Decidable (PlainByte b) := inferInstanceAs (Decidable (_ ∧ _))

instance (s : Bytes) : Decidable (∀ b ∈ s, PlainByte b) := List.decidableBAll PlainByte s

/-- The bytes are those of some characters in UTF-8, which is what JSON is written in. -/
def IsUtf8 (s : Bytes) : Prop := s.toByteArray.IsValidUTF8

instance (s : Bytes) : Decidable (IsUtf8 s) :=
  inferInstanceAs (Decidable (ByteArray.IsValidUTF8 _))

/-- A text that may stand between quotes as it is. -/
def PlainText (s : Bytes) : Prop := (∀ b ∈ s, PlainByte b) ∧ IsUtf8 s

instance (s : Bytes) : Decidable (PlainText s) := inferInstanceAs (Decidable (_ ∧ _))

theorem escapeByte_of_plain {b : UInt8} (h : PlainByte b) : escapeByte b = [b] := by
  obtain ⟨hlow, hquote, hbackslash⟩ := h
  have hne (c : UInt8) (hc : c < 32) : b ≠ c := by
    rintro rfl
    exact absurd hc (UInt8.not_lt.mpr hlow)
  rw [escapeByte, if_neg (not_or.mpr ⟨hquote, hbackslash⟩), if_neg (hne 8 (by decide)),
    if_neg (hne 9 (by decide)), if_neg (hne 10 (by decide)), if_neg (hne 12 (by decide)),
    if_neg (hne 13 (by decide)), if_neg (UInt8.not_lt.mpr hlow)]

/-- A plain text is written as it is. -/
theorem escape_of_plain {s : Bytes} (h : ∀ b ∈ s, PlainByte b) : escape s = s := by
  induction s with
  | nil => rfl
  | cons b s ih =>
      have htail := ih fun c hc => h c (List.mem_cons_of_mem b hc)
      rw [escape, List.flatMap_cons, escapeByte_of_plain (h b List.mem_cons_self)]
      exact congrArg (b :: ·) htail

theorem hexDigit_ne_quote {n : UInt8} (h : n < 16) : hexDigit n ≠ 34 := by
  unfold hexDigit
  split <;> grind

theorem escapeByte_ne_nil (b : UInt8) : escapeByte b ≠ [] := by
  unfold escapeByte
  split_ifs <;> exact List.cons_ne_nil _ _

theorem escape_eq_nil_iff {s : Bytes} : escape s = [] ↔ s = [] := by
  constructor
  · intro h
    cases s with
    | nil => rfl
    | cons b s =>
        rw [escape, List.flatMap_cons] at h
        exact absurd (List.append_eq_nil_iff.mp h).1 (escapeByte_ne_nil b)
  · rintro rfl
    rfl

theorem quote_not_mem_escapeByte {b : UInt8} (h : b ≠ 34) : 34 ∉ escapeByte b := by
  have hhigh : b / 16 < 16 := by grind
  have hlow : b % 16 < 16 := by grind
  unfold escapeByte
  split_ifs <;> simp [Ne.symm h, (hexDigit_ne_quote hhigh).symm, (hexDigit_ne_quote hlow).symm]

/-- The only quotes of a text are escaped quotes. -/
theorem quote_not_mem_escape {s : Bytes} (h : 34 ∉ s) : 34 ∉ escape s := by
  intro hmem
  obtain ⟨b, hb, hquote⟩ := List.mem_flatMap.mp hmem
  refine quote_not_mem_escapeByte ?_ hquote
  rintro rfl
  exact h hb

/-! ## Objects -/

/-- A member's value: a text, or a number by its digits. -/
inductive JsonValue where
  | text (s : Bytes)
  | number (digits : Bytes)
  deriving DecidableEq, Repr

/-- A value as it stands in an object. -/
def JsonValue.bytes : JsonValue → Bytes
  | .text s => 34 :: (escape s ++ [34])
  | .number digits => digits

theorem JsonValue.mem_text_bytes {s : Bytes} {b : UInt8} :
    b ∈ (JsonValue.text s).bytes ↔ b = 34 ∨ b ∈ escape s := by
  rw [JsonValue.bytes, List.mem_cons, List.mem_append, List.mem_singleton, or_comm (b := b = 34),
    ← or_assoc, or_self]

/-- A member of an object. -/
structure JsonMember where
  name : Bytes
  value : JsonValue
  deriving DecidableEq, Repr

/-- A member as it stands in an object. -/
def JsonMember.bytes (m : JsonMember) : Bytes := 34 :: (m.name ++ 34 :: 58 :: m.value.bytes)

/-- What follows a member: a comma and the next one, as `print` writes it, or the end. -/
def laterMembersBy (print : JsonMember → Bytes) : List JsonMember → Bytes
  | [] => [125]
  | m :: ms => 44 :: (print m ++ laterMembersBy print ms)

/-- An object whose members are written by `print`. -/
def objectBy (print : JsonMember → Bytes) : List JsonMember → Bytes
  | [] => [123, 125]
  | m :: ms => 123 :: (print m ++ laterMembersBy print ms)

/-- What follows a member of an object. -/
abbrev laterMembers : List JsonMember → Bytes := laterMembersBy JsonMember.bytes

/-- An object as `JSON.stringify` writes it. -/
abbrev objectBytes : List JsonMember → Bytes := objectBy JsonMember.bytes

/-- An object ends with its closing brace. -/
theorem objectBy_closed (print : JsonMember → Bytes) (ms : List JsonMember) :
    ∃ front, objectBy print ms = front ++ [125] := by
  have hlater (ms : List JsonMember) : ∃ front, laterMembersBy print ms = front ++ [125] := by
    induction ms with
    | nil => exact ⟨[], rfl⟩
    | cons m ms ih =>
        obtain ⟨front, hfront⟩ := ih
        exact ⟨44 :: (print m ++ front), by simp [laterMembersBy, hfront]⟩
  cases ms with
  | nil => exact ⟨[123], rfl⟩
  | cons m ms =>
      obtain ⟨front, hfront⟩ := hlater ms
      exact ⟨123 :: (print m ++ front), by simp [objectBy, hfront]⟩

theorem length_laterMembersBy (print : JsonMember → Bytes) (ms : List JsonMember) :
    (laterMembersBy print ms).length = (ms.map fun m => (print m).length + 1).sum + 1 := by
  induction ms with
  | nil => rfl
  | cons m ms ih =>
      simp only [laterMembersBy, List.length_cons, List.length_append, List.map_cons,
        List.sum_cons, ih]
      omega

theorem length_lt_laterMembersBy (print : JsonMember → Bytes) (ms : List JsonMember) :
    ms.length < (laterMembersBy print ms).length := by
  induction ms with
  | nil => exact Nat.one_pos
  | cons m ms ih =>
      rw [laterMembersBy, List.length_cons, List.length_cons, List.length_append]
      omega

/-- What a search for a member looks for: its name with quotes and colon, and `opening`,
the part of its value that is expected behind them. -/
def memberPattern (name opening : Bytes) : Bytes := 34 :: (name ++ 34 :: 58 :: opening)

/-- A byte of a name is none of the punctuation of an object. -/
def IsName (name : Bytes) : Prop := ∀ b ∈ name, b ≠ 34 ∧ b ≠ 44 ∧ b ≠ 58 ∧ b ≠ 125

instance (name : Bytes) : Decidable (IsName name) :=
  inferInstanceAs (Decidable (∀ b ∈ name, _))

/-- A value without a quote of its own. -/
def JsonValue.Quoteless : JsonValue → Prop
  | .text s => 34 ∉ s
  | .number digits => 34 ∉ digits

/-- What stands behind a value. -/
def EndsValue (sep : UInt8) : Prop := sep = 44 ∨ sep = 125

theorem laterMembers_eq_cons (ms : List JsonMember) :
    ∃ sep rest, laterMembers ms = sep :: rest ∧ EndsValue sep := by
  cases ms with
  | nil => exact ⟨125, [], rfl, .inr rfl⟩
  | cons m ms => exact ⟨44, m.bytes ++ laterMembers ms, rfl, .inl rfl⟩

/-- A byte that is no punctuation is one of a name or of a value. -/
theorem mem_objectBytes {ms : List JsonMember} {b : UInt8} (h : b ∈ objectBytes ms) :
    b ∈ ([34, 44, 58, 123, 125] : Bytes) ∨ ∃ m ∈ ms, b ∈ m.name ∨ b ∈ m.value.bytes := by
  have hmember {m : JsonMember} (hb : b ∈ m.bytes) :
      b ∈ ([34, 44, 58, 123, 125] : Bytes) ∨ b ∈ m.name ∨ b ∈ m.value.bytes := by
    simp only [JsonMember.bytes, List.mem_cons, List.mem_append] at hb ⊢
    tauto
  have hlater {ms : List JsonMember} (hb : b ∈ laterMembers ms) :
      b ∈ ([34, 44, 58, 123, 125] : Bytes) ∨ ∃ m ∈ ms, b ∈ m.name ∨ b ∈ m.value.bytes := by
    induction ms with
    | nil =>
        rw [List.mem_singleton.mp hb]
        exact .inl (by decide)
    | cons m ms ih =>
        obtain rfl | hb := List.mem_cons.mp hb
        · exact .inl (by decide)
        obtain hb | hb := List.mem_append.mp hb
        · exact (hmember hb).imp_right fun hm => ⟨m, List.mem_cons_self, hm⟩
        · exact (ih hb).imp_right fun ⟨x, hx, hb⟩ => ⟨x, List.mem_cons_of_mem m hx, hb⟩
  cases ms with
  | nil =>
      obtain rfl | hb := List.mem_cons.mp h
      · exact .inl (by decide)
      · exact hlater hb
  | cons m ms =>
      obtain rfl | hb := List.mem_cons.mp h
      · exact .inl (by decide)
      · exact hlater (List.mem_cons_of_mem 44 hb)

/-- The length of an object does not depend on the order of its members. -/
theorem length_objectBytes {ms : List JsonMember} (hne : ms ≠ []) :
    (objectBytes ms).length = (ms.map fun m => m.bytes.length + 1).sum + 1 := by
  rw [← length_laterMembersBy]
  cases ms with
  | nil => exact absurd rfl hne
  | cons m ms => rfl

/-! ## The search for a member -/

section

variable {name opening rest : Bytes} {sep : UInt8}

/-- The pattern does not go on with punctuation. -/
theorem not_prefix_of_not_name (hquote : sep ≠ 34) (hsep : sep ∉ name) (tail : Bytes) :
    ¬ name ++ 34 :: tail <+: sep :: rest := by
  cases name with
  | nil => exact fun h => hquote (List.cons_prefix_cons.mp h).1.symm
  | cons b name =>
      exact fun h => hsep ((List.cons_prefix_cons.mp h).1 ▸ List.mem_cons_self)

theorem EndsValue.not_mem (hsep : EndsValue sep) (hname : IsName name) : sep ∉ name := by
  intro hmem
  obtain ⟨_, hcomma, _, hbrace⟩ := hname sep hmem
  exact hsep.elim hcomma hbrace

theorem EndsValue.ne (hsep : EndsValue sep) : sep ≠ 34 ∧ sep ≠ 58 := by
  obtain rfl | rfl := hsep <;> decide

/-- The search passes over a value. -/
theorem after_value {value : JsonValue} (hname : IsName name) (hvalue : value.Quoteless)
    (hsep : EndsValue sep) :
    after (memberPattern name opening) (value.bytes ++ sep :: rest) =
      after (memberPattern name opening) (sep :: rest) := by
  cases value with
  | number digits =>
      rw [JsonValue.bytes, memberPattern, after_append_of_not_mem hvalue]
  | text s =>
      obtain ⟨hquote, hcolon⟩ := hsep.ne
      have hs : 34 ∉ escape s := quote_not_mem_escape hvalue
      have hname34 : 34 ∉ name := fun h => (hname 34 h).1 rfl
      rw [JsonValue.bytes, memberPattern, List.cons_append, List.append_assoc,
        List.singleton_append, after_mark_of_not_prefix, after_append_of_not_mem hs,
        after_mark_of_not_prefix (not_prefix_of_not_name hquote (hsep.not_mem hname) _)]
      -- A text equal to the name is not followed by a colon.
      rw [prefix_mark_iff hname34 hs]
      rintro ⟨_, hprefix⟩
      exact hcolon (List.cons_prefix_cons.mp hprefix).1.symm

/-- The search passes over a member of another name. -/
theorem after_other_member {m : JsonMember} (hname : IsName name) (hm : IsName m.name)
    (hne : name ≠ m.name) (hvalue : m.value.Quoteless) (hsep : EndsValue sep) :
    after (memberPattern name opening) (m.bytes ++ sep :: rest) =
      after (memberPattern name opening) (sep :: rest) := by
  have hname34 : 34 ∉ name := fun h => (hname 34 h).1 rfl
  have hname58 : (58 : UInt8) ∉ name := fun h => (hname 58 h).2.2.1 rfl
  have hm34 : 34 ∉ m.name := fun h => (hm 34 h).1 rfl
  refine Eq.trans ?_ (after_value hname hvalue hsep)
  rw [JsonMember.bytes, memberPattern, List.cons_append, List.append_assoc, List.cons_append,
    List.cons_append, after_mark_of_not_prefix, after_append_of_not_mem hm34,
    after_mark_of_not_prefix (not_prefix_of_not_name (by decide) hname58 _),
    after_cons_of_ne (by decide)]
  rw [prefix_mark_iff hname34 hm34]
  exact fun h => hne h.1

/-- The search stops behind the name that it looks for. -/
theorem after_member {m : JsonMember} {v : Bytes} (hv : m.value.bytes = opening ++ v) :
    after (memberPattern m.name opening) (m.bytes ++ rest) = some (v ++ rest) := by
  have hbytes : m.bytes ++ rest = 34 :: ((m.name ++ 34 :: 58 :: opening) ++ (v ++ rest)) := by
    simp [JsonMember.bytes, hv]
  rw [hbytes, memberPattern, after_mark_append]

end

/-- A member that can stand before the one that is searched for. -/
structure JsonMember.PassedBy (x : JsonMember) (name : Bytes) : Prop where
  isName : IsName x.name
  ne : name ≠ x.name
  quoteless : x.value.Quoteless

/-- The first member of its name is found, wherever it stands in an object. -/
theorem after_objectBytes {front back : List JsonMember} {m : JsonMember} (hname : IsName m.name)
    (hfront : ∀ x ∈ front, x.PassedBy m.name) {opening v : Bytes}
    (hv : m.value.bytes = opening ++ v) :
    after (memberPattern m.name opening) (objectBytes (front ++ m :: back)) =
      some (v ++ laterMembers back) := by
  have hlater : after (memberPattern m.name opening) (laterMembers (front ++ m :: back)) =
      some (v ++ laterMembers back) := by
    induction front with
    | nil => exact (after_cons_of_ne (by decide)).trans (after_member hv)
    | cons x front ih =>
        obtain ⟨hx, hne, hquoteless⟩ := hfront x List.mem_cons_self
        obtain ⟨sep, rest, hsplit, hsep⟩ := laterMembers_eq_cons (front ++ m :: back)
        have hpass := @after_other_member m.name opening rest sep x hname hx hne hquoteless hsep
        rw [← hsplit] at hpass
        exact (after_cons_of_ne (by decide)).trans
          (hpass.trans (ih fun y hy => hfront y (List.mem_cons_of_mem x hy)))
  rw [← hlater]
  cases front with
  | nil => exact (after_cons_of_ne (by decide)).trans (after_cons_of_ne (by decide)).symm
  | cons x front => exact (after_cons_of_ne (by decide)).trans (after_cons_of_ne (by decide)).symm

/-! ## Objects written without escapes -/

/-- A value whose text is written as it is. -/
def JsonValue.unescaped : JsonValue → Bytes
  | .text s => 34 :: (s ++ [34])
  | .number digits => digits

/-- A member whose text is written as it is. -/
def JsonMember.unescaped (m : JsonMember) : Bytes :=
  34 :: (m.name ++ 34 :: 58 :: m.value.unescaped)

/-- An object whose texts are written as they are. -/
abbrev objectUnescaped : List JsonMember → Bytes := objectBy JsonMember.unescaped

/-! ## Reading an object -/

/-- A digit or a minus sign. -/
def NumberByte (b : UInt8) : Prop := b = 45 ∨ 48 ≤ b ∧ b ≤ 57

instance (b : UInt8) : Decidable (NumberByte b) := inferInstanceAs (Decidable (_ ∨ _))

/-- The digits of a natural number: no zero in front of another digit. -/
def IsNatural : Bytes → Prop
  | [] => False
  | d :: ds => (48 ≤ d ∧ d ≤ 57) ∧ (∀ b ∈ ds, 48 ≤ b ∧ b ≤ 57) ∧ (d = 48 → ds = [])

instance : (ds : Bytes) → Decidable (IsNatural ds)
  | [] => inferInstanceAs (Decidable False)
  | _ :: _ => inferInstanceAs (Decidable (_ ∧ _))

/-- A number without fraction and exponent. -/
def IsInteger : Bytes → Prop
  | 45 :: ds => IsNatural ds
  | ds => IsNatural ds

instance (ds : Bytes) : Decidable (IsInteger ds) := by
  unfold IsInteger
  split <;> infer_instance

/-- Behind the opening quote: a text up to the closing one.  Neither a control character nor a
byte that is no UTF-8 is allowed in it, and escapes are not read. -/
def readText (s : Bytes) : Option (Bytes × Bytes) :=
  let text := s.takeWhile (· != 34)
  match s.dropWhile (· != 34) with
  | [] => none
  | _ :: rest => if PlainText text then some (text, rest) else none

/-- A number up to the next byte that is none of it. -/
def readNumber (s : Bytes) : Option (Bytes × Bytes) :=
  let digits := s.takeWhile fun b => decide (NumberByte b)
  if IsInteger digits then some (digits, s.dropWhile fun b => decide (NumberByte b)) else none

/-- A value, and what follows it. -/
def readValue : Bytes → Option (JsonValue × Bytes)
  | 34 :: s => (readText s).map fun (t, rest) => (.text t, rest)
  | s => (readNumber s).map fun (digits, rest) => (.number digits, rest)

/-- A name, a colon and a value, and what follows them. -/
def readMember : Bytes → Option (JsonMember × Bytes)
  | 34 :: s =>
      (readText s).bind fun
        | (name, 58 :: s) => (readValue s).map fun (value, rest) => (⟨name, value⟩, rest)
        | _ => none
  | _ => none

/-- The members up to the end of the text, at most `n` of them. -/
def readMembers : Nat → Bytes → Option (List JsonMember)
  | 0, _ => none
  | n + 1, s =>
      (readMember s).bind fun
        | (m, [125]) => some [m]
        | (m, 44 :: s) => (readMembers n s).map (m :: ·)
        | _ => none

/-- An object without spaces, of texts without escapes and of integers. -/
def readObject : Bytes → Option (List JsonMember)
  | [123, 125] => some []
  | 123 :: s => readMembers s.length s
  | _ => none

/-! ## Reading what was written without escapes -/

/-- A value that is read back as it was written. -/
def JsonValue.Plain : JsonValue → Prop
  | .text s => PlainText s
  | .number _ => True

instance : (value : JsonValue) → Decidable value.Plain
  | .text s => inferInstanceAs (Decidable (PlainText s))
  | .number _ => inferInstanceAs (Decidable True)

/-- A member that ends where its value ends: a plain name, and a text without a quote or an
integer. -/
structure JsonMember.Delimited (m : JsonMember) : Prop where
  name : PlainText m.name
  text : ∀ s, m.value = .text s → 34 ∉ s
  number : ∀ digits, m.value = .number digits → IsInteger digits

theorem readText_quoted {s : Bytes} (h : 34 ∉ s) (rest : Bytes) :
    readText (s ++ 34 :: rest) = if PlainText s then some (s, rest) else none := by
  have hs : ∀ b ∈ s, (b != 34) = true := by
    intro b hb
    rw [bne_iff_ne]
    rintro rfl
    exact h hb
  have htake : (s ++ 34 :: rest).takeWhile (· != 34) = s := by
    rw [List.takeWhile_append_of_pos hs]
    exact List.append_nil s
  have hdrop : (s ++ 34 :: rest).dropWhile (· != 34) = 34 :: rest := by
    rw [List.dropWhile_append_of_pos hs]
    rfl
  simp only [readText, htake, hdrop]

theorem numberByte_of_isInteger {digits : Bytes} (h : IsInteger digits) :
    ∀ b ∈ digits, NumberByte b := by
  have hnatural {ds : Bytes} (hds : IsNatural ds) : ∀ b ∈ ds, NumberByte b := by
    cases ds with
    | nil => exact hds.elim
    | cons d ds =>
        obtain ⟨hd, hrest, -⟩ := hds
        intro b hb
        obtain rfl | hb := List.mem_cons.mp hb
        · exact .inr hd
        · exact .inr (hrest b hb)
  unfold IsInteger at h
  split at h
  · intro b hb
    obtain rfl | hb := List.mem_cons.mp hb
    · exact .inl rfl
    · exact hnatural h b hb
  · exact hnatural h

theorem readNumber_integer {digits rest : Bytes} (h : IsInteger digits)
    (hrest : ∀ b ∈ rest.head?, ¬ NumberByte b) :
    readNumber (digits ++ rest) = some (digits, rest) := by
  have hdigits : ∀ b ∈ digits, decide (NumberByte b) = true := fun b hb =>
    decide_eq_true (numberByte_of_isInteger h b hb)
  have hstop : rest.takeWhile (fun b => decide (NumberByte b)) = [] ∧
      rest.dropWhile (fun b => decide (NumberByte b)) = rest := by
    cases rest with
    | nil => exact ⟨rfl, rfl⟩
    | cons b rest =>
        have hb : ¬ decide (NumberByte b) = true := fun hd => hrest b rfl (of_decide_eq_true hd)
        exact ⟨List.takeWhile_cons_of_neg hb, List.dropWhile_cons_of_neg hb⟩
  unfold readNumber
  simp only [List.takeWhile_append_of_pos hdigits, List.dropWhile_append_of_pos hdigits,
    hstop.1, hstop.2, List.append_nil]
  exact if_pos h

theorem EndsValue.not_numberByte {sep : UInt8} (h : EndsValue sep) : ¬ NumberByte sep := by
  obtain rfl | rfl := h <;> decide

theorem readValue_number {digits : Bytes} (h : IsInteger digits) {sep : UInt8}
    (hsep : EndsValue sep) (rest : Bytes) :
    readValue (digits ++ sep :: rest) = some (.number digits, sep :: rest) := by
  have hread : readNumber (digits ++ sep :: rest) = some (digits, sep :: rest) := by
    refine readNumber_integer h ?_
    rintro b ⟨⟩
    exact hsep.not_numberByte
  unfold readValue
  split
  · rename_i s heq
    cases digits with
    | nil => exact h.elim
    | cons d ds =>
        have hd := numberByte_of_isInteger h d List.mem_cons_self
        rw [(List.cons.inj heq).1] at hd
        exact absurd hd (by decide)
  · rw [hread, Option.map_some]

theorem readValue_text {s : Bytes} (h : 34 ∉ s) (rest : Bytes) :
    readValue ((JsonValue.text s).unescaped ++ rest) =
      if PlainText s then some (.text s, rest) else none := by
  have hsplit : (JsonValue.text s).unescaped ++ rest = 34 :: (s ++ 34 :: rest) := by
    simp [JsonValue.unescaped]
  rw [hsplit, readValue, readText_quoted h]
  split
  · rfl
  · rfl

/-- A member is read back if it is plain, and the object is unreadable if not. -/
theorem readMember_unescaped {m : JsonMember} (h : m.Delimited) {sep : UInt8}
    (hsep : EndsValue sep) (rest : Bytes) :
    readMember (m.unescaped ++ sep :: rest) =
      if m.value.Plain then some (m, sep :: rest) else none := by
  have hquote : 34 ∉ m.name := fun hmem => (h.name.1 34 hmem).2.1 rfl
  have hvalue : readValue (m.value.unescaped ++ sep :: rest) =
      if m.value.Plain then some (m.value, sep :: rest) else none := by
    cases hm : m.value with
    | text s => exact readValue_text (h.text s hm) (sep :: rest)
    | number digits =>
        exact (readValue_number (h.number digits hm) hsep rest).trans (if_pos trivial).symm
  have hsplit : m.unescaped ++ sep :: rest =
      34 :: (m.name ++ 34 :: (58 :: (m.value.unescaped ++ sep :: rest))) := by
    simp [JsonMember.unescaped]
  rw [hsplit, readMember, readText_quoted hquote, if_pos h.name, Option.bind_some]
  simp only [hvalue]
  split
  · rfl
  · rfl

theorem readMembers_unescaped {ms : List JsonMember} {m : JsonMember} {n : Nat}
    (h : ∀ x ∈ m :: ms, x.Delimited) (hn : ms.length < n) :
    readMembers n (m.unescaped ++ laterMembersBy JsonMember.unescaped ms) =
      if ∀ x ∈ m :: ms, x.value.Plain then some (m :: ms) else none := by
  have hm := h m List.mem_cons_self
  obtain ⟨k, rfl⟩ : ∃ k, n = k + 1 := ⟨n - 1, by omega⟩
  induction ms generalizing m k with
  | nil =>
      rw [readMembers, laterMembersBy, readMember_unescaped hm (.inr rfl)]
      have hone : (∀ x ∈ [m], x.value.Plain) ↔ m.value.Plain := List.forall_mem_singleton
      by_cases hplain : m.value.Plain
      · rw [if_pos hplain, if_pos (hone.mpr hplain)]
        rfl
      · rw [if_neg hplain, if_neg (mt hone.mp hplain), Option.bind_none]
  | cons x ms ih =>
      rw [readMembers, laterMembersBy, readMember_unescaped hm (.inl rfl)]
      by_cases hplain : m.value.Plain
      · obtain ⟨j, rfl⟩ : ∃ j, k = j + 1 := ⟨k - 1, by simp at hn; omega⟩
        have hrest := ih (fun y hy => h y (List.mem_cons_of_mem m hy))
          (h x (List.mem_cons_of_mem m List.mem_cons_self)) j (by simpa using hn)
        rw [if_pos hplain, Option.bind_some]
        simp only [hrest]
        by_cases hall : ∀ y ∈ x :: ms, y.value.Plain
        · have hcons : ∀ y ∈ m :: x :: ms, y.value.Plain := List.forall_mem_cons.mpr ⟨hplain, hall⟩
          rw [if_pos hall, if_pos hcons, Option.map_some]
        · rw [if_neg hall, if_neg fun hcons => hall (List.forall_mem_cons.mp hcons).2,
            Option.map_none]
      · rw [if_neg hplain, if_neg fun hall => hplain (hall m List.mem_cons_self), Option.bind_none]

/-- An object written without escapes is read back exactly if all of its texts are plain. -/
theorem readObject_unescaped {ms : List JsonMember} (h : ∀ m ∈ ms, m.Delimited) :
    readObject (objectUnescaped ms) = if ∀ m ∈ ms, m.value.Plain then some ms else none := by
  cases ms with
  | nil => exact (if_pos nofun).symm
  | cons m ms =>
      have hlen : ms.length < (m.unescaped ++ laterMembersBy JsonMember.unescaped ms).length := by
        have hlater := length_lt_laterMembersBy JsonMember.unescaped ms
        rw [List.length_append]
        omega
      exact readMembers_unescaped h hlen

end Esp32Deskflow.Foundation
