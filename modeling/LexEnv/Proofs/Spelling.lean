import LexEnv.Proofs.Conversion

/-!
# Spellings of integers

The text of an integer is its numeral, and reading the numeral gives the integer back. The same
integer may be spelled in many other ways: with blanks around it, a plus sign, leading zeros, single
underscores between the digits, and digits of other scripts. All of them are read as that integer as
long as there are not too many digits, and refused as scripts fail if there are
(`Spelling.readInt?_chars`). Four separators are blank as characters and still no blanks around a
numeral.

Main statement: `integer_undoes_text`.
-/

namespace LexEnv

open Text Number

/-! ## Spellings -/

namespace Text

/-- The separators of files, groups, records and units, which are blank but not skipped around a
numeral. -/
def isSeparator (c : Char) : Bool := 0x1C ≤ c.toNat && c.toNat ≤ 0x1F

/-- The blank characters: the plain ones, those outside ASCII, and the separators. -/
def isBlank (c : Char) : Bool := isPlainBlank c || isWideBlank c || isSeparator c

/-- A character is a decimal digit, of whatever script, with the value of an ASCII digit. -/
def SameDigit (c d : Char) : Prop :=
  d.isDigit = true ∧ (c = d ∨ wideDigitValue? c = some (d.toNat - '0'.toNat))

/-- How digits are spelled: each by a digit of the same value, with single underscores between
them. -/
inductive Spells : List Char → List Char → Prop where
  | last {c d : Char} (same : SameDigit c d) : Spells [c] [d]
  | next {c d : Char} {s ds : List Char} (same : SameDigit c d) (rest : Spells s ds) :
    Spells (c :: s) (d :: ds)
  | apart {c d : Char} {s ds : List Char} (same : SameDigit c d) (rest : Spells s ds) :
    Spells (c :: '_' :: s) (d :: ds)

end Text

/-- A spelling of an integer. -/
structure Spelling (n : Int) where
  before : List Char
  sign : List Char
  /-- The number of leading zeros. -/
  zeros : Nat
  body : List Char
  after : List Char
  blank : ∀ c ∈ before ++ after, isBlank c = true
  signed : n < 0 ∧ sign = ['-'] ∨ 0 ≤ n ∧ (sign = [] ∨ sign = ['+'])
  spells : Spells body (List.replicate zeros '0' ++ Nat.toDigits 10 n.natAbs)

namespace Spelling

variable {n : Int}

/-- The characters of a spelling. -/
def chars (x : Spelling n) : List Char := x.before ++ ((x.sign ++ x.body) ++ x.after)

/-- The text of a spelling. -/
def text (x : Spelling n) : String := String.ofList x.chars

/-- The number of digits of a spelling, leading zeros counted. -/
def count (x : Spelling n) : Nat := x.zeros + (Nat.toDigits 10 n.natAbs).length

/-- There are no separators around the numeral. -/
def Unseparated (x : Spelling n) : Prop := ∀ c ∈ x.before ++ x.after, isSeparator c = false

end Spelling

/-! ## Plain forms -/

namespace Text

/-- The decimal digits outside ASCII are no blanks. -/
theorem wide_of_wideDigitValue? {c : Char} {v : Nat} (value : wideDigitValue? c = some v) :
    0x80 ≤ c.toNat ∧ isWideBlank c = false := by
  have zeros : ∀ z ∈ wideZeros, 0xA0 < z ∧ (z + 9 < 0x1680 ∨ 0x1680 < z) ∧
      (z + 9 < 0x2000 ∨ 0x3000 < z) := by
    decide
  simp only [wideDigitValue?, Option.map_eq_some_iff] at value
  obtain ⟨z, found, -⟩ := value
  have within := List.find?_some found
  have place := zeros z (List.mem_of_find?_eq_some found)
  simp only [Bool.and_eq_true, decide_eq_true_eq] at within
  refine ⟨by omega, ?_⟩
  simp only [isWideBlank, Bool.or_eq_false_iff, Bool.and_eq_false_iff, beq_eq_false_iff_ne,
    decide_eq_false_iff_not]
  omega

section

variable {c d : Char} (is : d.isDigit = true)

include is

theorem toNat_of_isDigit : 0x30 ≤ d.toNat ∧ d.toNat ≤ 0x39 := Char.isDigit_iff_toNat.mp is

theorem digitChar_of_isDigit : (d.toNat - '0'.toNat).digitChar = d := by
  obtain ⟨low, high⟩ := toNat_of_isDigit is
  have zero : '0'.toNat = 48 := rfl
  refine Char.toNat_inj.mp ?_
  rw [zero, Nat.toNat_digitChar_of_lt_ten (by omega)]
  omega

theorem digitValue?_of_isDigit : digitValue? d = some (d.toNat - '0'.toNat) :=
  if_pos (Char.isDigit_iff_toNat.mp is)

theorem isPlainBlank_of_isDigit : isPlainBlank d = false := by
  obtain ⟨low, high⟩ := toNat_of_isDigit is
  have other : d ≠ ' ' := by
    rintro rfl
    cases is
  simp only [isPlainBlank, Bool.or_eq_false_iff, beq_eq_false_iff_ne, Bool.and_eq_false_iff,
    decide_eq_false_iff_not]
  exact ⟨other, .inr (by omega)⟩

end

/-- The plain form of a digit is the ASCII digit of its value. -/
theorem SameDigit.plainChar? {c d : Char} (same : SameDigit c d) : plainChar? c = some d := by
  obtain ⟨is, rfl | value⟩ := same
  · have range := toNat_of_isDigit is
    exact plainChar?_ascii (by omega)
  · obtain ⟨wide, other⟩ := wide_of_wideDigitValue? value
    rw [Text.plainChar?, if_neg (Nat.not_lt.mpr wide), other, value, Option.map_some,
      digitChar_of_isDigit is]
    rfl

/-- Blanks that are no separators become plain blanks. -/
theorem exists_plain?_blank {s : List Char} (blank : ∀ c ∈ s, isBlank c = true)
    (unseparated : ∀ c ∈ s, isSeparator c = false) :
    ∃ s', plain? s = some s' ∧ ∀ c ∈ s', isPlainBlank c = true := by
  induction s with
  | nil => exact ⟨[], rfl, nofun⟩
  | cons c s ih =>
    rw [List.forall_mem_cons] at blank unseparated
    obtain ⟨s', made, plain⟩ := ih blank.2 unseparated.2
    have first : ∃ c', plainChar? c = some c' ∧ isPlainBlank c' = true := by
      have kind := blank.1
      rw [isBlank, unseparated.1, Bool.or_false, Bool.or_eq_true] at kind
      rcases kind with plain | wide
      · refine ⟨c, plainChar?_ascii ?_, plain⟩
        simp only [isPlainBlank, Bool.or_eq_true, beq_iff_eq, Bool.and_eq_true,
          decide_eq_true_eq] at plain
        rcases plain with rfl | within
        · decide
        · omega
      · refine ⟨' ', ?_, rfl⟩
        have far := le_toNat_of_isWideBlank wide
        rw [plainChar?, if_neg (Nat.not_lt.mpr far), wide]
        rfl
    obtain ⟨c', is, blank'⟩ := first
    refine ⟨c' :: s', ?_, List.forall_mem_cons.mpr ⟨blank', plain⟩⟩
    rw [plain?, is, made]
    rfl

/-- What is left between blanks when these are dropped. -/
theorem trim_append {before s after : List Char} (left : ∀ c ∈ before, isPlainBlank c = true)
    (right : ∀ c ∈ after, isPlainBlank c = true) (inner : ∀ c ∈ s, isPlainBlank c = false)
    (some : s ≠ []) : trim (before ++ (s ++ after)) = s := by
  have kept : ∀ t rest : List Char, (∀ c ∈ t, isPlainBlank c = false) → t ≠ [] →
      (t ++ rest).dropWhile isPlainBlank = t ++ rest := by
    intro t rest inner some
    cases t with
    | nil => exact absurd rfl some
    | cons c t => exact List.dropWhile_cons_of_neg (by simp [inner c List.mem_cons_self])
  -- From behind, the numeral is what the dropping of blanks comes to first.
  have drop := kept s.reverse [] (fun c mem => inner c (List.mem_reverse.mp mem)) (by simpa using some)
  rw [List.append_nil] at drop
  rw [trim, List.dropWhile_append_of_pos left, kept s after inner some, List.reverse_append,
    List.dropWhile_append_of_pos (fun c mem => right c (List.mem_reverse.mp mem)), drop,
    List.reverse_reverse]

/-! ## Digits -/

/-- What a spelling of digits is when it is made plain: it starts with a digit, consists of digits and
underscores, and is read as the values of the digits. -/
structure ReadsAs (s ds : List Char) : Prop where
  starts : ∃ d rest, s = d :: rest ∧ d.isDigit = true
  consists : ∀ c ∈ s, c = '_' ∨ c.isDigit = true
  reads : readDigits? s = some (ds.map fun d => d.toNat - '0'.toNat)

theorem ReadsAs.next {d : Char} {s ds : List Char} (is : d.isDigit = true) (rest : ReadsAs s ds) :
    ReadsAs (d :: s) (d :: ds) := by
  obtain ⟨⟨e, s, rfl, other⟩, consists, reads⟩ := rest
  -- The digit that follows tells this from an underscore that would be skipped.
  have apart : e ≠ '_' := by
    rintro rfl
    cases other
  refine ⟨⟨d, _, rfl, is⟩, List.forall_mem_cons.mpr ⟨.inr is, consists⟩, ?_⟩
  rw [readDigits?, digitValue?_of_isDigit is, reads]
  · rfl
  · exact List.cons_ne_nil e s
  · exact fun t eq => apart (List.cons.inj eq).1

theorem ReadsAs.apart {d : Char} {s ds : List Char} (is : d.isDigit = true) (rest : ReadsAs s ds) :
    ReadsAs (d :: '_' :: s) (d :: ds) := by
  refine ⟨⟨d, _, rfl, is⟩, ?_, ?_⟩
  · exact List.forall_mem_cons.mpr ⟨.inr is, List.forall_mem_cons.mpr ⟨.inl rfl, rest.consists⟩⟩
  · rw [readDigits?, digitValue?_of_isDigit is, rest.reads]
    rfl

/-- Digits however spelled are read as their values. -/
theorem Spells.exists_plain? {s ds : List Char} (spells : Spells s ds) :
    ∃ s', plain? s = some s' ∧ ReadsAs s' ds := by
  induction spells with
  | @last c d same =>
    refine ⟨[d], ?_, ⟨d, [], rfl, same.1⟩, ?_, ?_⟩
    · rw [plain?, same.plainChar?]
      rfl
    · exact List.forall_mem_singleton.mpr (.inr same.1)
    · rw [readDigits?, digitValue?_of_isDigit same.1]
      rfl
  | @next c d s ds same rest ih =>
    obtain ⟨s', made, reads⟩ := ih
    refine ⟨d :: s', ?_, reads.next same.1⟩
    rw [plain?, same.plainChar?, made]
    rfl
  | @apart c d s ds same rest ih =>
    obtain ⟨s', made, reads⟩ := ih
    refine ⟨d :: '_' :: s', ?_, reads.apart same.1⟩
    rw [plain?, plain?, same.plainChar?, made]
    rfl

/-- Digits spell themselves. -/
theorem spells_self {ds : List Char} (digits : ∀ d ∈ ds, d.isDigit = true) (some : ds ≠ []) :
    Spells ds ds := by
  induction ds with
  | nil => exact absurd rfl some
  | cons d ds ih =>
    rw [List.forall_mem_cons] at digits
    cases ds with
    | nil => exact .last ⟨digits.1, .inl rfl⟩
    | cons e ds => exact .next ⟨digits.1, .inl rfl⟩ (ih digits.2 nofun)

end Text

namespace Number

/-- The values of the digits of a number, after whatever number of zeros, denote the number. -/
theorem ofDigits_toDigits (zeros m : Nat) :
    ofDigits ((List.replicate zeros '0' ++ Nat.toDigits 10 m).map fun d => d.toNat - '0'.toNat) = m := by
  rw [ofDigits, List.foldl_map]
  show Nat.ofDigitChars 10 _ 0 = m
  rw [Nat.ofDigitChars_append, Nat.ofDigitChars_replicate_zero, Nat.mul_zero,
    Nat.ofDigitChars_ten_toDigits]

theorem signed_natAbs (n : Int) : signed (n < 0) n.natAbs = n := by
  unfold signed
  by_cases negative : n < 0
  · rw [decide_eq_true negative]
    simp only [if_true]
    omega
  · rw [decide_eq_false negative]
    simp only [Bool.false_eq_true, if_false]
    omega

end Number

namespace Spelling

variable {n : Int}

/-- The sign is split off the digits. -/
theorem splitSign_append (x : Spelling n) {s ds : List Char} (reads : ReadsAs s ds) :
    splitSign (x.sign ++ s) = (decide (n < 0), s) := by
  rcases x.signed with ⟨negative, is⟩ | ⟨nonneg, is | is⟩
  · rw [is, decide_eq_true negative]
    rfl
  -- Without a sign the first character is a digit, and digits are no signs.
  · obtain ⟨d, rest, rfl, digit⟩ := reads.starts
    rw [is, decide_eq_false (Int.not_lt.mpr nonneg), List.nil_append, splitSign]
    · rintro t eq
      cases eq
      cases digit
    · rintro t eq
      cases eq
      cases digit
  · rw [is, decide_eq_false (Int.not_lt.mpr nonneg)]
    rfl

/-- A sign is its own plain form and no blank. -/
theorem plain_sign (x : Spelling n) : plain? x.sign = some x.sign ∧
    ∀ c ∈ x.sign, isPlainBlank c = false := by
  rcases x.signed with ⟨-, is⟩ | ⟨-, is | is⟩
  · rw [is]
    exact ⟨rfl, List.forall_mem_singleton.mpr rfl⟩
  · rw [is]
    exact ⟨rfl, nofun⟩
  · rw [is]
    exact ⟨rfl, List.forall_mem_singleton.mpr rfl⟩

/-- A spelling with blanks that are skipped is read as its integer, unless it has too many digits. -/
theorem readInt?_chars (x : Spelling n) (unseparated : x.Unseparated) :
    readInt? x.chars = if x.count ≤ digitLimit then some n else none := by
  obtain ⟨left, right⟩ := List.forall_mem_append.mp x.blank
  obtain ⟨leftOpen, rightOpen⟩ := List.forall_mem_append.mp unseparated
  -- Each part has a plain form, and only blanks are dropped at the ends of these forms.
  obtain ⟨before, madeBefore, blankBefore⟩ := exists_plain?_blank left leftOpen
  obtain ⟨after, madeAfter, blankAfter⟩ := exists_plain?_blank right rightOpen
  obtain ⟨body, madeBody, reads⟩ := x.spells.exists_plain?
  have plain : plain? x.chars = some (before ++ ((x.sign ++ body) ++ after)) := by
    simp only [chars, plain?_append, madeBefore, madeAfter, madeBody, x.plain_sign.1,
      Option.bind_some, Option.map_some]
  have inner : ∀ c ∈ x.sign ++ body, isPlainBlank c = false := by
    refine List.forall_mem_append.mpr ⟨x.plain_sign.2, fun c mem => ?_⟩
    rcases reads.consists c mem with rfl | digit
    · rfl
    · exact isPlainBlank_of_isDigit digit
  have some : x.sign ++ body ≠ [] := by
    obtain ⟨d, rest, is, -⟩ := reads.starts
    simp [is]
  have trimmed := trim_append blankBefore blankAfter inner some
  have length : ((List.replicate x.zeros '0' ++ Nat.toDigits 10 n.natAbs).map
      fun d => d.toNat - '0'.toNat).length = x.count := by
    rw [List.length_map, List.length_append, List.length_replicate, count]
  rw [readInt?, plain, Option.bind_eq_bind, Option.bind_some, trimmed, x.splitSign_append reads]
  simp only [reads.reads, Option.bind_eq_bind, Option.bind_some, length, ofDigits_toDigits,
    signed_natAbs]

/-- The numeral of an integer after so many zeros. -/
def padded (n : Int) (zeros : Nat) : Spelling n where
  before := []
  sign := if n < 0 then ['-'] else []
  zeros := zeros
  body := List.replicate zeros '0' ++ Nat.toDigits 10 n.natAbs
  after := []
  blank := nofun
  signed := by
    by_cases negative : n < 0
    · exact .inl ⟨negative, if_pos negative⟩
    · exact .inr ⟨Int.not_lt.mp negative, .inl (if_neg negative)⟩
  spells := by
    refine spells_self (List.forall_mem_append.mpr ⟨fun d mem => ?_, fun d mem => ?_⟩) ?_
    · rw [List.eq_of_mem_replicate mem]
      rfl
    · exact Nat.isDigit_of_mem_toDigits (by decide) (by decide) mem
    · exact List.append_ne_nil_of_right_ne_nil _ Nat.toDigits_ne_nil

theorem unseparated_padded (n : Int) (zeros : Nat) : (padded n zeros).Unseparated := nofun

/-- The numeral itself is a spelling. -/
theorem chars_padded_zero (n : Int) : (padded n 0).chars = writeInt n := by
  unfold chars padded writeInt
  by_cases negative : n < 0 <;> simp [negative]

/-! ## Conversions there and back -/

/-- Converting a spelling to an integer. -/
theorem run_int_text (x : Spelling n) (unseparated : x.Unseparated) (serial : Nat)
    (context : ContextId) (st : State) :
    ((Builtin.int.callOn serial context (.text x.text)).run st).1 =
      if x.count ≤ digitLimit then .ok (.int n)
      else .error (.eval (.notConvertible "string" "integer")) := by
  obtain ⟨invoke, ran⟩ := Conversion.exists_run_call .toInteger serial context (.text x.text) st
  have read : (Value.text x.text).toInteger? = if x.count ≤ digitLimit then some n else none := by
    rw [Value.toInteger?, text, String.toList_ofList, x.readInt?_chars unseparated]
  show ((Conversion.toInteger.builtin.callOn serial context (.text x.text)).run st).1 = _
  rw [ran, Conversion.convert, Conversion.run_toInteger, read]
  by_cases fits : x.count ≤ digitLimit
  · rw [if_pos fits, if_pos fits]
  · rw [if_neg fits, if_neg fits]
    rfl

end Spelling

/-- Converting an integer to its text, which is its numeral. -/
theorem run_str_int (n : Int) (fits : (Nat.toDigits 10 n.natAbs).length ≤ digitLimit) (serial : Nat)
    (context : ContextId) (st : State) :
    ((Builtin.str.callOn serial context (.int n)).run st).1 = .ok (.text (Spelling.padded n 0).text) := by
  obtain ⟨invoke, ran⟩ := Conversion.exists_run_call .toText serial context (.int n) st
  show ((Conversion.toText.builtin.callOn serial context (.int n)).run st).1 = _
  rw [ran, Conversion.convert, Conversion.run_toText_int, if_pos ((writable_iff n).mpr fits),
    Spelling.text, Spelling.chars_padded_zero]

/-- A new library binds both conversions. The text of an integer converts back to it, if the integer
has a text at all, and so does every other spelling with blanks that are skipped, unless it has too
many digits, leading zeros counted. Then the conversion fails as scripts do. -/
theorem integer_undoes_text :
    (∀ st, ∃ library st', ScopeId.newLibrary.run st = (.ok library, st') ∧
      st'.heap.BindsBuiltin library .str ∧ st'.heap.BindsBuiltin library .int) ∧
    ∀ (n : Int) (serial : Nat) (context : ContextId) (st : State),
      ((Nat.toDigits 10 n.natAbs).length ≤ digitLimit → ∃ t,
        ((Builtin.str.callOn serial context (.int n)).run st).1 = .ok (.text t) ∧
        t.toList = writeInt n ∧
        ((Builtin.int.callOn serial context (.text t)).run st).1 = .ok (.int n)) ∧
      ∀ x : Spelling n, x.Unseparated →
        (x.count ≤ digitLimit →
          ((Builtin.int.callOn serial context (.text x.text)).run st).1 = .ok (.int n)) ∧
        (digitLimit < x.count →
          ((Builtin.int.callOn serial context (.text x.text)).run st).1 =
            .error (.eval (.notConvertible "string" "integer"))) := by
  refine ⟨fun st => ?_, fun n serial context st => ⟨fun fits => ?_, fun x unseparated => ?_⟩⟩
  · obtain ⟨library, st', made, binds⟩ := ScopeId.newLibrary_binds st
    exact ⟨library, st', made, binds .str, binds .int⟩
  · have few : (Spelling.padded n 0).count ≤ digitLimit := by
      rw [Spelling.count, Spelling.padded, Nat.zero_add]
      exact fits
    have back := (Spelling.padded n 0).run_int_text (Spelling.unseparated_padded n 0) serial context st
    rw [if_pos few] at back
    refine ⟨(Spelling.padded n 0).text, run_str_int n fits serial context st, ?_, back⟩
    rw [Spelling.text, String.toList_ofList, Spelling.chars_padded_zero]
  · have ran := x.run_int_text unseparated serial context st
    rw [ran]
    exact ⟨fun few => if_pos few, fun many => if_neg (Nat.not_le.mpr many)⟩

/-- Seven between a wide space and a line feed, with a plus sign, a zero and a digit of another
script. -/
def Spelling.seven : Spelling 7 where
  before := ['\u2003']
  sign := ['+']
  zeros := 1
  body := ['0', '_', '\u0667']
  after := ['\n']
  blank := List.all_eq_true.mp rfl
  signed := .inr ⟨by decide, .inr rfl⟩
  spells := .apart ⟨rfl, .inl rfl⟩ (.last ⟨rfl, .inr (by decide)⟩)

theorem integer_undoes_text_seven :
    ((Builtin.str.callOn 0 ⟨0⟩ (.int 7)).run .initial).1 = .ok (.text "7") ∧
    Spelling.seven.Unseparated ∧ Spelling.seven.count ≤ digitLimit ∧
    Spelling.seven.text = "\u2003+0_\u0667\n" ∧
    ((Builtin.int.callOn 0 ⟨0⟩ (.text Spelling.seven.text)).run .initial).1 = .ok (.int 7) ∧
    (Spelling.padded 7 digitLimit).Unseparated ∧ digitLimit < (Spelling.padded 7 digitLimit).count ∧
    ((Builtin.int.callOn 0 ⟨0⟩ (.text (Spelling.padded 7 digitLimit).text)).run .initial).1 =
      .error (.eval (.notConvertible "string" "integer")) := by
  have law := integer_undoes_text.2 7 0 ⟨0⟩ .initial
  obtain ⟨t, made, written, -⟩ := law.1 (by decide)
  have seven : Spelling.seven.Unseparated :=
    List.forall_mem_cons.mpr ⟨rfl, List.forall_mem_singleton.mpr rfl⟩
  have few : Spelling.seven.count ≤ digitLimit := by decide
  have long := Spelling.unseparated_padded 7 digitLimit
  have many : digitLimit < (Spelling.padded 7 digitLimit).count := by decide
  refine ⟨?_, seven, few, rfl, (law.2 _ seven).1 few, long, many, (law.2 _ long).2 many⟩
  rw [made, ← String.ofList_toList (s := t), written]
  rfl

/-- A separator is a blank, but a numeral after one is no spelling that is read. -/
theorem seven_after_separator : ∃ x : Spelling 7, x.text = "\x1c7" ∧ x.count ≤ digitLimit ∧
    ((Builtin.int.callOn 0 ⟨0⟩ (.text x.text)).run .initial).1 =
      .error (.eval (.notConvertible "string" "integer")) := by
  let x : Spelling 7 := {
    Spelling.padded 7 0 with
    before := ['\x1c']
    blank := List.forall_mem_singleton.mpr rfl }
  refine ⟨x, rfl, by decide, ?_⟩
  have text : x.text = "\x1c7" := rfl
  rw [text]
  decide +kernel

end LexEnv
