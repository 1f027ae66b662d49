import Mathlib.Data.List.TakeWhile
import Mathlib.Tactic.FieldSimp
import Mathlib.Tactic.Ring
import Receipt.Proofs.Exact
import Receipt.Style.Length

/-!
# The written form of a length

A text is a length when it is a plain decimal, with blanks around it and perhaps a unit behind it:
`Length.Form` are the parts of such a text, in the order in which they stand. `Form.pixels` is what
they denote, digit by digit: in front of the point every digit counts ten times the one behind it,
behind the point a tenth of the one in front of it, and a point is four thirds of a pixel.

`reads_forms`: reading a text as a length gives what a form of it denotes, and nothing when it has no
form. Blanks, also those that end a line, never matter, and neither does a unit of pixels.
-/

namespace Receipt

namespace Text

open Receipt.Character (digit?)

/-- Digits are taken up to the first character that is none. -/
theorem takeDigits_append {digits rest : List Char} (all : ∀ c ∈ digits, (digit? c).isSome)
    (stop : ∀ c ∈ rest.head?, digit? c = none) :
    takeDigits digit? (digits ++ rest) = (digits.filterMap digit?, rest) := by
  induction digits with
  | nil =>
    cases rest with
    | nil => rfl
    | cons c rest =>
      have none : digit? c = none := stop c rfl
      simp [takeDigits, none]
  | cons c digits ih =>
    obtain ⟨d, own⟩ := Option.isSome_iff_exists.1 (all c (List.mem_cons_self ..))
    have later := ih fun other member => all other (List.mem_cons_of_mem _ member)
    simp [takeDigits, own, later]

/-- What is taken are digits, and they stand in front of the rest. -/
theorem exists_digits_of_takeDigits {text rest : List Char} {values : List Nat}
    (taken : takeDigits digit? text = (values, rest)) :
    ∃ digits, text = digits ++ rest ∧ (∀ c ∈ digits, (digit? c).isSome) ∧
      digits.filterMap digit? = values := by
  induction text generalizing values with
  | nil =>
    obtain ⟨rfl, rfl⟩ := Prod.mk.inj taken
    exact ⟨[], rfl, nofun, rfl⟩
  | cons c text ih =>
    rw [takeDigits] at taken
    cases own : digit? c with
    | none =>
      rw [own] at taken
      obtain ⟨rfl, rfl⟩ := Prod.mk.inj taken
      exact ⟨[], rfl, nofun, rfl⟩
    | some d =>
      rw [own] at taken
      obtain ⟨rfl, rfl⟩ := Prod.mk.inj taken
      obtain ⟨digits, same, all, values⟩ := ih (Prod.mk.eta.symm)
      refine ⟨c :: digits, congrArg (c :: ·) same, ?_, ?_⟩
      · intro other member
        rcases List.mem_cons.1 member with rfl | later
        · rw [own]
          rfl
        · exact all other later
      · rw [List.filterMap_cons_some own, values]

/-- Digits in front of others count as often as the places behind them say. -/
theorem digitsValue_append (first second : List Nat) :
    digitsValue (first ++ second) =
      digitsValue first * 10 ^ second.length + digitsValue second := by
  have shifted (start : Nat) : second.foldl (fun n d => 10 * n + d) start =
      start * 10 ^ second.length + digitsValue second := by
    unfold digitsValue
    induction second generalizing start with
    | nil => simp
    | cons d second ih =>
      rw [List.foldl_cons, List.foldl_cons, ih, ih (10 * 0 + d), List.length_cons]
      ring
  unfold digitsValue
  rw [List.foldl_append]
  exact shifted _

end Text

namespace Length

open Receipt.Character (isBlank digit?)

/-! ## The parts of a length -/

/-- A text of blanks only. -/
structure Blanks where
  chars : List Char
  blank : ∀ c ∈ chars, isBlank c

/-- No blanks at all. -/
def Blanks.empty : Blanks := ⟨[], nofun⟩

/-- One digit or more. -/
structure Digits where
  chars : List Char
  filled : chars ≠ []
  digits : ∀ c ∈ chars, (digit? c).isSome

/-- A decimal as it is written: a minus sign or none, digits, and a point with digits behind it or
neither. -/
structure Plain where
  negative : Bool
  whole : Digits
  fraction : Option Digits

/-- What stands behind the number of a length. -/
inductive Suffix where
  | bare
  | pixels
  | points
deriving DecidableEq

/-- The parts of a length. -/
structure Form where
  before : Blanks
  number : Plain
  between : Blanks
  suffix : Suffix
  behind : Blanks

namespace Plain

/-- The sign of a decimal. -/
def sign (plain : Plain) : List Char := if plain.negative then ['-'] else []

/-- The point of a decimal and what stands behind it. -/
def tail (plain : Plain) : List Char :=
  match plain.fraction with
  | none => []
  | some digits => '.' :: digits.chars

/-- The characters of a decimal. -/
def text (plain : Plain) : List Char := plain.sign ++ (plain.whole.chars ++ plain.tail)

/-- The number that digits in front of the point denote. -/
def wholePart : List Char → Rat
  | [] => 0
  | c :: rest => (digit? c).getD 0 * 10 ^ rest.length + wholePart rest

/-- The number that digits behind the point denote. -/
def fractionPart : List Char → Rat
  | [] => 0
  | c :: rest => ((digit? c).getD 0 + fractionPart rest) / 10

/-- The number that a decimal denotes. -/
def value (plain : Plain) : Rat :=
  let magnitude := wholePart plain.whole.chars +
    match plain.fraction with
    | none => 0
    | some digits => fractionPart digits.chars
  if plain.negative then -magnitude else magnitude

end Plain

/-- The letters of a unit. -/
def Suffix.letters : Suffix → List Char
  | bare => []
  | pixels => ['p', 'x']
  | points => ['p', 't']

namespace Form

/-- The characters of a length. -/
def text (form : Form) : List Char :=
  form.before.chars ++
    (form.number.text ++ (form.between.chars ++ (form.suffix.letters ++ form.behind.chars)))

/-- The pixels that a length denotes. -/
def pixels (form : Form) : Rat :=
  match form.suffix with
  | .bare | .pixels => form.number.value
  | .points => form.number.value / (3 / 4)

end Form

/-! ## Digits, blanks and letters -/

/-- No blank is a digit. -/
theorem digit?_of_isBlank {c : Char} (blank : isBlank c) : digit? c = none := by
  let codes := [9, 10, 11, 12, 13, 28, 29, 30, 31, 32, 0x85, 0xA0, 0x1680, 0x2000, 0x2001, 0x2002,
    0x2003, 0x2004, 0x2005, 0x2006, 0x2007, 0x2008, 0x2009, 0x200A, 0x2028, 0x2029, 0x202F, 0x205F,
    0x3000]
  have known : c.toNat ∈ codes := by
    simp only [isBlank, Character.isWhite, Bool.or_eq_true, Bool.and_eq_true, decide_eq_true_eq,
      beq_iff_eq] at blank
    simp only [codes, List.mem_cons, List.not_mem_nil, or_false]
    omega
  have apart : ∀ code ∈ codes, Character.digitZeros.find?
      (fun first => first ≤ code && code < first + 10) = none := by decide
  unfold digit?
  rw [apart _ known]
  rfl

/-- What follows a number in a length starts neither with a digit nor with a point. -/
theorem digit?_of_behind (between : Blanks) (suffix : Suffix) (behind : Blanks) :
    ∀ c ∈ (between.chars ++ (suffix.letters ++ behind.chars)).head?, digit? c = none ∧ c ≠ '.' := by
  have blanks {c : Char} (blank : isBlank c) : digit? c = none ∧ c ≠ '.' := by
    refine ⟨digit?_of_isBlank blank, ?_⟩
    rintro rfl
    exact absurd blank (by decide)
  have letter : digit? 'p' = none ∧ 'p' ≠ '.' := by decide
  intro c first
  rcases between with ⟨_ | ⟨d, between⟩, blank⟩
  · cases suffix with
    | bare =>
      obtain ⟨chars, blank⟩ := behind
      exact blanks (blank c (List.mem_of_mem_head? first))
    | pixels | points =>
      obtain rfl : 'p' = c := Option.some.inj first
      exact letter
  · obtain rfl : d = c := Option.some.inj first
    exact blanks (blank d (List.mem_cons_self ..))

/-- A decimal starts with no blank. -/
theorem not_isBlank_of_plain {plain : Plain} {rest : List Char} :
    ∀ c ∈ (plain.text ++ rest).head?, ¬ isBlank c := by
  intro c first blank
  obtain ⟨negative, ⟨_ | ⟨d, whole⟩, filled, digits⟩, fraction⟩ := plain
  · exact filled rfl
  cases negative with
  | true =>
    obtain rfl : '-' = c := Option.some.inj first
    exact absurd blank (by decide)
  | false =>
    obtain rfl : d = c := Option.some.inj first
    have own := digits d (List.mem_cons_self ..)
    rw [digit?_of_isBlank blank] at own
    cases own

/-! ## Blanks -/

theorem dropWhile_of_head {text : List Char} (first : ∀ c ∈ text.head?, ¬ isBlank c) :
    text.dropWhile isBlank = text := by
  cases text with
  | nil => rfl
  | cons c text => exact List.dropWhile_cons_of_neg (first c rfl)

/-- Blanks in front are dropped. -/
theorem dropWhile_blanks (blanks : Blanks) (rest : List Char) :
    (blanks.chars ++ rest).dropWhile isBlank = rest.dropWhile isBlank :=
  List.dropWhile_append_of_pos blanks.blank

/-- What is dropped in front are blanks. -/
theorem exists_blanks (text : List Char) :
    ∃ blanks : Blanks, text = blanks.chars ++ text.dropWhile isBlank :=
  ⟨⟨text.takeWhile isBlank, fun _ => List.mem_takeWhile_imp⟩, List.takeWhile_append_dropWhile.symm⟩

/-! ## The unit -/

theorem not_isBlank_p : ¬ isBlank 'p' := by decide

/-- The unit is read from its letters, whatever blanks stand around them. -/
theorem readUnit?_letters (between : Blanks) (suffix : Suffix) (behind : Blanks) :
    readUnit? ((between.chars ++ (suffix.letters ++ behind.chars)).dropWhile isBlank) =
      some (decide (suffix = .points)) := by
  have blank : behind.chars.all isBlank := List.all_eq_true.2 behind.blank
  rw [dropWhile_blanks]
  cases suffix with
  | bare =>
    have gone : behind.chars.dropWhile isBlank = [] := List.dropWhile_eq_nil_iff.2 behind.blank
    show readUnit? (behind.chars.dropWhile isBlank) = _
    rw [gone]
    rfl
  | pixels | points =>
    refine (congrArg readUnit? (List.dropWhile_cons_of_neg not_isBlank_p)).trans ?_
    exact if_pos blank

theorem exists_of_readUnit? {text : List Char} {points : Bool}
    (read : readUnit? text = some points) :
    ∃ suffix : Suffix, ∃ behind : Blanks, text = suffix.letters ++ behind.chars ∧
      points = decide (suffix = .points) := by
  unfold readUnit? at read
  split at read
  · rename_i rest
    split at read
    · rename_i blank
      exact ⟨.pixels, ⟨rest, List.all_eq_true.1 blank⟩, rfl, (Option.some.inj read).symm⟩
    · cases read
  · rename_i rest
    split at read
    · rename_i blank
      exact ⟨.points, ⟨rest, List.all_eq_true.1 blank⟩, rfl, (Option.some.inj read).symm⟩
    · cases read
  · split at read
    · rename_i empty
      exact ⟨.bare, .empty, List.isEmpty_iff.1 empty, (Option.some.inj read).symm⟩
    · cases read

/-! ## The number -/

/-- The values of digits. -/
def Digits.values (digits : Digits) : List Nat := digits.chars.filterMap digit?

theorem length_filterMap_digit? {chars : List Char} (all : ∀ c ∈ chars, (digit? c).isSome) :
    (chars.filterMap digit?).length = chars.length := by
  induction chars with
  | nil => rfl
  | cons c chars ih =>
    obtain ⟨d, own⟩ := Option.isSome_iff_exists.1 (all c (List.mem_cons_self ..))
    rw [List.filterMap_cons_some own, List.length_cons, List.length_cons,
      ih fun other member => all other (List.mem_cons_of_mem _ member)]

theorem Digits.isEmpty_values (digits : Digits) : digits.values.isEmpty = false := by
  have same : digits.values.length = digits.chars.length := length_filterMap_digit? digits.digits
  have filled := List.length_pos_iff.2 digits.filled
  exact List.isEmpty_eq_false_iff.2 (List.length_pos_iff.1 (same ▸ filled))

theorem takeDigits_digits (digits : Digits) {rest : List Char}
    (stop : ∀ c ∈ rest.head?, digit? c = none) :
    Text.takeDigits digit? (digits.chars ++ rest) = (digits.values, rest) :=
  Text.takeDigits_append digits.digits stop

theorem exists_digits_of_takeDigits {text rest : List Char} {values : List Nat}
    (taken : Text.takeDigits digit? text = (values, rest)) (filled : values.isEmpty = false) :
    ∃ digits : Digits, text = digits.chars ++ rest ∧ digits.values = values := by
  obtain ⟨chars, same, all, rfl⟩ := Text.exists_digits_of_takeDigits taken
  refine ⟨⟨chars, ?_, all⟩, same, rfl⟩
  rintro rfl
  cases filled

/-- The decimal number of its digits. -/
def Plain.decimal (plain : Plain) : Decimal :=
  match plain.fraction with
  | none => ⟨plain.negative, Text.digitsValue plain.whole.values, 0⟩
  | some digits =>
    ⟨plain.negative, Text.digitsValue (plain.whole.values ++ digits.values), -digits.values.length⟩

/-- Reads a decimal behind its sign. -/
def readUnsigned? (negative : Bool) (text : List Char) : Option (Decimal × List Char) :=
  let (whole, rest) := Text.takeDigits digit? text
  if whole.isEmpty then none
  else
    match rest with
    | '.' :: behind =>
      let (fraction, rest) := Text.takeDigits digit? behind
      if fraction.isEmpty then none
      else some (⟨negative, Text.digitsValue (whole ++ fraction), -fraction.length⟩, rest)
    | rest => some (⟨negative, Text.digitsValue whole, 0⟩, rest)

theorem readNumeral?_minus (text : List Char) :
    readNumeral? ('-' :: text) = readUnsigned? true text := rfl

theorem readNumeral?_of_head {text : List Char} (first : text.head? ≠ some '-') :
    readNumeral? text = readUnsigned? false text := by
  unfold readNumeral?
  split
  rename_i same
  split at same
  · exact absurd rfl first
  · obtain ⟨rfl, rfl⟩ := Prod.mk.inj same
    rfl

/-- A decimal is read from its digits, up to what can go on with neither a digit nor a point. -/
theorem readUnsigned?_plain (plain : Plain) {rest : List Char}
    (stop : ∀ c ∈ rest.head?, digit? c = none ∧ c ≠ '.') :
    readUnsigned? plain.negative (plain.whole.chars ++ (plain.tail ++ rest)) =
      some (plain.decimal, rest) := by
  obtain ⟨negative, whole, _ | digits⟩ := plain
  · have noDigit : ∀ c ∈ rest.head?, digit? c = none := fun c first => (stop c first).1
    have taken := takeDigits_digits whole noDigit
    show readUnsigned? negative (whole.chars ++ rest) = _
    unfold readUnsigned?
    rw [taken]
    simp only [whole.isEmpty_values, Bool.false_eq_true, if_false]
    split
    · exact absurd rfl (stop '.' rfl).2
    · rfl
  · have noDigit : ∀ c ∈ rest.head?, digit? c = none := fun c first => (stop c first).1
    have point : ∀ c ∈ ('.' :: (digits.chars ++ rest)).head?, digit? c = none := by
      rintro c ⟨⟩
      decide
    show readUnsigned? negative (whole.chars ++ '.' :: (digits.chars ++ rest)) = _
    unfold readUnsigned?
    rw [takeDigits_digits whole point]
    simp only [whole.isEmpty_values, takeDigits_digits digits noDigit, digits.isEmpty_values]
    rfl

theorem exists_of_readUnsigned? {negative : Bool} {text rest : List Char} {decimal : Decimal}
    (read : readUnsigned? negative text = some (decimal, rest)) :
    ∃ plain : Plain, plain.negative = negative ∧ text = plain.whole.chars ++ (plain.tail ++ rest) ∧
      plain.decimal = decimal := by
  unfold readUnsigned? at read
  rcases taken : Text.takeDigits digit? text with ⟨values, after⟩
  rw [taken] at read
  simp only at read
  split at read
  · cases read
  rename_i filled
  obtain ⟨whole, rfl, rfl⟩ := exists_digits_of_takeDigits taken (eq_false_of_ne_true filled)
  split at read
  · rename_i behind
    rcases later : Text.takeDigits digit? behind with ⟨fractionValues, last⟩
    rw [later] at read
    simp only at read
    split at read
    · cases read
    rename_i full
    obtain ⟨digits, rfl, rfl⟩ := exists_digits_of_takeDigits later (eq_false_of_ne_true full)
    obtain ⟨rfl, rfl⟩ := Prod.mk.inj (Option.some.inj read)
    exact ⟨⟨negative, whole, some digits⟩, rfl, rfl, rfl⟩
  · obtain ⟨rfl, rfl⟩ := Prod.mk.inj (Option.some.inj read)
    exact ⟨⟨negative, whole, none⟩, rfl, rfl, rfl⟩

/-- A decimal is read from its characters. -/
theorem readNumeral?_plain (plain : Plain) {rest : List Char}
    (stop : ∀ c ∈ rest.head?, digit? c = none ∧ c ≠ '.') :
    readNumeral? (plain.text ++ rest) = some (plain.decimal, rest) := by
  have read := readUnsigned?_plain plain stop
  unfold Plain.text Plain.sign
  rw [List.append_assoc, List.append_assoc]
  cases sign : plain.negative with
  | true =>
    rw [sign] at read
    exact (readNumeral?_minus _).trans read
  | false =>
    rw [sign] at read
    refine (readNumeral?_of_head ?_).trans read
    obtain ⟨_, ⟨_ | ⟨d, whole⟩, filled, digits⟩, _⟩ := plain
    · exact absurd rfl filled
    · intro first
      obtain rfl : d = '-' := Option.some.inj first
      exact absurd (digits '-' (List.mem_cons_self ..)) (by decide)

theorem exists_of_readNumeral? {text rest : List Char} {decimal : Decimal}
    (read : readNumeral? text = some (decimal, rest)) :
    ∃ plain : Plain, text = plain.text ++ rest ∧ plain.decimal = decimal := by
  by_cases first : text.head? = some '-'
  · obtain ⟨unsigned, rfl⟩ := List.head?_eq_some_iff.1 first
    rw [readNumeral?_minus] at read
    obtain ⟨plain, sign, rfl, same⟩ := exists_of_readUnsigned? read
    refine ⟨plain, ?_, same⟩
    simp [Plain.text, Plain.sign, sign]
  · rw [readNumeral?_of_head first] at read
    obtain ⟨plain, sign, rfl, same⟩ := exists_of_readUnsigned? read
    refine ⟨plain, ?_, same⟩
    simp [Plain.text, Plain.sign, sign]

/-! ## What a length denotes -/

theorem wholePart_eq {chars : List Char} (all : ∀ c ∈ chars, (digit? c).isSome) :
    Plain.wholePart chars = (Text.digitsValue (chars.filterMap digit?) : Nat) := by
  induction chars with
  | nil => rfl
  | cons c chars ih =>
    obtain ⟨d, own⟩ := Option.isSome_iff_exists.1 (all c (List.mem_cons_self ..))
    have rest : ∀ other ∈ chars, (digit? other).isSome :=
      fun other member => all other (List.mem_cons_of_mem _ member)
    have places := Text.digitsValue_append [d] (chars.filterMap digit?)
    rw [Plain.wholePart, ih rest, List.filterMap_cons_some own, ← List.singleton_append, places,
      length_filterMap_digit? rest, own]
    push_cast
    simp [Text.digitsValue]

theorem fractionPart_eq {chars : List Char} (all : ∀ c ∈ chars, (digit? c).isSome) :
    Plain.fractionPart chars =
      (Text.digitsValue (chars.filterMap digit?) : Nat) / 10 ^ chars.length := by
  induction chars with
  | nil => simp [Plain.fractionPart, Text.digitsValue]
  | cons c chars ih =>
    obtain ⟨d, own⟩ := Option.isSome_iff_exists.1 (all c (List.mem_cons_self ..))
    have rest : ∀ other ∈ chars, (digit? other).isSome :=
      fun other member => all other (List.mem_cons_of_mem _ member)
    have places := Text.digitsValue_append [d] (chars.filterMap digit?)
    have lead : Text.digitsValue [d] = d := by simp [Text.digitsValue]
    rw [Plain.fractionPart, ih rest, List.filterMap_cons_some own, ← List.singleton_append, places,
      length_filterMap_digit? rest, own, lead, List.length_cons, pow_succ]
    push_cast
    rw [Option.getD_some]
    field_simp

/-- A decimal number with so many places behind the point. -/
theorem toRat_places (negative : Bool) (digits places : Nat) :
    (⟨negative, digits, -places⟩ : Decimal).toRat =
      if negative then -((digits : Rat) / 10 ^ places) else digits / 10 ^ places := by
  have magnitude : (if (0 : Int) ≤ -places then ((digits * pow10 (-(places : Int)).toNat : Nat) : Rat)
      else mkRat digits (pow10 (- -(places : Int)).toNat)) = digits / 10 ^ places := by
    split
    · obtain rfl : places = 0 := by omega
      simp [pow10]
    · rw [Rat.mkRat_eq_div, neg_neg, Int.toNat_natCast]
      simp [pow10]
  unfold Decimal.toRat
  simp only [magnitude]

/-- The decimal number of a decimal's digits is the number that they denote. -/
theorem toRat_decimal (plain : Plain) : plain.decimal.toRat = plain.value := by
  obtain ⟨negative, whole, fraction⟩ := plain
  have front : Plain.wholePart whole.chars = (Text.digitsValue whole.values : Nat) :=
    wholePart_eq whole.digits
  cases fraction with
  | none =>
    have value : (⟨negative, whole, none⟩ : Plain).value =
        if negative then -(Plain.wholePart whole.chars + 0) else Plain.wholePart whole.chars + 0 := rfl
    refine (toRat_places negative (Text.digitsValue whole.values) 0).trans ?_
    rw [value, front, pow_zero, div_one, add_zero]
  | some digits =>
    have behind := fractionPart_eq digits.digits
    have value : (⟨negative, whole, some digits⟩ : Plain).value =
        if negative then -(Plain.wholePart whole.chars + Plain.fractionPart digits.chars)
        else Plain.wholePart whole.chars + Plain.fractionPart digits.chars := rfl
    have together : ((Text.digitsValue (whole.values ++ digits.values) : Nat) : Rat) /
        10 ^ digits.values.length =
          Plain.wholePart whole.chars + Plain.fractionPart digits.chars := by
      rw [front, behind, Text.digitsValue_append]
      unfold Digits.values
      rw [length_filterMap_digit? digits.digits]
      push_cast
      field_simp
    refine (toRat_places negative _ digits.values.length).trans ?_
    rw [value, together]

/-- A text has a length written in it exactly when it has a form, and the length is that of the
form. -/
theorem ofText?_eq_some_iff {text : List Char} {written : Written} :
    ofText? text = some written ↔
      ∃ form : Form, form.text = text ∧
        written = ⟨form.number.decimal, decide (form.suffix = .points)⟩ := by
  constructor
  · intro read
    obtain ⟨⟨decimal, rest⟩, number, read⟩ := Option.bind_eq_some_iff.1 read
    obtain ⟨points, unit, rfl⟩ := Option.map_eq_some_iff.1 read
    obtain ⟨before, lead⟩ := exists_blanks text
    obtain ⟨plain, digits, rfl⟩ := exists_of_readNumeral? number
    obtain ⟨between, gap⟩ := exists_blanks rest
    obtain ⟨suffix, behind, letters, rfl⟩ := exists_of_readUnit? unit
    refine ⟨⟨before, plain, between, suffix, behind⟩, ?_, rfl⟩
    calc before.chars ++ (plain.text ++ (between.chars ++ (suffix.letters ++ behind.chars)))
        = before.chars ++ (plain.text ++ rest) := by rw [← letters, ← gap]
      _ = text := by rw [← digits, ← lead]
  · rintro ⟨⟨before, plain, between, suffix, behind⟩, rfl, rfl⟩
    have number := readNumeral?_plain plain (digit?_of_behind between suffix behind)
    have unit := readUnit?_letters between suffix behind
    unfold ofText? Form.text
    rw [dropWhile_blanks, dropWhile_of_head not_isBlank_of_plain, number]
    simp only [Option.bind_some, unit, Option.map_some]

/-- A form in pixels, in exact numbers. -/
theorem pixels_form (form : Form) :
    (⟨form.number.decimal, decide (form.suffix = .points)⟩ : Written).pixels = some form.pixels := by
  have number : (Scalar.ofNumeral (.finite form.number.decimal) : Option Rat) =
      some form.number.value := congrArg some (toRat_decimal form.number)
  unfold Written.pixels Form.pixels
  rw [number]
  cases form.suffix with
  | bare | pixels => rfl
  | points =>
    have ratio : (Scalar.ofRatio 3 4 : Rat) = 3 / 4 := Rat.mkRat_eq_div 3 4
    show some (form.number.value / Scalar.ofRatio 3 4) = _
    rw [ratio]

/-- Reading the characters of a form gives what it denotes. -/
theorem ofValue_form (form : Form) :
    ofValue (.text (String.ofList form.text)) = .ok (some form.pixels) := by
  have read := ofText?_eq_some_iff.2 ⟨form, rfl, rfl⟩
  show Except.ok ((ofText? (String.ofList form.text).toList).bind Written.pixels) = _
  rw [String.toList_ofList, read, Option.bind_some, pixels_form]

/-- A text without a form gives no length, in numbers of any kind. -/
theorem ofValue_of_formless {α : Type} [Scalar α] {content : String}
    (formless : ¬ ∃ form : Form, form.text = content.toList) :
    (ofValue (.text content) : Except NumberFault (Option α)) = .ok none := by
  have unread : ofText? content.toList = none := by
    rw [Option.eq_none_iff_forall_ne_some]
    intro written read
    obtain ⟨form, same, _⟩ := ofText?_eq_some_iff.1 read
    exact formless ⟨form, same⟩
  show Except.ok ((ofText? content.toList).bind Written.pixels) = _
  rw [unread]
  rfl

/-- Reading a text as a length gives what a form of the text denotes, and nothing when the text has no
form; in binary numbers it gives something for the same texts. So a decimal has one value, whether it
stands alone, with a unit of pixels, or with blanks anywhere around either. -/
theorem reads_forms (content : String) :
    (∀ found : Option Rat, ofValue (.text content) = .ok found ↔
      (∃ form : Form, form.text = content.toList ∧ found = some form.pixels) ∨
        (¬ ∃ form : Form, form.text = content.toList) ∧ found = none) ∧
    ((∃ number : Float, ofValue (.text content) = .ok (some number)) ↔
      ∃ form : Form, form.text = content.toList) ∧
    ∀ (plain : Plain) (before between behind : Blanks),
      ofValue (.text (String.ofList plain.text)) = .ok (some plain.value) ∧
      ofValue (.text (String.ofList (plain.text ++ ['p', 'x']))) = .ok (some plain.value) ∧
      ofValue (.text (String.ofList (Form.text ⟨before, plain, between, .bare, behind⟩))) =
        .ok (some plain.value) ∧
      ofValue (.text (String.ofList (Form.text ⟨before, plain, between, .pixels, behind⟩))) =
        .ok (some plain.value) := by
  have formed {form : Form} (same : form.text = content.toList) :
      ofValue (.text content) = .ok (some form.pixels) := by
    rw [← String.ofList_toList (s := content), ← same]
    exact ofValue_form form
  refine ⟨fun found => ?_, ?_, fun plain before between behind => ?_⟩
  · by_cases known : ∃ form : Form, form.text = content.toList
    · obtain ⟨form, same⟩ := known
      constructor
      · intro read
        exact Or.inl ⟨form, same, Except.ok.inj (read.symm.trans (formed same))⟩
      · rintro (⟨other, alike, rfl⟩ | ⟨formless, _⟩)
        · exact formed alike
        · exact absurd ⟨form, same⟩ formless
    · constructor
      · intro read
        exact Or.inr ⟨known, Except.ok.inj (read.symm.trans (ofValue_of_formless known))⟩
      · rintro (⟨form, same, _⟩ | ⟨_, rfl⟩)
        · exact absurd ⟨form, same⟩ known
        · exact ofValue_of_formless known
  · constructor
    · rintro ⟨number, read⟩
      by_contra formless
      cases read.symm.trans (ofValue_of_formless formless)
    · rintro ⟨form, same⟩
      have read := ofText?_eq_some_iff.2 ⟨form, same, rfl⟩
      have given (written : Written) : ∃ number : Float, written.pixels = some number := ⟨_, rfl⟩
      obtain ⟨number, binary⟩ := given ⟨form.number.decimal, decide (form.suffix = .points)⟩
      refine ⟨number, ?_⟩
      show Except.ok ((ofText? content.toList).bind Written.pixels) = _
      rw [read, Option.bind_some, binary]
  · have alone := ofValue_form ⟨.empty, plain, .empty, .bare, .empty⟩
    have suffixed := ofValue_form ⟨.empty, plain, .empty, .pixels, .empty⟩
    have bare : Form.text ⟨.empty, plain, .empty, .bare, .empty⟩ = plain.text := List.append_nil _
    rw [bare] at alone
    exact ⟨alone, suffixed, ofValue_form _, ofValue_form _⟩

example : ["+12", "1e3", "1.", ".5", "- 1", "12em", "50%", "12px3"].all
    fun text => (ofText? text.toList).isNone := by decide +kernel

end Length

end Receipt
