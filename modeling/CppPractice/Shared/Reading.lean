import Mathlib.Data.List.TakeWhile
import Mathlib.Tactic.Ring
import Mathlib.Tactic.SplitIfs

set_option autoImplicit false

namespace CppPractice.Reading

-- `isspace` in the "C" locale.
def isSpace (ch : Char) : Bool := decide (ch = ' ' ∨ 9 ≤ ch.toNat ∧ ch.toNat ≤ 13)

def skipSpace (input : List Char) : List Char := input.dropWhile isSpace

-- `ignore` up to the end of the line.
def skipLine (input : List Char) : List Char := (input.dropWhile fun ch => ch ≠ '\n').tail

def readWord (input : List Char) : List Char × List Char :=
  let input := skipSpace input
  (input.takeWhile fun ch => !isSpace ch, input.dropWhile fun ch => !isSpace ch)

structure Number where
  negative : Bool
  digits : List Char

def readSign (input : List Char) : Bool × List Char :=
  match input with
  | '-' :: rest => (true, rest)
  | '+' :: rest => (false, rest)
  | _ => (false, input)

def readNumber (input : List Char) : Number × List Char :=
  let (negative, input) := readSign (skipSpace input)
  (⟨negative, input.takeWhile Char.isDigit⟩, input.dropWhile Char.isDigit)

def Number.value (n : Number) : Int :=
  if n.negative then -(Nat.ofDigitChars 10 n.digits 0 : Int) else Nat.ofDigitChars 10 n.digits 0

-- `none` is `failbit`: there is no digit, or the number does not fit.
def Number.toSigned (bits : Nat) (n : Number) : Option Int :=
  if n.digits ≠ [] ∧ -2 ^ (bits - 1) ≤ n.value ∧ n.value < 2 ^ (bits - 1) then some n.value
  else none

-- A minus sign is taken, and the number then counts modulo `2 ^ bits`.
def Number.toUnsigned (bits : Nat) (n : Number) : Option Nat :=
  if n.digits ≠ [] ∧ n.value.natAbs < 2 ^ bits then some (n.value % 2 ^ bits).toNat else none

def minus (negative : Bool) : List Char := if negative then ['-'] else []

def decimal (v : Int) : List Char := minus (decide (v < 0)) ++ Nat.toDigits 10 v.natAbs

section

variable {input rest : List Char}

theorem skipLine_lt (some : input ≠ []) : (skipLine input).length < input.length := by
  rw [skipLine, List.length_tail]
  have := List.length_dropWhile_le (fun ch => decide (ch ≠ '\n')) input
  have := List.length_pos_iff.mpr some
  omega

theorem readWord_length : (readWord input).2.length ≤ input.length :=
  (List.length_dropWhile_le _ _).trans (List.length_dropWhile_le _ _)

theorem readSign_suffix (input : List Char) : (readSign input).2 <:+ input := by
  unfold readSign
  split
  · exact List.suffix_cons _ _
  · exact List.suffix_cons _ _
  · exact List.suffix_rfl

theorem readSign_length (input : List Char) : (readSign input).2.length ≤ input.length :=
  (readSign_suffix input).length_le

theorem readNumber_rest (input : List Char) :
    (readNumber input).1.digits ++ (readNumber input).2 = (readSign (skipSpace input)).2 :=
  List.takeWhile_append_dropWhile

theorem readNumber_length (input : List Char) :
    (readNumber input).2.length ≤ (skipSpace input).length := by
  have whole := congrArg List.length (readNumber_rest input)
  rw [List.length_append] at whole
  have := readSign_length (skipSpace input)
  omega

theorem skipSpace_length (input : List Char) : (skipSpace input).length ≤ input.length :=
  List.length_dropWhile_le _ _

theorem skipLine_readNumber_lt (typed : skipSpace input ≠ []) :
    (skipLine (readNumber input).2).length < input.length := by
  have some := List.length_pos_iff.mpr typed
  have whole := skipSpace_length input
  have left := readNumber_length input
  by_cases rest : (readNumber input).2 = []
  · rw [rest]
    exact some.trans_le whole
  · have := skipLine_lt rest
    omega

theorem readNumber_lt (some : (readNumber input).1.digits ≠ []) :
    (readNumber input).2.length < input.length := by
  have whole := congrArg List.length (readNumber_rest input)
  rw [List.length_append] at whole
  have := List.length_pos_iff.mpr some
  have := readSign_length (skipSpace input)
  have := skipSpace_length input
  omega

def Stops (p : Char → Bool) (rest : List Char) : Prop := ∀ ch ∈ rest.head?, p ch = false

theorem takeWhile_stops {p : Char → Bool} (stops : Stops p rest) : rest.takeWhile p = [] := by
  cases rest with
  | nil => rfl
  | cons ch rest => exact List.takeWhile_cons_of_neg (by simp [stops ch rfl])

theorem takeWhile_append {p : Char → Bool} (text : List Char) (stops : Stops p rest) :
    (text ++ rest).takeWhile p = text.takeWhile p := by
  rw [List.takeWhile_append, takeWhile_stops stops, List.append_nil]
  split
  · rename_i whole
    exact ((List.takeWhile_prefix p).eq_of_length whole).symm
  · rfl

theorem takeWhile_field {p : Char → Bool} {field : List Char} (all : ∀ ch ∈ field, p ch = true)
    (stops : Stops p rest) : (field ++ rest).takeWhile p = field := by
  rw [takeWhile_append field stops, List.takeWhile_eq_self_iff.mpr all]

theorem dropWhile_append {p : Char → Bool} (text : List Char) (stops : Stops p rest) :
    (text ++ rest).dropWhile p = text.dropWhile p ++ rest := by
  have whole := List.takeWhile_append_dropWhile (p := p) (l := text ++ rest)
  rw [takeWhile_append text stops] at whole
  have part := List.takeWhile_append_dropWhile (p := p) (l := text)
  have same : text.takeWhile p ++ (text ++ rest).dropWhile p =
      text.takeWhile p ++ (text.dropWhile p ++ rest) := by
    rw [whole, ← List.append_assoc, part]
  exact List.append_cancel_left same

theorem dropWhile_field {p : Char → Bool} {field : List Char} (all : ∀ ch ∈ field, p ch = true)
    (stops : Stops p rest) : (field ++ rest).dropWhile p = rest := by
  rw [dropWhile_append field stops, List.dropWhile_eq_nil_iff.mpr all, List.nil_append]

theorem field_cancel {p : Char → Bool} {field field' rest' : List Char}
    (all : ∀ ch ∈ field, p ch = true) (all' : ∀ ch ∈ field', p ch = true) (stops : Stops p rest)
    (stops' : Stops p rest') (same : field ++ rest = field' ++ rest') :
    field = field' ∧ rest = rest' := by
  refine ⟨?_, ?_⟩
  · rw [← takeWhile_field all stops, same, takeWhile_field all' stops']
  · rw [← dropWhile_field all stops, same, dropWhile_field all' stops']

theorem isDigit_iff {ch : Char} : ch.isDigit = true ↔ 48 ≤ ch.toNat ∧ ch.toNat ≤ 57 := by
  simp only [Char.isDigit, Bool.and_eq_true, decide_eq_true_eq, ge_iff_le, UInt32.le_iff_toNat_le]
  rfl

theorem notSpace_of_isDigit {ch : Char} (digit : ch.isDigit = true) : isSpace ch = false := by
  rw [isDigit_iff] at digit
  have apart : ch ≠ ' ' := by
    rintro rfl
    exact absurd digit.1 (by decide)
  simp only [isSpace, decide_eq_false_iff_not, not_or, not_and]
  exact ⟨apart, fun _ => by omega⟩

def Breaks (rest : List Char) : Prop := ∀ ch ∈ rest.head?, isSpace ch = true

theorem breaks_nil : Breaks [] := nofun

theorem Breaks.word (breaks : Breaks rest) : Stops (fun ch => !isSpace ch) rest := fun ch first =>
  congrArg Bool.not (breaks ch first)

theorem Breaks.digit (breaks : Breaks rest) : Stops Char.isDigit rest := by
  intro ch first
  by_contra digit
  have dark := notSpace_of_isDigit (Bool.eq_true_of_not_eq_false digit)
  exact absurd ((breaks ch first).symm.trans dark) (by decide)

theorem Breaks.append {text : List Char} (breaks : Breaks text) (some : text ≠ [])
    (rest : List Char) : Breaks (text ++ rest) := by
  obtain ⟨ch, tail, rfl⟩ := List.exists_cons_of_ne_nil some
  exact breaks

theorem decimal_digits (n : Nat) : ∀ ch ∈ Nat.toDigits 10 n, ch.isDigit = true :=
  fun _ member => Nat.isDigit_of_mem_toDigits (by decide) (by decide) member

def signs (negative : Bool) : List (List Char) := if negative then [['-']] else [[], ['+']]

theorem signs_dark {negative : Bool} {sign : List Char} (written : sign ∈ signs negative) :
    ∀ ch ∈ sign, isSpace ch = false := by
  cases negative <;> simp [signs] at written
  · rcases written with rfl | rfl
    · exact List.forall_mem_nil _
    · exact List.forall_mem_singleton.mpr rfl
  · rw [written]
    exact List.forall_mem_singleton.mpr rfl

structure Written (n : Number) (text : List Char) : Prop where
  some : n.digits ≠ []
  digits : ∀ ch ∈ n.digits, ch.isDigit = true
  text : ∃ sign ∈ signs n.negative, text = sign ++ n.digits

theorem readSign_sign {negative : Bool} {sign digits : List Char} (written : sign ∈ signs negative)
    (all : ∀ ch ∈ digits, ch.isDigit = true) (some : digits ≠ []) :
    readSign (sign ++ (digits ++ rest)) = (negative, digits ++ rest) := by
  obtain ⟨ch, tail, rfl⟩ := List.exists_cons_of_ne_nil some
  have digit := isDigit_iff.mp (all ch List.mem_cons_self)
  cases negative <;> simp [signs] at written
  · rcases written with rfl | rfl
    · rw [List.nil_append, List.cons_append, readSign]
      · rintro _ ⟨⟩
        exact absurd digit.1 (by decide)
      · rintro _ ⟨⟩
        exact absurd digit.1 (by decide)
    · rfl
  · rw [written]
    rfl

theorem Written.dark {n : Number} {text : List Char} (written : Written n text) :
    ∃ ch tail, text = ch :: tail ∧ isSpace ch = false := by
  obtain ⟨sign, member, rfl⟩ := written.text
  obtain ⟨ch, tail, same⟩ := List.exists_cons_of_ne_nil
    (List.append_ne_nil_of_right_ne_nil sign written.some)
  refine ⟨ch, tail, same, ?_⟩
  have here : ch ∈ sign ++ n.digits := by simp [same]
  rcases List.mem_append.mp here with before | digit
  · exact signs_dark member ch before
  · exact notSpace_of_isDigit (written.digits ch digit)

theorem Written.read {n : Number} {space text : List Char} (written : Written n text)
    (blank : ∀ ch ∈ space, isSpace ch = true) (breaks : Breaks rest) :
    readNumber (space ++ (text ++ rest)) = (n, rest) := by
  have start : Stops isSpace (text ++ rest) := by
    obtain ⟨ch, tail, rfl, dark⟩ := written.dark
    rintro _ ⟨⟩
    exact dark
  rw [readNumber, skipSpace, dropWhile_field blank start]
  obtain ⟨sign, member, rfl⟩ := written.text
  rw [List.append_assoc, readSign_sign member written.digits written.some]
  dsimp only
  rw [takeWhile_field written.digits breaks.digit, dropWhile_field written.digits breaks.digit]

theorem minus_written (negative : Bool) {digits : List Char}
    (all : ∀ ch ∈ digits, ch.isDigit = true) (some : digits ≠ []) :
    Written ⟨negative, digits⟩ (minus negative ++ digits) :=
  ⟨some, all, minus negative, by cases negative <;> simp [minus, signs], rfl⟩

theorem decimal_written (v : Int) : Written ⟨decide (v < 0), Nat.toDigits 10 v.natAbs⟩ (decimal v) :=
  minus_written _ (decimal_digits _) Nat.toDigits_ne_nil

theorem value_digits {v : Int} {digits : List Char}
    (units : Nat.ofDigitChars 10 digits 0 = v.natAbs) :
    Number.value ⟨decide (v < 0), digits⟩ = v := by
  rw [Number.value, units]
  split_ifs with negative
  · have := of_decide_eq_true negative
    omega
  · have := of_decide_eq_false (Bool.eq_false_iff.mpr negative)
    omega

theorem value_decimal (v : Int) :
    Number.value ⟨decide (v < 0), Nat.toDigits 10 v.natAbs⟩ = v :=
  value_digits Nat.ofDigitChars_ten_toDigits

theorem skipSpace_space {space : List Char} (blank : ∀ ch ∈ space, isSpace ch = true) :
    skipSpace (space ++ rest) = skipSpace rest :=
  List.dropWhile_append_of_pos blank

theorem readNumber_space {space : List Char} (blank : ∀ ch ∈ space, isSpace ch = true) :
    readNumber (space ++ rest) = readNumber rest := by
  rw [readNumber, readNumber, skipSpace_space blank]

theorem toSigned_decimal {bits : Nat} {v : Int} (low : -2 ^ (bits - 1) ≤ v)
    (high : v < 2 ^ (bits - 1)) :
    Number.toSigned bits ⟨decide (v < 0), Nat.toDigits 10 v.natAbs⟩ = some v := by
  rw [Number.toSigned, value_decimal, if_pos ⟨Nat.toDigits_ne_nil, low, high⟩]

theorem toSigned_range {bits : Nat} {n : Number} {v : Int} (accepted : n.toSigned bits = some v) :
    -2 ^ (bits - 1) ≤ v ∧ v < 2 ^ (bits - 1) := by
  rw [Number.toSigned] at accepted
  split_ifs at accepted with fits
  cases accepted
  exact fits.2

theorem toUnsigned_range {bits : Nat} {n : Number} {v : Nat}
    (accepted : n.toUnsigned bits = some v) : v < 2 ^ bits := by
  rw [Number.toUnsigned] at accepted
  split_ifs at accepted with fits
  cases accepted
  have low : (0 : Int) ≤ n.value % 2 ^ bits := Int.emod_nonneg _ (Int.pow_ne_zero (by decide))
  have high : n.value % 2 ^ bits < 2 ^ bits := Int.emod_lt_of_pos _ (Int.pow_pos (by decide))
  exact (Int.toNat_lt low).mpr (by exact_mod_cast high)

theorem toUnsigned_decimal {bits n : Nat} (high : n < 2 ^ bits) :
    Number.toUnsigned bits ⟨decide ((n : Int) < 0), Nat.toDigits 10 (n : Int).natAbs⟩ = some n := by
  rw [Number.toUnsigned, value_decimal, if_pos ⟨Nat.toDigits_ne_nil, high⟩,
    Int.emod_eq_of_lt (Int.natCast_nonneg n) (by exact_mod_cast high), Int.toNat_natCast]

theorem readWord_word {space word : List Char} (blank : ∀ ch ∈ space, isSpace ch = true)
    (some : word ≠ []) (dark : ∀ ch ∈ word, isSpace ch = false)
    (breaks : Breaks rest) :
    readWord (space ++ (word ++ rest)) = (word, rest) := by
  have start : Stops isSpace (word ++ rest) := by
    obtain ⟨ch, tail, rfl⟩ := List.exists_cons_of_ne_nil some
    rintro _ ⟨⟩
    exact dark ch List.mem_cons_self
  have letters : ∀ ch ∈ word, (!isSpace ch) = true := fun ch member => by rw [dark ch member]; rfl
  rw [readWord, skipSpace, dropWhile_field blank start, takeWhile_field letters breaks.word,
    dropWhile_field letters breaks.word]

theorem skipSpace_append {line : List Char} (dark : skipSpace line ≠ []) (rest : List Char) :
    skipSpace (line ++ rest) = skipSpace line ++ rest := by
  rw [skipSpace, List.dropWhile_append, if_neg (by simpa [skipSpace] using dark)]
  rfl

theorem readSign_append {line : List Char} (some : line ≠ []) (rest : List Char) :
    readSign (line ++ rest) = ((readSign line).1, (readSign line).2 ++ rest) := by
  obtain ⟨ch, tail, rfl⟩ := List.exists_cons_of_ne_nil some
  rw [List.cons_append]
  unfold readSign
  split <;> simp_all

theorem readNumber_line {line : List Char} (dark : skipSpace line ≠ []) (rest : List Char) :
    readNumber (line ++ '\n' :: rest) =
      ((readNumber line).1, (readNumber line).2 ++ '\n' :: rest) := by
  have stops : Stops Char.isDigit ('\n' :: rest) := by
    rintro _ ⟨⟩
    decide
  rw [readNumber, readNumber, skipSpace_append dark, readSign_append dark]
  dsimp only
  rw [takeWhile_append _ stops, dropWhile_append _ stops]

theorem readNumber_suffix (input : List Char) : (readNumber input).2 <:+ input :=
  ((List.dropWhile_suffix _).trans (readSign_suffix _)).trans (List.dropWhile_suffix _)

theorem skipLine_line {line : List Char} (oneLine : '\n' ∉ line) (rest : List Char) :
    skipLine (line ++ '\n' :: rest) = rest := by
  have stops : Stops (fun ch => decide (ch ≠ '\n')) ('\n' :: rest) := by
    rintro _ ⟨⟩
    decide
  have others : ∀ ch ∈ line, decide (ch ≠ '\n') = true := by
    intro ch member
    rw [decide_eq_true_eq]
    rintro rfl
    exact oneLine member
  rw [skipLine, dropWhile_field others stops]
  rfl

end

end CppPractice.Reading
