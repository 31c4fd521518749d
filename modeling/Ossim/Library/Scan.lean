import Mathlib.Data.BitVec
import Mathlib.Tactic

namespace Ossim
namespace Scan

/-!
# Formatted input

The conversions of the C `scanf` family and the line reader `fgets`, on a text
that is a list of characters without `NUL`.  A conversion returns what it has
read, if anything, together with the text that it leaves unread; both matter
after a failure too, because the next call starts there.

Numbers are printed in decimal.  What was printed is read back wherever a number
is followed by white space or by the end of the text.
-/

/-- White space of the C locale. -/
def isSpace (c : Char) : Bool := c == ' ' || (9 ≤ c.toNat && c.toNat ≤ 13)

def skipSpace (text : List Char) : List Char := text.dropWhile isSpace

/-- `%s`.  At the end of the text nothing is read. -/
def scanString (text : List Char) : Option (List Char) × List Char :=
  let start := skipSpace text
  if start = [] then (none, [])
  else (some (start.takeWhile fun c => !isSpace c), start.dropWhile fun c => !isSpace c)

/-- An optional sign, as whether it is a minus. -/
def scanSign : List Char → Bool × List Char
  | '-' :: rest => (true, rest)
  | '+' :: rest => (false, rest)
  | text => (false, text)

/-- `%u` for a type of `w` bits.  The number is read as an `unsigned long`, which
becomes its largest value when the number does not fit, and is narrowed. -/
def scanUnsigned (w : Nat) (text : List Char) : Option (BitVec w) × List Char :=
  let signed := scanSign (skipSpace text)
  let digits := signed.2.takeWhile Char.isDigit
  let rest := signed.2.dropWhile Char.isDigit
  if digits = [] then (none, rest)
  else
    let magnitude := Nat.ofDigitChars 10 digits 0
    let number : BitVec 64 :=
      if 2 ^ 64 ≤ magnitude then BitVec.allOnes 64
      else if signed.1 then -BitVec.ofNat 64 magnitude
      else BitVec.ofNat 64 magnitude
    (some (number.setWidth w), rest)

/-- Several unsigned conversions in a row, up to the first that fails.  The
numbers that were assigned are returned. -/
def scanUnsigneds (w : Nat) : Nat → List Char → List (BitVec w) × List Char
  | 0, text => ([], text)
  | count + 1, text =>
      match scanUnsigned w text with
      | (none, rest) => ([], rest)
      | (some value, rest) =>
          let later := scanUnsigneds w count rest
          (value :: later.1, later.2)

/-- `%d` for a type of `w` bits.  The number is read as a `long`, which keeps the
nearest value that it has, and is narrowed. -/
def scanSigned (w : Nat) (text : List Char) : Option (BitVec w) × List Char :=
  let signed := scanSign (skipSpace text)
  let digits := signed.2.takeWhile Char.isDigit
  let rest := signed.2.dropWhile Char.isDigit
  if digits = [] then (none, rest)
  else
    let magnitude := Nat.ofDigitChars 10 digits 0
    (some (BitVec.ofInt w
      (if signed.1 then max (-(magnitude : Int)) (-2 ^ 63)
      else min (magnitude : Int) (2 ^ 63 - 1))), rest)

/-- The characters up to and including the first newline, at most `limit`. -/
def splitLine : Nat → List Char → List Char × List Char
  | 0, text => ([], text)
  | _ + 1, [] => ([], [])
  | limit + 1, c :: text =>
      if c = '\n' then ([c], text)
      else
        let later := splitLine limit text
        (c :: later.1, later.2)

/-- `fgets` into a buffer of this size. -/
def getLine (size : Nat) (text : List Char) : Option (List Char) × List Char :=
  if text = [] then (none, []) else
    let line := splitLine (size - 1) text
    (some line.1, line.2)

def numeral (value : Nat) : List Char := Nat.toDigits 10 value

/-- Numbers with one blank before each. -/
def spaced {w : Nat} (values : List (BitVec w)) : List Char :=
  values.flatMap fun value => ' ' :: numeral value.toNat

/-- A word ends where the text does or where white space follows. -/
def Ended (text : List Char) : Prop := ∀ c ∈ text.head?, isSpace c = true

/-! ## Words -/

theorem isSpace_blank : isSpace ' ' = true := by
  decide

theorem isSpace_of_isDigit {c : Char} (digit : c.isDigit = true) : isSpace c = false := by
  rw [Char.isDigit, Bool.and_eq_true, decide_eq_true_eq, decide_eq_true_eq] at digit
  have lower : 48 ≤ c.toNat := UInt32.le_iff_toNat_le.mp digit.1
  have notBlank : c ≠ ' ' := by
    rintro rfl
    exact absurd lower (by decide)
  rw [isSpace, Bool.or_eq_false_iff, Bool.and_eq_false_iff, decide_eq_false_iff_not,
    decide_eq_false_iff_not]
  exact ⟨beq_eq_false_iff_ne.mpr notBlank, Or.inr (by omega)⟩

theorem skipSpace_cons_space {c : Char} (space : isSpace c = true) (text : List Char) :
    skipSpace (c :: text) = skipSpace text :=
  List.dropWhile_cons_of_pos space

theorem skipSpace_append {spaces : List Char} (all : ∀ c ∈ spaces, isSpace c = true)
    (text : List Char) : skipSpace (spaces ++ text) = skipSpace text := by
  induction spaces with
  | nil => rfl
  | cons c spaces inductionHypothesis =>
      rw [List.cons_append, skipSpace_cons_space (all c List.mem_cons_self)]
      exact inductionHypothesis fun d member => all d (List.mem_cons_of_mem _ member)

theorem skipSpace_skipSpace (text : List Char) : skipSpace (skipSpace text) = skipSpace text := by
  induction text with
  | nil => rfl
  | cons c text inductionHypothesis =>
      by_cases space : isSpace c = true
      · rw [skipSpace_cons_space space]
        exact inductionHypothesis
      · have kept : skipSpace (c :: text) = c :: text := List.dropWhile_cons_of_neg space
        rw [kept, kept]

/-- A text that starts with a word is not shortened. -/
theorem skipSpace_word {word : List Char} (nonempty : word ≠ [])
    (solid : ∀ c ∈ word, isSpace c = false) (rest : List Char) :
    skipSpace (word ++ rest) = word ++ rest := by
  cases word with
  | nil => exact absurd rfl nonempty
  | cons c word =>
      have first : ¬ isSpace c = true := by
        rw [solid c List.mem_cons_self]
        exact Bool.false_ne_true
      exact List.dropWhile_cons_of_neg first

/-- Cutting off a run of matching characters that ends where the text does or at
a character that does not match. -/
theorem span_append (keep : Char → Bool) (run rest : List Char) (all : ∀ c ∈ run, keep c = true)
    (stop : ∀ c ∈ rest.head?, keep c = false) :
    (run ++ rest).takeWhile keep = run ∧ (run ++ rest).dropWhile keep = rest := by
  have none : rest.takeWhile keep = [] ∧ rest.dropWhile keep = rest := by
    cases rest with
    | nil => exact ⟨rfl, rfl⟩
    | cons c rest =>
        have first : ¬ keep c = true := by
          rw [stop c rfl]
          exact Bool.false_ne_true
        exact ⟨List.takeWhile_cons_of_neg first, List.dropWhile_cons_of_neg first⟩
  constructor
  · rw [List.takeWhile_append_of_pos all, none.1, List.append_nil]
  · rw [List.dropWhile_append_of_pos all, none.2]

/-- `%s` reads the next word. -/
theorem scanString_word {text word rest : List Char} (nonempty : word ≠ [])
    (solid : ∀ c ∈ word, isSpace c = false) (ended : Ended rest)
    (reached : skipSpace text = word ++ rest) : scanString text = (some word, rest) := by
  have started : ¬ word ++ rest = [] := by
    rw [List.append_eq_nil_iff]
    exact fun both => nonempty both.1
  have cut := span_append (fun c => !isSpace c) word rest
    (fun c member => by rw [solid c member]; rfl) (fun c member => by rw [ended c member]; rfl)
  rw [scanString, reached, if_neg started, cut.1, cut.2]

/-- `%s` reads nothing where only white space is left. -/
theorem scanString_blank {text : List Char} (blank : skipSpace text = []) :
    scanString text = (none, []) := by
  rw [scanString, blank]
  rfl

/-! ## Numbers -/

theorem numeral_ne_nil (value : Nat) : numeral value ≠ [] := Nat.toDigits_ne_nil

theorem isDigit_of_mem_numeral {value : Nat} {c : Char} (member : c ∈ numeral value) :
    c.isDigit = true :=
  Nat.isDigit_of_mem_toDigits (by decide) (by decide) member

theorem isSpace_of_mem_numeral {value : Nat} {c : Char} (member : c ∈ numeral value) :
    isSpace c = false :=
  isSpace_of_isDigit (isDigit_of_mem_numeral member)

theorem isDigit_of_ended {text : List Char} (ended : Ended text) :
    ∀ c ∈ text.head?, c.isDigit = false := by
  intro c first
  by_contra digit
  have space := ended c first
  rw [isSpace_of_isDigit (Bool.eq_true_of_not_eq_false digit)] at space
  cases space

/-- A digit is no sign. -/
theorem scanSign_numeral (value : Nat) (rest : List Char) :
    scanSign (numeral value ++ rest) = (false, numeral value ++ rest) := by
  have digits : ∀ c ∈ numeral value, c.isDigit = true := fun _ => isDigit_of_mem_numeral
  cases printed : numeral value with
  | nil => exact absurd printed (numeral_ne_nil value)
  | cons c digitsLeft =>
      have digit : c.isDigit = true := digits c (by rw [printed]; exact List.mem_cons_self)
      rw [List.cons_append]
      unfold scanSign
      split
      · next same =>
          rw [(List.cons.inj same).1] at digit
          exact absurd digit (by decide)
      · next same =>
          rw [(List.cons.inj same).1] at digit
          exact absurd digit (by decide)
      · rfl

/-- A printed number is read back. -/
theorem scanUnsigned_numeral {w : Nat} (narrow : w ≤ 64) (value : BitVec w)
    {text rest : List Char} (ended : Ended rest) (reached : skipSpace text = numeral value.toNat ++ rest) :
    scanUnsigned w text = (some value, rest) := by
  have cut := span_append Char.isDigit (numeral value.toNat) rest
    (fun _ => isDigit_of_mem_numeral) (isDigit_of_ended ended)
  have small : value.toNat < 2 ^ 64 :=
    lt_of_lt_of_le value.isLt (Nat.pow_le_pow_right (by decide) narrow)
  have narrowed : (BitVec.ofNat 64 value.toNat).setWidth w = value := by
    apply BitVec.eq_of_toNat_eq
    rw [BitVec.toNat_setWidth, BitVec.toNat_ofNat, Nat.mod_eq_of_lt small,
      Nat.mod_eq_of_lt value.isLt]
  rw [scanUnsigned, reached]
  dsimp only
  rw [scanSign_numeral, cut.1, cut.2, if_neg (numeral_ne_nil _), numeral,
    Nat.ofDigitChars_ten_toDigits, if_neg (Nat.not_le.mpr small), if_neg Bool.false_ne_true,
    narrowed]

theorem ended_spaced {w : Nat} (values : List (BitVec w)) {rest : List Char} (ended : Ended rest) :
    Ended (spaced values ++ rest) := by
  cases values with
  | nil => exact ended
  | cons value values =>
      intro c first
      cases first
      exact isSpace_blank

/-- A row of printed numbers is read back. -/
theorem scanUnsigneds_spaced {w : Nat} (narrow : w ≤ 64) (values : List (BitVec w))
    {rest : List Char} (ended : Ended rest) :
    scanUnsigneds w values.length (spaced values ++ rest) = (values, rest) := by
  induction values with
  | nil => rfl
  | cons value values inductionHypothesis =>
      have reached : skipSpace (spaced (value :: values) ++ rest) =
          numeral value.toNat ++ (spaced values ++ rest) := by
        have parts : spaced (value :: values) ++ rest =
            ' ' :: (numeral value.toNat ++ (spaced values ++ rest)) := by
          simp [spaced, List.append_assoc]
        rw [parts, skipSpace_cons_space isSpace_blank]
        exact skipSpace_word (numeral_ne_nil _) (fun _ => isSpace_of_mem_numeral) _
      rw [List.length_cons, scanUnsigneds,
        scanUnsigned_numeral narrow value (ended_spaced values ended) reached]
      dsimp only
      rw [inductionHypothesis]

/-- A printed number of a `long` is read back. -/
theorem scanSigned_numeral (w value : Nat) (small : value < 2 ^ 63) {text rest : List Char}
    (ended : Ended rest) (reached : skipSpace text = numeral value ++ rest) :
    scanSigned w text = (some (BitVec.ofNat w value), rest) := by
  have cut := span_append Char.isDigit (numeral value) rest
    (fun _ => isDigit_of_mem_numeral) (isDigit_of_ended ended)
  have kept : min (value : Int) (2 ^ 63 - 1) = value := min_eq_left (by omega)
  rw [scanSigned, reached]
  dsimp only
  rw [scanSign_numeral, cut.1, cut.2, if_neg (numeral_ne_nil _), numeral,
    Nat.ofDigitChars_ten_toDigits, if_neg Bool.false_ne_true, kept, BitVec.ofInt_natCast]

/-! ## Texts in any layout -/

/-- The text consists of these words, with white space between them and possibly
around them. -/
def Spells : List (List Char) → List Char → Prop
  | [], text => skipSpace text = []
  | word :: words, text => ∃ rest, skipSpace text = word ++ rest ∧ Ended rest ∧ Spells words rest

/-- Leading white space does not matter. -/
theorem spells_skipSpace (words : List (List Char)) (text : List Char) :
    Spells words (skipSpace text) ↔ Spells words text := by
  cases words with
  | nil => rw [Spells, Spells, skipSpace_skipSpace]
  | cons word words => simp only [Spells, skipSpace_skipSpace]

/-- Words with white space in front of each spell themselves.  Only the first may
stand at the start of the text. -/
theorem spells_separated (parts : List (List Char × List Char))
    (words : ∀ part ∈ parts, part.2 ≠ [] ∧ ∀ c ∈ part.2, isSpace c = false)
    (spaces : ∀ part ∈ parts, ∀ c ∈ part.1, isSpace c = true)
    (gaps : ∀ part ∈ parts.tail, part.1 ≠ []) {tail : List Char}
    (blank : ∀ c ∈ tail, isSpace c = true) :
    Spells (parts.map Prod.snd) (parts.flatMap (fun part => part.1 ++ part.2) ++ tail) := by
  induction parts with
  | nil =>
      have skipped := skipSpace_append blank []
      rwa [List.append_nil] at skipped
  | cons part parts inductionHypothesis =>
      rcases words part List.mem_cons_self with ⟨nonempty, solid⟩
      have later := inductionHypothesis (fun other member => words other (List.mem_cons_of_mem _ member))
        (fun other member => spaces other (List.mem_cons_of_mem _ member))
        fun other member => gaps other (List.mem_of_mem_tail member)
      refine ⟨_, ?_, ?_, later⟩
      · rw [List.flatMap_cons, List.append_assoc, List.append_assoc,
          skipSpace_append (spaces part List.mem_cons_self), skipSpace_word nonempty solid]
      · -- the next thing is a gap, or what stands behind the last word
        cases parts with
        | nil =>
            intro c first
            exact blank c (List.mem_of_mem_head? first)
        | cons next parts =>
            intro c first
            refine spaces next (List.mem_cons_of_mem _ List.mem_cons_self) c ?_
            cases head : next.1 with
            | nil => exact absurd head (gaps next List.mem_cons_self)
            | cons d rest =>
                rw [List.flatMap_cons, head] at first
                cases first
                exact List.mem_cons_self

/-! ## Lines -/

/-- A line that fits is read whole, with its newline. -/
theorem splitLine_newline {limit : Nat} {front : List Char} (solid : '\n' ∉ front)
    (fits : front.length < limit) (rest : List Char) :
    splitLine limit (front ++ '\n' :: rest) = (front ++ ['\n'], rest) := by
  induction front generalizing limit with
  | nil =>
      rcases Nat.exists_eq_succ_of_ne_zero (Nat.ne_zero_of_lt fits) with ⟨before, rfl⟩
      rw [List.nil_append, splitLine, if_pos rfl, List.nil_append]
  | cons c front inductionHypothesis =>
      rcases Nat.exists_eq_succ_of_ne_zero (Nat.ne_zero_of_lt fits) with ⟨before, rfl⟩
      rw [List.mem_cons, not_or] at solid
      rw [List.cons_append, splitLine, if_neg (Ne.symm solid.1),
        inductionHypothesis solid.2 (Nat.lt_of_succ_lt_succ fits)]
      rfl

/-- A last line without a newline is read whole too. -/
theorem splitLine_last {limit : Nat} {front : List Char} (solid : '\n' ∉ front)
    (fits : front.length ≤ limit) : splitLine limit front = (front, []) := by
  induction front generalizing limit with
  | nil => cases limit <;> rfl
  | cons c front inductionHypothesis =>
      rcases Nat.exists_eq_succ_of_ne_zero (Nat.ne_zero_of_lt fits) with ⟨before, rfl⟩
      rw [List.mem_cons, not_or] at solid
      rw [splitLine, if_neg (Ne.symm solid.1),
        inductionHypothesis solid.2 (Nat.le_of_succ_le_succ fits)]

theorem newline_not_mem_spaced {w : Nat} (values : List (BitVec w)) : '\n' ∉ spaced values := by
  rw [spaced, List.mem_flatMap]
  rintro ⟨value, _, member⟩
  rcases List.mem_cons.mp member with same | digit
  · exact absurd same (by decide)
  · exact absurd (isDigit_of_mem_numeral digit) (by decide)

/-- A row of numbers is as long as its digits allow. -/
theorem length_spaced_le {w : Nat} (digits : Nat) (values : List (BitVec w)) (positive : 0 < digits)
    (enough : 2 ^ w ≤ 10 ^ digits) : (spaced values).length ≤ values.length * (digits + 1) := by
  induction values with
  | nil => exact Nat.zero_le _
  | cons value values inductionHypothesis =>
      have short : (numeral value.toNat).length ≤ digits :=
        (Nat.length_toDigits_le_iff (by decide) positive).mpr
          (Nat.lt_of_lt_of_le value.isLt enough)
      rw [spaced, List.flatMap_cons, List.length_append, List.length_cons, List.length_cons,
        Nat.add_mul, Nat.one_mul]
      have later : (values.flatMap fun value => ' ' :: numeral value.toNat).length ≤
          values.length * (digits + 1) := inductionHypothesis
      omega

end Scan
end Ossim
