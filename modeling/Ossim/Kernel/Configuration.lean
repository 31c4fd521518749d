import Ossim.Kernel.Loader

namespace Ossim
namespace Configuration

open Memory Kernel Scan Loader

/-!
# The configuration file

`read_config` of `os.c` reads three numbers, five memory sizes and one line for
each declared process, all with `fscanf`, so the layout of the file is free.  No
result is looked at.  What is not read keeps its value: zero for the static
variables, and anything for the blocks from `malloc` and for the local array
`proc`.
-/

/-! ## Reading -/

/-- One line of the file, or what memory holds in its place. -/
structure ProcessLine where
  startTime : BitVec 64
  proc : List Char
  prio : BitVec 64
  deriving DecidableEq, Repr

/-- The static variables that `read_config` sets.  `ld_processes` has the names
without the directory that is put in front of them. -/
structure Config where
  timeSlot : BitVec 32
  numCpus : BitVec 32
  numProcesses : BitVec 32
  memramsz : Addr
  memswpsz : List Addr
  ldProcesses : List ProcessLine
  deriving DecidableEq, Repr

def PAGING_MAX_MMSWP : Nat := 4

/-- The directory of the programs. -/
def procDir : List Char := "input/proc/".toList

/-- Several `%d` in a row, up to the first that fails. -/
def scanSigneds : Nat → List Char → List (BitVec 32) × List Char
  | 0, text => ([], text)
  | count + 1, text =>
      match scanSigned 32 text with
      | (none, rest) => ([], rest)
      | (some value, rest) =>
          let later := scanSigneds count rest
          (value :: later.1, later.2)

/-- `fscanf(file, "%d %d %d\n", ..)`. -/
def readHeader (text : List Char) : List (BitVec 32) × List Char :=
  let scanned := scanSigneds 3 text
  (scanned.1, if scanned.1.length = 3 then skipSpace scanned.2 else scanned.2)

/-- One call of `fscanf` for one size. -/
def readSize (text : List Char) : Addr × List Char :=
  let scanned := scanUnsigned 64 text
  (scanned.1.getD 0, scanned.2)

/-- The loop over the swap devices. -/
def readSwaps : Nat → List Char → List Addr × List Char
  | 0, text => ([], text)
  | count + 1, text =>
      let size := readSize text
      let later := readSwaps count size.2
      (size.1 :: later.1, later.2)

/-- `fscanf(file, "%lu %s %lu\n", ..)`. -/
def readProcess (held : ProcessLine) (text : List Char) : ProcessLine × List Char :=
  match scanUnsigned 64 text with
  | (none, rest) => (held, rest)
  | (some startTime, rest) =>
      match scanString rest with
      | (none, rest) => ({ held with startTime := startTime }, rest)
      | (some proc, rest) =>
          match scanUnsigned 64 rest with
          | (none, rest) => ({ held with startTime := startTime, proc := proc }, rest)
          | (some prio, rest) => (⟨startTime, proc, prio⟩, skipSpace rest)

/-- The loop over the processes, from index `i` on.  The arrays for the name and
for the path have 100 characters each. -/
def readProcesses (held : Nat → ProcessLine) : Nat → Nat → List Char →
    Except Stop (List ProcessLine)
  | 0, _, _ => .ok []
  | count + 1, i, text =>
      let line := readProcess (held i) text
      if 100 ≤ procDir.length + line.1.proc.length then .error .overflow
      else (readProcesses held count (i + 1) line.2).map fun later => line.1 :: later

/-- `read_config`, for the file at the path, if it can be opened. -/
def readConfig (held : Nat → ProcessLine) (file : Option (List Char)) : Except Stop Config :=
  match file with
  | none => .error .exit
  | some text =>
      let header := readHeader text
      let ram := readSize header.2
      let swaps := readSwaps PAGING_MAX_MMSWP (skipSpace ram.2)
      let numProcesses := header.1.getD 2 0
      (readProcesses held numProcesses.toInt.toNat 0 (skipSpace swaps.2)).map fun lines =>
        { timeSlot := header.1.getD 0 0
          numCpus := header.1.getD 1 0
          numProcesses := numProcesses
          memramsz := ram.1
          memswpsz := swaps.1
          ldProcesses := lines }

/-! ## Configuration texts -/

/-- The words of a line. -/
def ProcessLine.words (line : ProcessLine) : List (List Char) :=
  [numeral line.startTime.toNat, line.proc, numeral line.prio.toNat]

/-- A name that `%s` reads and that fits the arrays. -/
structure ProcessLine.Named (line : ProcessLine) : Prop where
  nonempty : line.proc ≠ []
  solid : ∀ c ∈ line.proc, isSpace c = false
  fits : procDir.length + line.proc.length < 100

/-- What a configuration file says.  The number of declared processes need not be
the number of lines. -/
structure Listing where
  timeSlot : Nat
  numCpus : Nat
  declared : Nat
  memramsz : Addr
  memswpsz : List Addr
  lines : List ProcessLine
  ints : timeSlot < 2 ^ 31 ∧ numCpus < 2 ^ 31 ∧ declared < 2 ^ 31
  swaps : memswpsz.length = PAGING_MAX_MMSWP
  named : ∀ line ∈ lines, line.Named

def Listing.words (listing : Listing) : List (List Char) :=
  numeral listing.timeSlot :: numeral listing.numCpus :: numeral listing.declared ::
    numeral listing.memramsz.toNat ::
      (listing.memswpsz.map (fun size => numeral size.toNat) ++
        listing.lines.flatMap ProcessLine.words)

/-- The variables that the header and the sizes set. -/
def Listing.config (listing : Listing) (lines : List ProcessLine) : Config where
  timeSlot := BitVec.ofNat 32 listing.timeSlot
  numCpus := BitVec.ofNat 32 listing.numCpus
  numProcesses := BitVec.ofNat 32 listing.declared
  memramsz := listing.memramsz
  memswpsz := listing.memswpsz
  ldProcesses := lines

/-- The processes that are read: the lines in their order, and behind them what
memory holds. -/
def Listing.read (listing : Listing) (held : Nat → ProcessLine) : List ProcessLine :=
  (List.range listing.declared).map fun i => listing.lines[i]?.getD (held i)

/-! ## The words are read -/

theorem scanUnsigned_spells {value : Addr} {words : List (List Char)}
    {text : List Char} (spells : Spells (numeral value.toNat :: words) text) :
    ∃ rest, scanUnsigned 64 text = (some value, rest) ∧ Spells words rest := by
  rcases spells with ⟨rest, reached, ended, later⟩
  exact ⟨rest, scanUnsigned_numeral (le_refl 64) value ended reached, later⟩

theorem scanSigned_spells {value : Nat} {words : List (List Char)} {text : List Char}
    (small : value < 2 ^ 31) (spells : Spells (numeral value :: words) text) :
    ∃ rest, scanSigned 32 text = (some (BitVec.ofNat 32 value), rest) ∧ Spells words rest := by
  rcases spells with ⟨rest, reached, ended, later⟩
  exact ⟨rest, scanSigned_numeral 32 value (by omega) ended reached, later⟩

theorem readHeader_spells {first second third : Nat} {words : List (List Char)} {text : List Char}
    (small : first < 2 ^ 31 ∧ second < 2 ^ 31 ∧ third < 2 ^ 31)
    (spells : Spells (numeral first :: numeral second :: numeral third :: words) text) :
    ∃ rest, readHeader text =
        ([BitVec.ofNat 32 first, BitVec.ofNat 32 second, BitVec.ofNat 32 third], rest) ∧
      Spells words rest := by
  rcases scanSigned_spells small.1 spells with ⟨afterFirst, readFirst, spells⟩
  rcases scanSigned_spells small.2.1 spells with ⟨afterSecond, readSecond, spells⟩
  rcases scanSigned_spells small.2.2 spells with ⟨afterThird, readThird, spells⟩
  have scanned : scanSigneds 3 text =
      ([BitVec.ofNat 32 first, BitVec.ofNat 32 second, BitVec.ofNat 32 third], afterThird) := by
    simp only [scanSigneds, readFirst, readSecond, readThird]
  refine ⟨skipSpace afterThird, ?_, (spells_skipSpace _ _).mpr spells⟩
  rw [readHeader, scanned]
  exact congrArg (Prod.mk _) (if_pos rfl)

theorem readSize_spells {size : Addr} {words : List (List Char)} {text : List Char}
    (spells : Spells (numeral size.toNat :: words) text) :
    ∃ rest, readSize text = (size, rest) ∧ Spells words rest := by
  rcases scanUnsigned_spells spells with ⟨rest, scanned, later⟩
  exact ⟨rest, by rw [readSize, scanned]; rfl, later⟩

theorem readSwaps_spells (sizes : List Addr) {words : List (List Char)} {text : List Char}
    (spells : Spells (sizes.map (fun size => numeral size.toNat) ++ words) text) :
    ∃ rest, readSwaps sizes.length text = (sizes, rest) ∧ Spells words rest := by
  induction sizes generalizing text with
  | nil => exact ⟨text, rfl, spells⟩
  | cons size sizes inductionHypothesis =>
      rcases readSize_spells spells with ⟨rest, scanned, later⟩
      rcases inductionHypothesis later with ⟨rest, swaps, later⟩
      refine ⟨rest, ?_, later⟩
      rw [List.length_cons, readSwaps, scanned]
      dsimp only
      rw [swaps]

theorem readProcess_spells (held line : ProcessLine) (named : line.Named)
    {words : List (List Char)} {text : List Char} (spells : Spells (line.words ++ words) text) :
    ∃ rest, readProcess held text = (line, rest) ∧ Spells words rest := by
  rcases scanUnsigned_spells spells with ⟨afterStart, start, spells⟩
  rcases spells with ⟨afterName, reached, ended, spells⟩
  have name := scanString_word named.nonempty named.solid ended reached
  rcases scanUnsigned_spells spells with ⟨afterPrio, prio, spells⟩
  refine ⟨skipSpace afterPrio, ?_, (spells_skipSpace _ _).mpr spells⟩
  rw [readProcess, start]
  dsimp only
  rw [name]
  dsimp only
  rw [prio]

/-- Where only white space is left, a line keeps what memory held. -/
theorem readProcess_blank (held : ProcessLine) {text : List Char} (blank : Spells [] text) :
    ∃ rest, readProcess held text = (held, rest) ∧ Spells [] rest := by
  have none : scanUnsigned 64 text = (none, []) := by
    rw [scanUnsigned, blank]
    rfl
  refine ⟨[], ?_, rfl⟩
  rw [readProcess, none]

/-- The loop reads a line as long as there is one. -/
theorem readProcesses_spells (held : Nat → ProcessLine) (count i : Nat) (lines : List ProcessLine)
    (named : ∀ line ∈ lines, line.Named)
    (fits : ∀ j, lines.length ≤ j → j < count → procDir.length + (held (i + j)).proc.length < 100)
    {text : List Char} (spells : Spells (lines.flatMap ProcessLine.words) text) :
    readProcesses held count i text =
      .ok ((List.range count).map fun j => lines[j]?.getD (held (i + j))) := by
  induction count generalizing i lines text with
  | zero => rfl
  | succ count inductionHypothesis =>
      -- the next line, or the memory in its place, and the lines behind it
      have next : ∃ line rest, readProcess (held i) text = (line, rest) ∧
          line = lines[0]?.getD (held i) ∧ procDir.length + line.proc.length < 100 ∧
            Spells (lines.tail.flatMap ProcessLine.words) rest := by
        cases lines with
        | nil =>
            rcases readProcess_blank (held i) spells with ⟨rest, scanned, later⟩
            exact ⟨held i, rest, scanned, rfl, fits 0 (Nat.zero_le _) (Nat.succ_pos _), later⟩
        | cons line lines =>
            have here := named line List.mem_cons_self
            rw [List.flatMap_cons] at spells
            rcases readProcess_spells (held i) line here spells with ⟨rest, scanned, later⟩
            exact ⟨line, rest, scanned, rfl, here.fits, later⟩
      rcases next with ⟨line, rest, scanned, chosen, short, later⟩
      have shift : ∀ j, i + (j + 1) = i + 1 + j := fun j => by omega
      have tail := inductionHypothesis (i + 1) lines.tail
        (fun other member => named other (List.mem_of_mem_tail member))
        (fun j beyond inside => by
          rw [List.length_tail] at beyond
          have bound := fits (j + 1) (by omega) (by omega)
          rwa [shift j] at bound) later
      rw [readProcesses, scanned]
      dsimp only
      rw [if_neg (Nat.not_le.mpr short), tail, List.range_succ_eq_map, List.map_cons, List.map_map,
        chosen]
      refine congrArg Except.ok (congrArg (List.cons _) (List.map_congr_left fun j _ => ?_))
      rw [List.getElem?_tail, Function.comp_apply, Nat.succ_eq_add_one, shift j]

/-- The configuration is read in any layout.  If the header declares more processes
than there are lines, the others are what memory holds. -/
theorem readConfig_reads (listing : Listing) (held : Nat → ProcessLine) (text : List Char)
    (spells : Spells listing.words text)
    (fits : ∀ i, listing.lines.length ≤ i → i < listing.declared →
      procDir.length + (held i).proc.length < 100) :
    readConfig held (some text) = .ok (listing.config (listing.read held)) := by
  rcases readHeader_spells listing.ints spells with ⟨afterHeader, header, spells⟩
  rcases readSize_spells spells with ⟨afterRam, ram, spells⟩
  rcases readSwaps_spells listing.memswpsz ((spells_skipSpace _ _).mpr spells) with
    ⟨afterSwaps, swaps, spells⟩
  rw [listing.swaps] at swaps
  have declared : (BitVec.ofNat 32 listing.declared).toInt.toNat = listing.declared := by
    have small := listing.ints.2.2
    rw [BitVec.toInt_eq_toNat_of_lt, BitVec.toNat_ofNat, Nat.mod_eq_of_lt (by omega),
      Int.toNat_natCast]
    rw [BitVec.toNat_ofNat, Nat.mod_eq_of_lt (by omega)]
    omega
  have lines := readProcesses_spells held listing.declared 0 listing.lines listing.named
    (fun j beyond inside => by
      rw [Nat.zero_add]
      exact fits j beyond inside) ((spells_skipSpace _ _).mpr spells)
  simp only [Nat.zero_add] at lines
  simp only [readConfig, header, ram, swaps, List.getD_cons_zero, List.getD_cons_succ, declared,
    lines]
  rfl

theorem Listing.read_of_enough (listing : Listing) (held : Nat → ProcessLine)
    (enough : listing.declared ≤ listing.lines.length) :
    listing.read held = listing.lines.take listing.declared := by
  apply List.ext_getElem?
  intro i
  rw [Listing.read, List.getElem?_map, List.getElem?_take]
  by_cases inside : i < listing.declared
  · rw [List.getElem?_range inside, if_pos inside, Option.map_some,
      List.getElem?_eq_getElem (by omega)]
    rfl
  · rw [if_neg inside, List.getElem?_eq_none (by rw [List.length_range]; omega)]
    rfl

/-- The configuration is what the file says, whatever memory holds, just when the
file has as many lines as it declares processes. -/
theorem readConfig_exact_iff (listing : Listing) (text : List Char)
    (spells : Spells listing.words text) :
    (∀ held, readConfig held (some text) =
        .ok (listing.config (listing.lines.take listing.declared))) ↔
      listing.declared ≤ listing.lines.length := by
  constructor
  · intro exact
    by_contra short
    have returned := exact fun _ => ⟨0, [], 0⟩
    rw [readConfig_reads listing (fun _ => ⟨0, [], 0⟩) text spells fun _ _ _ => by decide] at returned
    have lengths := congrArg (fun config : Config => config.ldProcesses.length)
      (Except.ok.inj returned)
    dsimp only [Listing.config] at lengths
    rw [Listing.read, List.length_map, List.length_range, List.length_take] at lengths
    omega
  · intro enough held
    rw [readConfig_reads listing held text spells fun i beyond inside => absurd inside (by omega),
      listing.read_of_enough held enough]

/-- A file with more lines than it declares, in the layout of the shipped ones. -/
def fourOfFive : Listing where
  timeSlot := 6
  numCpus := 2
  declared := 4
  memramsz := 268435456
  memswpsz := [16777216, 0, 0, 0]
  lines := [⟨0, "p0s".toList, 0⟩, ⟨1, "p1s".toList, 15⟩, ⟨3, "p1s".toList, 0⟩,
    ⟨6, "p0s".toList, 0⟩, ⟨5, "p1s".toList, 0⟩]
  ints := by decide
  swaps := rfl
  named := by
    intro line member
    have words : line.proc = "p0s".toList ∨ line.proc = "p1s".toList := by
      simp only [List.mem_cons, List.not_mem_nil, or_false] at member
      rcases member with rfl | rfl | rfl | rfl | rfl <;> simp
    rcases words with same | same <;>
      exact ⟨by rw [same]; decide, by rw [same]; simp [isSpace], by rw [same]; decide⟩

def fourOfFiveText : List Char :=
  "6 2 4\r\n268435456 16777216 0 0 0\r\n0 p0s 0\r\n1 p1s 15\r\n3 p1s 0\r\n6 p0s 0\r\n5 p1s 0".toList

theorem fourOfFive_spells : Spells fourOfFive.words fourOfFiveText := by
  let gaps : List String :=
    ["", " ", " ", "\r\n", " ", " ", " ", " ", "\r\n", " ", " ", "\r\n", " ", " ", "\r\n", " ", " ",
      "\r\n", " ", " ", "\r\n", " ", " "]
  let parts : List (List Char × List Char) := (gaps.map String.toList).zip fourOfFive.words
  have words : parts.all (fun part => part.2 ≠ [] && part.2.all fun c => !isSpace c) = true := by
    decide
  have spaces : parts.all (fun part => part.1.all isSpace) = true := by decide
  have gap : parts.tail.all (fun part => part.1 ≠ []) = true := by decide
  have spelled := spells_separated parts
    (fun part member => by
      have solid := List.all_eq_true.mp words part member
      rw [Bool.and_eq_true, decide_eq_true_eq, List.all_eq_true] at solid
      exact ⟨solid.1, fun c inside => by simpa using solid.2 c inside⟩)
    (fun part member => List.all_eq_true.mp (List.all_eq_true.mp spaces part member))
    (fun part member => by simpa using List.all_eq_true.mp gap part member)
    (fun c inside => absurd inside List.not_mem_nil)
  exact spelled

/-- The fifth line is not declared and not read. -/
theorem readConfig_exact_iff_fourOfFive :
    (∀ held, readConfig held (some fourOfFiveText) =
        .ok (fourOfFive.config (fourOfFive.lines.take 4))) ↔ 4 ≤ 5 :=
  readConfig_exact_iff fourOfFive fourOfFiveText fourOfFive_spells

end Configuration
end Ossim
