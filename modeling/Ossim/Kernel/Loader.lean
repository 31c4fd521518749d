import Ossim.Kernel.Machine
import Ossim.Library.Scan

namespace Ossim
namespace Loader

open Memory Kernel Scan

/-!
# The program loader

`load` of `loader.c` reads a header and then one instruction for each that the
header declares.  Most operands come from `fscanf`; the copies and `syscall` read
the rest of their line with `fgets` and scan that.  No result of a read is
looked at.  When the text runs out, the opcode buffer still holds the mnemonic of
the instruction before, and `get_opcode` accepts it again.

So a program text is loaded exactly as it stands when it has at least the
declared number of instructions, and it is never rejected for having fewer.

Local arrays and fresh heap blocks of the source hold anything before they are
written; `Garbage` is what they hold.
-/

def OPT_CALC : List Char := "calc".toList
def OPT_ALLOC : List Char := "alloc".toList
def OPT_FREE : List Char := "free".toList
def OPT_READ : List Char := "read".toList
def OPT_WRITE : List Char := "write".toList
def OPT_SYSCALL : List Char := "syscall".toList
def OPT_KMALLOC : List Char := "kmalloc".toList
def OPT_KMEM_CACHE_CREATE : List Char := "kmem_cache_create".toList
def OPT_KMEM_CACHE_ALLOC : List Char := "kmem_cache_alloc".toList
def OPT_COPY_FROM_USER : List Char := "copy_from_user".toList
def OPT_COPY_TO_USER : List Char := "copy_to_user".toList

/-- `1 << OFFSET_LEN`. -/
def PAGE_SIZE : BitVec 32 := 1024

/-- What ends the loader: `exit(1)`, or a word that does not fit `opcode[32]`,
which is undefined. -/
inductive Stop
  | exit
  | overflow
  deriving DecidableEq, Repr

/-- `none` is the `exit(1)` of an unknown opcode. -/
def getOpcode (opt : List Char) : Option InsOpcode :=
  if opt = OPT_CALC then some .CALC
  else if opt = OPT_ALLOC then some .ALLOC
  else if opt = OPT_FREE then some .FREE
  else if opt = OPT_READ then some .READ
  else if opt = OPT_WRITE then some .WRITE
  else if opt = OPT_KMALLOC then some .KMALLOC
  else if opt = OPT_KMEM_CACHE_CREATE then some .KMEM_CACHE_CREATE
  else if opt = OPT_KMEM_CACHE_ALLOC then some .KMEM_CACHE_ALLOC
  else if opt = OPT_COPY_FROM_USER then some .COPY_FROM_USER
  else if opt = OPT_COPY_TO_USER then some .COPY_TO_USER
  else if opt = OPT_SYSCALL then some .SYSCALL
  else none

/-- The contents of memory that `load` reads, or hands out, without writing. -/
structure Garbage where
  priority : BitVec 32
  size : BitVec 32
  opcode : List Char
  buf : List Char
  text : Nat → Inst

/-- The unread part of the file and the two buffers of `load`. -/
structure Cursor where
  file : List Char
  opcode : List Char
  buf : List Char

/-- Store the scanned numbers in the operands; the rest keep what they held. -/
def assign (inst : Inst) : List Addr → Inst
  | [] => inst
  | [arg0] => { inst with arg0 := arg0 }
  | [arg0, arg1] => { inst with arg0 := arg0, arg1 := arg1 }
  | [arg0, arg1, arg2] => { inst with arg0 := arg0, arg1 := arg1, arg2 := arg2 }
  | arg0 :: arg1 :: arg2 :: arg3 :: _ => ⟨inst.opcode, arg0, arg1, arg2, arg3⟩

/-- `fscanf` of so many operands.  The newline in the format skips any white
space, and it is reached only when every operand was read. -/
def fscanfOperands (count : Nat) (inst : Inst) (cursor : Cursor) : Inst × Cursor :=
  let scanned := scanUnsigneds 64 count cursor.file
  (assign inst scanned.1, { cursor with
    file := if scanned.1.length = count then skipSpace scanned.2 else scanned.2 })

/-- `fgets` into `buf` and `sscanf` of four operands from it.  At the end of the
file `buf` keeps the line before. -/
def sscanfOperands (inst : Inst) (cursor : Cursor) : Inst × Cursor :=
  let line := getLine 200 cursor.file
  let buf := line.1.getD cursor.buf
  (assign inst (scanUnsigneds 64 4 buf).1, { cursor with file := line.2, buf := buf })

def readOperands (inst : Inst) (cursor : Cursor) : Inst × Cursor :=
  match inst.opcode with
  | .CALC => (inst, cursor)
  | .KMEM_CACHE_ALLOC | .KMALLOC | .ALLOC => fscanfOperands 2 inst cursor
  | .FREE => fscanfOperands 1 inst cursor
  | .KMEM_CACHE_CREATE | .READ | .WRITE => fscanfOperands 3 inst cursor
  | .COPY_FROM_USER | .COPY_TO_USER | .SYSCALL => sscanfOperands inst cursor

/-- One iteration of the loop.  When no word is left, the opcode buffer keeps
the mnemonic before. -/
def loadInst (raw : Inst) (cursor : Cursor) : Except Stop (Inst × Cursor) :=
  let scanned := scanString cursor.file
  let opcode := scanned.1.getD cursor.opcode
  if 32 ≤ opcode.length then .error .overflow
  else
    match getOpcode opcode with
    | none => .error .exit
    | some code =>
        .ok (readOperands { raw with opcode := code }
          { cursor with file := scanned.2, opcode := opcode })

/-- The loop from index `i` on, for so many more instructions. -/
def loadInsts (text : Nat → Inst) : Nat → Nat → Cursor → Except Stop (List Inst)
  | 0, _, _ => .ok []
  | count + 1, i, cursor =>
      (loadInst (text i) cursor).bind fun loaded =>
        (loadInsts text count (i + 1) loaded.2).map fun later => loaded.1 :: later

/-- The fields of the process block that `load` sets and that mean something
without their addresses. -/
structure Loaded where
  pid : BitVec 32
  priority : BitVec 32
  path : List Char
  pc : BitVec 32
  bp : BitVec 32
  code : List Inst
  deriving DecidableEq, Repr

/-- `load`, for the file at the path, if it can be opened. -/
def load (availPid : BitVec 32) (path : List Char) (file : Option (List Char)) (garbage : Garbage) :
    Except Stop Loaded :=
  match file with
  | none => .error .exit
  | some text =>
      let header := scanUnsigneds 32 2 text
      let priority := header.1.getD 0 garbage.priority
      let size := header.1.getD 1 garbage.size
      (loadInsts garbage.text size.toNat 0 ⟨header.2, garbage.opcode, garbage.buf⟩).map fun code =>
        { pid := availPid, priority := priority, path := path.take 99, pc := 0, bp := PAGE_SIZE,
          code := code }

/-! ## Program texts -/

/-- How many operands the documentation gives to each instruction. -/
def arity : InsOpcode → Nat
  | .CALC => 0
  | .FREE => 1
  | .ALLOC | .KMALLOC | .KMEM_CACHE_ALLOC => 2
  | .READ | .WRITE | .KMEM_CACHE_CREATE => 3
  | .COPY_FROM_USER | .COPY_TO_USER | .SYSCALL => 4

def mnemonic : InsOpcode → List Char
  | .CALC => OPT_CALC
  | .ALLOC => OPT_ALLOC
  | .FREE => OPT_FREE
  | .READ => OPT_READ
  | .WRITE => OPT_WRITE
  | .KMALLOC => OPT_KMALLOC
  | .KMEM_CACHE_CREATE => OPT_KMEM_CACHE_CREATE
  | .KMEM_CACHE_ALLOC => OPT_KMEM_CACHE_ALLOC
  | .COPY_FROM_USER => OPT_COPY_FROM_USER
  | .COPY_TO_USER => OPT_COPY_TO_USER
  | .SYSCALL => OPT_SYSCALL

/-- An instruction line: a mnemonic with its full number of operands. -/
structure Line where
  opcode : InsOpcode
  operands : List Addr
  full : operands.length = arity opcode

def Line.text (line : Line) : List Char := mnemonic line.opcode ++ spaced line.operands

/-- Both kinds of line break occur in the shipped programs. -/
inductive LineBreak
  | lf
  | crlf
  deriving DecidableEq, Repr

def LineBreak.text : LineBreak → List Char
  | .lf => ['\n']
  | .crlf => ['\r', '\n']

/-- A program text.  Every instruction stands on a new line, and the last line
may or may not be terminated. -/
structure Program where
  priority : BitVec 32
  size : BitVec 32
  body : List (LineBreak × Line)
  trailing : Option LineBreak

def bodyText (trailing : Option LineBreak) : List (LineBreak × Line) → List Char
  | [] => (trailing.map LineBreak.text).getD []
  | (lineBreak, line) :: rest => lineBreak.text ++ (line.text ++ bodyText trailing rest)

def Program.text (program : Program) : List Char :=
  numeral program.priority.toNat ++
    (' ' :: (numeral program.size.toNat ++ bodyText program.trailing program.body))

def Program.lines (program : Program) : List Line := program.body.map Prod.snd

/-- The instruction has the opcode of the line and its operands in order. -/
def Agrees (line : Line) (inst : Inst) : Prop :=
  inst.opcode = line.opcode ∧
    [inst.arg0, inst.arg1, inst.arg2, inst.arg3].take (arity line.opcode) = line.operands

/-- The loader returns the first declared instructions of the program, and it
rejects a program that has fewer. -/
structure LoadsExactly (program : Program) (outcome : Except Stop Loaded) : Prop where
  enough : program.size.toNat ≤ program.lines.length → ∃ loaded, outcome = .ok loaded ∧
    List.Forall₂ Agrees (program.lines.take program.size.toNat) loaded.code
  short : program.lines.length < program.size.toNat → outcome = .error .exit

/-! ## One line -/

theorem getOpcode_mnemonic (opcode : InsOpcode) : getOpcode (mnemonic opcode) = some opcode := by
  cases opcode <;> decide

theorem mnemonic_ne_nil (opcode : InsOpcode) : mnemonic opcode ≠ [] := by
  cases opcode <;> decide

theorem length_mnemonic (opcode : InsOpcode) : (mnemonic opcode).length < 32 := by
  cases opcode <;> decide

theorem isSpace_of_mem_mnemonic (opcode : InsOpcode) :
    ∀ c ∈ mnemonic opcode, isSpace c = false := by
  have solid : (mnemonic opcode).all (fun c => !isSpace c) = true := by
    cases opcode <;> decide
  intro c member
  have kept := List.all_eq_true.mp solid c member
  rwa [Bool.not_eq_true'] at kept

theorem isSpace_of_mem_lineBreak (lineBreak : LineBreak) :
    ∀ c ∈ lineBreak.text, isSpace c = true := by
  have blank : lineBreak.text.all isSpace = true := by
    cases lineBreak <;> decide
  exact List.all_eq_true.mp blank

/-- What may follow a line: nothing, or a line break and more. -/
inductive Tail : List Char → Prop
  | done : Tail []
  | more (lineBreak : LineBreak) (rest : List Char) : Tail (lineBreak.text ++ rest)

theorem Tail.ended {tail : List Char} (follows : Tail tail) : Ended tail := by
  cases follows with
  | done =>
      intro c first
      cases first
  | more lineBreak rest =>
      intro c first
      cases lineBreak <;> cases first <;> decide

theorem tail_bodyText (trailing : Option LineBreak) (body : List (LineBreak × Line)) :
    Tail (bodyText trailing body) := by
  cases body with
  | nil =>
      cases trailing with
      | none => exact .done
      | some lineBreak =>
          have more := Tail.more lineBreak []
          rw [List.append_nil] at more
          exact more
  | cons head rest => exact .more head.1 _

/-- Operands that `fscanf` reads. -/
theorem fscanfOperands_spaced (inst : Inst) (cursor : Cursor) (operands : List Addr)
    {tail : List Char} (follows : Tail tail) (reached : cursor.file = spaced operands ++ tail) :
    fscanfOperands operands.length inst cursor =
      (assign inst operands, { cursor with file := skipSpace tail }) := by
  rw [fscanfOperands, reached, scanUnsigneds_spaced (le_refl 64) operands follows.ended]
  dsimp only
  rw [if_pos rfl]

/-- Four operands are at most 84 characters, so they fit the line buffer. -/
theorem length_spaced_four {operands : List Addr} (four : operands.length = 4) :
    (spaced operands).length ≤ 84 := by
  have bound := length_spaced_le 20 operands (by decide) (by decide)
  rw [four] at bound
  exact bound

/-- The line buffer holds the operands and the line break, and the file goes on
behind it. -/
theorem getLine_spaced {operands : List Addr} (four : operands.length = 4) {tail : List Char}
    (follows : Tail tail) :
    ∃ lineEnd rest, getLine 200 (spaced operands ++ tail) =
        (some (spaced operands ++ lineEnd), rest) ∧
      Ended lineEnd ∧ skipSpace rest = skipSpace tail := by
  have bound := length_spaced_four four
  have solid := newline_not_mem_spaced operands
  have some : ∀ tail, ¬ spaced operands ++ tail = [] := by
    intro tail empty
    cases operands with
    | nil => cases four
    | cons value operands => cases empty
  rw [getLine, if_neg (some tail)]
  dsimp only
  cases follows with
  | done =>
      refine ⟨[], [], ?_, Tail.done.ended, rfl⟩
      rw [List.append_nil, splitLine_last solid (by omega)]
  | more lineBreak rest =>
      cases lineBreak with
      | lf =>
          refine ⟨['\n'], rest, ?_, (Tail.more .lf []).ended, ?_⟩
          · have cut : splitLine 199 (spaced operands ++ '\n' :: rest) =
                (spaced operands ++ ['\n'], rest) := splitLine_newline solid (by omega) rest
            exact congrArg (fun line => (Option.some line.1, line.2)) cut
          · exact (skipSpace_cons_space (by decide) rest).symm
      | crlf =>
          refine ⟨['\r', '\n'], rest, ?_, (Tail.more .crlf []).ended, ?_⟩
          · have solidReturn : '\n' ∉ spaced operands ++ ['\r'] := by
              rw [List.mem_append, not_or]
              exact ⟨solid, by decide⟩
            have short : (spaced operands ++ ['\r']).length < 199 := by
              rw [List.length_append, List.length_singleton]
              omega
            have cut := splitLine_newline solidReturn short rest
            rw [List.append_assoc, List.append_assoc] at cut
            exact congrArg (fun line => (Option.some line.1, line.2)) cut
          · have skipped : skipSpace ('\r' :: '\n' :: rest) = skipSpace rest := by
              rw [skipSpace_cons_space (by decide), skipSpace_cons_space (by decide)]
            exact skipped.symm

theorem sscanfOperands_spaced (inst : Inst) (cursor : Cursor) {operands : List Addr}
    (four : operands.length = 4) {tail : List Char} (follows : Tail tail)
    (reached : cursor.file = spaced operands ++ tail) :
    ∃ next, sscanfOperands inst cursor = (assign inst operands, next) ∧
      skipSpace next.file = skipSpace tail ∧ next.opcode = cursor.opcode := by
  rcases getLine_spaced four follows with ⟨lineEnd, rest, line, ended, skipped⟩
  have scanned := scanUnsigneds_spaced (le_refl 64) operands ended
  rw [four] at scanned
  refine ⟨{ cursor with file := rest, buf := spaced operands ++ lineEnd }, ?_, skipped, rfl⟩
  rw [sscanfOperands, reached, line]
  dsimp only
  rw [Option.getD_some, scanned]

/-- Whatever the shape of the instruction, its operands are assigned and the
file goes on with the next line. -/
theorem readOperands_line (line : Line) (inst : Inst) (same : inst.opcode = line.opcode)
    (cursor : Cursor) {tail : List Char} (follows : Tail tail)
    (reached : cursor.file = spaced line.operands ++ tail) :
    ∃ next, readOperands inst cursor = (assign inst line.operands, next) ∧
      skipSpace next.file = skipSpace tail ∧ next.opcode = cursor.opcode := by
  have full := line.full
  have scanned := fscanfOperands_spaced inst cursor line.operands follows reached
  have skipped : skipSpace (skipSpace tail) = skipSpace tail := skipSpace_skipSpace tail
  rw [readOperands, same]
  cases opcode : line.opcode with
  | CALC =>
      rw [opcode] at full
      have none : line.operands = [] := List.length_eq_zero_iff.mp full
      rw [none] at reached ⊢
      refine ⟨cursor, rfl, ?_, rfl⟩
      rw [reached]
      rfl
  | ALLOC | KMALLOC | KMEM_CACHE_ALLOC | FREE | READ | WRITE | KMEM_CACHE_CREATE =>
      rw [opcode] at full
      rw [full] at scanned
      exact ⟨_, scanned, skipped, rfl⟩
  | COPY_FROM_USER | COPY_TO_USER | SYSCALL =>
      rw [opcode] at full
      exact sscanfOperands_spaced inst cursor full follows reached

theorem assign_spec (inst : Inst) (operands : List Addr) (few : operands.length ≤ 4) :
    (assign inst operands).opcode = inst.opcode ∧
      [(assign inst operands).arg0, (assign inst operands).arg1, (assign inst operands).arg2,
        (assign inst operands).arg3].take operands.length = operands := by
  match operands, few with
  | [], _ => exact ⟨rfl, rfl⟩
  | [_], _ => exact ⟨rfl, rfl⟩
  | [_, _], _ => exact ⟨rfl, rfl⟩
  | [_, _, _], _ => exact ⟨rfl, rfl⟩
  | [_, _, _, _], _ => exact ⟨rfl, rfl⟩

theorem agrees_assign (line : Line) (inst : Inst) (same : inst.opcode = line.opcode) :
    Agrees line (assign inst line.operands) := by
  have few : line.operands.length ≤ 4 := by
    rw [line.full]
    cases line.opcode <;> decide
  have stored := assign_spec inst line.operands few
  refine ⟨stored.1.trans same, ?_⟩
  rw [← line.full]
  exact stored.2

/-- One iteration reads one line.  It starts at the line or at the line break
before it, depending on how the line before was read. -/
theorem loadInst_line (raw : Inst) (line : Line) (cursor : Cursor) {tail : List Char}
    (follows : Tail tail) (reached : skipSpace cursor.file = line.text ++ tail) :
    ∃ inst next, loadInst raw cursor = .ok (inst, next) ∧ Agrees line inst ∧
      skipSpace next.file = skipSpace tail ∧ next.opcode = mnemonic line.opcode := by
  rw [Line.text, List.append_assoc] at reached
  have word := scanString_word (mnemonic_ne_nil line.opcode) (isSpace_of_mem_mnemonic line.opcode)
    (ended_spaced line.operands follows.ended) reached
  rcases readOperands_line line { raw with opcode := line.opcode } rfl
    { cursor with file := spaced line.operands ++ tail, opcode := mnemonic line.opcode } follows rfl
    with ⟨next, read, skipped, kept⟩
  refine ⟨_, next, ?_, agrees_assign line { raw with opcode := line.opcode } rfl, skipped, kept⟩
  have fits : ¬ 32 ≤ (mnemonic line.opcode).length := Nat.not_le.mpr (length_mnemonic line.opcode)
  rw [loadInst, word]
  dsimp only
  rw [Option.getD_some, if_neg fits, getOpcode_mnemonic]
  dsimp only
  rw [read]

theorem opcode_assign (inst : Inst) (operands : List Addr) :
    (assign inst operands).opcode = inst.opcode := by
  match operands with
  | [] | [_] | [_, _] | [_, _, _] | _ :: _ :: _ :: _ :: _ => rfl

theorem readOperands_cases (inst : Inst) (cursor : Cursor) :
    readOperands inst cursor = (inst, cursor) ∨
      (∃ count, readOperands inst cursor = fscanfOperands count inst cursor) ∨
        readOperands inst cursor = sscanfOperands inst cursor := by
  unfold readOperands
  cases inst.opcode with
  | CALC => exact Or.inl rfl
  | ALLOC | KMALLOC | KMEM_CACHE_ALLOC | FREE | READ | WRITE | KMEM_CACHE_CREATE =>
      exact Or.inr (Or.inl ⟨_, rfl⟩)
  | COPY_FROM_USER | COPY_TO_USER | SYSCALL => exact Or.inr (Or.inr rfl)

/-- At the end of the file no operand read moves on or fails. -/
theorem readOperands_nil (inst : Inst) (cursor : Cursor) (nil : cursor.file = []) :
    (readOperands inst cursor).1.opcode = inst.opcode ∧
      (readOperands inst cursor).2.file = [] ∧
        (readOperands inst cursor).2.opcode = cursor.opcode := by
  rcases readOperands_cases inst cursor with none | ⟨count, scanned⟩ | line
  · rw [none]
    exact ⟨rfl, nil, rfl⟩
  · have nothing : scanUnsigneds 64 count [] = ([], []) := by
      cases count <;> rfl
    rw [scanned, fscanfOperands, nil, nothing]
    refine ⟨rfl, ?_, rfl⟩
    dsimp only
    split <;> rfl
  · rw [line, sscanfOperands, nil]
    exact ⟨opcode_assign inst _, rfl, rfl⟩

/-- One iteration where only white space is left repeats the opcode in the
buffer, with whatever operands. -/
theorem loadInst_blank (raw : Inst) (cursor : Cursor) (opcode : InsOpcode)
    (stale : cursor.opcode = mnemonic opcode) (blank : skipSpace cursor.file = []) :
    ∃ inst next, loadInst raw cursor = .ok (inst, next) ∧ inst.opcode = opcode ∧
      skipSpace next.file = [] ∧ next.opcode = mnemonic opcode := by
  have fits : ¬ 32 ≤ (mnemonic opcode).length := Nat.not_le.mpr (length_mnemonic opcode)
  rcases readOperands_nil { raw with opcode := opcode }
    { cursor with file := [], opcode := mnemonic opcode } rfl with ⟨kept, file, buffer⟩
  refine ⟨_, _, ?_, kept, by rw [file]; rfl, buffer⟩
  rw [loadInst, scanString_blank blank]
  dsimp only
  rw [Option.getD_none, stale, if_neg fits, getOpcode_mnemonic]

/-! ## The loop -/

theorem skipSpace_bodyText_nil (trailing : Option LineBreak) :
    skipSpace (bodyText trailing []) = [] := by
  cases trailing with
  | none => rfl
  | some lineBreak => cases lineBreak <;> rfl

theorem skipSpace_bodyText_cons (trailing : Option LineBreak) (lineBreak : LineBreak) (line : Line)
    (rest : List (LineBreak × Line)) :
    skipSpace (bodyText trailing ((lineBreak, line) :: rest)) =
      line.text ++ bodyText trailing rest := by
  rw [bodyText, skipSpace_append (isSpace_of_mem_lineBreak lineBreak), Line.text, List.append_assoc]
  exact skipSpace_word (mnemonic_ne_nil line.opcode) (isSpace_of_mem_mnemonic line.opcode) _

/-- As long as there are lines, the loop reads one in each iteration. -/
theorem loadInsts_lines (text : Nat → Inst) (trailing : Option LineBreak) (count : Nat) :
    ∀ (body : List (LineBreak × Line)) (i : Nat) (cursor : Cursor), count ≤ body.length →
      skipSpace cursor.file = skipSpace (bodyText trailing body) →
      ∃ insts, loadInsts text count i cursor = .ok insts ∧
        List.Forall₂ Agrees ((body.map Prod.snd).take count) insts := by
  induction count with
  | zero =>
      intro body i cursor _ _
      exact ⟨[], rfl, .nil⟩
  | succ count inductionHypothesis =>
      intro body i cursor enough reached
      cases body with
      | nil => cases enough
      | cons head rest =>
          rw [skipSpace_bodyText_cons] at reached
          rcases loadInst_line (text i) head.2 cursor (tail_bodyText trailing rest) reached with
            ⟨inst, next, loaded, agrees, skipped, _⟩
          rcases inductionHypothesis rest (i + 1) next (Nat.le_of_succ_le_succ enough) skipped with
            ⟨insts, later, agree⟩
          refine ⟨inst :: insts, ?_, .cons agrees agree⟩
          rw [loadInsts, loaded]
          exact congrArg (Except.map (inst :: ·)) later

/-- Once an instruction has been read, the loop never fails, however many more
instructions the header declares. -/
theorem loadInsts_returns (text : Nat → Inst) (trailing : Option LineBreak) (count : Nat) :
    ∀ (body : List (LineBreak × Line)) (i : Nat) (cursor : Cursor) (opcode : InsOpcode),
      cursor.opcode = mnemonic opcode →
      skipSpace cursor.file = skipSpace (bodyText trailing body) →
      ∃ insts, loadInsts text count i cursor = .ok insts := by
  induction count with
  | zero =>
      intro body i cursor opcode _ _
      exact ⟨[], rfl⟩
  | succ count inductionHypothesis =>
      intro body i cursor opcode stale reached
      have step : ∃ inst next body' opcode', loadInst (text i) cursor = .ok (inst, next) ∧
          next.opcode = mnemonic opcode' ∧
          skipSpace next.file = skipSpace (bodyText trailing body') := by
        cases body with
        | nil =>
            rw [skipSpace_bodyText_nil] at reached
            rcases loadInst_blank (text i) cursor opcode stale reached with
              ⟨inst, next, loaded, _, blank, kept⟩
            exact ⟨inst, next, [], opcode, loaded, kept,
              blank.trans (skipSpace_bodyText_nil trailing).symm⟩
        | cons head rest =>
            rw [skipSpace_bodyText_cons] at reached
            rcases loadInst_line (text i) head.2 cursor (tail_bodyText trailing rest) reached with
              ⟨inst, next, loaded, _, skipped, kept⟩
            exact ⟨inst, next, rest, head.2.opcode, loaded, kept, skipped⟩
      rcases step with ⟨inst, next, body', opcode', loaded, kept, skipped⟩
      rcases inductionHypothesis body' (i + 1) next opcode' kept skipped with ⟨insts, later⟩
      refine ⟨inst :: insts, ?_⟩
      rw [loadInsts, loaded]
      exact congrArg (Except.map (inst :: ·)) later

/-! ## Whole files -/

theorem length_lines (program : Program) : program.lines.length = program.body.length :=
  List.length_map ..

/-- The header is read, and the loop starts at what stands behind it. -/
theorem load_program (program : Program) (availPid : BitVec 32) (path : List Char)
    (garbage : Garbage) :
    load availPid path (some program.text) garbage =
      (loadInsts garbage.text program.size.toNat 0
        ⟨bodyText program.trailing program.body, garbage.opcode, garbage.buf⟩).map fun code =>
          { pid := availPid, priority := program.priority, path := path.take 99, pc := 0,
            bp := PAGE_SIZE, code := code } := by
  have ended := (tail_bodyText program.trailing program.body).ended
  have size := scanUnsigneds_spaced (by decide) [program.size] ended
  have blank : Ended (' ' :: (numeral program.size.toNat ++
      bodyText program.trailing program.body)) := by
    intro c first
    cases first
    exact isSpace_blank
  have priority : scanUnsigned 32 program.text = (some program.priority,
      ' ' :: (numeral program.size.toNat ++ bodyText program.trailing program.body)) :=
    scanUnsigned_numeral (by decide) program.priority blank
      (skipSpace_word (numeral_ne_nil _) (fun _ => isSpace_of_mem_numeral) _)
  have row : spaced [program.size] ++ bodyText program.trailing program.body =
      ' ' :: (numeral program.size.toNat ++ bodyText program.trailing program.body) := by
    simp [spaced]
  have header : scanUnsigneds 32 2 program.text =
      ([program.priority, program.size], bodyText program.trailing program.body) := by
    rw [scanUnsigneds, priority]
    dsimp only
    rw [← row]
    exact congrArg (fun scanned => (program.priority :: scanned.1, scanned.2)) size
  rw [load, header]
  rfl

/-- The loader is exact on a program, whatever uninitialised memory holds, just
when the program has as many instructions as its header declares. -/
theorem loadsExactly_iff (program : Program) (availPid : BitVec 32) (path : List Char) :
    (∀ garbage, LoadsExactly program (load availPid path (some program.text) garbage)) ↔
      program.size.toNat ≤ program.lines.length := by
  constructor
  · intro exact
    by_contra short
    have refused := (exact ⟨0, 0, OPT_CALC, [], fun _ => ⟨.CALC, 0, 0, 0, 0⟩⟩).short
      (Nat.lt_of_not_le short)
    rw [load_program] at refused
    rcases loadInsts_returns (fun _ => ⟨.CALC, 0, 0, 0, 0⟩) program.trailing program.size.toNat
      program.body 0 ⟨bodyText program.trailing program.body, OPT_CALC, []⟩ .CALC rfl rfl with
      ⟨insts, returned⟩
    dsimp only at refused
    rw [returned] at refused
    cases refused
  · intro enough garbage
    refine ⟨fun _ => ?_, fun short => absurd enough (Nat.not_le.mpr short)⟩
    have lines : program.size.toNat ≤ program.body.length := by
      rw [← length_lines]
      exact enough
    rcases loadInsts_lines garbage.text program.trailing program.size.toNat program.body 0
      ⟨bodyText program.trailing program.body, garbage.opcode, garbage.buf⟩ lines rfl with
      ⟨insts, loaded, agree⟩
    refine ⟨⟨availPid, program.priority, path.take 99, 0, PAGE_SIZE, insts⟩, ?_, agree⟩
    rw [load_program, loaded]
    rfl

/-- A header that declares two instructions before the single line `calc`: the
program is not rejected, and it has two `calc` instructions. -/
theorem not_loadsExactly :
    let program : Program := ⟨1, 2, [(.lf, ⟨.CALC, [], rfl⟩)], some .lf⟩
    let garbage : Garbage := ⟨0, 0, [], [], fun _ => ⟨.CALC, 0, 0, 0, 0⟩⟩
    program.text = "1 2\ncalc\n".toList ∧
      ¬ LoadsExactly program (load 1 [] (some program.text) garbage) := by
  intro program garbage
  refine ⟨by decide, fun exactly => ?_⟩
  have returned : load 1 [] (some program.text) garbage = .ok
      ⟨1, 1, [], 0, PAGE_SIZE, [⟨.CALC, 0, 0, 0, 0⟩, ⟨.CALC, 0, 0, 0, 0⟩]⟩ := by
    decide +kernel
  have refused := exactly.short (by decide)
  rw [returned] at refused
  cases refused

end Loader
end Ossim
