import IrStream.Report.Assembly
import Mathlib.Algebra.BigOperators.Group.List.Basic
import Mathlib.Algebra.GroupWithZero.Nat

/-!
# Lines and statements

A source can be cut at every line end (`lines`), or only at those that do not stand between double
quotes (`statements`).  Both are cuts by a machine that goes over the characters (`pieces`), so they
have their laws in common: the texts that were put on lines of their own are the pieces of the whole
if each of them is a piece by itself (`pieces_unlines`).

A text with line ends in it is no line, and falls into as many lines as it has line ends and one
more (`length_lines_unlines`).

A machine has states and a step that may refuse a character.  A character that is refused ends the
piece, and the next one begins in the first state again.  For lines there is one state, and a line
end is refused.  For statements there are three, `Quoting`: outside of quotes, between them, and
behind a backslash between them; a line end is refused only in the first.

`IsPiece` is the condition under which a text survives being put between others: the machine gets
through it without refusing anything, and stops in a state that refuses the line end behind it.

## Statements

* `pieces_unlines`: **pieces with line ends between them are cut apart again.**
* `lines_unlines`, `statements_unlines`: the two cases of that.
* `length_lines_unlines`: **a text is as many lines** as it has line ends, and one more.
* `isStatement_of_unquoted`, `IsStatement.append`: how a text is seen to be a statement, piece by
  piece.
-/

set_option autoImplicit false

namespace IrStream

/-! ## Cutting texts -/

/-- Put a character in front of the first piece. -/
def pushFront (c : Char) : List (List Char) → List (List Char)
  | [] => [[c]]
  | first :: others => (c :: first) :: others

theorem length_pushFront (c : Char) {list : List (List Char)} (some : list ≠ []) :
    (pushFront c list).length = list.length := by
  cases list with
  | nil => exact absurd rfl some
  | cons first others => rfl

theorem mem_pushFront {c : Char} {list : List (List Char)} {piece : List Char}
    (mem : piece ∈ pushFront c list) :
    piece = [c] ∨ (∃ first ∈ list, piece = c :: first) ∨ piece ∈ list := by
  cases list with
  | nil => exact .inl (List.mem_singleton.mp mem)
  | cons first others =>
    rcases List.mem_cons.mp mem with rfl | mem
    · exact .inr (.inl ⟨first, List.mem_cons_self, rfl⟩)
    · exact .inr (.inr (List.mem_cons_of_mem first mem))

/-- Cut a text.  Every piece begins in the state `start`.  A character that leads to no state ends
the piece, and is not part of any. -/
def pieces {σ : Type} (step : σ → Char → Option σ) (start : σ) :
    (state : σ) → List Char → List (List Char)
  | _, [] => []
  | state, c :: rest =>
    match step state c with
    | some next => pushFront c (pieces step start next rest)
    | none => [] :: pieces step start start rest

/-- The text is one piece if a line end follows. -/
def IsPiece {σ : Type} (step : σ → Char → Option σ) (start : σ) (text : List Char) : Prop :=
  ∃ last, text.foldlM step start = some last ∧ step last '\n' = none

section

variable {σ : Type} {step : σ → Char → Option σ} {start state last : σ} {text : List Char}

/-- The end of a piece is found where the run over the piece has no next state. -/
theorem pieces_append {mark : Char} (run : text.foldlM step state = some last)
    (ends : step last mark = none) (rest : List Char) :
    pieces step start state (text ++ mark :: rest) = text :: pieces step start start rest := by
  induction text generalizing state with
  | nil =>
    cases run
    rw [List.nil_append, pieces, ends]
  | cons c text ih =>
    rw [List.foldlM_cons, Option.bind_eq_bind, Option.bind_eq_some_iff] at run
    obtain ⟨next, here, run⟩ := run
    rw [List.cons_append, pieces, here]
    exact congrArg (pushFront c) (ih run)

/-- The last piece may be without an end. -/
theorem pieces_of_run (run : text.foldlM step state = some last) (some : text ≠ []) :
    pieces step start state text = [text] := by
  induction text generalizing state with
  | nil => exact absurd rfl some
  | cons c text ih =>
    rw [List.foldlM_cons, Option.bind_eq_bind, Option.bind_eq_some_iff] at run
    obtain ⟨next, here, run⟩ := run
    rw [pieces, here]
    by_cases none : text = []
    · rw [none]
      rfl
    · exact congrArg (pushFront c) (ih run none)

theorem toList_unlines_cons (line : String) (lines : List String) :
    (unlines (line :: lines)).toList = line.toList ++ '\n' :: (unlines lines).toList := by
  simp [unlines]

/-- **Pieces with line ends between them are cut apart again.** -/
theorem pieces_unlines {lines : List String}
    (each : ∀ line ∈ lines, IsPiece step start line.toList) :
    pieces step start start (unlines lines).toList = lines.map String.toList := by
  induction lines with
  | nil => rfl
  | cons line lines ih =>
    obtain ⟨last, run, ends⟩ := each line List.mem_cons_self
    rw [toList_unlines_cons, pieces_append run ends, List.map_cons,
      ih fun other mem => each other (List.mem_cons_of_mem line mem)]

end

/-! ## Cutting at a character -/

/-- Cut a text at every character `mark`. -/
def cut (mark : Char) (text : List Char) : List (List Char) :=
  pieces (fun _ c => if c = mark then none else some ()) () () text

/-- The lines of a text. -/
def lines (text : List Char) : List (List Char) :=
  cut '\n' text

theorem run_of_not_mem {mark : Char} {text : List Char} (free : mark ∉ text) :
    text.foldlM (fun (_ : Unit) c => if c = mark then none else some ()) () = some () := by
  induction text with
  | nil => rfl
  | cons c text ih =>
    rw [List.mem_cons, not_or] at free
    rw [List.foldlM_cons, if_neg (Ne.symm free.1)]
    exact ih free.2

/-- No piece contains what the text was cut at. -/
theorem not_mem_of_mem_cut {mark : Char} {text piece : List Char} (mem : piece ∈ cut mark text) :
    mark ∉ piece := by
  rw [cut] at mem
  induction text generalizing piece with
  | nil => cases mem
  | cons c text ih =>
    rw [pieces] at mem
    by_cases here : c = mark
    · rw [if_pos here] at mem
      rcases List.mem_cons.mp mem with rfl | mem
      exacts [List.not_mem_nil, ih mem]
    · rw [if_neg here] at mem
      rcases mem_pushFront mem with rfl | ⟨first, listed, rfl⟩ | listed
      · exact fun inside => here (List.mem_singleton.mp inside).symm
      · exact fun inside => (List.mem_cons.mp inside).elim (Ne.symm here) (ih listed)
      · exact ih listed

/-- Texts without line ends are the lines of what they are put together to. -/
theorem lines_unlines {source : List String} (each : ∀ line ∈ source, '\n' ∉ line.toList) :
    lines (unlines source).toList = source.map String.toList :=
  pieces_unlines fun line mem => ⟨(), run_of_not_mem (each line mem), rfl⟩

/-- Behind a line end the counting starts again. -/
theorem length_lines_append (text rest : List Char) :
    (lines (text ++ '\n' :: rest)).length = text.count '\n' + 1 + (lines rest).length := by
  simp only [lines, cut]
  induction text with
  | nil =>
    rw [List.nil_append, pieces, if_pos rfl, List.count_nil, List.length_cons]
    omega
  | cons c text ih =>
    rw [List.cons_append, pieces]
    by_cases here : c = '\n'
    · subst here
      rw [if_pos rfl, List.count_cons_self, List.length_cons, ih]
      omega
    · rw [if_neg here, List.count_cons_of_ne here, ← ih]
      exact length_pushFront c (List.ne_nil_of_length_pos (by omega))

/-- **A text is as many lines** as it has line ends, and one more. -/
theorem length_lines_unlines (source : List String) :
    (lines (unlines source).toList).length
      = (source.map fun line => line.toList.count '\n' + 1).sum := by
  induction source with
  | nil => rfl
  | cons line source ih =>
    rw [toList_unlines_cons, length_lines_append, ih, List.map_cons, List.sum_cons]

/-! ## Cutting outside quotes

Between quotes a line end is a character like any other. -/

/-- Where a character stands: outside quotes, between them, or behind a backslash there. -/
inductive Quoting where
  /-- Here a line end is the end of a statement. -/
  | outside
  /-- Here only a quotation mark and a backslash have a meaning. -/
  | inside
  /-- The next character is taken as it is. -/
  | escaped
  deriving DecidableEq

/-- A line end outside quotes ends a statement. -/
def Quoting.next : Quoting → Char → Option Quoting
  | .outside, c => if c = '\n' then none else some (if c = '"' then .inside else .outside)
  | .inside, c => some (if c = '"' then .outside else if c = '\\' then .escaped else .inside)
  | .escaped, _ => some .inside

/-- The statements of a source. -/
def statements (text : List Char) : List (List Char) :=
  pieces Quoting.next .outside .outside text

/-- All quotes are closed, and no line end stands outside them.  A statement can be put behind
another without changing where that one ends. -/
def IsStatement (text : List Char) : Prop :=
  text.foldlM Quoting.next .outside = some .outside

instance (text : List Char) : Decidable (IsStatement text) :=
  inferInstanceAs (Decidable (_ = _))

theorem IsStatement.isPiece {text : List Char} (statement : IsStatement text) :
    IsPiece Quoting.next .outside text :=
  ⟨.outside, statement, rfl⟩

theorem IsStatement.append {first second : List Char} (here : IsStatement first)
    (there : IsStatement second) : IsStatement (first ++ second) := by
  rw [IsStatement, List.foldlM_append, show first.foldlM Quoting.next .outside = _ from here]
  exact there

theorem isStatement_of_unquoted {text : List Char} (plain : ∀ c ∈ text, c ≠ '\n' ∧ c ≠ '"') :
    IsStatement text := by
  induction text with
  | nil => rfl
  | cons c text ih =>
    obtain ⟨line, quote⟩ := plain c List.mem_cons_self
    rw [IsStatement, List.foldlM_cons, Quoting.next, if_neg line, if_neg quote]
    exact ih fun other mem => plain other (List.mem_cons_of_mem c mem)

theorem statements_unlines {source : List String}
    (each : ∀ line ∈ source, IsStatement line.toList) :
    statements (unlines source).toList = source.map String.toList :=
  pieces_unlines fun line mem => (each line mem).isPiece

end IrStream
