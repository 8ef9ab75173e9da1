import IrStream.Proofs.Types.RoundTrip

/-!
# The parts of a type that is read

A text that is read as a type is taken apart into pieces: words, names and the tokens between them,
with blanks around each (`Written`).  The pieces are those of a tree that has one node for each part
of the type (`TypeTree`), and the arena interns the parts in the order in which they are complete
(`TypeTree.resolve`).

A list in the tree has the mark `...` wherever the text has it, any number of times.

Trees are between texts and types.  Two texts are written for the same tree if they differ in
blanks, and two trees may stand for the same type if they differ in marks, so a tree has exactly as
much of the text as is needed to say what reading does.  Which text is a type is then a question of
two parts that have nothing to do with each other.

* *Is it written for a tree?*  That is about characters.  `Written` says it of a list of pieces,
  with the rest of the text behind them, so that pieces can be put together.  Where a word ends
  depends on what follows (`Stops`), and this is the only thing about which two neighbouring pieces
  must agree.
* *Does the tree resolve?*  That is about an arena.  A word has to be the name of a type, a name one
  of a declared struct, a number has to be small enough, and a void or a function may be anywhere,
  as far as reading is concerned.
-/

set_option autoImplicit false

namespace IrStream

/-! ## Pieces -/

/-- What is written without a blank inside. -/
inductive Piece where
  /-- A bracket, a comma or another token between types. -/
  | mark (token : String)
  /-- The mark `...` in a list. -/
  | dots
  /-- A keyword, a numeral or the name of a format. -/
  | word (chars : List Char)
  /-- The name of a struct, behind `%`. -/
  | name (chars : List Char)

namespace Piece

def text : Piece → List Char
  | mark token => token.toList
  | dots => "...".toList
  | word chars | name chars => chars

/-- Words and names are of characters that words are made of, and what is left does not go on with
one. -/
def EndsAt : Piece → (left : List Char) → Prop
  | mark _, _ | dots, _ => True
  | word chars, left | name chars, left =>
    IsWord chars ∧ ∀ c ∈ left.head?, TypeReader.isWordChar c = false

theorem EndsAt.append {piece : Piece} {left more : List Char} (ends : piece.EndsAt left)
    (stops : Stops more) : piece.EndsAt (left ++ more) := by
  have head (known : ∀ c ∈ left.head?, TypeReader.isWordChar c = false) :
      ∀ c ∈ (left ++ more).head?, TypeReader.isWordChar c = false := by
    cases left with
    | nil => exact stops.head
    | cons c rest => exact known
  cases piece with
  | mark | dots => trivial
  | word | name => exact ⟨ends.1, head ends.2⟩

end Piece

/-- The text begins with the pieces, one behind the other with blanks around them, and the rest
stands behind the last one. -/
def Written : List Piece → (text rest : List Char) → Prop
  | [], text, rest => trimStart text = trimStart rest
  | piece :: pieces, text, rest =>
    ∃ left, trimStart text = piece.text ++ left ∧ piece.EndsAt left ∧ Written pieces left rest

section

variable {pieces others : List Piece} {text other rest more : List Char}

theorem Written.of_trimStart (same : trimStart text = trimStart other)
    (written : Written pieces text rest) : Written pieces other rest := by
  cases pieces with
  | nil => exact same.symm.trans written
  | cons piece pieces =>
    obtain ⟨left, next, written⟩ := written
    exact ⟨left, same.symm.trans next, written⟩

theorem Written.rest_of_trimStart (same : trimStart rest = trimStart other)
    (written : Written pieces text rest) : Written pieces text other := by
  induction pieces generalizing text with
  | nil => exact written.trans same
  | cons piece pieces ih =>
    obtain ⟨left, next, ends, written⟩ := written
    exact ⟨left, next, ends, ih written⟩

/-- Pieces in two groups are written one group after the other. -/
theorem written_append_iff : Written (pieces ++ others) text rest ↔
    ∃ left, Written pieces text left ∧ Written others left rest := by
  induction pieces generalizing text with
  | nil =>
    constructor
    · exact fun written => ⟨text, rfl, written⟩
    · rintro ⟨left, same, written⟩
      exact written.of_trimStart same.symm
  | cons piece pieces ih =>
    constructor
    · rintro ⟨left, next, ends, written⟩
      obtain ⟨middle, first, second⟩ := ih.mp written
      exact ⟨middle, ⟨left, next, ends, first⟩, second⟩
    · rintro ⟨middle, ⟨left, next, ends, first⟩, second⟩
      exact ⟨left, next, ends, ih.mpr ⟨middle, first, second⟩⟩

/-- Pieces behind pieces. -/
theorem Written.append (first : Written pieces text other) (second : Written others other rest) :
    Written (pieces ++ others) text rest :=
  written_append_iff.mpr ⟨other, first, second⟩

theorem written_mark {token : String} (next : trimStart text = token.toList ++ rest) :
    Written [.mark token] text rest :=
  ⟨rest, next, trivial, rfl⟩

/-- What the rest begins with, behind blanks, is no more than what the text does. -/
theorem Written.length_le (written : Written pieces text rest) :
    (trimStart rest).length ≤ (trimStart text).length := by
  induction pieces generalizing text with
  | nil => exact Nat.le_of_eq (congrArg List.length written.symm)
  | cons piece pieces ih =>
    obtain ⟨left, next, -, written⟩ := written
    have shorter := length_trimStart_le left
    have := ih written
    rw [next, List.length_append]
    omega

/-- Behind a mark there is less than with it. -/
theorem length_lt_of_mark {token : String} {left : List Char}
    (next : trimStart text = token.toList ++ left) (solid : token.toList ≠ []) :
    (trimStart left).length < (trimStart text).length := by
  have shorter := length_trimStart_le left
  have positive := List.length_pos_iff.mpr solid
  rw [next, List.length_append]
  omega

/-- Blanks at the front may be passed over before or after something is appended. -/
theorem trimStart_append (text more : List Char) :
    trimStart (text ++ more) = trimStart (trimStart text ++ more) := by
  induction text with
  | nil => rfl
  | cons c rest ih =>
    by_cases blank : isBlank c = true
    · have passed (rest : List Char) : trimStart (c :: rest) = trimStart rest :=
        List.dropWhile_cons_of_pos blank
      rw [List.cons_append, passed, passed, ih]
    · have solid : isBlank c = false := Bool.not_eq_true _ ▸ blank
      rw [trimStart_cons solid]

/-- Text that does not begin with a blank still does not with something behind it. -/
theorem trimStart_append_of_eq {left : List Char} (next : trimStart text = left)
    (solid : left ≠ []) : trimStart (text ++ more) = left ++ more := by
  obtain ⟨c, rest, rfl⟩ := List.exists_cons_of_ne_nil solid
  have first : isBlank c = false := by
    have head := List.head?_dropWhile_not isBlank text
    rw [show text.dropWhile isBlank = c :: rest from next] at head
    simpa using head
  rw [trimStart_append, next]
  exact trimStart_cons first _

/-- **What is written is still written with more behind it**, unless that continues a word. -/
theorem Written.append_text (written : Written pieces text rest) (stops : Stops more) :
    Written pieces (text ++ more) (rest ++ more) := by
  induction pieces generalizing text with
  | nil =>
    change trimStart (text ++ more) = trimStart (rest ++ more)
    have same : trimStart text = trimStart rest := written
    rw [trimStart_append text, trimStart_append rest, same]
  | cons piece pieces ih =>
    obtain ⟨left, next, ends, written⟩ := written
    by_cases solid : piece.text ++ left = []
    · -- an empty name at the end of the text
      obtain ⟨empty, rfl⟩ := List.append_eq_nil_iff.mp solid
      refine ⟨trimStart more, ?_, ?_, ?_⟩
      · rw [trimStart_append, next, solid, empty]
        rfl
      · have stopped : Stops (trimStart more) := by rwa [Stops, trimStart_trimStart]
        exact ends.append stopped
      · exact (ih written).of_trimStart (trimStart_trimStart more).symm
    · refine ⟨left ++ more, ?_, ends.append stops, ih written⟩
      rw [trimStart_append_of_eq next solid, List.append_assoc]

end

/-! ## Trees -/

/-- A type as it is written.  The entries of a list are types and marks. -/
inductive TypeTree where
  /-- A type that a word stands for by itself. -/
  | word (chars : List Char)
  /-- A pointer `ptr addrspace(N)`. -/
  | addrSpace (digits : List Char)
  /-- A named struct, by what stands behind its mark. -/
  | named (name : List Char)
  /-- A struct without a name, in either of its two sorts of brackets. -/
  | struct (packed : Bool) (entries : List (Option TypeTree))
  /-- An array, with the digits of its length. -/
  | array (digits : List Char) (elem : TypeTree)
  /-- A function type, written as its result and a list behind it. -/
  | func (ret : TypeTree) (entries : List (Option TypeTree))

namespace TypeTree

/-- What holds of a tree because it holds of its parts holds of every tree. -/
theorem induction {motive : TypeTree → Prop} (word : ∀ chars, motive (word chars))
    (addrSpace : ∀ digits, motive (addrSpace digits)) (named : ∀ name, motive (named name))
    (struct : ∀ packed entries, (∀ tree, some tree ∈ entries → motive tree) →
      motive (struct packed entries))
    (array : ∀ digits elem, motive elem → motive (array digits elem))
    (func : ∀ ret entries, motive ret → (∀ tree, some tree ∈ entries → motive tree) →
      motive (func ret entries)) (tree : TypeTree) : motive tree := by
  refine @TypeTree.rec motive (fun entries => ∀ tree, some tree ∈ entries → motive tree)
    (fun entry => ∀ tree, entry = some tree → motive tree)
    word addrSpace named struct array func nofun ?_ nofun ?_ tree
  · intro entry rest first others tree mem
    rcases List.mem_cons.mp mem with same | mem
    · exact first tree same.symm
    · exact others tree mem
  · rintro tree known _ ⟨⟩
    exact known

mutual

/-- What is written for the tree. -/
def pieces : TypeTree → List Piece
  | word chars => [.word chars]
  | addrSpace digits => [.word "ptr".toList, .mark "addrspace(", .word digits, .mark ")"]
  | named name => [.mark "%", .name name]
  | struct packed entries =>
    .mark (Types.openToken packed) :: (entriesPieces entries ++ [.mark (Types.closeToken packed)])
  | array digits elem =>
    .mark "[" :: .word digits :: .word ['x'] :: (elem.pieces ++ [.mark "]"])
  | func ret entries => ret.pieces ++ .mark "(" :: (entriesPieces entries ++ [.mark ")"])

/-- What is written for the entries of a list. -/
def entriesPieces : List (Option TypeTree) → List Piece
  | [] => []
  | entry :: rest =>
    entryPieces entry ++ if rest.isEmpty then [] else .mark "," :: entriesPieces rest

def entryPieces : Option TypeTree → List Piece
  | none => [.dots]
  | some tree => tree.pieces

end

/-- The mark is among the entries of a list. -/
def hasDots (entries : List (Option TypeTree)) : Bool :=
  entries.any Option.isNone

/-- The width in the name `iN` of an integer type. -/
def width? : List Char → Option Nat
  | 'i' :: digits => (bounded? 10 UInt32.size digits).filter (0 < ·)
  | _ => none

/-- The type that a word stands for by itself. -/
def ofWord (chars : List Char) : StateT Types Option TypeId := fun types =>
  if chars = "void".toList then
    some (.void, types)
  else if chars = "ptr".toList then
    some (.ptr, types)
  else
    match FloatKind.ofName? (String.ofList chars) with
    | some kind => some (types.float kind)
    | none => (width? chars).map fun bits => types.int (UInt32.ofNat bits)

theorem ofWord_void (types : Types) : ofWord "void".toList types = some (.void, types) :=
  if_pos rfl

theorem ofWord_ptr (types : Types) : ofWord "ptr".toList types = some (.ptr, types) :=
  (if_neg (by decide)).trans (if_pos rfl)

mutual

/-- The handle of the type in an arena, which interns its parts in the order in which they are
complete. -/
def resolve : TypeTree → StateT Types Option TypeId
  | word chars => ofWord chars
  | addrSpace digits => do
    let space ← (bounded? 10 UInt64.size digits).filter (· < UInt32.size)
    fun types => some (types.ptr (UInt32.ofNat space))
  | named name => fun types => (types.named? (String.ofList name)).map (·, types)
  | struct packed entries => do
    let fields ← resolveEntries entries
    fun types => some (types.literalStruct fields packed)
  | array digits elem => do
    let length ← bounded? 10 UInt64.size digits
    let elem ← elem.resolve
    fun types => some (types.array elem (UInt64.ofNat length))
  | func ret entries => do
    let ret ← ret.resolve
    let params ← resolveEntries entries
    fun types => some (types.func params ret (hasDots entries))

def resolveEntries : List (Option TypeTree) → StateT Types Option (List TypeId)
  | [] => pure []
  | none :: rest => resolveEntries rest
  | some tree :: rest => do
    let id ← tree.resolve
    let ids ← resolveEntries rest
    pure (id :: ids)

end

/-- The text is written for the tree and has nothing else in it. -/
def Spells (tree : TypeTree) (text : List Char) : Prop :=
  Written tree.pieces text []

end TypeTree

end IrStream
