import IrStream.Proofs.Types.Tree

/-!
# Reading takes a text apart

A text is read as a type exactly if it is written for a tree whose parts the arena knows or interns
(`Types.readText_eq_ok_iff`).  So the arena a type is read in matters for what the names in it stand
for, and the text for the tree.

One direction goes along the reader (`TypeReader.Sound`), the other one along the tree
(`TypeReader.Finds`).  In the second one a function type stands behind the type it returns, and what
is said of a tree is how far reading has got at the first list that is not its own
(`TypeReader.Reaches`).

## The grammar

A type is a *base* followed by any number of parameter lists, and each list makes a function type
that returns what stands in front of it.  A base is a word, a name of a struct, a struct between
brackets or an array.  The reader takes a base and then looks for lists in a loop, so the structure
of the text and that of the type are turned against each other: the outermost node of `i32 (i8)
(ptr)` is the *last* list.

## From the reader to the tree

`Sound item` says that whatever `item` reads, there is a tree, and the text that was taken is
written for it, and the arena that is left is the one that resolving the tree leaves.  It is shown
for each part of the reader, from the assumption that the reader of parts has the property.  For the
loop over parameter lists the tree that was found so far is the one that the next list is put
behind.

## From the tree to the reader

`Finds item limit tree` says that `item` reads what is written for the tree, whatever comes behind
it, as long as that does not go on with the type.  The induction on the tree would break down at
function types, whose text begins with the text of the type they return, with nothing in between
that could tell where it ends.  So what is shown is `Reaches`: at what is written for the tree, the
reader begins with a base, and after some rounds of the loop it holds the type of the tree, with
enough turns left for the rest.  A list behind is then one more round (`Reaches.func`), and where
none comes the loop stops (`Reaches.finds`).

The depth of brackets and the number of turns are bounded in the reader, by the length of the text.
That they are enough is part of the induction: every list takes at least one character.
-/

set_option autoImplicit false

namespace IrStream

/-! ## Resolving

Rules for the monad in which trees are resolved, in which a step may fail and leaves an arena. -/

section

variable {α β : Type} {types middle after : Types}

/-- A step that is known to succeed can be taken. -/
theorem resolving_of_eq {step : StateT Types Option α} {next : α → StateT Types Option β} {a : α}
    (run : step types = some (a, middle)) : (step >>= next) types = next a middle :=
  (congrArg (·.bind fun r => next r.1 r.2) run).trans rfl

/-- A run of two steps is a run of the first and, from the arena it leaves, one of the second. -/
theorem resolving_iff {step : StateT Types Option α} {next : α → StateT Types Option β}
    {result : β × Types} : (step >>= next) types = some result ↔
      ∃ a middle, step types = some (a, middle) ∧ next a middle = some result := by
  constructor
  · intro run
    obtain ⟨⟨a, middle⟩, first, second⟩ := Option.bind_eq_some_iff.mp run
    exact ⟨a, middle, first, second⟩
  · rintro ⟨a, middle, first, second⟩
    exact (resolving_of_eq first).trans second

/-- A value that is there is the answer of a step that leaves the arena alone. -/
theorem resolving_lift_of_eq {value : Option α} {next : α → StateT Types Option β} {a : α}
    (known : value = some a) :
    (liftM value >>= next : StateT Types Option β) types = next a types :=
  resolving_of_eq (by subst known; rfl)

/-- A step that has to have a value succeeds where the value is there, and the arena is the same. -/
theorem resolving_lift_iff {value : Option α} {next : α → StateT Types Option β}
    {result : β × Types} : (liftM value >>= next : StateT Types Option β) types = some result ↔
      ∃ a, value = some a ∧ next a types = some result := by
  cases value with
  | none => exact iff_of_false nofun (by simp)
  | some a =>
    constructor
    · exact fun run => ⟨a, rfl, run⟩
    · rintro ⟨_, ⟨⟩, run⟩
      exact run

end

namespace TypeReader

variable {α β : Type} {types after : Types} {text rest left : List Char}

/-! ## What a step has taken

If a step of the reader succeeds, the text began with what the step looks for.  One rule for each of
the steps, all in the same form: the text in front, and the rest of the run behind. -/

/-- What succeeds in two steps has succeeded in the first. -/
theorem exists_of_bind {step : TypeReader Types α} {next : α → TypeReader Types β}
    {result : β × List Char} (run : (step >>= next) types text = (after, some result)) :
    ∃ middle a left, step types text = (middle, some (a, left))
      ∧ next a middle left = (after, some result) := by
  simp only [Bind.bind] at run
  split at run
  · cases run
  · exact ⟨_, _, _, ‹_›, run⟩

/-- A prefix that was stripped stood in front. -/
theorem eq_append_of_stripPrefix? {token : List Char}
    (stripped : stripPrefix? token text = some rest) : text = token ++ rest := by
  induction token generalizing text with
  | nil => exact Option.some.inj stripped
  | cons expected token ih =>
    cases text with
    | nil => cases stripped
    | cons c text =>
      rw [stripPrefix?] at stripped
      split at stripped
      · next same => rw [ih stripped, same, List.cons_append]
      · cases stripped

/-- One of the branches was taken, the first one behind the token. -/
theorem branch_cases {token : String} {yes no : TypeReader Types α} {result : α × List Char}
    (run : (do if ← take? token then yes else no : TypeReader Types α) types text
      = (after, some result)) :
    (∃ left, trimStart text = token.toList ++ left ∧ yes types left = (after, some result))
      ∨ no types text = (after, some result) := by
  obtain ⟨middle, taken, left, step, run⟩ := exists_of_bind run
  rw [take?] at step
  split at step
  · next stripped =>
    cases step
    exact .inl ⟨left, eq_append_of_stripPrefix? stripped, run⟩
  · cases step
    exact .inr run

/-- What is expected was there. -/
theorem of_expect {token : String} {next : TypeReader Types α} {result : α × List Char}
    (run : (do expect token; next : TypeReader Types α) types text = (after, some result)) :
    ∃ left, trimStart text = token.toList ++ left ∧ next types left = (after, some result) := by
  obtain ⟨middle, _, left, step, run⟩ := exists_of_bind run
  obtain ⟨other, taken, behind, stepped, checked⟩ := exists_of_bind step
  rw [take?] at stepped
  split at stepped
  · next stripped =>
    cases stepped
    cases checked
    exact ⟨left, eq_append_of_stripPrefix? stripped, run⟩
  · cases stepped
    cases checked

/-- A word is taken as long as it goes on. -/
theorem of_word {next : List Char → TypeReader Types α} {result : α × List Char}
    (run : (do next (← word) : TypeReader Types α) types text = (after, some result)) :
    ∃ chars left, trimStart text = chars ++ left ∧ (Piece.word chars).EndsAt left
      ∧ next chars types left = (after, some result) := by
  obtain ⟨middle, chars, left, step, run⟩ := exists_of_bind run
  cases step
  refine ⟨_, _, (List.takeWhile_append_dropWhile).symm, ⟨isWord_takeWhile _, ?_⟩, run⟩
  intro c head
  have stopped := List.head?_dropWhile_not isWordChar (trimStart text)
  rw [Option.mem_def.mp head] at stopped
  simpa using stopped

/-- A value that was required was there. -/
theorem of_require {value : Option α} {next : α → TypeReader Types β} {result : β × List Char}
    (run : (do next (← require value) : TypeReader Types β) types text = (after, some result)) :
    ∃ a, value = some a ∧ next a types text = (after, some result) := by
  cases value with
  | none => cases run
  | some a => exact ⟨a, rfl, run⟩

/-- A number that was read is a run of digits, the value of which is below the limit. -/
theorem of_number {limit : Nat} {next : Nat → TypeReader Types α} {result : α × List Char}
    (run : (do next (← number limit) : TypeReader Types α) types text = (after, some result)) :
    ∃ digits value left, trimStart text = digits ++ left ∧ (Piece.word digits).EndsAt left
      ∧ bounded? 10 limit digits = some value ∧ next value types left = (after, some result) := by
  obtain ⟨middle, value, left, step, run⟩ := exists_of_bind run
  obtain ⟨digits, behind, spelled, ends, read⟩ := of_word step
  -- the word that was taken is a numeral, or else nothing would have been read
  cases known : bounded? 10 limit digits with
  | none =>
    rw [known] at read
    cases read
  | some number =>
    rw [known] at read
    cases read
    exact ⟨digits, value, left, spelled, ends, known, run⟩

/-! ## Trees of texts that were read

One lemma for each part of the reader.  Each of them puts the trees of the parts together to one
tree, and the arenas that the parts leave are the ones between the parts of the tree. -/

/-- What the item reads is written for a tree. -/
def Sound (item : TypeReader Types TypeId) : Prop :=
  ∀ ⦃types text after id rest⦄, item types text = (after, some (id, rest)) →
    ∃ tree : TypeTree, Written tree.pieces text rest ∧ tree.resolve types = some (id, after)

open TypeTree

variable {item : TypeReader Types TypeId} {close : String} {ids : List TypeId} {marked : Bool}

/-- What is read as a list is written for the entries of a list.  By induction on the turns: the
first item is one of them, and the rest is read behind its comma. -/
theorem Sound.listItems (sound : Sound item) {turns : Nat} {items : List TypeId} {vararg : Bool}
    (run : listItems item close turns items vararg types text
      = (after, some ((ids, marked), rest))) :
    ∃ entries new, Written (entriesPieces entries ++ [.mark close]) text rest
      ∧ entries ≠ [] ∧ resolveEntries entries types = some (new, after) ∧ ids = items ++ new
      ∧ marked = (vararg || hasDots entries) := by
  induction turns generalizing types text items vararg with
  | zero => cases run
  | succ turns ih =>
    -- behind an entry the list ends or goes on
    have behind {types : Types} {text : List Char} {items : List TypeId} {vararg : Bool}
        (run : (do
          if ← take? close then return (items, vararg)
          expect ","
          TypeReader.listItems item close turns items vararg : TypeReader Types _) types text
            = (after, some ((ids, marked), rest))) :
        ∃ entries new, Written ((if entries.isEmpty then [] else .mark "," :: entriesPieces entries)
            ++ [.mark close]) text rest
          ∧ resolveEntries entries types = some (new, after) ∧ ids = items ++ new
          ∧ marked = (vararg || hasDots entries) := by
      rcases branch_cases run with ⟨left, next, run⟩ | run
      · cases run
        exact ⟨[], [], written_mark next, rfl, (List.append_nil _).symm, (Bool.or_false _).symm⟩
      · obtain ⟨left, next, run⟩ := of_expect run
        obtain ⟨entries, new, written, more, resolved, found⟩ := ih run
        refine ⟨entries, new, ?_, resolved, found⟩
        rw [if_neg (by simpa using more)]
        exact (written_mark next).append written
    rw [TypeReader.listItems] at run
    -- an entry is the mark, or it is what the item reads
    rcases branch_cases run with ⟨left, next, run⟩ | run
    · obtain ⟨entries, new, written, resolved, found, also⟩ := behind run
      refine ⟨none :: entries, new, ?_, List.cons_ne_nil _ _, resolved, found, ?_⟩
      · rw [entriesPieces, entryPieces, List.append_assoc]
        exact ⟨left, next, trivial, written⟩
      · rw [also, Bool.true_or]
        exact (Bool.or_true vararg).symm
    · obtain ⟨middle, id, left, read, run⟩ := exists_of_bind run
      obtain ⟨tree, first, known⟩ := sound read
      obtain ⟨entries, new, written, resolved, found, also⟩ := behind run
      refine ⟨some tree :: entries, id :: new, ?_, List.cons_ne_nil _ _, ?_, ?_, also⟩
      · rw [entriesPieces, List.append_assoc]
        exact first.append written
      · rw [resolveEntries, resolving_of_eq known, resolving_of_eq resolved]
        rfl
      · rw [found, List.append_assoc, List.singleton_append]

/-- The entries of a list, with the marks among them, up to the token that closes it. -/
theorem Sound.list (sound : Sound item)
    (run : list item close types text = (after, some ((ids, marked), rest))) :
    ∃ entries, Written (entriesPieces entries ++ [.mark close]) text rest
      ∧ resolveEntries entries types = some (ids, after) ∧ marked = hasDots entries := by
  rw [TypeReader.list] at run
  rcases branch_cases run with ⟨left, next, run⟩ | run
  · cases run
    exact ⟨[], written_mark next, rfl, rfl⟩
  · obtain ⟨entries, new, written, -, resolved, rfl, rfl⟩ := sound.listItems run
    exact ⟨entries, written, resolved, rfl⟩

/-! ### Bases

A tree resolves a word by looking for the names of types in a fixed order, and the reader compares
in the same order but has the pointer of an address space in between.  The two are compared here
once, for all words. -/

/-- A word is the name of a format, or else `i` and a width. -/
theorem ofWord_eq_interning (chars : List Char) :
    (ofWord chars : TypeReader Types TypeId) = match FloatKind.ofName? (String.ofList chars) with
      | some kind => interning (.float kind)
      | none => require (width? chars) >>= fun bits => interning (.int (UInt32.ofNat bits)) := by
  cases chars with
  | nil => rfl
  | cons c digits =>
    by_cases letter : c = 'i'
    · subst letter
      rfl
    · have unread : width? (c :: digits) = none := by simp [width?, letter]
      rw [unread]
      unfold TypeReader.ofWord
      cases FloatKind.ofName? (String.ofList (c :: digits)) with
      | some kind => rfl
      | none =>
        dsimp only
        split
        · next same =>
          cases same
          exact absurd rfl letter
        · rfl

/-- A word stands for the same type in the text and in the tree. -/
theorem ofWord_eq {chars : List Char} (noVoid : chars ≠ "void".toList)
    (noPtr : chars ≠ "ptr".toList) (types : Types) (text : List Char) :
    ofWord chars types text = match TypeTree.ofWord chars types with
      | some (id, after) => (after, some (id, text))
      | none => (types, none) := by
  rw [ofWord_eq_interning, TypeTree.ofWord, if_neg noVoid, if_neg noPtr]
  cases FloatKind.ofName? (String.ofList chars) with
  | some kind => rfl
  | none => cases width? chars <;> rfl

/-- A struct without a name, in either of its brackets. -/
theorem Sound.struct (sound : Sound item) (packed : Bool) {id : TypeId}
    (next : trimStart text = (Types.openToken packed).toList ++ left)
    (run : (do
      let (fields, _) ← TypeReader.list item (Types.closeToken packed)
      interning (.struct ⟨none, fields, packed, true⟩) : TypeReader Types TypeId) types left
        = (after, some (id, rest))) :
    ∃ tree : TypeTree, Written tree.pieces text rest ∧ tree.resolve types = some (id, after) := by
  obtain ⟨middle, ⟨fields, _⟩, behind, listed, made⟩ := exists_of_bind run
  obtain ⟨entries, written, resolved, -⟩ := sound.list listed
  cases made
  refine ⟨.struct packed entries, (written_mark next).append written, ?_⟩
  rw [TypeTree.resolve, resolving_of_eq resolved]
  rfl

/-- A number, a cross and a type, between brackets. -/
theorem Sound.array (sound : Sound item) {id : TypeId}
    (next : trimStart text = "[".toList ++ left)
    (run : (do
      let length ← number UInt64.size
      if (← word) != ['x'] then
        fail
      let elem ← item
      expect "]"
      interning (.array elem (UInt64.ofNat length)) : TypeReader Types TypeId) types left
        = (after, some (id, rest))) :
    ∃ tree : TypeTree, Written tree.pieces text rest ∧ tree.resolve types = some (id, after) := by
  obtain ⟨digits, length, left, spelled, ends, known, run⟩ := of_number run
  obtain ⟨chars, left, begun, stops, run⟩ := of_word run
  -- any word could stand between length and element, and all but one are refused
  by_cases times : chars = ['x']
  · subst times
    obtain ⟨middle, elem, left, read, run⟩ := exists_of_bind run
    obtain ⟨tree, written, resolved⟩ := sound read
    obtain ⟨left, closed, made⟩ := of_expect run
    cases made
    refine ⟨.array digits tree, ?_, ?_⟩
    · exact ⟨_, next, trivial, _, spelled, ends, _, begun, stops,
        written.append (written_mark closed)⟩
    · rw [TypeTree.resolve, resolving_lift_of_eq known, resolving_of_eq resolved]
      rfl
  · rw [if_pos (by simpa using times)] at run
    cases run

/-- A word, or a pointer with the number of its address space. -/
theorem exists_of_ofWord {id : TypeId}
    (run : (do
      let name ← word
      if name = "void".toList then
        return .void
      else if name = "ptr".toList then
        if ← take? "addrspace(" then
          let space ← number UInt64.size
          let space ← require (if space < UInt32.size then some space else none)
          expect ")"
          interning (.ptr (UInt32.ofNat space))
        else
          return .ptr
      else
        ofWord name : TypeReader Types TypeId) types text = (after, some (id, rest))) :
    ∃ tree : TypeTree, Written tree.pieces text rest ∧ tree.resolve types = some (id, after) := by
  obtain ⟨chars, left, spelled, ends, run⟩ := of_word run
  by_cases void : chars = "void".toList
  · rw [if_pos void] at run
    cases run
    subst void
    exact ⟨.word _, ⟨_, spelled, ends, rfl⟩, ofWord_void types⟩
  rw [if_neg void] at run
  -- a pointer is the one word that something may follow
  by_cases ptr : chars = "ptr".toList
  · rw [if_pos ptr] at run
    subst ptr
    rcases branch_cases run with ⟨inside, opened, run⟩ | run
    · obtain ⟨digits, space, inside, numeral, stops, known, run⟩ := of_number run
      obtain ⟨small, bounded, run⟩ := of_require run
      obtain ⟨behind, closed, made⟩ := of_expect run
      cases made
      refine ⟨.addrSpace digits,
        ⟨_, spelled, ends, _, opened, trivial, _, numeral, stops, written_mark closed⟩, ?_⟩
      have known : (bounded? 10 UInt64.size digits).filter (· < UInt32.size) = some small := by
        rw [known, Option.filter_some, ← bounded]
        simp only [decide_eq_true_eq]
      rw [TypeTree.resolve, resolving_lift_of_eq known]
      rfl
    · cases run
      exact ⟨.word _, ⟨_, spelled, ends, rfl⟩, ofWord_ptr types⟩
  · rw [if_neg ptr] at run
    rw [ofWord_eq void ptr] at run
    split at run
    · next known =>
      cases run
      exact ⟨.word chars, ⟨_, spelled, ends, rfl⟩, known⟩
    · cases run

/-- Which alternative was taken, and the tree for it. -/
theorem Sound.base (sound : Sound item) : Sound (base item) := by
  intro types text after id rest run
  rw [TypeReader.base] at run
  rcases branch_cases run with ⟨left, next, run⟩ | run
  · exact sound.struct true next run
  rcases branch_cases run with ⟨left, next, run⟩ | run
  · exact sound.struct false next run
  rcases branch_cases run with ⟨left, next, run⟩ | run
  · exact sound.array next run
  rcases branch_cases run with ⟨left, next, run⟩ | run
  -- a named struct is looked up, so the arena is the same before and behind it
  · obtain ⟨name, left, spelled, ends, run⟩ := of_word run
    rw [declared_eq] at run
    obtain ⟨rfl, answered⟩ := Prod.mk.inj run
    obtain ⟨_, known, same⟩ := Option.map_eq_some_iff.mp answered
    cases same
    exact ⟨.named name, ⟨_, next, trivial, _, spelled, ends, rfl⟩,
      congrArg (Option.map (·, types)) known⟩
  exact exists_of_ofWord run

/-! ### Parameter lists

A list that is read is put behind the tree that was found before it.  So the tree grows at its root
while the text grows at its end, and what is carried through the turns is that the two fit: the text
from the start of the type up to here is written for the tree up to here. -/

/-- Parameter lists behind what is written for a tree make it the tree of a function type. -/
theorem Sound.parameterLists (sound : Sound item) {turns : Nat} {ret id : TypeId}
    {start : List Char} {before : Types} {tree : TypeTree}
    (written : Written tree.pieces start text)
    (resolved : tree.resolve before = some (ret, types))
    (run : parameterLists item turns ret types text = (after, some (id, rest))) :
    ∃ tree : TypeTree, Written tree.pieces start rest ∧ tree.resolve before = some (id, after) := by
  induction turns generalizing types text ret tree with
  | zero => cases run
  | succ turns ih =>
    rw [TypeReader.parameterLists] at run
    rcases branch_cases run with ⟨left, next, run⟩ | run
    · obtain ⟨middle, ⟨params, vararg⟩, left, listed, run⟩ := exists_of_bind run
      obtain ⟨entries, more, known, rfl⟩ := sound.list listed
      -- with the list behind it the text is written for a function type
      have longer : Written (TypeTree.func tree entries).pieces start left :=
        written.append ((written_mark next).append more)
      refine ih longer ?_ run
      rw [TypeTree.resolve, resolving_of_eq resolved, resolving_of_eq known]
      rfl
    · cases run
      exact ⟨tree, written, resolved⟩

/-- **What is read is written for a tree**, however deep brackets may be. -/
theorem typeWithin_sound (depth : Nat) : Sound (typeWithin depth) := by
  induction depth with
  | zero => nofun
  | succ depth ih =>
    intro types text after id rest run
    rw [typeWithin] at run
    obtain ⟨middle, ret, left, read, run⟩ := exists_of_bind run
    obtain ⟨tree, written, resolved⟩ := ih.base read
    exact ih.parameterLists written resolved run

/-! ## Texts that are written for trees

What a tree is written as determines which alternative the reader takes: a type begins with a
character from which the alternative follows, and no two of them begin alike. -/

/-- Every word that is a type begins as types do. -/
theorem startsType_of_ofWord {chars : List Char} {result : TypeId × Types}
    (known : TypeTree.ofWord chars types = some result) : startsType chars = true := by
  unfold TypeTree.ofWord at known
  split at known
  · next void =>
    rw [void]
    decide
  split at known
  · next ptr =>
    rw [ptr]
    decide
  split at known
  · next kind named =>
    have spelled : kind.name = String.ofList chars := by simpa using List.find?_some named
    rw [← String.toList_ofList (l := chars), ← spelled]
    exact Types.startsType_name kind
  · cases chars with
    | nil => cases known
    | cons c digits =>
      by_cases letter : c = 'i'
      · subst letter
        rfl
      · simp [width?, letter] at known

/-- What is written for a tree begins like a type. -/
theorem startsType_of_written {tree : TypeTree} {result : TypeId × Types}
    (resolved : tree.resolve types = some result) (written : Written tree.pieces text rest) :
    startsType (trimStart text) = true := by
  induction tree using TypeTree.induction generalizing types text rest result with
  | word chars =>
    obtain ⟨left, next, -⟩ := written
    rw [next]
    exact startsType_append (startsType_of_ofWord resolved) left
  | addrSpace digits =>
    obtain ⟨left, next, -⟩ := written
    rw [next]
    exact startsType_append (by decide) left
  | named name =>
    obtain ⟨left, next, -⟩ := written
    rw [next]
    exact startsType_append (by decide) left
  | struct packed entries =>
    obtain ⟨left, next, -⟩ := written
    rw [next]
    exact startsType_append (Types.startsType_openToken packed) left
  | array digits elem =>
    obtain ⟨left, next, -⟩ := written
    rw [next]
    exact startsType_append (by decide) left
  | func ret entries ih =>
    -- a function type is written with what it returns first
    obtain ⟨left, first, -⟩ := written_append_iff.mp written
    obtain ⟨id, middle, known, -⟩ := resolving_iff.mp resolved
    exact ih known first

/-! ### Lists

What the reader does behind an entry is decided by what stands there, and what stands there is
decided by whether the tree has further entries.  The bound on the length of the text is there for
the sake of the levels of brackets: a part of the tree is read one level further in, with a text
that is shorter by one bracket at least. -/

/-- The item reads what is written for the tree, if what follows continues neither a word nor the
type. -/
def Finds (item : TypeReader Types TypeId) (limit : Nat) (tree : TypeTree) : Prop :=
  ∀ ⦃types id after⦄, tree.resolve types = some (id, after) →
    ∀ ⦃text rest⦄, Written tree.pieces text rest → (trimStart text).length < limit → Stops rest →
      (trimStart rest).head? ≠ some '(' →
      ∃ left, item types text = (after, some (id, left)) ∧ trimStart left = trimStart rest

/-- Where a token stands that begins with no letter, a word has ended. -/
theorem stops_of_token {token : String} {c : Char} {chars : List Char}
    (spelled : token.toList = c :: chars) (ends : isWordChar c = false)
    (next : trimStart text = token.toList ++ rest) : Stops text := by
  rw [Stops, next, spelled]
  rintro _ ⟨⟩
  exact ends

/-- Behind a type stands the end of the list or a comma. -/
theorem stops_of_written (closes : Closes close) {others : List (Option TypeTree)}
    (written : Written ((if others.isEmpty then [] else .mark "," :: entriesPieces others)
      ++ [.mark close]) text rest) : Stops text ∧ (trimStart text).head? ≠ some '(' := by
  by_cases last : others = []
  · subst last
    obtain ⟨left, next, -⟩ := written
    exact stops_close closes next
  · rw [if_neg (by simpa using last)] at written
    obtain ⟨left, next, -⟩ := written
    refine ⟨stops_of_token rfl rfl next, ?_⟩
    rw [next]
    exact head?_cons_ne (by decide) _

/-- A list that is written is read with all of its entries, whatever has been read before.  The
induction is on the entries, and a turn is spent on each of them. -/
theorem Finds.listItems {limit : Nat} (closes : Closes close) {entries : List (Option TypeTree)}
    (finds : ∀ tree, some tree ∈ entries → Finds item limit tree) (more : entries ≠ [])
    {turns : Nat} {items : List TypeId} {vararg : Bool}
    (resolved : resolveEntries entries types = some (ids, after))
    (written : Written (entriesPieces entries ++ [.mark close]) text rest)
    (short : (trimStart text).length < limit) (enough : (trimStart text).length < turns) :
    ∃ left, listItems item close turns items vararg types text
        = (after, some ((items ++ ids, vararg || hasDots entries), left))
      ∧ trimStart left = trimStart rest := by
  induction entries generalizing types text turns items vararg ids with
  | nil => exact absurd rfl more
  | cons entry others ih =>
    obtain ⟨turns, rfl⟩ := Nat.exists_eq_add_one_of_ne_zero (Nat.ne_zero_of_lt enough)
    -- behind the entry the list ends or goes on
    have behind (items : List TypeId) (vararg : Bool) {types : Types} {text : List Char}
        {ids : List TypeId} (resolved : resolveEntries others types = some (ids, after))
        (written : Written ((if others.isEmpty then [] else .mark "," :: entriesPieces others)
          ++ [.mark close]) text rest)
        (short : (trimStart text).length < limit) (enough : (trimStart text).length < turns + 1) :
        ∃ left, (do
            if ← take? close then return (items, vararg)
            expect ","
            TypeReader.listItems item close turns items vararg : TypeReader Types _) types text
              = (after, some ((items ++ ids, vararg || hasDots others), left))
          ∧ trimStart left = trimStart rest := by
      by_cases last : others = []
      · subst last
        obtain ⟨left, next, -, same⟩ := written
        cases resolved
        refine ⟨left, ?_, same⟩
        rw [List.append_nil, hasDots, List.any_nil, Bool.or_false]
        exact take?_close next _ _
      · rw [if_neg (by simpa using last)] at written
        obtain ⟨left, next, -, written⟩ := written
        have shorter := length_lt_of_mark next (by decide)
        obtain ⟨behind, run, same⟩ :=
          ih (fun tree mem => finds tree (List.mem_cons_of_mem _ mem)) last resolved written
            (by omega) (show (trimStart left).length < turns by omega)
        exact ⟨behind, (take?_comma closes next _ _).trans run, same⟩
    rw [entriesPieces, List.append_assoc] at written
    cases entry with
    | none =>
      obtain ⟨left, next, -, written⟩ := written
      have shorter := length_lt_of_mark next (by decide)
      obtain ⟨last, run, same⟩ :=
        behind items true resolved written (by omega) (by omega)
      refine ⟨last, ?_, same⟩
      rw [TypeReader.listItems, bind_of_eq (take?_of_eq next)]
      have marked : (vararg || hasDots (none :: others)) = (true || hasDots others) := by
        simp [hasDots]
      rw [marked]
      exact run
    | some tree =>
      obtain ⟨id, middle, known, resolved⟩ := resolving_iff.mp resolved
      obtain ⟨new, _, resolved, made⟩ := resolving_iff.mp resolved
      cases made
      obtain ⟨behindTree, first, second⟩ := written_append_iff.mp written
      -- a text of a type does not begin with dots, so the entry is not taken for the mark
      have starts := startsType_of_written known first
      have shorter := first.length_le
      obtain ⟨stops, alone⟩ := stops_of_written closes second
      obtain ⟨left, read, same⟩ := finds tree List.mem_cons_self known first short stops alone
      obtain ⟨last, run, same⟩ :=
        behind (items ++ [id]) vararg resolved
          (second.of_trimStart same.symm) (by rw [same]; omega) (by rw [same]; omega)
      refine ⟨last, ?_, same⟩
      rw [TypeReader.listItems,
        branch_of_absent (take?_dots starts (List.append_nil _).symm), bind_of_eq read]
      rw [List.append_assoc, List.singleton_append] at run
      exact run

/-- There are fewer entries than characters, so the turns are enough. -/
theorem Finds.list {limit : Nat} (closes : Closes close) {entries : List (Option TypeTree)}
    (finds : ∀ tree, some tree ∈ entries → Finds item limit tree)
    (resolved : resolveEntries entries types = some (ids, after))
    (written : Written (entriesPieces entries ++ [.mark close]) text rest)
    (short : (trimStart text).length < limit) :
    ∃ left, list item close types text = (after, some ((ids, hasDots entries), left))
      ∧ trimStart left = trimStart rest := by
  by_cases more : entries = []
  · subst more
    obtain ⟨left, next, -, same⟩ := written
    cases resolved
    exact ⟨left, take?_close next _ _, same⟩
  · have absent : take? close types text = (types, some (false, text)) := by
      obtain ⟨entry, others, rfl⟩ := List.exists_cons_of_ne_nil more
      rw [entriesPieces, List.append_assoc] at written
      cases entry with
      | none =>
        obtain ⟨left, next, -⟩ := written
        exact closes.absent rfl (by decide) next
      | some tree =>
        obtain ⟨id, middle, known, -⟩ := resolving_iff.mp resolved
        obtain ⟨left, first, -⟩ := written_append_iff.mp written
        exact take?_close_of_startsType closes (startsType_of_written known first)
          (List.append_nil _).symm
    have enough : (trimStart text).length < text.length + 1 :=
      Nat.lt_succ_of_le (length_trimStart_le text)
    have listed : ∃ left, TypeReader.listItems item close (text.length + 1) [] false types text
          = (after, some (([] ++ ids, false || hasDots entries), left))
        ∧ trimStart left = trimStart rest :=
      Finds.listItems closes finds more resolved written short enough
    obtain ⟨left, run, same⟩ := listed
    refine ⟨left, ?_, same⟩
    rw [TypeReader.list, bind_of_eq absent]
    exact run

/-! ### Bases

One lemma for each form of tree that is no function type.  All of them begin by saying that the
tokens which are looked for before are not there. -/

/-- A numeral is taken for its number. -/
theorem number_of_digits {digits : List Char} {value limit : Nat}
    (next : trimStart text = digits ++ left) (ends : (Piece.word digits).EndsAt left)
    (known : bounded? 10 limit digits = some value) :
    number limit types text = (types, some (value, left)) := by
  rw [number, bind_of_eq (word_of_eq next ends.1 ends.2), known]
  rfl

/-- Of two tokens that begin differently only one is there. -/
theorem absent_of_token {token other : String} {c d : Char} {chars others : List Char}
    (spelled : token.toList = c :: chars) (wanted : other.toList = d :: others) (apart : c ≠ d)
    (next : trimStart text = token.toList ++ left) :
    take? other types text = (types, some (false, text)) := by
  refine take?_of_ne wanted ?_
  rw [next, spelled]
  rintro _ ⟨⟩
  exact apart

variable {id : TypeId} {limit : Nat}

/-- A word is cut off where it ends, and none of the marks that other types begin with is a letter.
-/
theorem base_of_ofWord {chars : List Char} (known : TypeTree.ofWord chars types = some (id, after))
    (next : trimStart text = chars ++ left) (ends : (Piece.word chars).EndsAt left)
    (stops : Stops left) : base item types text = (after, some (id, left)) := by
  have solid : chars ≠ [] := by
    rintro rfl
    cases startsType_of_ofWord known
  rw [base_of_word next ends.1 solid ends.2]
  by_cases void : chars = "void".toList
  · subst void
    cases (ofWord_void types).symm.trans known
    rw [if_pos rfl]
    rfl
  rw [if_neg void]
  by_cases ptr : chars = "ptr".toList
  · subst ptr
    cases (ofWord_ptr types).symm.trans known
    -- behind a pointer of address space zero no letter may stand, and the token begins with one
    have absent : take? "addrspace(" types left = (types, some (false, left)) := by
      refine take?_of_ne (rfl : "addrspace(".toList = 'a' :: _) ?_
      rintro _ head rfl
      cases stops _ head
    rw [if_pos rfl, branch_of_absent absent]
    rfl
  · rw [if_neg ptr, ofWord_eq void ptr, known]

/-- The long form of a pointer, which is read behind the word of the short one. -/
theorem base_of_addrSpace {digits : List Char}
    (resolved : (addrSpace digits).resolve types = some (id, after))
    (written : Written (addrSpace digits).pieces text rest) :
    ∃ left, base item types text = (after, some (id, left)) ∧ trimStart left = trimStart rest := by
  obtain ⟨behind, spelled, ends, inside, opened, -, tail, numeral, stops, left, closed, -, same⟩ :=
    written
  obtain ⟨space, known, made⟩ := resolving_lift_iff.mp resolved
  obtain ⟨known, small⟩ := Option.filter_eq_some_iff.mp known
  have small : space < UInt32.size := of_decide_eq_true small
  have spelled : trimStart text = "ptr".toList ++ behind := spelled
  refine ⟨left, ?_, same⟩
  rw [base_of_word spelled ends.1 (by decide) ends.2, if_neg (by decide), if_pos rfl,
    branch_of_taken (take?_of_eq opened), bind_of_eq (number_of_digits numeral stops known),
    if_pos small]
  exact (bind_of_eq (expect_of_eq closed)).trans (interning_of_eq (Option.some.inj made) left)

/-- The name of a struct, behind its mark. -/
theorem base_of_named {name : List Char} (resolved : (named name).resolve types = some (id, after))
    (written : Written (named name).pieces text rest) :
    ∃ left, base item types text = (after, some (id, left)) ∧ trimStart left = trimStart rest := by
  obtain ⟨behind, next, -, left, spelled, ends, same⟩ := written
  obtain ⟨_, known, made⟩ := Option.map_eq_some_iff.mp resolved
  cases made
  refine ⟨left, ?_, same⟩
  rw [base, branch_of_absent (absent_of_token rfl rfl (by decide) next),
    branch_of_absent (absent_of_token rfl rfl (by decide) next),
    branch_of_absent (absent_of_token rfl rfl (by decide) next),
    branch_of_taken (take?_of_eq next)]
  refine (bind_of_eq (word_of_eq spelled ends.1 ends.2)).trans ?_
  rw [Piece.text, declared_eq, known]
  rfl

/-- A struct begins with its bracket, and its fields are a list. -/
theorem base_of_struct {packed : Bool} {entries : List (Option TypeTree)}
    (finds : ∀ tree, some tree ∈ entries → Finds item limit tree)
    (resolved : (struct packed entries).resolve types = some (id, after))
    (written : Written (struct packed entries).pieces text rest)
    (short : (trimStart text).length ≤ limit) :
    ∃ left, base item types text = (after, some (id, left)) ∧ trimStart left = trimStart rest := by
  obtain ⟨inside, next, -, written⟩ := written
  obtain ⟨fields, middle, known, made⟩ := resolving_iff.mp resolved
  have interned (left : List Char) : interning (.struct ⟨none, fields, packed, true⟩) middle left
      = (after, some (id, left)) :=
    interning_of_eq (Option.some.inj made) left
  have shorter := length_lt_of_mark next (by cases packed <;> decide)
  obtain ⟨left, listed, same⟩ := Finds.list (closes_closeToken packed) finds known written
    (show (trimStart inside).length < limit by omega)
  refine ⟨left, ?_, same⟩
  cases packed with
  | true =>
    have next : trimStart text = "<\x7b".toList ++ inside := next
    rw [base, branch_of_taken (take?_of_eq next)]
    exact (bind_of_eq listed).trans (interned left)
  | false =>
    have next : trimStart text = "\x7b".toList ++ inside := next
    rw [base, branch_of_absent (absent_of_token rfl rfl (by decide) next),
      branch_of_taken (take?_of_eq next)]
    exact (bind_of_eq listed).trans (interned left)

/-- An array begins with a bracket and its length. -/
theorem base_of_array {digits : List Char} {elem : TypeTree} (finds : Finds item limit elem)
    (resolved : (array digits elem).resolve types = some (id, after))
    (written : Written (array digits elem).pieces text rest)
    (short : (trimStart text).length ≤ limit) :
    ∃ left, base item types text = (after, some (id, left)) ∧ trimStart left = trimStart rest := by
  obtain ⟨behind, next, -, afterDigits, numeral, ends, afterTimes, times, stops, written⟩ := written
  obtain ⟨afterElem, first, left, closed, -, same⟩ := written_append_iff.mp written
  obtain ⟨length, known, resolved⟩ := resolving_lift_iff.mp resolved
  obtain ⟨elemId, middle, resolved, made⟩ := resolving_iff.mp resolved
  have times : trimStart afterDigits = ['x'] ++ afterTimes := times
  have shorter := length_lt_of_mark next (by decide)
  -- length and cross have taken their characters, so the text of the element is short enough
  have passed : Written [.word digits, .word ['x']] behind afterTimes :=
    ⟨_, numeral, ends, _, times, stops, rfl⟩
  have passed := passed.length_le
  have alone : (trimStart afterElem).head? ≠ some '(' := by
    rw [closed]
    exact head?_cons_ne (by decide) _
  obtain ⟨last, read, there⟩ := finds resolved first (show (trimStart afterTimes).length < limit by
    omega) (stops_of_token rfl rfl closed) alone
  refine ⟨left, ?_, same⟩
  rw [base, branch_of_absent (absent_of_token rfl rfl (by decide) next),
    branch_of_absent (absent_of_token rfl rfl (by decide) next),
    branch_of_taken (take?_of_eq next), bind_of_eq (number_of_digits numeral ends known),
    bind_of_eq (word_of_eq times stops.1 stops.2)]
  simp only [bne_self_eq_false, Bool.false_eq_true, if_false]
  rw [bind_of_eq read]
  exact (bind_of_eq (expect_of_eq (there.trans closed))).trans
    (interning_of_eq (Option.some.inj made) left)

/-! ### Parameter lists

What is said of a tree here can be used inside the loop over lists, where `Finds` cannot: it does
not ask that the text stops behind the type. -/

/-- How far reading gets at what is written for a tree with something behind it: it begins with a
base, and some parameter lists later it has got to the type itself, with turns to spare for what is
left. -/
def Reaches (depth : Nat) (tree : TypeTree) : Prop :=
  ∀ ⦃types id after⦄, tree.resolve types = some (id, after) →
    ∀ ⦃text rest⦄, Written tree.pieces text rest → (trimStart text).length ≤ depth → Stops rest →
      ∃ first middle left, base (typeWithin depth) types text = (middle, some (first, left))
        ∧ ∀ turns, (trimStart left).length < turns → ∃ more last,
          parameterLists (typeWithin depth) turns first middle left
              = parameterLists (typeWithin depth) more id after last
            ∧ trimStart last = trimStart rest ∧ (trimStart rest).length < more

/-- A base has no parameter lists to get over. -/
theorem Reaches.of_base {depth : Nat} {tree : TypeTree}
    (reads : ∀ ⦃types id after⦄, tree.resolve types = some (id, after) →
      ∀ ⦃text rest⦄, Written tree.pieces text rest → (trimStart text).length ≤ depth → Stops rest →
        ∃ left, base (typeWithin depth) types text = (after, some (id, left))
          ∧ trimStart left = trimStart rest) :
    Reaches depth tree := by
  intro types id after resolved text rest written short stops
  obtain ⟨left, read, same⟩ := reads resolved written short stops
  exact ⟨id, after, left, read, fun turns enough => ⟨turns, left, rfl, same, same ▸ enough⟩⟩

/-- Where no further list opens, reading stops at the type. -/
theorem Reaches.finds {depth : Nat} {tree : TypeTree} (reaches : Reaches depth tree) :
    Finds (typeWithin (depth + 1)) (depth + 1) tree := by
  intro types id after resolved text rest written short stops alone
  obtain ⟨first, middle, left, read, run⟩ :=
    reaches resolved written (Nat.le_of_lt_succ short) stops
  obtain ⟨more, last, run, same, enough⟩ :=
    run (left.length + 1) (Nat.lt_succ_of_le (length_trimStart_le left))
  obtain ⟨more, rfl⟩ := Nat.exists_eq_add_one_of_ne_zero (Nat.ne_zero_of_lt enough)
  -- no list opens behind the type, so this turn is the last one
  have closed : take? "(" after last = (after, some (false, last)) := by
    refine take?_of_ne (by decide : "(".toList = ['(']) ?_
    rw [same]
    rintro _ known rfl
    exact alone known
  refine ⟨last, ?_, same⟩
  rw [typeWithin]
  refine (bind_of_eq read).trans ?_
  rw [run, parameterLists, bind_of_eq closed]
  rfl

/-- A function type is one list further than the type that it returns. -/
theorem Reaches.func {depth : Nat} {ret : TypeTree} {entries : List (Option TypeTree)}
    (reaches : Reaches depth ret)
    (finds : ∀ tree, some tree ∈ entries → Finds (typeWithin depth) depth tree) :
    Reaches depth (func ret entries) := by
  intro types id after resolved text rest written short stops
  obtain ⟨gap, first, inside, next, -, listed⟩ := written_append_iff.mp written
  obtain ⟨retId, before, known, resolved⟩ := resolving_iff.mp resolved
  obtain ⟨params, middle, entered, made⟩ := resolving_iff.mp resolved
  have made : middle.func params retId (hasDots entries) = (id, after) := Option.some.inj made
  have closes : Closes ")" := ⟨')', [], by decide, .inl rfl⟩
  have shorter := length_lt_of_mark next (by decide)
  -- the result and the bracket have taken characters, so there are turns and levels left
  have passed := first.length_le
  obtain ⟨head, start, left, read, run⟩ :=
    reaches known first short (stops_of_token rfl rfl next)
  refine ⟨head, start, left, read, fun turns enough => ?_⟩
  obtain ⟨more, last, run, same, enough⟩ := run turns enough
  obtain ⟨more, rfl⟩ := Nat.exists_eq_add_one_of_ne_zero (Nat.ne_zero_of_lt enough)
  obtain ⟨behind, read, there⟩ := Finds.list closes finds entered listed
    (show (trimStart inside).length < depth by omega)
  refine ⟨more, behind, ?_, there, ?_⟩
  · rw [run, parameterLists, branch_of_taken (take?_of_eq (same.trans next))]
    refine (bind_of_eq read).trans ?_
    exact bind_of_eq (interning_of_eq made behind)
  · have := listed.length_le
    omega

/-- **Reading finds every tree**, where brackets may be as deep as its text is long. -/
theorem reaches (tree : TypeTree) (depth : Nat) : Reaches depth tree := by
  -- what is reached at every depth is found at the next one
  have finds {tree : TypeTree} (reaches : ∀ depth, Reaches depth tree) (depth : Nat) :
      Finds (typeWithin depth) depth tree := by
    cases depth with
    | zero => exact fun _ _ _ _ _ _ _ short => absurd short (Nat.not_lt_zero _)
    | succ depth => exact (reaches depth).finds
  induction tree using TypeTree.induction generalizing depth with
  | word chars =>
    refine .of_base fun types id after resolved text rest written short stops => ?_
    obtain ⟨left, next, ends, same⟩ := written
    have stopped : Stops left := by rwa [Stops, show trimStart left = trimStart rest from same]
    exact ⟨left, base_of_ofWord resolved next ends stopped, same⟩
  | addrSpace digits =>
    exact .of_base fun _ _ _ resolved _ _ written _ _ => base_of_addrSpace resolved written
  | named name =>
    exact .of_base fun _ _ _ resolved _ _ written _ _ => base_of_named resolved written
  | struct packed entries ih =>
    exact .of_base fun _ _ _ resolved _ _ written short _ =>
      base_of_struct (fun tree mem => finds (ih tree mem) depth) resolved written short
  | array digits elem ih =>
    exact .of_base fun _ _ _ resolved _ _ written short _ =>
      base_of_array (finds ih depth) resolved written short
  | func ret entries ih ihs =>
    exact (ih depth).func fun tree mem => finds (ihs tree mem) depth

end TypeReader

/-- **What a text is read as.**  It is a type exactly if it is written for a tree that the arena
resolves, and then it is the type that the tree stands for, with the arena that resolving leaves. -/
theorem Types.readText_eq_ok_iff {types after : Types} {text : List Char} {id : TypeId} :
    types.readText text = (after, .ok id) ↔
      ∃ tree : TypeTree, tree.Spells text ∧ tree.resolve types = some (id, after) := by
  constructor
  · intro read
    rw [readText, TypeArena.readText, TypeArena.read] at read
    rcases run : TypeReader.typeWithin (text.length + 1) types text with ⟨after, _ | ⟨id, rest⟩⟩
    · rw [run] at read
      cases read
    · rw [run] at read
      by_cases finished : trimStart rest = []
      · dsimp only at read
        rw [finished] at read
        cases read
        obtain ⟨tree, written, resolved⟩ := TypeReader.typeWithin_sound _ run
        exact ⟨tree, written.rest_of_trimStart finished, resolved⟩
      · dsimp only at read
        rw [if_neg (by simpa using finished)] at read
        cases read
  · rintro ⟨tree, spelled, resolved⟩
    have short : (trimStart text).length < text.length + 1 :=
      Nat.lt_succ_of_le (length_trimStart_le text)
    obtain ⟨left, read, same⟩ := (TypeReader.reaches tree text.length).finds resolved spelled short
      stops_nil (by rintro ⟨⟩)
    rw [readText, TypeArena.readText, TypeArena.read, read]
    dsimp only
    rw [same]
    rfl

end IrStream
