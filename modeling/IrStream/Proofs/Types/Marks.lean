import IrStream.Proofs.Types.Parsing

/-!
# The mark `...` in types

Every dot of a text that is read as a type stands in the name of a struct or in a mark `...`, and
every mark is an entry of a list (`TypeTree.plain_of_resolve`).  A function type is vararg if there
is a mark in its own list.  Where in the list the mark stands and how often makes no difference, and
in the list of a struct it counts for nothing: a tree stands for the same type as the tree with one
mark at the end of each parameter list that has any, and with no other marks (`TypeTree.repair`).

The grammar that one would expect has the mark at the end of a parameter list and nowhere else.  The
reader accepts more, since the lists of functions and of structs are read by the same step, which
takes a mark wherever an entry may stand and remembers only whether there was one.  What is accepted
is said by trees: their lists have marks among the entries, in any place, and a text is accepted if
it is written for such a tree (`Types/Parsing.lean`).

So the question which texts are accepted beyond the expected ones becomes a question about trees,
with a normal form for the answer.  `repair` moves and deletes marks until the tree is `Proper`, it
does nothing to proper trees (`repair_eq_iff`), and it does not change the type (`resolve_repair`).
The texts that should not have been accepted are those of trees that are not proper, and they stand
for the types of their repaired trees.

## Statements

* `plain_of_resolve`: **every dot is in a name or in a mark**, in the tree of a type.
* `resolve_repair`: **repairing a tree does not change the type** that it stands for.
* `repair_eq_iff`: the trees that are not repaired are those where each mark stands at the end of a
  parameter list.
* `shape_of_resolve_func`: a function type is vararg if there is a mark in its own list.
* `vararg_marks_exact`: **where the mark `...` is accepted.**
-/

set_option autoImplicit false

namespace IrStream

variable {types after : Types} {text rest : List Char}

/-! ## Dots

A dot is a character of words too, since names of structs may have dots in them. -/

/-- No token has a blank in it, and dots stand only in names and in the mark.  So to count the dots
of a text is to count those of names and of marks. -/
def Piece.Plain : Piece → Prop
  | mark token => ∀ c ∈ token.toList, isBlank c = false ∧ c ≠ '.'
  | word chars => '.' ∉ chars
  | dots | name _ => True

instance (piece : Piece) : Decidable piece.Plain :=
  match piece with
  | .mark token => List.decidableBAll (fun c => isBlank c = false ∧ c ≠ '.') token.toList
  | .word chars => inferInstanceAs (Decidable ('.' ∉ chars))
  | .dots | .name _ => .isTrue trivial

theorem Piece.Plain.eq_of_dot {piece : Piece} (plain : piece.Plain) (dot : '.' ∈ piece.text) :
    piece = .dots ∨ ∃ name, piece = .name name := by
  cases piece with
  | mark token => exact absurd rfl (plain '.' dot).2
  | dots => exact .inl rfl
  | word chars => exact absurd dot plain
  | name chars => exact .inr ⟨chars, rfl⟩

/-- The text is the pieces and blanks.  Blanks are dropped on both sides, since pieces have none and
the rest may. -/
theorem Written.filter_eq {pieces : List Piece} (plain : ∀ piece ∈ pieces, piece.Plain)
    (written : Written pieces text rest) :
    text.filter (!isBlank ·) = pieces.flatMap Piece.text ++ rest.filter (!isBlank ·) := by
  have trimmed (text : List Char) :
      (trimStart text).filter (!isBlank ·) = text.filter (!isBlank ·) := by
    induction text with
    | nil => rfl
    | cons c rest ih =>
      by_cases blank : isBlank c = true
      · rw [show trimStart (c :: rest) = trimStart rest from List.dropWhile_cons_of_pos blank, ih,
          List.filter_cons_of_neg (by simp [blank])]
      · rw [trimStart_cons (by simpa using blank)]
  induction pieces generalizing text with
  | nil =>
    rw [← trimmed text, ← trimmed rest, show trimStart text = trimStart rest from written]
    rfl
  | cons piece pieces ih =>
    obtain ⟨left, next, ends, written⟩ := written
    obtain ⟨first, others⟩ := List.forall_mem_cons.mp plain
    have solid : ∀ c ∈ piece.text, (!isBlank c) = true := by
      intro c mem
      rw [Bool.not_eq_true']
      cases piece with
      | mark token => exact (first c mem).1
      | dots => exact @forall_mem_of_all (isBlank · = false) _ "...".toList (by decide) c mem
      | word chars | name chars => exact not_isBlank_of_isWordChar (ends.1 c mem)
    rw [← trimmed text, next, List.filter_append, List.filter_eq_self.mpr solid, ih others written,
      List.flatMap_cons, List.append_assoc]

namespace TypeTree

/-- The words that are types have no dots.  A word with a dot is no type, though the reader takes it
for a word. -/
theorem not_mem_of_ofWord {chars : List Char} {result : TypeId × Types}
    (known : ofWord chars types = some result) : '.' ∉ chars := by
  unfold ofWord at known
  split at known
  · next void =>
    rw [void]
    decide
  split at known
  · next ptr =>
    rw [ptr]
    decide
  split at known
  · next kind named =>
    have spelled : kind.name = String.ofList chars := by simpa using List.find?_some named
    rw [← String.toList_ofList (l := chars), ← spelled]
    cases kind <;> decide
  · obtain ⟨bits, width, -⟩ := Option.map_eq_some_iff.mp known
    unfold width? at width
    split at width
    · obtain ⟨read, -⟩ := Option.filter_eq_some_iff.mp width
      exact List.not_mem_cons_of_ne_of_not_mem (by decide) (not_mem_of_bounded? read (by decide))
    · cases width

/-- Each entry of a list that resolves has been resolved in some arena on the way.  Entries are
resolved from the first on, each in the arena that the one before it left. -/
theorem exists_resolve_of_mem {entries : List (Option TypeTree)} {result : List TypeId × Types}
    (resolved : resolveEntries entries types = some result) {tree : TypeTree}
    (mem : some tree ∈ entries) : ∃ types result, tree.resolve types = some result := by
  induction entries generalizing types result with
  | nil => cases mem
  | cons entry others ih =>
    cases entry with
    | none =>
      rcases List.mem_cons.mp mem with same | mem
      · cases same
      · exact ih resolved mem
    | some first =>
      obtain ⟨id, middle, known, resolved⟩ := resolving_iff.mp resolved
      rcases List.mem_cons.mp mem with same | mem
      · cases same
        exact ⟨types, _, known⟩
      · obtain ⟨ids, _, resolved, -⟩ := resolving_iff.mp resolved
        exact ih resolved mem

/-- The pieces of a list are those of its entries, commas and marks.  Commas are tokens, and a mark
is the piece for dots. -/
theorem plain_of_entries {entries : List (Option TypeTree)}
    (parts : ∀ tree, some tree ∈ entries → ∀ piece ∈ tree.pieces, piece.Plain) :
    ∀ piece ∈ entriesPieces entries, piece.Plain := by
  induction entries with
  | nil => exact List.forall_mem_nil _
  | cons entry others ih =>
    rw [entriesPieces, List.forall_mem_append]
    constructor
    · cases entry with
      | none => exact List.forall_mem_singleton.mpr trivial
      | some tree => exact parts tree List.mem_cons_self
    · split
      · exact List.forall_mem_nil _
      · refine List.forall_mem_cons.mpr ⟨by decide, ?_⟩
        exact ih fun tree mem => parts tree (List.mem_cons_of_mem _ mem)

/-- **Every dot is in a name or in a mark**, in the tree of a type.  By induction on the tree; that
it resolves is needed at its words only. -/
theorem plain_of_resolve {tree : TypeTree} {result : TypeId × Types}
    (resolved : tree.resolve types = some result) : ∀ piece ∈ tree.pieces, piece.Plain := by
  induction tree using TypeTree.induction generalizing types result with
  | word chars => exact List.forall_mem_singleton.mpr (not_mem_of_ofWord resolved)
  | addrSpace digits =>
    obtain ⟨space, known, -⟩ := resolving_lift_iff.mp resolved
    obtain ⟨read, -⟩ := Option.filter_eq_some_iff.mp known
    have numeral : (Piece.word digits).Plain := not_mem_of_bounded? read (by decide)
    simp only [pieces, List.forall_mem_cons]
    exact ⟨by decide, by decide, numeral, by decide, nofun⟩
  | named name =>
    simp only [pieces, List.forall_mem_cons]
    exact ⟨by decide, trivial, nofun⟩
  | struct packed entries ih =>
    obtain ⟨fields, middle, known, -⟩ := resolving_iff.mp resolved
    have inside := plain_of_entries fun tree mem =>
      have ⟨_, _, resolved⟩ := exists_resolve_of_mem known mem
      ih tree mem resolved
    simp only [pieces, List.forall_mem_cons, List.forall_mem_append]
    exact ⟨by cases packed <;> decide, inside, by cases packed <;> decide, nofun⟩
  | array digits elem ih =>
    obtain ⟨length, read, resolved⟩ := resolving_lift_iff.mp resolved
    obtain ⟨id, middle, known, -⟩ := resolving_iff.mp resolved
    have numeral : (Piece.word digits).Plain := not_mem_of_bounded? read (by decide)
    simp only [pieces, List.forall_mem_cons, List.forall_mem_append]
    exact ⟨by decide, numeral, by decide, ih known, by decide, nofun⟩
  | func ret entries ih ihs =>
    obtain ⟨id, middle, known, resolved⟩ := resolving_iff.mp resolved
    obtain ⟨params, _, listed, -⟩ := resolving_iff.mp resolved
    have inside := plain_of_entries fun tree mem =>
      have ⟨_, _, resolved⟩ := exists_resolve_of_mem listed mem
      ihs tree mem resolved
    simp only [pieces, List.forall_mem_cons, List.forall_mem_append]
    exact ⟨ih known, by decide, inside, by decide, nofun⟩

/-! ## Repairing -/

mutual

/-- The tree with one mark at the end of each parameter list that has any, and no other marks.
Where a mark changed the type it is kept once, at the end. -/
def repair : TypeTree → TypeTree
  | word chars => word chars
  | addrSpace digits => addrSpace digits
  | named name => named name
  | struct packed entries => struct packed (repairEntries entries)
  | array digits elem => array digits elem.repair
  | func ret entries =>
    func ret.repair (repairEntries entries ++ if hasDots entries then [none] else [])

/-- The entries of a list without the marks.  The marks of a struct and of an array get lost here,
since they made no difference. -/
def repairEntries : List (Option TypeTree) → List (Option TypeTree)
  | [] => []
  | none :: rest => repairEntries rest
  | some tree :: rest => some tree.repair :: repairEntries rest

end

/-- Each mark stands at the end of a parameter list. -/
inductive Proper : TypeTree → Prop
  /-- A word has no list. -/
  | word (chars : List Char) : Proper (word chars)
  /-- A pointer has no list. -/
  | addrSpace (digits : List Char) : Proper (addrSpace digits)
  /-- A name has no list. -/
  | named (name : List Char) : Proper (named name)
  /-- A list of fields has no mark. -/
  | struct (packed : Bool) {entries : List (Option TypeTree)} (marks : none ∉ entries)
      (parts : ∀ tree, some tree ∈ entries → Proper tree) : Proper (struct packed entries)
  /-- The element is proper. -/
  | array (digits : List Char) {elem : TypeTree} (part : Proper elem) : Proper (array digits elem)
  /-- A list of parameters has a mark at its end or none. -/
  | func {ret : TypeTree} {entries : List (Option TypeTree)} (result : Proper ret)
      (marks : none ∉ entries.dropLast) (parts : ∀ tree, some tree ∈ entries → Proper tree) :
      Proper (func ret entries)

/-! ### What it leaves -/

theorem repairEntries_eq (entries : List (Option TypeTree)) :
    repairEntries entries = (entries.filterMap id).map (some ·.repair) := by
  induction entries with
  | nil => rfl
  | cons entry others ih =>
    cases entry with
    | none => exact ih
    | some tree => exact congrArg (some tree.repair :: ·) ih

theorem repairEntries_append (entries others : List (Option TypeTree)) :
    repairEntries (entries ++ others) = repairEntries entries ++ repairEntries others := by
  simp [repairEntries_eq]

theorem none_not_mem_repairEntries (entries : List (Option TypeTree)) :
    none ∉ repairEntries entries := by
  simp [repairEntries_eq]

theorem exists_of_mem_repairEntries {entries : List (Option TypeTree)} {tree : TypeTree}
    (mem : some tree ∈ repairEntries entries) :
    ∃ origin, some origin ∈ entries ∧ tree = origin.repair := by
  rw [repairEntries_eq] at mem
  obtain ⟨origin, listed, same⟩ := List.mem_map.mp mem
  obtain ⟨_, listed, rfl⟩ := List.mem_filterMap.mp listed
  exact ⟨origin, listed, (Option.some.inj same).symm⟩

/-- What was repaired has its marks where they belong.  By induction on the tree. -/
theorem proper_repair (tree : TypeTree) : tree.repair.Proper := by
  induction tree using TypeTree.induction with
  | word chars => exact .word chars
  | addrSpace digits => exact .addrSpace digits
  | named name => exact .named name
  | struct packed entries ih =>
    refine .struct packed (none_not_mem_repairEntries entries) fun tree mem => ?_
    obtain ⟨origin, listed, rfl⟩ := exists_of_mem_repairEntries mem
    exact ih origin listed
  | array digits elem ih => exact .array digits ih
  | func ret entries ih ihs =>
    refine .func ih ?_ fun tree mem => ?_
    · split
      · rw [List.dropLast_concat]
        exact none_not_mem_repairEntries entries
      · rw [List.append_nil]
        exact fun mem => none_not_mem_repairEntries entries (List.mem_of_mem_dropLast mem)
    · have listed : some tree ∈ repairEntries entries := by
        rcases List.mem_append.mp mem with listed | mark
        · exact listed
        · split at mark
          · cases List.mem_singleton.mp mark
          · cases mark
      obtain ⟨origin, here, rfl⟩ := exists_of_mem_repairEntries listed
      exact ihs origin here

theorem repairEntries_of_fixed {entries : List (Option TypeTree)} (marks : none ∉ entries)
    (fixed : ∀ tree, some tree ∈ entries → tree.repair = tree) :
    repairEntries entries = entries := by
  induction entries with
  | nil => rfl
  | cons entry others ih =>
    obtain ⟨here, there⟩ := List.ne_and_not_mem_of_not_mem_cons marks
    obtain ⟨tree, rfl⟩ := Option.ne_none_iff_exists'.mp (Ne.symm here)
    rw [repairEntries, fixed tree List.mem_cons_self,
      ih there fun tree mem => fixed tree (List.mem_cons_of_mem _ mem)]

theorem hasDots_of_not_mem {entries : List (Option TypeTree)} (marks : none ∉ entries) :
    hasDots entries = false := by
  rw [hasDots, List.any_eq_false]
  rintro (_ | tree) mem
  · exact absurd mem marks
  · exact Bool.false_ne_true

/-- A tree with its marks in the right places needs no repair.  So repairing twice is repairing
once. -/
theorem Proper.repair_eq {tree : TypeTree} (proper : tree.Proper) : tree.repair = tree := by
  induction proper with
  | word | addrSpace | named => rfl
  | struct packed marks parts ih => rw [repair, repairEntries_of_fixed marks ih]
  | array digits part ih => rw [repair, ih]
  | @func ret entries result marks parts ih ihs =>
    rw [repair, ih]
    congr 1
    rcases List.eq_nil_or_concat entries with rfl | ⟨before, last, rfl⟩
    · rfl
    · rw [List.concat_eq_append] at marks ihs ⊢
      rw [List.dropLast_concat] at marks
      have kept : repairEntries before = before :=
        repairEntries_of_fixed marks fun tree mem => ihs tree (List.mem_append_left _ mem)
      have unmarked := hasDots_of_not_mem marks
      rw [repairEntries_append, kept, hasDots, List.any_append, ← hasDots, unmarked]
      cases last with
      | none => exact congrArg (· ++ [none]) (List.append_nil before)
      | some tree =>
        rw [repairEntries, ihs tree (by simp)]
        exact List.append_nil _

/-- The trees that are not repaired are those where each mark stands at the end of a parameter list.
In this way the statement can speak of repaired trees without naming the function. -/
theorem repair_eq_iff {tree : TypeTree} : tree.repair = tree ↔ tree.Proper :=
  ⟨fun same => same ▸ tree.proper_repair, Proper.repair_eq⟩

/-! ### What it keeps -/

theorem hasDots_repairEntries (entries : List (Option TypeTree)) :
    hasDots (repairEntries entries ++ if hasDots entries then [none] else [])
      = hasDots entries := by
  rw [hasDots, List.any_append, ← hasDots,
    hasDots_of_not_mem (none_not_mem_repairEntries entries), Bool.false_or]
  cases hasDots entries <;> rfl

theorem resolveEntries_append_none (entries : List (Option TypeTree)) :
    resolveEntries (entries ++ [none]) = resolveEntries entries := by
  induction entries with
  | nil => rfl
  | cons entry others ih =>
    cases entry with
    | none => exact ih
    | some tree => rw [List.cons_append, resolveEntries, resolveEntries, ih]

/-- Marks count for nothing when entries are resolved.  The handles and the arena are those of the
other entries. -/
theorem resolveEntries_repairEntries {entries : List (Option TypeTree)}
    (same : ∀ tree, some tree ∈ entries → tree.repair.resolve = tree.resolve) :
    resolveEntries (repairEntries entries) = resolveEntries entries := by
  induction entries with
  | nil => rfl
  | cons entry others ih =>
    have rest := ih fun tree mem => same tree (List.mem_cons_of_mem _ mem)
    cases entry with
    | none => exact rest
    | some tree => rw [repairEntries, resolveEntries, resolveEntries, same tree List.mem_cons_self,
        rest]

/-- **Repairing a tree does not change the type** that it stands for.  By induction on the tree:
parts are resolved in the same order, and a function type has a mark afterwards if it had one. -/
theorem resolve_repair (tree : TypeTree) : tree.repair.resolve = tree.resolve := by
  induction tree using TypeTree.induction with
  | word | addrSpace | named => rfl
  | struct packed entries ih =>
    rw [repair, resolve, resolve, resolveEntries_repairEntries ih]
  | array digits elem ih => rw [repair, resolve, resolve, ih]
  | func ret entries ih ihs =>
    have listed : resolveEntries (repairEntries entries ++ if hasDots entries then [none] else [])
        = resolveEntries entries := by
      split
      · rw [resolveEntries_append_none, resolveEntries_repairEntries ihs]
      · rw [List.append_nil, resolveEntries_repairEntries ihs]
    rw [repair, resolve, resolve, ih, listed, hasDots_repairEntries]

/-- A function type is vararg if there is a mark in its own list.  A mark further in belongs to a
type further in. -/
theorem shape_of_resolve_func {ret : TypeTree} {entries : List (Option TypeTree)} {id : TypeId}
    (resolved : (func ret entries).resolve types = some (id, after)) :
    ∃ params result, after.shape id = .ok (.func params result (hasDots entries)) := by
  obtain ⟨result, middle, -, resolved⟩ := resolving_iff.mp resolved
  obtain ⟨params, before, -, made⟩ := resolving_iff.mp resolved
  have made : before.func params result (hasDots entries) = (id, after) := Option.some.inj made
  have found := @Types.shape_intern before (.func params result (hasDots entries)) rfl
  rw [← Types.func, made] at found
  exact ⟨params, result, found⟩

end TypeTree

/-- **Where the mark `...` is accepted.**  A text is a type exactly if it is written for a tree that
the arena resolves, and then it is the pieces of the tree and blanks, where each dot is in the name
of a struct or in a mark.  A mark may be any entry of any list.  It makes a function type vararg if
it is in the list of that type, wherever it stands there and however often, and it makes no
difference elsewhere: the type is that of the tree where each mark is the last entry of a parameter
list. -/
theorem vararg_marks_exact (types : Types) (text : List Char) :
    (∀ id after, types.readText text = (after, .ok id) ↔
      ∃ tree : TypeTree, tree.Spells text ∧ tree.resolve types = some (id, after))
    ∧ ((∀ tree : TypeTree, tree.Spells text → tree.resolve types = none) →
      ∃ after, types.readText text = (after, .error (.unknownType (String.ofList text))))
    ∧ (∀ (tree : TypeTree) id after, tree.Spells text → tree.resolve types = some (id, after) →
      text.filter (!isBlank ·) = tree.pieces.flatMap Piece.text
        ∧ ∀ piece ∈ tree.pieces, '.' ∈ piece.text → piece = .dots ∨ ∃ name, piece = .name name)
    ∧ (∀ ret entries id after, (TypeTree.func ret entries).resolve types = some (id, after) →
      ∃ params result, after.shape id = .ok (.func params result (TypeTree.hasDots entries)))
    ∧ ∀ tree : TypeTree, tree.repair.Proper ∧ tree.repair.resolve = tree.resolve
      ∧ (tree.repair = tree ↔ tree.Proper) := by
  refine ⟨fun id after => Types.readText_eq_ok_iff, fun none => ?_,
    fun tree id after spelled known => ?_,
    fun ret entries id after => TypeTree.shape_of_resolve_func,
    fun tree => ⟨tree.proper_repair, tree.resolve_repair, TypeTree.repair_eq_iff⟩⟩
  · rcases read : types.readText text with ⟨after, fault | id⟩
    · have cause := congrArg Prod.snd read
      rw [Types.readText, TypeArena.readText] at cause
      dsimp only at cause
      split at cause
      · cases cause
      · exact ⟨after, by rw [← cause]⟩
    · obtain ⟨tree, spelled, resolved⟩ := Types.readText_eq_ok_iff.mp read
      cases (none tree spelled).symm.trans resolved
  · have plain := TypeTree.plain_of_resolve known
    refine ⟨?_, fun piece mem => (plain piece mem).eq_of_dot⟩
    rw [spelled.filter_eq plain]
    exact List.append_nil _

/-- In the list of a struct the mark is accepted and left out. -/
theorem vararg_marks_exact_struct : ∃ after,
    Types.initial.readText "\x7b i32, ... \x7d".toList = (after, .ok ⟨6⟩)
      ∧ after.shape ⟨6⟩ = .ok (.struct ⟨none, [⟨3⟩], false, true⟩) := by
  let tree : TypeTree := .struct false [some (.word "i32".toList), none]
  obtain ⟨accepted, -⟩ := vararg_marks_exact Types.initial "\x7b i32, ... \x7d".toList
  have ends : (Piece.word "i32".toList).EndsAt ", ... \x7d".toList := by
    refine ⟨isWord_of_all (by decide), ?_⟩
    rintro _ ⟨⟩
    rfl
  have spelled : tree.Spells "\x7b i32, ... \x7d".toList := by
    refine ⟨" i32, ... \x7d".toList, by decide, trivial, ", ... \x7d".toList, by decide, ends,
      " ... \x7d".toList, by decide, trivial, " \x7d".toList, by decide, trivial, [], by decide,
      trivial, rfl⟩
  have resolved : tree.resolve Types.initial
      = some (⟨6⟩, (Types.initial.literalStruct [⟨3⟩] false).2) := by
    decide +kernel
  exact ⟨_, (accepted _ _).mpr ⟨tree, spelled, resolved⟩, by decide +kernel⟩

end IrStream
