import IrStream.Proofs.Document.TypedOperand
import IrStream.Proofs.Pairing.Types
import IrStream.Proofs.Types.Parsing

/-!
# Function types as objects and as texts

A document writes a function type as a text or as an object of its parts, which are texts or objects
in turn.  Both are the same type: the texts at the leaves put together the way types are written
(`TypeNode.spelling`) are read like the object (`function_types_agree`).

Each text at a leaf is written for a tree, whatever stands behind it, and the tree of the whole is
made of these.  Whether an arena resolves a tree depends on the names of its structs alone
(`TypeTree.transfers_resolve`), and interning does not change them, so a leaf that is accepted in
the arena at the beginning still is behind the other leaves.

The two ways to the type have little in common.  The object is loaded by recursion on the object:
the result first, then the parameters from left to right, then one interning.  The text is read by
recursion on what is left of the text.  They are compared by way of a third thing, the tree that
both are written for.

* **From the text to the tree.**  `Types/Spelling.lean` says for each tree which texts are written
  for it, and reading such a text is resolving the tree.  The pieces of a list fit together with
  commas between them (`written_entries`), and a function type is its result and a list
  (`written_func`).
* **From the object to the tree.**  `TypeNode.StandsFor` has both sides in one structure, so that
  one induction on the object gives the tree, that the spelling is written for it, and that loading
  is resolving it.
* **Order.**  Both resolve the result before the parameters and the parameters in order, so not only
  the handle but the whole arena behind is the same.
-/

set_option autoImplicit false

namespace IrStream

/-! ## Trees in arenas with the same names

A leaf is accepted by the arena at the beginning, but it is resolved in one that has the types of
the leaves in front of it.  Which shapes are stored makes no difference to whether a tree is
resolved; `Transfers` is that judgment, with a rule for each way of making a step. -/

/-- The arenas have named structs of the same names under the same handles. -/
def Types.NamesAs (types other : Types) : Prop :=
  ∀ name, types.named? name = other.named? name

/-- Where the first step succeeds it changes no names, and the second one succeeds in every arena
with the same names. -/
def Transfers {α : Type} (step other : StateT Types Option α) : Prop :=
  ∀ ⦃origin types⦄, types.NamesAs origin → ∀ ⦃a after⦄, step origin = some (a, after) →
    after.NamesAs origin ∧ ∃ b later, other types = some (b, later) ∧ later.NamesAs origin

namespace Transfers

variable {α β : Type}

theorem pure (a b : α) : Transfers (pure a) (pure b) := by
  rintro origin types same _ _ ⟨⟩
  exact ⟨fun _ => rfl, b, types, rfl, same⟩

theorem bind {step other : StateT Types Option α} {next behind : α → StateT Types Option β}
    (first : Transfers step other) (second : ∀ a b, Transfers (next a) (behind b)) :
    Transfers (step >>= next) (other >>= behind) := by
  intro origin types same result after run
  obtain ⟨a, middle, known, run⟩ := resolving_iff.mp run
  obtain ⟨kept, b, later, there, keeps⟩ := first same known
  have agree : later.NamesAs middle := fun name => (keeps name).trans (kept name).symm
  obtain ⟨still, c, last, done, stays⟩ := second a b agree run
  exact ⟨fun name => (still name).trans (kept name), c, last, (resolving_of_eq there).trans done,
    fun name => (stays name).trans (kept name)⟩

theorem lift {value : Option α} {next behind : α → StateT Types Option β}
    (second : ∀ a, value = some a → Transfers (next a) (behind a)) :
    Transfers (liftM value >>= next) (liftM value >>= behind) := by
  intro origin types same result after run
  obtain ⟨a, known, run⟩ := resolving_lift_iff.mp run
  obtain ⟨kept, b, later, there, keeps⟩ := second a known same run
  exact ⟨kept, b, later, (resolving_lift_of_eq known).trans there, keeps⟩

theorem intern {shape other : TypeShape} (unnamed : shape.structName? = none)
    (unnamed' : other.structName? = none) :
    Transfers (fun types => some (types.intern shape))
      (fun types => some (types.intern other)) := by
  intro origin types same id after run
  have interned : origin.intern shape = (id, after) := Option.some.inj run
  have kept := @Types.named?_intern origin shape unnamed
  rw [interned] at kept
  exact ⟨kept, _, _, rfl, fun name => (Types.named?_intern unnamed' name).trans (same name)⟩

end Transfers

namespace TypeTree

/-- A word needs no arena, unless it names a struct. -/
theorem transfers_ofWord (chars : List Char) : Transfers (ofWord chars) (ofWord chars) := by
  unfold ofWord
  split
  · exact .pure _ _
  split
  · exact .pure _ _
  cases FloatKind.ofName? (String.ofList chars) with
  | some kind => exact .intern rfl rfl
  | none =>
    cases width? chars with
    | some bits => exact .intern rfl rfl
    | none => nofun

/-- Lists of trees resolve to the same handles in arenas with the same names and leave the same
arena, if their entries do. -/
theorem transfers_resolveEntries {entries : List (Option TypeTree)}
    (parts : ∀ tree, some tree ∈ entries → Transfers tree.resolve tree.resolve) :
    Transfers (resolveEntries entries) (resolveEntries entries) := by
  induction entries with
  | nil => exact .pure _ _
  | cons entry others ih =>
    have rest := ih fun tree mem => parts tree (List.mem_cons_of_mem _ mem)
    cases entry with
    | none => exact rest
    | some tree =>
      exact (parts tree List.mem_cons_self).bind fun _ _ => rest.bind fun _ _ => .pure _ _

/-- **An arena resolves what another one with the same names does.** -/
theorem transfers_resolve (tree : TypeTree) : Transfers tree.resolve tree.resolve := by
  induction tree using TypeTree.induction with
  | word chars => exact transfers_ofWord chars
  | addrSpace digits => exact .lift fun _ _ => .intern rfl rfl
  | named name =>
    intro origin types same id after run
    obtain ⟨_, known, made⟩ := Option.map_eq_some_iff.mp run
    cases made
    refine ⟨fun _ => rfl, id, types, ?_, same⟩
    exact congrArg (Option.map (·, types)) ((same _).trans known)
  | struct packed entries ih =>
    exact (transfers_resolveEntries ih).bind fun _ _ => .intern rfl rfl
  | array digits elem ih => exact .lift fun _ _ => ih.bind fun _ _ => .intern rfl rfl
  | func ret entries ih ihs =>
    exact ih.bind fun _ _ => (transfers_resolveEntries ihs).bind fun _ _ => .intern rfl rfl

/-- The entries of a list are written with commas between them. -/
theorem written_entries {entries : List (Option TypeTree)} {texts : List String} {tail : List Char}
    (spelled : List.Forall₂ (fun entry text => Written (entryPieces entry) text.toList []) entries
      texts) (stops : Stops tail) :
    Written (entriesPieces entries) ((commaSeparated texts).toList ++ tail) tail := by
  induction spelled with
  | nil => rfl
  | @cons entry text others texts first rest ih =>
    by_cases last : others = []
    · subst last
      cases rest
      rw [entriesPieces, List.isEmpty_nil, if_pos rfl, List.append_nil]
      exact first.append_text stops
    · have more : texts ≠ [] := by
        rintro rfl
        cases rest
        exact last rfl
      rw [entriesPieces, if_neg (by simpa using last), TypeReader.commaSeparated_cons more,
        String.toList_append, String.toList_append, List.append_assoc, List.append_assoc]
      have comma : Stops (", ".toList ++ ((commaSeparated texts).toList ++ tail)) :=
        stops_cons rfl rfl _
      refine (first.append_text comma).append ?_
      exact ⟨' ' :: ((commaSeparated texts).toList ++ tail), trimStart_cons rfl _, trivial,
        ih.of_trimStart (trimStart_space _).symm⟩

/-- A function type is written as the type that it returns and its list. -/
theorem written_func {ret : TypeTree} {entries : List (Option TypeTree)} {text : String}
    {texts : List String} (result : ret.Spells text.toList)
    (spelled : List.Forall₂ (fun entry text => Written (entryPieces entry) text.toList []) entries
      texts) : (func ret entries).Spells (text ++ " (" ++ commaSeparated texts ++ ")").toList := by
  simp only [String.toList_append, List.append_assoc]
  have opening : Stops (" (".toList ++ ((commaSeparated texts).toList ++ ")".toList)) := by
    have next : trimStart (" (".toList ++ ((commaSeparated texts).toList ++ ")".toList))
        = "(".toList ++ ((commaSeparated texts).toList ++ ")".toList) :=
      (trimStart_space _).trans (trimStart_cons rfl _)
    exact TypeReader.stops_of_token (rfl : "(".toList = '(' :: _) rfl next
  refine (result.append_text opening).append ?_
  refine ⟨(commaSeparated texts).toList ++ ")".toList, ?_, trivial, ?_⟩
  · exact (trimStart_space _).trans (trimStart_cons rfl _)
  · exact (written_entries spelled (stops_cons rfl rfl [])).append (written_mark rfl)

end TypeTree

/-! ## Objects

The recursor of objects that is made by Lean has a motive for lists of objects as well.  `induction`
is the one in which the parameters of a function type are simply all assumed to have the property.
-/

theorem exists_forall₂ {α β : Type} {R : α → β → Prop} {list : List α}
    (each : ∀ a ∈ list, ∃ b, R a b) : ∃ others, List.Forall₂ R list others := by
  induction list with
  | nil => exact ⟨[], .nil⟩
  | cons a rest ih =>
    obtain ⟨⟨b, first⟩, others⟩ := List.forall_mem_cons.mp each
    obtain ⟨bs, stand⟩ := ih others
    exact ⟨b :: bs, .cons first stand⟩

namespace TypeNode

/-- What holds of a function type because it holds of its parts holds of every type. -/
theorem induction {motive : TypeNode → Prop} (text : ∀ text, motive (.text text))
    (func : ∀ ret params vararg, motive ret → (∀ param ∈ params, motive param) →
      motive (.func ret params vararg)) (node : TypeNode) : motive node := by
  refine @TypeNode.rec motive (fun nodes => ∀ node ∈ nodes, motive node) text func nofun ?_ node
  exact fun node rest first others => List.forall_mem_cons.mpr ⟨first, others⟩

mutual

/-- The texts at the leaves put together the way types are written. -/
def spelling : TypeNode → String
  | .text leaf => leaf
  | .func ret params vararg =>
    ret.spelling ++ " (" ++ Types.paramsText (spellings params) vararg ++ ")"

def spellings : List TypeNode → List String
  | [] => []
  | node :: rest => node.spelling :: spellings rest

end

mutual

/-- The texts at the leaves. -/
def leaves : TypeNode → List String
  | .text leaf => [leaf]
  | .func ret params _ => ret.leaves ++ leavesOf params

def leavesOf : List TypeNode → List String
  | [] => []
  | node :: rest => node.leaves ++ leavesOf rest

end

theorem mem_leavesOf {nodes : List TypeNode} {node : TypeNode} (listed : node ∈ nodes)
    {leaf : String} (mem : leaf ∈ node.leaves) : leaf ∈ leavesOf nodes := by
  induction nodes with
  | nil => cases listed
  | cons first rest ih =>
    rw [leavesOf, List.mem_append]
    rcases List.mem_cons.mp listed with rfl | listed
    · exact .inl mem
    · exact .inr (ih listed)

/-- The text of the type is written for the tree, and resolving the tree is what loading the type
does to a program with the names of the arena. -/
structure StandsFor (origin : Types) (node : TypeNode) (tree : TypeTree) : Prop where
  spells : tree.Spells node.spelling.toList
  loads : ∀ program : Program, program.types.NamesAs origin → ∃ id after,
    tree.resolve program.types = some (id, after) ∧ after.NamesAs origin
      ∧ Loader.Yields (Loader.typeOf node) program id { program with types := after }

variable {origin : Types}

theorem standsFor_text {text : String} {tree : TypeTree} {result : TypeId × Types}
    (spells : tree.Spells text.toList) (known : tree.resolve origin = some result) :
    StandsFor origin (.text text) tree := by
  refine ⟨spells, fun program same => ?_⟩
  obtain ⟨-, id, after, resolved, keeps⟩ := tree.transfers_resolve same known
  have read := Types.readText_eq_ok_iff.mpr ⟨tree, spells, resolved⟩
  refine ⟨id, after, resolved, keeps, ?_⟩
  have yields := Loader.yields_typeOfText (congrArg Prod.snd read)
  rw [read] at yields
  exact yields

/-- The entries of a parameter list. -/
def entriesOf (trees : List TypeTree) (vararg : Bool) : List (Option TypeTree) :=
  trees.map some ++ if vararg then [none] else []

theorem hasDots_entriesOf (trees : List TypeTree) (vararg : Bool) :
    TypeTree.hasDots (entriesOf trees vararg) = vararg := by
  cases vararg <;> simp [TypeTree.hasDots, entriesOf]

/-- The entries of a parameter list are written by the spellings of the parameters, and the mark
stands for itself. -/
theorem forall₂_entriesOf {params : List TypeNode} {trees : List TypeTree}
    (stand : List.Forall₂ (StandsFor origin) params trees) (vararg : Bool) :
    List.Forall₂ (fun entry text => Written (TypeTree.entryPieces entry) text.toList [])
      (entriesOf trees vararg)
      (if vararg then spellings params ++ ["..."] else spellings params) := by
  induction stand with
  | nil =>
    cases vararg with
    | false => exact .nil
    | true => exact .cons ⟨[], rfl, trivial, rfl⟩ .nil
  | @cons param tree params trees first rest ih =>
    cases vararg <;> exact .cons first.spells ih

/-- Parameter by parameter, a node and a tree that stands for it are read to the same handle and
leave the same arena. -/
theorem loads_params {params : List TypeNode} {trees : List TypeTree}
    (stand : List.Forall₂ (StandsFor origin) params trees) (vararg : Bool) (program : Program)
    (same : program.types.NamesAs origin) : ∃ ids after,
    TypeTree.resolveEntries (entriesOf trees vararg) program.types = some (ids, after)
      ∧ after.NamesAs origin
      ∧ Loader.Yields (Loader.typesOf params) program ids { program with types := after } := by
  induction stand generalizing program with
  | nil =>
    refine ⟨[], program.types, ?_, same, Loader.yields_pure_iff.mpr ⟨rfl, rfl⟩⟩
    cases vararg <;> rfl
  | @cons param tree params trees first rest ih =>
    obtain ⟨id, middle, resolved, keeps, yields⟩ := first.loads program same
    obtain ⟨ids, after, others, stays, more⟩ := ih { program with types := middle } keeps
    refine ⟨id :: ids, after, ?_, stays, ?_⟩
    · exact (resolving_of_eq resolved).trans ((resolving_of_eq others).trans rfl)
    · simp only [Loader.typesOf, Loader.yields_bind_iff, Loader.yields_pure_iff]
      exact ⟨id, _, yields, ids, _, more, rfl, rfl⟩

/-- A function type stands for the tree of its parts, if they stand for theirs. -/
theorem StandsFor.func {ret : TypeNode} {tree : TypeTree} {params : List TypeNode}
    {trees : List TypeTree} (result : StandsFor origin ret tree)
    (stand : List.Forall₂ (StandsFor origin) params trees) (vararg : Bool) :
    StandsFor origin (.func ret params vararg) (.func tree (entriesOf trees vararg)) := by
  refine ⟨TypeTree.written_func result.spells (forall₂_entriesOf stand vararg),
    fun program same => ?_⟩
  obtain ⟨retId, middle, known, keeps, yields⟩ := result.loads program same
  obtain ⟨ids, before, listed, stays, more⟩ :=
    loads_params stand vararg { program with types := middle } keeps
  refine ⟨(before.func ids retId vararg).1, (before.func ids retId vararg).2, ?_, ?_, ?_⟩
  · rw [TypeTree.resolve, resolving_of_eq known, resolving_of_eq listed, hasDots_entriesOf]
  · exact fun name => (Types.named?_intern rfl name).trans (stays name)
  · simp only [Loader.typeOf, Loader.yields_bind_iff]
    exact ⟨retId, _, yields, ids, _, more, rfl⟩

/-- Where the arena accepts the leaves, the type stands for a tree. -/
theorem exists_standsFor (node : TypeNode)
    (accepted : ∀ leaf ∈ node.leaves, ∃ id after, origin.readText leaf.toList = (after, .ok id)) :
    ∃ tree, StandsFor origin node tree := by
  induction node using TypeNode.induction with
  | text text =>
    obtain ⟨id, after, read⟩ := accepted text List.mem_cons_self
    obtain ⟨tree, spells, known⟩ := Types.readText_eq_ok_iff.mp read
    exact ⟨tree, standsFor_text spells known⟩
  | func ret params vararg ih ihs =>
    obtain ⟨tree, result⟩ := ih fun leaf mem => accepted leaf (List.mem_append_left _ mem)
    have each : ∀ param ∈ params, ∃ tree, StandsFor origin param tree := fun param listed =>
      ihs param listed fun leaf mem =>
        accepted leaf (List.mem_append_right _ (mem_leavesOf listed mem))
    obtain ⟨trees, stand⟩ := exists_forall₂ each
    exact ⟨_, result.func stand vararg⟩

end TypeNode

/-- **The two spellings of a function type agree.**  If the arena of a program accepts each text at
the leaves of a function type, then loading the type succeeds, and it answers the handle and leaves
the arena that reading the text does which is put together from the leaves. -/
theorem function_types_agree (program : Program) (node : TypeNode)
    (accepted : ∀ leaf ∈ node.leaves, ∃ id after,
      program.types.readText leaf.toList = (after, .ok id)) :
    ∃ id after, Loader.Yields (Loader.typeOf node) program id { program with types := after }
      ∧ program.types.readText node.spelling.toList = (after, .ok id) := by
  obtain ⟨tree, stands⟩ := node.exists_standsFor accepted
  obtain ⟨id, after, resolved, -, yields⟩ := stands.loads program fun _ => rfl
  exact ⟨id, after, yields, Types.readText_eq_ok_iff.mpr ⟨tree, stands.spells, resolved⟩⟩

/-- A function type that returns one, with a function type among its parameters. -/
def TypeNode.callback : TypeNode :=
  .func (.func (.text "void") [.text " i8"] false)
    [.text "ptr", .func (.text "half") [] true, .text "i8 (i8)"] true

/-- A type of variable arity in which the result and two of the parameters are function types
themselves. -/
theorem function_types_agree_callback :
    TypeNode.callback.spelling = "void ( i8) (ptr, half (...), i8 (i8), ...)"
    ∧ (∀ leaf ∈ TypeNode.callback.leaves, ∃ id after,
      Types.initial.readText leaf.toList = (after, .ok id))
    ∧ ∃ id after, Loader.Yields (Loader.typeOf TypeNode.callback) (.empty .standard) id
        { Program.empty .standard with types := after }
      ∧ Types.initial.readText "void ( i8) (ptr, half (...), i8 (i8), ...)".toList
        = (after, .ok id) := by
  have spelled : TypeNode.callback.spelling = "void ( i8) (ptr, half (...), i8 (i8), ...)" := by
    decide +kernel
  have accepted : ∀ leaf ∈ TypeNode.callback.leaves, ∃ id after,
      Types.initial.readText leaf.toList = (after, .ok id) := by
    have leaves : TypeNode.callback.leaves = ["void", " i8", "ptr", "half", "i8 (i8)"] := rfl
    have reads {text : String} (id : TypeId)
        (read : (Types.initial.readText text.toList).2 = .ok id) :
        ∃ id after, Types.initial.readText text.toList = (after, .ok id) :=
      ⟨id, _, Prod.ext rfl read⟩
    simp only [leaves, List.forall_mem_cons]
    exact ⟨reads .void (by decide +kernel), reads .i8 (by decide +kernel),
      reads .ptr (by decide +kernel), reads ⟨6⟩ (by decide +kernel),
      reads ⟨6⟩ (by decide +kernel), nofun⟩
  refine ⟨spelled, accepted, ?_⟩
  obtain ⟨id, after, yields, read⟩ :=
    function_types_agree (.empty .standard) TypeNode.callback accepted
  rw [spelled] at read
  exact ⟨id, after, yields, read⟩

end IrStream
