import IrStream.Proofs.Document.Step
import IrStream.Proofs.Types.Spelling

/-!
# Structs of a document that contain each other

Loading begins with the structs of a document (`Document.loadStructs`): all of them are declared,
and then they get their bodies in the order in which they are listed.  Which structs contain each
other by value can be told before any of them has a body (`Document.HoldsByValue`).  That graph has
a cycle exactly if some body is refused, wherever in the order the last struct of the cycle comes.

`Document.Phase` is what holds between two rounds of the loop: the bodies so far are those of the
document, and all that are not there yet are still to come.

## Why the order does not matter

`setStructBody` refuses a body that would close a cycle among the bodies that are there *so far*.
Two things have to be seen for that to come to the same in every order.

* **Reading does not depend on bodies.**  The text of a field is read in an arena that has some
  bodies and not others, and with whatever types were interned before.  The handle it answers is
  different every time, but the term is not (`TypeTerm`, the type with names of structs in place of
  handles): the reader never looks into a struct.  So what one struct holds of another can be read
  off the arena in which all are declared and none has a body (`holdsByValue_iff`).
* **A cycle is closed by its last body.**  While some struct of a cycle has no body, no path leads
  through it.  When the last one comes, all others are there, and `Phase.cycle` and `Phase.transGen`
  turn a path in the arena into a path in the document and back.

The statement needs two hypotheses on the document.  Fields are to be texts that spell storable
types, since otherwise loading may fail for other reasons first; and each struct is listed once,
which holds of every document that was read from a text (`nodup_of_ofText`).

Declared structs, the graph, and the loop have a section each; the last two show that a permutation
of the list changes nothing, and put the statements about arenas and about documents together.
-/

set_option autoImplicit false

namespace IrStream

open Loader
open Relation (ReflTransGen TransGen)

/-! ## Declared structs

Declaring adds a named struct without a body, or nothing if there is one of that name. -/

namespace Types

/-- Declare structs, one behind the other.  This is the loop of the loader without the program
around it. -/
def declareStructs (types : Types) (structs : List (String × Option StructEntry)) : Types :=
  structs.foldl (fun types entry => (types.declareStruct entry.1).2) types

/-- No named struct has fields.  An unnamed struct has its fields from the beginning, so nothing is
asked of those. -/
def Bodiless (types : Types) : Prop :=
  ∀ ⦃id shape name⦄, types.shape id = .ok (.struct shape) → shape.name = some name →
    shape.fields = []

variable {types after : Types} {id : TypeId} {name : String}

/-- A declared name is found, and others are found as before.  The name answers the handle of the
declaration, whether the struct is new or was there before. -/
theorem named?_declareStruct (other : String) :
    (types.declareStruct name).2.named? other
      = if other = name then some (types.declareStruct name).1 else types.named? other := by
  cases found : types.named? name with
  | some id =>
    rw [declareStruct_of_some found]
    split
    · next same => rw [same, found]
    · rfl
  | none =>
    rw [declareStruct_of_none found]
    dsimp only
    rw [named?_push]
    by_cases same : other = name
    · subst same
      rw [if_pos rfl, found, Option.none_or]
      exact if_pos rfl
    · have apart : ¬ some name = some other := fun h => same (Option.some.inj h).symm
      rw [if_neg same]
      exact (congrArg ((types.named? other).or ·) (if_neg apart)).trans (Option.or_none)

/-- Declaring is one of the operations that arenas are built by.  A declared struct is a named one
without fields, interned like any other shape. -/
theorem Built.declareStruct (built : types.Built) (name : String) :
    (types.declareStruct name).2.Built :=
  built.step (.intern (.struct ⟨some name, [], false, false⟩) fun _ mem => nomatch mem)

/-- A struct that is declared has no body. -/
theorem Bodiless.declareStruct (bodiless : types.Bodiless) (name : String) :
    (types.declareStruct name).2.Bodiless := by
  intro id shape taken there named
  cases found : types.named? name with
  | some known =>
    rw [declareStruct_of_some found] at there
    exact bodiless there named
  | none =>
    rw [declareStruct_of_none found] at there
    rcases shape_of_shape_push there with ⟨-, same⟩ | there
    · cases same
      rfl
    · exact bodiless there named

variable {structs : List (String × Option StructEntry)}

theorem Built.declareStructs (built : types.Built) : (types.declareStructs structs).Built := by
  induction structs generalizing types with
  | nil => exact built
  | cons entry rest ih => exact ih (built.declareStruct entry.1)

/-- As long as structs are only declared, none has fields. -/
theorem Bodiless.declareStructs (bodiless : types.Bodiless) :
    (types.declareStructs structs).Bodiless := by
  induction structs generalizing types with
  | nil => exact bodiless
  | cons entry rest ih => exact ih (bodiless.declareStruct entry.1)

/-- A name that is declared keeps its handle. -/
theorem named?_declareStructs (found : types.named? name = some id) :
    (types.declareStructs structs).named? name = some id := by
  induction structs generalizing types with
  | nil => exact found
  | cons entry rest ih =>
    refine ih ?_
    rw [named?_declareStruct]
    split
    · next same =>
      subst same
      rw [declareStruct_of_some found]
    · exact found

/-- The names that are known behind the declarations are those known before and those declared.
Handles depend on the order, but which names there are does not. -/
theorem isSome_named?_declareStructs :
    ((types.declareStructs structs).named? name).isSome
      ↔ (types.named? name).isSome ∨ name ∈ structs.map (·.1) := by
  induction structs generalizing types with
  | nil => simp [declareStructs]
  | cons entry rest ih =>
    refine Iff.trans (@ih (types.declareStruct entry.1).2) ?_
    rw [named?_declareStruct, List.map_cons, List.mem_cons]
    split
    · next same => simp [same]
    · next apart => simp [apart]

/-! ### Interning keeps named structs -/

/-- A named struct of the later arena was there before, since the shapes that are interned have no
name. -/
theorem Interns.shape_of_named (interns : types.Interns after) {shape : TypeShape}
    (found : after.shape id = .ok shape) (named : shape.structName? = some name) :
    types.shape id = .ok shape := by
  induction interns with
  | refl => exact found
  | intern before entry unnamed parts ih =>
    rcases shape_of_shape_intern found with old | ⟨-, -, -, rfl⟩
    · exact ih old
    · cases unnamed.symm.trans named

theorem Interns.built (built : types.Built) (interns : types.Interns after) : after.Built := by
  induction interns with
  | refl => exact built
  | intern before shape unnamed parts ih => exact ih.step (.intern shape parts)

/-- Reading a field leaves an arena without bodies one without bodies. -/
theorem Bodiless.interns (bodiless : types.Bodiless) (interns : types.Interns after) :
    after.Bodiless :=
  fun _ _ _ there named => bodiless (interns.shape_of_named there named) named

end Types

/-! ## The graph of a document

Everything about a document that decides whether it has recursive structs, stated of the arena with
no bodies at all. -/

namespace Document

/-- The arena in which all structs of a document are declared and none has a body.  All names are
known in it, and what a field spells in it says nothing about bodies. -/
def declared (document : Document) : Types :=
  Types.initial.declareStructs document.structs

/-- Load the structs of a document. -/
def loadStructs (document : Document) : Loader Unit := do
  let structs ← document.structs.mapM declareStruct
  structs.forM defineStruct

/-- The struct `outer` has a field whose text spells a type with a value of the struct `inner` in
its storage, when no struct has a body yet.  A pointer to a struct holds no value of it, and an
array holds those of its elements. -/
def HoldsByValue (document : Document) (outer inner : String) : Prop :=
  ∃ body text id handle, (outer, some body) ∈ document.structs ∧ .text text ∈ body.fields
    ∧ (document.declared.readText text.toList).2 = .ok id
    ∧ document.declared.named? inner = some handle
    ∧ (document.declared.readText text.toList).1.Contains id handle

/-- Fields of structs are texts that spell types of which values can be stored.  Without it loading
may fail for a field that is no type, or that cannot be stored, before it comes to a cycle. -/
def FieldsSpelled (document : Document) : Prop :=
  ∀ name body, (name, some body) ∈ document.structs → ∀ field ∈ body.fields,
    ∃ text id shape, field = .text text ∧ (document.declared.readText text.toList).2 = .ok id
      ∧ (document.declared.readText text.toList).1.shape id = .ok shape ∧ shape.Storable

/-- The text that is written spells a type with that term.  It is the term in the arena without
bodies, the same for every arena with the same names. -/
def Spells (document : Document) (node : TypeNode) (term : TypeTerm) : Prop :=
  ∃ text id, node = .text text ∧ (document.declared.readText text.toList).2 = .ok id
    ∧ (document.declared.readText text.toList).1.Has id
    ∧ (document.declared.readText text.toList).1.term id = term

variable {document : Document}

/-- Loading the structs is the first phase of loading a document. -/
theorem load_eq (document : Document) : document.load = (do
    document.loadStructs
    let globals ← document.globals.mapM declareGlobal
    let functions ← document.functions.mapM declareFunction
    globals.forM initializeGlobal
    functions.forM defineFunction) := by
  simp only [load, loadStructs, bind_assoc]

/-- The arena of the declared structs is a built one. -/
theorem built_declared (document : Document) : document.declared.Built :=
  Types.Built.initial.declareStructs

/-- The arena that programs begin with has no named struct at all. -/
theorem bodiless_declared (document : Document) : document.declared.Bodiless := by
  refine Types.Bodiless.declareStructs fun id shape name found named => ?_
  cases (Types.unnamed_of_initial found).symm.trans named

/-- Reading a field only interns. -/
theorem interns_declared (document : Document) (text : List Char) :
    document.declared.Interns (document.declared.readText text).1 :=
  Types.readText_interns document.built_declared.has_ptr text

theorem regular_read (document : Document) (text : List Char) :
    (document.declared.readText text).1.Regular :=
  document.built_declared.regular.interns (document.interns_declared text)

/-- One struct holds another if the name of this one stands in the term of a field.  The graph is
defined by handles, since that is what the arena has; this is the form in which it can be compared
between arenas. -/
theorem holdsByValue_iff {outer inner : String} : document.HoldsByValue outer inner ↔
    ∃ body node term, (outer, some body) ∈ document.structs ∧ node ∈ body.fields
      ∧ document.Spells node term ∧ term.Holds inner := by
  constructor
  · rintro ⟨body, text, id, handle, listed, mem, read, found, contains⟩
    have interns := document.interns_declared text.toList
    have regular := document.regular_read text.toList
    have bodiless := document.bodiless_declared.interns interns
    rw [← interns.named?_eq] at found
    -- the way through the term ends at its first struct, which has no fields
    obtain ⟨first, holds, path⟩ :=
      regular.exists_holds_of_contains (fun _ _ => False) (fun there named mem _ => by
        rw [bodiless there named] at mem
        cases mem) contains found
    cases ReflTransGen.cases_head path with
    | inl same =>
      subst same
      have has : (document.declared.readText text.toList).1.Has id := by
        rcases Types.contains_iff.mp contains with rfl | ⟨part, step, -⟩
        · exact Types.has_named? found
        · exact step.has
      exact ⟨body, _, _, listed, mem, ⟨text, id, rfl, read, has, rfl⟩, holds⟩
    | inr step => exact step.elim fun _ h => h.1.elim
  · rintro ⟨body, _, _, listed, mem, ⟨text, id, rfl, read, has, rfl⟩, holds⟩
    have regular := document.regular_read text.toList
    obtain ⟨handle, found, contains⟩ := regular.contains_of_holds has holds
    rw [(document.interns_declared text.toList).named?_eq] at found
    exact ⟨body, text, id, handle, listed, mem, read, found, contains⟩

/-- Reading is a function, so a text has one term at most. -/
theorem Spells.unique {node : TypeNode} {term term' : TypeTerm} (spells : document.Spells node term)
    (spells' : document.Spells node term') : term' = term := by
  obtain ⟨text, id, rfl, read, -, rfl⟩ := spells
  obtain ⟨_, id', same, read', -, rfl⟩ := spells'
  cases same
  cases read.symm.trans read'
  rfl

/-- Whether the fields of structs are spelled is a question of the terms that they spell.  So it
does not depend on the arena in which they are read either. -/
theorem fieldsSpelled_iff : document.FieldsSpelled ↔
    ∀ name body, (name, some body) ∈ document.structs → ∀ field ∈ body.fields,
      ∃ term, document.Spells field term ∧ term.Storable := by
  refine forall₄_congr fun name body listed field => forall_congr' fun mem => ?_
  constructor
  · rintro ⟨text, id, shape, rfl, read, there, storable⟩
    refine ⟨_, ⟨text, id, rfl, read, Types.has_of_shape there, rfl⟩, ?_⟩
    rw [(document.regular_read text.toList).layered.term_of_shape there]
    exact TypeShape.storable_termWith_iff.mpr storable
  · rintro ⟨_, ⟨text, id, rfl, read, has, rfl⟩, storable⟩
    obtain ⟨shape, there⟩ := has.exists_shape
    rw [(document.regular_read text.toList).layered.term_of_shape there] at storable
    exact ⟨text, id, shape, rfl, read, there, TypeShape.storable_termWith_iff.mp storable⟩

/-! ## Running the loop

A round reads the fields of one struct and gives it its body.  It succeeds or is refused because of
a cycle; in the second case the run ends, and what is known then is that the document has a cycle.
-/

/-- Fields that are spelled in the arena with all structs declared are spelled the same in every
arena with the same names.  Fields are read one by one, each in the arena that the one before it
left, so the terms of the first have to last. -/
theorem exists_typesOf {nodes : List TypeNode} {p : Program}
    (twins : document.declared.Twins p.types)
    (spelled : ∀ node ∈ nodes, ∃ term, document.Spells node term) :
    ∃ ids types, Yields (typesOf nodes) p ids { p with types := types } ∧ p.types.Interns types
      ∧ List.Forall₂ (fun node id => types.Has id ∧ document.Spells node (types.term id))
        nodes ids := by
  induction nodes generalizing p with
  | nil => exact ⟨[], p.types, yields_pure_iff.mpr ⟨rfl, rfl⟩, .refl _, .nil⟩
  | cons node rest ih =>
    obtain ⟨term, text, id, rfl, read, has, -⟩ := spelled node List.mem_cons_self
    have interns := Types.readText_interns twins.regular'.has_ptr text.toList
    rcases twins.readText text.toList with ⟨_, other, read', there, same⟩ | ⟨failed, -⟩
    · cases read'.symm.trans read
      have twins' := twins.mono (.refl _) interns
      obtain ⟨ids, types, run, more, known⟩ :=
        ih (p := { p with types := (p.types.readText text.toList).1 }) twins'
          fun node mem => spelled node (List.mem_cons_of_mem _ mem)
      refine ⟨other :: ids, types, ?_, interns.trans more, .cons ⟨same.has'.mono more, ?_⟩ known⟩
      · rw [typesOf, typeOf, typeOfText]
        simp only [yields_bind_iff, yields_get_iff, yields_set_iff, yields_except_iff,
          yields_pure_iff]
        exact ⟨other, _, ⟨p, p, ⟨rfl, rfl⟩, (), _, rfl, there, rfl⟩, ids, _, run, rfl, rfl⟩
      · refine ⟨text, id, rfl, read, has, ?_⟩
        rw [twins'.regular'.complete.term_of_extends more.extends same.has', same.same]
    · cases failed.symm.trans read

/-- The body of a struct is given to it in the arena that has its fields.  This is a round with the
reading of the fields done. -/
theorem run_defineStruct {id : TypeId} {body : StructEntry} {p : Program} {ids : List TypeId}
    {types : Types} (fields : Yields (typesOf body.fields) p ids { p with types := types }) :
    (defineStruct (id, some body)).run p
      = (do
        let types ← types.setStructBody id ids body.packed
        return ((), { p with types })) := by
  rw [defineStruct, StateT.run_bind, show (typesOf body.fields).run p = _ from fields]
  exact run_update (fun program => do
    let types ← program.types.setStructBody id ids body.packed
    return ((), { program with types })) { p with types := types }

/-- Bodies of structs between two rounds: those that the arena has are of the document, and those of
the document that it does not have are among `todo`. -/
structure Phase (document : Document) (todo : List (TypeId × Option StructEntry)) (types : Types) :
    Prop where
  built : types.Built
  /-- The structs that are declared are those of the document. -/
  names : ∀ name, types.named? name = document.declared.named? name
  /-- A body that the arena has is that of an entry. -/
  sound : ∀ {id shape name field}, types.shape id = .ok (.struct shape) → shape.name = some name →
    field ∈ shape.fields → ∃ body node, (name, some body) ∈ document.structs ∧ node ∈ body.fields
      ∧ document.Spells node (types.term field)
  /-- An entry with a body is still to come, or its struct has that body. -/
  complete : ∀ {name body}, (name, some body) ∈ document.structs →
    ∃ id, types.named? name = some id ∧ ((id, some body) ∈ todo
      ∨ ∃ shape, types.shape id = .ok (.struct shape)
        ∧ List.Forall₂ (fun node field => document.Spells node (types.term field))
          body.fields shape.fields)

namespace Phase

variable {todo : List (TypeId × Option StructEntry)} {types after : Types}

/-- Before the loop no struct has a body, and all of them are to come.  The two lists agree entry by
entry: the handle is the one of the name. -/
theorem start {entries : List (TypeId × Option StructEntry)}
    (same : List.Forall₂ (fun entry other => other.2 = entry.2
      ∧ document.declared.named? entry.1 = some other.1) document.structs entries) :
    document.Phase entries document.declared where
  built := document.built_declared
  names _ := rfl
  sound there named mem := by
    rw [document.bodiless_declared there named] at mem
    cases mem
  complete listed := by
    obtain ⟨⟨id, body⟩, mem, rfl, found⟩ := exists_mem_of_forall₂ same listed
    exact ⟨id, found, .inl mem⟩

/-- Terms in rows stay.  Bodies that are set later, and types that are interned later, do not change
a term. -/
theorem forall₂_spells {nodes : List TypeNode} {ids : List TypeId} (complete : types.Complete)
    (kept : types.Extends after) (has : ∀ id ∈ ids, types.Has id)
    (spells : List.Forall₂ (fun node id => document.Spells node (types.term id)) nodes ids) :
    List.Forall₂ (fun node id => document.Spells node (after.term id)) nodes ids := by
  refine List.forall₂_iff_zip.mpr ⟨spells.length_eq, fun {node id} mem => ?_⟩
  rw [complete.term_of_extends kept (has id (List.of_mem_zip mem).2)]
  exact (List.forall₂_iff_zip.mp spells).2 mem

/-- Reading types between two rounds changes nothing that a round depends on: it adds no struct with
a name. -/
theorem interns (phase : document.Phase todo types) (interns : types.Interns after) :
    document.Phase todo after where
  built := interns.built phase.built
  names name := by rw [interns.named?_eq, phase.names]
  sound there named mem := by
    have old := interns.shape_of_named there named
    have has := phase.built.complete old _ mem
    rw [phase.built.complete.term_of_extends interns.extends has]
    exact phase.sound old named mem
  complete listed := by
    obtain ⟨id, found, state⟩ := phase.complete listed
    refine ⟨id, (interns.named?_eq _).trans found, state.imp_right ?_⟩
    rintro ⟨shape, there, fields⟩
    have complete := phase.built.complete
    exact ⟨shape, interns.shape_eq there,
      forall₂_spells complete interns.extends (complete there) fields⟩

/-- What a body that is refused says about the document: the struct it is for lies on a cycle.  The
arena has a path from a field back to the struct, and along it all bodies are those of the document.
-/
theorem cycle (phase : document.Phase todo types) {id field : TypeId} {name : String}
    {body : StructEntry} {node : TypeNode} (listed : (name, some body) ∈ document.structs)
    (mem : node ∈ body.fields) (spells : document.Spells node (types.term field))
    (found : types.named? name = some id) (contains : types.Contains field id) :
    TransGen document.HoldsByValue name name := by
  obtain ⟨first, holds, path⟩ := phase.built.regular.exists_holds_of_contains
    document.HoldsByValue (fun there named mem holds => by
      obtain ⟨body, node, listed, mem, spells⟩ := phase.sound there named mem
      exact holdsByValue_iff.mpr ⟨body, node, _, listed, mem, spells, holds⟩) contains found
  exact .head' (holdsByValue_iff.mpr ⟨body, node, _, listed, mem, spells, holds⟩) path

/-- Once all bodies are there, what the document says about structs is so in the arena.  An edge of
the document is a field that is there by now, so a cycle would be one of an arena that has none. -/
theorem transGen (phase : document.Phase [] types) {outer inner : String}
    (path : TransGen document.HoldsByValue outer inner) :
    ∃ id other, types.named? outer = some id ∧ types.named? inner = some other
      ∧ TransGen types.Holds id other := by
  have step {outer inner : String} (holds : document.HoldsByValue outer inner) :
      ∃ id other, types.named? outer = some id ∧ types.named? inner = some other
        ∧ TransGen types.Holds id other := by
    obtain ⟨body, node, term, listed, mem, spells, holds⟩ := holdsByValue_iff.mp holds
    obtain ⟨id, found, todo | ⟨shape, there, fields⟩⟩ := phase.complete listed
    · cases todo
    · obtain ⟨field, stored, spells'⟩ := exists_mem_of_forall₂ fields mem
      obtain ⟨text, first, rfl, read, -, rfl⟩ := spells
      obtain ⟨_, _, same, read', -, term⟩ := spells'
      cases same
      cases read'.symm.trans read
      rw [term] at holds
      obtain ⟨other, found', contains⟩ := phase.built.regular.contains_of_holds
        (phase.built.complete there field stored) holds
      exact ⟨id, other, found, found', .head' ⟨_, there, stored⟩ contains⟩
  induction path with
  | single holds => exact step holds
  | tail _ holds ih =>
    obtain ⟨id, middle, found, found', path⟩ := ih
    obtain ⟨middle', other, again, found'', last⟩ := step holds
    cases again.symm.trans found'
    exact ⟨id, other, found, found'', path.trans last⟩

/-- The struct `id` gets the body that the document has for it.  The only thing that can be wrong is
a cycle: the fields can be stored, and the struct has no body yet, since each is listed once. -/
theorem setStructBody {id : TypeId} {body : StructEntry}
    (phase : document.Phase ((id, some body) :: todo) types)
    (unique : (document.structs.map (·.1)).Nodup) {name : String}
    (listed : (name, some body) ∈ document.structs) (found : types.named? name = some id)
    {fields : List TypeId} (parts : ∀ field ∈ fields, types.Has field)
    (spells : List.Forall₂ (fun node field => document.Spells node (types.term field))
      body.fields fields)
    (run : types.setStructBody id fields body.packed = .ok after) :
    document.Phase todo after := by
  have kept := Types.extends_setStructBody run
  have complete := phase.built.complete
  have terms := forall₂_spells complete kept parts spells
  have built := phase.built.step (.setStructBody parts run)
  obtain ⟨shape, there, named⟩ := Types.shape_of_named? found
  obtain ⟨shape', name', there', named', rfl⟩ := Types.setStructBody_eq_ok run
  cases there.symm.trans there'
  cases named.symm.trans named'
  exact {
    built := built
    names := fun other => (Types.named?_set there (by exact named.symm) other).trans
      (phase.names other)
    sound := fun {other shape taken field} here again mem => by
      rcases Types.shape_of_shape_set there here with ⟨rfl, same⟩ | old
      · cases same
        cases again
        obtain ⟨node, written, spells⟩ := exists_mem_of_forall₂ terms.flip mem
        exact ⟨body, node, listed, written, spells⟩
      · rw [complete.term_of_extends kept (complete old field mem)]
        exact phase.sound old again mem
    complete := fun {other body'} listed' => by
      obtain ⟨id', found', state⟩ := phase.complete listed'
      refine ⟨id', (Types.named?_set there (by exact named.symm) other).trans found', ?_⟩
      by_cases same : id' = id
      -- the struct that has its body now; names are distinct, so it is the body that is listed for
      -- it
      · subst same
        obtain ⟨shape', there', named'⟩ := Types.shape_of_named? found'
        cases there.symm.trans there'
        cases named.symm.trans named'
        cases congrArg Prod.snd (List.inj_on_of_nodup_map unique listed listed' rfl)
        exact .inr ⟨_, Types.shape_withBody_self there, terms⟩
      · rcases state with mem | ⟨shape', there', fields'⟩
        · rcases List.mem_cons.mp mem with same' | mem
          · exact absurd (congrArg Prod.fst same') same
          · exact .inl mem
        · refine .inr ⟨shape', (Types.shape_withBody_of_ne same).trans there', ?_⟩
          exact forall₂_spells complete kept (complete there') fields' }

/-- A struct without a body needs no round.  It is declared and has no fields, in the document and
in the arena. -/
theorem skip {id : TypeId} (phase : document.Phase ((id, none) :: todo) types) :
    document.Phase todo types where
  built := phase.built
  names := phase.names
  sound := phase.sound
  complete listed := by
    obtain ⟨id', found, state⟩ := phase.complete listed
    refine ⟨id', found, state.imp_left fun mem => ?_⟩
    rcases List.mem_cons.mp mem with same | mem
    · cases same
    · exact mem

end Phase

/-- **A round** gives a struct its body, unless there is a cycle through the struct. -/
theorem Phase.defineStruct {todo : List (TypeId × Option StructEntry)}
    {entry : TypeId × Option StructEntry} {p : Program}
    (phase : document.Phase (entry :: todo) p.types)
    (unique : (document.structs.map (·.1)).Nodup) (spelled : document.FieldsSpelled)
    {name : String} (listed : (name, entry.2) ∈ document.structs)
    (found : document.declared.named? name = some entry.1) :
    (∃ types, (Loader.defineStruct entry).run p = .ok ((), { p with types := types })
        ∧ document.Phase todo types)
      ∨ (Loader.defineStruct entry).run p = .error (.recursiveStruct name)
        ∧ TransGen document.HoldsByValue name name := by
  obtain ⟨id, body?⟩ := entry
  cases body? with
  | none => exact .inl ⟨p.types, rfl, phase.skip⟩
  | some body =>
    have twins : document.declared.Twins p.types :=
      ⟨document.built_declared.regular, phase.built.regular, fun name => by rw [phase.names]⟩
    have written := fieldsSpelled_iff.mp spelled name body listed
    obtain ⟨ids, types, fields, interns, known⟩ := exists_typesOf twins
      fun node mem => have ⟨term, spells, _⟩ := written node mem; ⟨term, spells⟩
    have phase := phase.interns interns
    have spells : List.Forall₂ (fun node field => document.Spells node (types.term field))
        body.fields ids := known.imp fun _ _ h => h.2
    have parts : ∀ field ∈ ids, types.Has field := fun field mem =>
      have ⟨_, _, has, _⟩ := exists_mem_of_forall₂ known.flip mem
      has
    rw [← phase.names] at found
    obtain ⟨shape, there, named⟩ := Types.shape_of_named? found
    -- what a field spells can be stored, and that only depends on the shape
    have storable : ∀ field ∈ ids, ∃ shape, types.shape field = .ok shape ∧ shape.Storable := by
      intro field mem
      obtain ⟨node, mem, has, spells⟩ := exists_mem_of_forall₂ known.flip mem
      obtain ⟨term, spells', storable⟩ := written node mem
      cases spells.unique spells'
      obtain ⟨shape, there⟩ := has.exists_shape
      rw [phase.built.regular.layered.term_of_shape there] at storable
      exact ⟨shape, there, TypeShape.storable_termWith_iff.mp storable⟩
    rw [run_defineStruct fields]
    rcases phase.built.complete.setStructBody_eq phase.built.acyclic there named storable
      body.packed with ⟨cyclic, run⟩ | ⟨-, run⟩
    · refine .inr ⟨by rw [run]; rfl, ?_⟩
      rw [phase.built.acyclic.withBody_iff there] at cyclic
      push Not at cyclic
      -- the field contains the struct by now, and every step of that way was written down
      obtain ⟨field, mem, contains⟩ := cyclic
      obtain ⟨node, mem, spells⟩ := exists_mem_of_forall₂ spells.flip mem
      exact phase.cycle listed mem spells found contains
    · refine .inl ⟨_, by rw [run]; rfl, phase.setStructBody unique listed found parts spells run⟩

/-- The whole loop.  The run ends at the first body that is refused. -/
theorem Phase.forM_defineStruct {todo : List (TypeId × Option StructEntry)} {p : Program}
    (phase : document.Phase todo p.types) (unique : (document.structs.map (·.1)).Nodup)
    (spelled : document.FieldsSpelled)
    (listed : ∀ entry ∈ todo, ∃ name, (name, entry.2) ∈ document.structs
      ∧ document.declared.named? name = some entry.1) :
    (∃ types, (todo.forM Loader.defineStruct).run p = .ok ((), { p with types := types })
        ∧ document.Phase [] types)
      ∨ ∃ name, (todo.forM Loader.defineStruct).run p = .error (.recursiveStruct name)
        ∧ TransGen document.HoldsByValue name name := by
  induction todo generalizing p with
  | nil => exact .inl ⟨p.types, rfl, phase⟩
  | cons entry rest ih =>
    obtain ⟨name, mem, found⟩ := listed entry List.mem_cons_self
    rw [List.forM_eq_forM, List.forM_cons, StateT.run_bind]
    rcases phase.defineStruct unique spelled mem found with ⟨types, run, phase⟩ | ⟨run, cycle⟩
    · rw [run]
      exact ih (p := { p with types := types }) phase
        fun entry mem => listed entry (List.mem_cons_of_mem _ mem)
    · rw [run]
      exact .inr ⟨name, rfl, cycle⟩

/-- All structs are declared before the loop.  No declaration fails, and the handles are in the
order of the list. -/
theorem exists_declareStruct {structs : List (String × Option StructEntry)} {p : Program} :
    ∃ entries, Yields (structs.mapM Loader.declareStruct) p entries
        { p with types := p.types.declareStructs structs }
      ∧ List.Forall₂ (fun entry other => other.2 = entry.2
        ∧ (p.types.declareStructs structs).named? entry.1 = some other.1) structs entries := by
  induction structs generalizing p with
  | nil => exact ⟨[], yields_mapM_nil_iff.mpr ⟨rfl, rfl⟩, .nil⟩
  | cons entry rest ih =>
    obtain ⟨entries, run, known⟩ := ih (p := { p with types := (p.types.declareStruct entry.1).2 })
    refine ⟨((p.types.declareStruct entry.1).1, entry.2) :: entries,
      yields_mapM_cons_iff.mpr ⟨_, _, entries, ?_, run, rfl⟩, .cons ⟨rfl, ?_⟩ known⟩
    · simp only [Loader.declareStruct, yields_bind_iff, yields_withTypes_iff, yields_pure_iff]
      exact ⟨_, _, ⟨rfl, rfl⟩, rfl, rfl⟩
    · refine @Types.named?_declareStructs (p.types.declareStruct entry.1).2 _ _ rest ?_
      rw [Types.named?_declareStruct, if_pos rfl]

/-- **Loading the structs of a document** gives all of them their bodies, or refuses a body because
of a cycle through its struct. -/
theorem run_loadStructs (unique : (document.structs.map (·.1)).Nodup)
    (spelled : document.FieldsSpelled) (layout : DataLayout) :
    (∃ program, document.loadStructs.run (.empty layout) = .ok ((), program)
        ∧ document.Phase [] program.types)
      ∨ ∃ name, document.loadStructs.run (.empty layout) = .error (.recursiveStruct name)
        ∧ TransGen document.HoldsByValue name name := by
  obtain ⟨entries, run, known⟩ :=
    @exists_declareStruct document.structs (.empty layout)
  have looped : document.loadStructs.run (.empty layout)
      = (entries.forM Loader.defineStruct).run
        { Program.empty layout with types := document.declared } := by
    rw [loadStructs, StateT.run_bind,
      show (document.structs.mapM Loader.declareStruct).run (.empty layout) = _ from run]
    rfl
  have listed : ∀ entry ∈ entries, ∃ name, (name, entry.2) ∈ document.structs
      ∧ document.declared.named? name = some entry.1 := by
    intro entry mem
    obtain ⟨⟨name, body?⟩, mem, same, found⟩ := exists_mem_of_forall₂ known.flip mem
    dsimp only at same found
    exact ⟨name, same ▸ mem, found⟩
  rw [looped]
  rcases @Phase.forM_defineStruct _ _ { Program.empty layout with types := document.declared }
    (.start known) unique spelled listed with ⟨types, run, phase⟩ | failed
  · exact .inl ⟨_, run, phase⟩
  · exact .inr failed

/-- A program is refused for what its structs are refused for.  Nothing comes in front of them. -/
theorem toProgram_of_loadStructs {error : ProgramError}
    (run : document.loadStructs.run (.empty (document.layout.getD .standard)) = .error error) :
    document.toProgram = .error error := by
  rw [toProgram, load_eq, StateT.run_bind, run]
  rfl

end Document

/-! ## Documents from texts

A record is read field by field into a list that keeps the last value of each key, so no key is
there twice.  `Answers` is the judgment for what a scan may answer. -/

/-- Inserting an entry replaces the one of the same key, so keys stay distinct and only one of them
is new. -/
theorem nodup_insertEntry {α : Type} {entries : List (String × α)}
    (unique : (entries.map (·.1)).Nodup) (key : String) (value : α) :
    ((insertEntry key value entries).map (·.1)).Nodup
      ∧ ∀ other ∈ (insertEntry key value entries).map (·.1),
        other = key ∨ other ∈ entries.map (·.1) := by
  induction entries with
  | nil => simp [insertEntry]
  | cons entry rest ih =>
    obtain ⟨fresh, unique⟩ := List.nodup_cons.mp unique
    obtain ⟨distinct, known⟩ := ih unique
    rw [insertEntry]
    split
    · next same =>
      refine ⟨List.nodup_cons.mpr ⟨same ▸ fresh, unique⟩, fun other mem => ?_⟩
      rcases List.mem_cons.mp mem with here | mem
      · exact .inl here
      · exact .inr (List.mem_cons_of_mem _ mem)
    · next apart =>
      refine ⟨List.nodup_cons.mpr ⟨fun mem => ?_, distinct⟩, fun other mem => ?_⟩
      · exact (known _ mem).elim apart fresh
      · rcases List.mem_cons.mp mem with here | mem
        · exact .inr (here ▸ List.mem_cons_self)
        · exact (known other mem).imp_right (List.mem_cons_of_mem _)

namespace Scan

variable {α β : Type} {P : α → Prop} {Q : β → Prop}

/-- Whatever the scan answers has the property `P`.  A scan that fails answers nothing, so this
holds of it. -/
def Answers (scan : Scan α) (P : α → Prop) : Prop :=
  ∀ text value rest, scan.run text = .ok (value, rest) → P value

theorem Answers.bind {step : Scan α} {next : α → Scan β} (first : Answers step P)
    (second : ∀ a, P a → Answers (next a) Q) : Answers (step >>= next) Q := by
  intro text value rest run
  rw [StateT.run_bind, bind_eq_ok_iff] at run
  obtain ⟨⟨a, middle⟩, taken, run⟩ := run
  exact second a (first text a middle taken) middle value rest run

/-- Whatever the first step answers, the second one sees to it. -/
theorem Answers.of_next {step : Scan α} {next : α → Scan β} (second : ∀ a, Answers (next a) Q) :
    Answers (step >>= next) Q :=
  Answers.bind (fun _ _ _ _ => trivial) fun a (_ : True) => second a

theorem Answers.pure {value : α} (h : P value) : Answers (Pure.pure value) P := by
  rintro text _ rest ⟨⟩
  exact h

theorem answers_throw {fault : JsonFault} : Answers (throw fault : Scan α) P := by
  rintro text value rest ⟨⟩

theorem answers_mismatch : Answers mismatch P := by
  refine .of_next fun token => ?_
  split
  · exact answers_throw
  · exact answers_throw
  · exact answers_throw
  · exact .of_next fun _ => answers_throw

/-- A record is refused if a field is missing that it needs. -/
theorem answers_complete {value? : Option α} (h : ∀ value, value? = some value → P value) :
    Answers (match value? with
      | some value => return value
      | none => throw .wrongShape) P := by
  cases value? with
  | some value => exact .pure (h value rfl)
  | none => exact answers_throw

/-- A record is put together from its fields. -/
theorem answers_record {σ : Type} {shape : List (FieldShape σ)} {start : σ}
    {finish : σ → Option α} (h : ∀ fields value, finish fields = some value → P value)
    (levels : Nat) : Answers (record shape start finish levels) P := by
  rw [record]
  refine .of_next fun token => ?_
  split
  · exact .of_next fun _ => .of_next fun fields => .bind (answers_complete (h fields))
      fun _ holds => .of_next fun _ => .pure holds
  · exact .of_next fun _ => .of_next fun _ => .of_next fun fields =>
      .bind (answers_complete (h fields)) fun _ holds => .of_next fun _ => .pure holds
  · exact answers_mismatch

/-- A whole text is one value. -/
theorem answers_whole {scan : Scan α} (answers : Answers scan P) {text : String} {value : α}
    (run : whole scan text = .ok value) : P value := by
  simp only [whole, bind_eq_ok_iff, pure_eq_ok_iff] at run
  obtain ⟨⟨value, rest⟩, run, rfl⟩ := run
  refine Answers.bind answers (fun value holds => Answers.of_next fun token => ?_) _ _ _ run
  split
  · exact .pure holds
  · exact answers_throw

end Scan

namespace Document

variable {document : Document}

/-- **A document has each struct at most once**, whatever text it is read from. -/
theorem nodup_of_ofText {text : String} (read : Document.ofText text = .ok document) :
    (document.structs.map (·.1)).Nodup := by
  have scanned : Scan.Answers (scan maxLevels)
      fun document : Document => (document.structs.map (·.1)).Nodup := by
    refine Scan.answers_record (fun parts document found => ?_) maxLevels
    cases found
    have unique {entries known : List (String × Option StructEntry)}
        (distinct : (known.map (·.1)).Nodup) :
        ((entries.foldl (fun known entry => insertEntry entry.1 entry.2 known) known).map
          (·.1)).Nodup := by
      induction entries generalizing known with
      | nil => exact distinct
      | cons entry rest ih => exact ih (nodup_insertEntry distinct _ _).1
    exact unique List.nodup_nil
  exact Scan.answers_whole scanned read

/-! ## The order of the list

Two documents with the same structs in another order declare arenas that are twins: the same names,
other handles. -/

/-- The order of declarations changes handles and not names.  The reader asks an arena for names
only, so texts are read alike in both. -/
theorem twins_declared {other : Document} (perm : other.structs.Perm document.structs) :
    document.declared.Twins other.declared where
  regular := document.built_declared.regular
  regular' := other.built_declared.regular
  names name := by
    rw [Bool.eq_iff_iff, declared, declared, Types.isSome_named?_declareStructs,
      Types.isSome_named?_declareStructs, (perm.map (·.1)).mem_iff]

/-- A term has names in the place of handles, so it can be the same in both arenas. -/
theorem Spells.of_perm {other : Document} (perm : other.structs.Perm document.structs)
    {node : TypeNode} {term : TypeTerm} (spells : document.Spells node term) :
    other.Spells node term := by
  obtain ⟨text, id, rfl, read, has, rfl⟩ := spells
  rcases (twins_declared perm).readText text.toList with ⟨_, id', read', there, same⟩ | ⟨failed, -⟩
  · cases read.symm.trans read'
    exact ⟨text, id', rfl, there, same.has', same.same⟩
  · cases failed.symm.trans read

/-- The graph of a document does not depend on the order of its structs. -/
theorem holdsByValue_of_perm {other : Document} (perm : other.structs.Perm document.structs)
    {outer inner : String} (holds : document.HoldsByValue outer inner) :
    other.HoldsByValue outer inner := by
  obtain ⟨body, node, term, listed, mem, spells, holds⟩ := holdsByValue_iff.mp holds
  exact holdsByValue_iff.mpr
    ⟨body, node, term, perm.mem_iff.mpr listed, mem, spells.of_perm perm, holds⟩

theorem FieldsSpelled.of_perm {other : Document} (perm : other.structs.Perm document.structs)
    (spelled : document.FieldsSpelled) : other.FieldsSpelled := by
  refine fieldsSpelled_iff.mpr fun name body listed field mem => ?_
  obtain ⟨term, spells, storable⟩ :=
    fieldsSpelled_iff.mp spelled name body (perm.mem_iff.mp listed) field mem
  exact ⟨term, spells.of_perm perm, storable⟩

/-! ## Recursion -/

/-- **A cycle in the document** is what loading its structs fails for, and nothing else is.  Both
halves follow from what a run of the loop answers: all bodies, and then the arena is acyclic, or a
cycle. -/
theorem loadStructs_iff (unique : (document.structs.map (·.1)).Nodup)
    (spelled : document.FieldsSpelled) (layout : DataLayout) :
    ((∃ name, document.loadStructs.run (.empty layout) = .error (.recursiveStruct name))
        ↔ ∃ name, TransGen document.HoldsByValue name name)
      ∧ ((∃ program, document.loadStructs.run (.empty layout) = .ok ((), program))
        ↔ ¬ ∃ name, TransGen document.HoldsByValue name name) := by
  rcases run_loadStructs unique spelled layout with ⟨program, run, phase⟩ | ⟨name, run, cycle⟩
  · have acyclic : ¬ ∃ name, TransGen document.HoldsByValue name name := by
      rintro ⟨name, cycle⟩
      obtain ⟨id, other, found, again, path⟩ := phase.transGen cycle
      cases found.symm.trans again
      exact phase.built.acyclic id path
    rw [run]
    exact ⟨iff_of_false (by simp) acyclic, iff_of_true ⟨program, rfl⟩ acyclic⟩
  · have cyclic : ∃ name, TransGen document.HoldsByValue name name := ⟨name, cycle⟩
    rw [run]
    exact ⟨iff_of_true ⟨name, rfl⟩ cyclic, iff_of_false (by simp) (not_not_intro cyclic)⟩

/-- The order in which structs are listed makes no difference to whether they can be loaded.  The
graphs are the same, so there is a cycle in both or in neither. -/
theorem loadStructs_iff_of_perm {other : Document} (perm : other.structs.Perm document.structs)
    (unique : (document.structs.map (·.1)).Nodup) (spelled : document.FieldsSpelled)
    (layout : DataLayout) :
    (∃ program, other.loadStructs.run (.empty layout) = .ok ((), program))
      ↔ ∃ program, document.loadStructs.run (.empty layout) = .ok ((), program) := by
  have unique' := (perm.map (·.1)).nodup_iff.mpr unique
  rw [(loadStructs_iff unique spelled layout).2,
    (loadStructs_iff unique' (spelled.of_perm perm) layout).2]
  refine not_congr (exists_congr fun name => ?_)
  exact ⟨TransGen.mono (fun _ _ holds => holdsByValue_of_perm perm.symm holds) _ _,
    TransGen.mono (fun _ _ holds => holdsByValue_of_perm perm holds) _ _⟩

/-- Two structs, each of which has the other one by value. -/
def ring : Document where
  layout := none
  structs := [
    ("Node", some ⟨[.text "i32", .text "[2 x %Edge]"], false⟩),
    ("Edge", some ⟨[.text "<\x7b ptr, %Node \x7d>"], false⟩)]
  globals := []
  functions := []

/-- The fields of the example are spelled.  Each field is read by evaluation, in the arena with both
structs declared. -/
theorem fieldsSpelled_ring : ring.FieldsSpelled := by
  intro name body listed field mem
  simp only [ring, List.mem_cons, List.not_mem_nil, or_false, Prod.mk.injEq, Option.some.injEq]
    at listed
  rcases listed with ⟨-, rfl⟩ | ⟨-, rfl⟩
  · simp only [List.mem_cons, List.not_mem_nil, or_false] at mem
    rcases mem with rfl | rfl
    · exact ⟨_, ⟨3⟩, .int 32, rfl, by decide +kernel, by decide +kernel, trivial⟩
    · exact ⟨_, ⟨8⟩, .array ⟨7⟩ 2, rfl, by decide +kernel, by decide +kernel, trivial⟩
  · simp only [List.mem_cons, List.not_mem_nil, or_false] at mem
    cases mem
    exact ⟨_, ⟨8⟩, .struct ⟨none, [⟨5⟩, ⟨6⟩], true, true⟩, rfl, by decide +kernel,
      by decide +kernel, trivial⟩

end Document

/-- **Recursion by value** is kept out of every arena, and a body is refused for it exactly if it
would close a cycle.  So the structs of a document, whose fields are texts that spell types of which
values can be stored, are refused exactly if they contain each other in a circle, in whatever order
they are listed. -/
theorem recursiveStruct_exact :
    (∀ types : Types, types.Built → types.Acyclic)
    ∧ (∀ (types : Types) (id : TypeId) (shape : TypeShape) (name : String)
        (fields : List TypeId) (packed : Bool), types.Built → types.shape id = .ok shape →
        shape.structName? = some name →
        (∀ field ∈ fields, ∃ shape, types.shape field = .ok shape ∧ shape.Storable) →
        (types.setStructBody id fields packed = .error (.recursiveStruct name)
            ↔ ¬ (types.withBody id name fields packed).Acyclic)
          ∧ (types.setStructBody id fields packed = .ok (types.withBody id name fields packed)
            ↔ (types.withBody id name fields packed).Acyclic))
    ∧ (∀ (document : Document) (layout : DataLayout), (document.structs.map (·.1)).Nodup →
        document.FieldsSpelled →
        ((∃ name, document.loadStructs.run (.empty layout) = .error (.recursiveStruct name))
            ↔ ∃ name, TransGen document.HoldsByValue name name)
          ∧ ((∃ program, document.loadStructs.run (.empty layout) = .ok ((), program))
            ↔ ¬ ∃ name, TransGen document.HoldsByValue name name))
    ∧ (∀ (document other : Document) (layout : DataLayout),
        other.structs.Perm document.structs → (document.structs.map (·.1)).Nodup →
        document.FieldsSpelled →
        ((∃ program, other.loadStructs.run (.empty layout) = .ok ((), program))
          ↔ ∃ program, document.loadStructs.run (.empty layout) = .ok ((), program))) := by
  refine ⟨fun types built => built.acyclic, ?_, fun document layout unique spelled =>
    Document.loadStructs_iff unique spelled layout, fun document other layout perm unique spelled =>
    Document.loadStructs_iff_of_perm perm unique spelled layout⟩
  intro types id shape name fields packed built found named storable
  rcases built.complete.setStructBody_eq built.acyclic found named storable packed with
    ⟨cyclic, run⟩ | ⟨acyclic, run⟩
  · rw [run]
    exact ⟨iff_of_true rfl cyclic, iff_of_false (by simp) cyclic⟩
  · rw [run]
    exact ⟨iff_of_false (by simp) (not_not_intro acyclic), iff_of_true rfl acyclic⟩

/-- Two structs hold each other, one of them through an array.  There is no order in which their
bodies could be set. -/
theorem recursiveStruct_exact_ring :
    Types.initial.Acyclic
    ∧ ¬ (Document.ring.declared.withBody ⟨6⟩ "Node" [⟨6⟩] false).Acyclic
    ∧ (∃ name, TransGen Document.ring.HoldsByValue name name)
    ∧ ¬ ∃ program, ({ Document.ring with structs := Document.ring.structs.reverse } :
        Document).loadStructs.run (.empty .standard) = .ok ((), program) := by
  have unique : (Document.ring.structs.map (·.1)).Nodup := by decide
  have faults : (Document.ring.loadStructs.run (.empty .standard)).map (fun _ => ())
      = .error (.recursiveStruct "Edge") := by decide +kernel
  have refused : Document.ring.loadStructs.run (.empty .standard)
      = .error (.recursiveStruct "Edge") := by
    cases run : Document.ring.loadStructs.run (.empty .standard) with
    | error fault =>
      rw [run] at faults
      exact congrArg Except.error (Except.error.inj faults)
    | ok loaded =>
      rw [run] at faults
      cases faults
  refine ⟨recursiveStruct_exact.1 _ .initial, ?_, ?_, ?_⟩
  · refine (recursiveStruct_exact.2.1 _ _ (.struct ⟨some "Node", [], false, false⟩) "Node" [⟨6⟩]
      false Document.ring.built_declared (by decide +kernel) rfl ?_).1.mp (by decide +kernel)
    intro field mem
    cases List.mem_singleton.mp mem
    exact ⟨.struct ⟨some "Node", [], false, false⟩, by decide +kernel, trivial⟩
  · exact (recursiveStruct_exact.2.2.1 _ .standard unique Document.fieldsSpelled_ring).1.mp
      ⟨"Edge", refused⟩
  · rw [recursiveStruct_exact.2.2.2 Document.ring _ .standard (List.reverse_perm _) unique
      Document.fieldsSpelled_ring, refused]
    simp

end IrStream
