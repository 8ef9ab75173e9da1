import IrStream.Proofs.Document.Structs
import IrStream.Proofs.Document.Pending
import IrStream.Proofs.Reordering.Declared

/-!
# Structs in any order

Structs are declared before any of them gets its body, so what the fields of a body are written as
means the same in every round of the loop.  `Document.Opened` is what is known between two rounds.
In the end each struct has the body of its entry (`Document.Embodies`).

A document whose structs can be loaded has fields that are spelled
(`Document.fieldsSpelled_of_loadStructs`), so its structs can be loaded in every other order as
well.  Structs with the same name then have fields with the same terms
(`Document.namedAlike_of_reorders`).

That loading the structs succeeds in every order follows from `Document/Structs.lean`, where it is
shown to depend on the graph of the document alone, under the hypothesis that the fields are
spelled.  Here the hypothesis is discharged: a document of which the structs *were* loaded has such
fields, because each of them was read and was found to be storable.

What the bodies are is a question that the other module does not ask.  A field is read in an arena
in which some structs have bodies already, and it is looked at in the arena at the end, in which all
do.  Its term is the same in both (`SameTerm.extend`), so it is the term that the document spells,
in whatever order the structs were loaded.

## Statements

* `Opened.defineStruct`, `Opened.forM_defineStruct`: **a round** gives one struct its body, and the
  loop gives all of them theirs.
* `fieldsSpelled_of_loadStructs`: **fields are spelled** if the structs of a document can be loaded.
* `exists_loadStructs_of_reorders`: **whether structs can be loaded** does not depend on their
  order.
* `namedAlike_of_reorders`: **structs with the same name have the same body**, in whatever order
  they are listed.
-/

set_option autoImplicit false

namespace IrStream

open Loader

namespace Types

variable {left right left' right' : Types} {id other : TypeId}

/-- Bodies of structs make no difference to terms. -/
theorem SameTerm.extend (same : SameTerm left right id other) (complete : left.Complete)
    (complete' : right.Complete) (kept : left.Extends left') (kept' : right.Extends right') :
    SameTerm left' right' id other := by
  refine ⟨kept.has same.has, kept'.has same.has', ?_, ?_⟩
  · rw [complete.term_of_extends kept same.has, complete'.term_of_extends kept' same.has',
      same.same]
  · rw [complete.term_of_extends kept same.has]
    exact same.readable

theorem name_eq_of_named? {types : Types} {name name' : String}
    (found : types.named? name = some id) (found' : types.named? name' = some id) :
    name = name' := by
  obtain ⟨shape, there, named⟩ := shape_of_named? found
  obtain ⟨shape', there', named'⟩ := shape_of_named? found'
  cases there.symm.trans there'
  exact Option.some.inj (named.symm.trans named')

/-- Structs with the same name have the same body. -/
def NamedAlike (left right : Types) : Prop :=
  ∀ ⦃name id other⦄, left.named? name = some id → right.named? name = some other →
    BothOk (TypeShape.Alike (SameTerm left right)) (left.shape id) (right.shape other)

/-- Interning adds no struct with a name. -/
theorem NamedAlike.mono (alike : NamedAlike left right) (twins : left.Twins right)
    (interns : left.Interns left') (interns' : right.Interns right') :
    NamedAlike left' right' := by
  intro name id other found there
  rw [interns.named?_eq] at found
  rw [interns'.named?_eq] at there
  obtain ⟨shape, shape', known, known', same⟩ := alike found there
  refine ⟨shape, shape', interns.shape_eq known, interns'.shape_eq known', ?_⟩
  exact same.imp_of_mem fun _ _ _ _ part => part.mono twins interns interns'

end Types

namespace Document

variable {document other : Document} {p q r s : Program}

/-- What is known between two rounds of the loop that gives structs their bodies. -/
structure Opened (document : Document) (p : Program) : Prop where
  /-- The program is one that is being loaded. -/
  draft : p.Draft
  /-- A struct without a name has its fields. -/
  known : p.types.LiteralsKnown
  /-- The structs of the document are declared, and no others. -/
  names : ∀ name, p.types.named? name = document.declared.named? name
  /-- No global and no function is there yet. -/
  none : p.names = []

theorem Opened.twins (opened : document.Opened p) : document.declared.Twins p.types where
  regular := document.built_declared.regular
  regular' := opened.draft.built.types.regular
  names name := by rw [opened.names]

theorem Opened.enlarge (opened : document.Opened p) (proceeds : p.Proceeds q)
    (enlarges : p.Enlarges q) : document.Opened q where
  draft := proceeds.draft
  known := opened.known.writes enlarges.types
  names name := (enlarges.types.interns.named?_eq name).trans (opened.names name)
  none := enlarges.names.trans opened.none

/-- The struct has no body yet. -/
def Awaits (types : Types) (id : TypeId) : Prop :=
  ∃ name, types.shape id = .ok (.struct ⟨some name, [], false, false⟩)

/-- The struct has the body of an entry. -/
def HasBody (document : Document) (types : Types) (id : TypeId) (body : StructEntry) : Prop :=
  ∃ name fields p q, document.Opened p ∧ Yields (typesOf body.fields) p fields q
    ∧ q.types.Extends types
    ∧ (∀ field ∈ fields, ∃ shape, q.types.shape field = .ok shape ∧ shape.Storable)
    ∧ types.shape id = .ok (.struct ⟨some name, fields, body.packed, true⟩)

/-- The struct has the body of its entry, or none if there is none. -/
def Embodies (document : Document) (types : Types) : TypeId × Option StructEntry → Prop
  | (id, none) => Awaits types id
  | (id, some body) => document.HasBody types id body

/-- Fields are read as types, which leaves everything else. -/
theorem Opened.typesOf (opened : document.Opened p) {nodes : List TypeNode} {fields : List TypeId}
    (run : Yields (typesOf nodes) p fields q) :
    document.Opened q ∧ p.Enlarges q ∧ ∀ field ∈ fields, q.types.Has field := by
  obtain ⟨proceeds, has⟩ := ensures_typesOf opened.draft nodes run
  obtain ⟨enlarges, -⟩ :=
    (along_typesOf opened.draft.built.types.regular.twins nodes).of_yields run run
  exact ⟨opened.enlarge proceeds enlarges, enlarges, has⟩

/-- **A round** gives one struct its body. -/
theorem Opened.defineStruct (opened : document.Opened p) {listed : TypeId × Option StructEntry}
    (run : Yields (defineStruct listed) p () q) :
    document.Opened q ∧ p.types.Extends q.types
      ∧ (∀ id shape, id ≠ listed.1 → p.types.shape id = .ok shape → q.types.shape id = .ok shape)
      ∧ (Awaits p.types listed.1 → document.Embodies q.types listed) := by
  obtain ⟨id, _ | body⟩ := listed
  · cases (yields_pure_iff.mp run).2
    exact ⟨opened, .refl _, fun _ _ _ found => found, fun awaits => awaits⟩
  · rw [Loader.defineStruct, yields_bind_iff] at run
    obtain ⟨fields, r, read, run⟩ := run
    obtain ⟨between, enlarges, has⟩ := opened.typesOf read
    simp only [yields_update_iff, bind_eq_ok_iff, pure_eq_ok_iff] at run
    obtain ⟨types, set, same⟩ := run
    cases same
    have kept := Types.extends_setStructBody set
    have step : Types.Step r.types types := .setStructBody has set
    have storable := Types.storable_of_setStructBody set
    have known := between.known.setStructBody set
    obtain ⟨shape, name, there, named, rfl⟩ := Types.setStructBody_eq_ok set
    have later : document.Opened { r with
        types := r.types.withBody id name fields body.packed } := {
      draft := (between.draft.proceeds_types step).draft
      known := known
      names := fun other => (Types.named?_set there (by exact named.symm) other).trans
        (between.names other)
      none := between.none }
    refine ⟨later, enlarges.types.interns.extends.trans kept, fun other entry apart found => ?_,
      fun _ => ⟨name, fields, p, r, opened, read, kept, storable, Types.shape_withBody_self there⟩⟩
    exact (Types.shape_withBody_of_ne apart).trans (enlarges.types.interns.shape_eq found)

theorem Embodies.keep {listed : TypeId × Option StructEntry} {types after : Types}
    (embodies : document.Embodies types listed) (kept : types.Extends after)
    (same : ∀ shape, types.shape listed.1 = .ok shape → after.shape listed.1 = .ok shape) :
    document.Embodies after listed := by
  obtain ⟨id, _ | body⟩ := listed
  · obtain ⟨name, found⟩ := embodies
    exact ⟨name, same _ found⟩
  · obtain ⟨name, fields, p, q, opened, read, extend, storable, found⟩ := embodies
    exact ⟨name, fields, p, q, opened, read, extend.trans kept, storable, same _ found⟩

/-- The whole loop. -/
theorem Opened.forM_defineStruct (opened : document.Opened p)
    {entries : List (TypeId × Option StructEntry)} (distinct : (entries.map (·.1)).Nodup)
    (awaits : ∀ listed ∈ entries, Awaits p.types listed.1) {done : PUnit}
    (run : Yields (entries.forM Loader.defineStruct) p done q) :
    document.Opened q ∧ ∀ listed ∈ entries, document.Embodies q.types listed := by
  have each := (yields_forM_each
    (fun listed r => document.Opened r ∧ Awaits r.types listed.1)
    (fun listed r => document.Opened r ∧ document.Embodies r.types listed) ?_ ?_ ?_
    (distinct : (entries.map Prod.fst).Nodup) (fun listed mem => ⟨opened, awaits listed mem⟩) run).1
  · cases entries with
    | nil =>
      cases yields_forM_nil_iff.mp run
      exact ⟨opened, by simp⟩
    | cons first rest =>
      exact ⟨(each first List.mem_cons_self).1, fun listed mem => (each listed mem).2⟩
  · intro listed r s ready run
    obtain ⟨opened, -, -, embodies⟩ := ready.1.defineStruct run
    exact ⟨opened, embodies ready.2⟩
  · rintro listed other r s ready run apart ⟨-, name, found⟩
    obtain ⟨opened, -, kept, -⟩ := ready.1.defineStruct run
    exact ⟨opened, name, kept _ _ apart found⟩
  · rintro listed other r s ready run apart ⟨-, embodies⟩
    obtain ⟨opened, more, kept, -⟩ := ready.1.defineStruct run
    exact ⟨opened, embodies.keep more fun shape => kept _ shape apart⟩

/-! ## Declared structs

Before the loop every struct waits for its body. -/

/-- Structs with a name have no bodies. -/
def Untouched (types : Types) : Prop :=
  ∀ ⦃id shape name⦄, types.shape id = .ok shape → shape.structName? = some name →
    shape = .struct ⟨some name, [], false, false⟩

/-- Declaring structs gives none of them a body. -/
theorem Untouched.declareStructs {types : Types} (untouched : Untouched types)
    (structs : List (String × Option StructEntry)) : Untouched (types.declareStructs structs) := by
  induction structs generalizing types with
  | nil => exact untouched
  | cons entry rest ih =>
    refine ih fun id shape name found named => ?_
    change (types.intern _).2.shape id = _ at found
    rcases Types.shape_of_shape_intern found with old | ⟨-, -, -, rfl⟩
    · exact untouched old named
    · cases named
      rfl

theorem known_declareStructs {types : Types} (known : types.LiteralsKnown)
    (structs : List (String × Option StructEntry)) :
    (types.declareStructs structs).LiteralsKnown := by
  induction structs generalizing types with
  | nil => exact known
  | cons entry rest ih => exact ih (known.intern fun unnamed => nomatch unnamed)

/-- **Each struct has the body of its entry** in the end. -/
theorem embodies_of_loadStructs (unique : (document.structs.map (·.1)).Nodup) {layout : DataLayout}
    (run : Yields document.loadStructs (.empty layout) () q) :
    document.Opened q ∧ ∀ {name body?}, (name, body?) ∈ document.structs →
      ∃ id, q.types.named? name = some id ∧ document.Embodies q.types (id, body?) := by
  obtain ⟨entries, declares, known⟩ := @exists_declareStruct document.structs (.empty layout)
  rw [loadStructs, yields_bind_iff] at run
  obtain ⟨listed, p, declared, run⟩ := run
  cases declares.symm.trans declared
  have proceeds := (Ensures.mapM (.empty layout)
    (fun before entry _ => ensures_declareStruct before.draft entry) (fun _ _ => trivial)
    declared).1
  have start : document.Opened
      { Program.empty layout with types := Types.initial.declareStructs document.structs } := {
    draft := proceeds.draft
    known := known_declareStructs Types.initial_literalsKnown _
    names := fun _ => rfl
    none := rfl }
  have untouched : Untouched document.declared := Untouched.declareStructs
    (fun id shape name found named => by cases (Types.unnamed_of_initial found).symm.trans named) _
  have awaits : ∀ listed ∈ entries, Awaits document.declared listed.1 := by
    intro listed mem
    obtain ⟨⟨name, _⟩, -, -, found⟩ := exists_mem_of_forall₂ known.flip mem
    obtain ⟨shape, found, named⟩ := Types.shape_of_named? found
    exact ⟨name, found.trans (congrArg Except.ok (untouched found named))⟩
  -- distinct names have distinct handles, so no struct gets a second body
  have distinct : (entries.map (·.1)).Nodup := by
    have named : List.Forall₂ (fun name id => document.declared.named? name = some id)
        (document.structs.map (·.1)) (entries.map (·.1)) :=
      List.forall₂_map_left_iff.mpr (List.forall₂_map_right_iff.mpr (known.imp fun _ _ h => h.2))
    have oneToOne : Relator.BiUnique fun name id => document.declared.named? name = some id :=
      ⟨fun _ _ _ first second => Types.name_eq_of_named? first second,
        fun _ _ _ first second => Option.some.inj (first.symm.trans second)⟩
    exact (List.rel_nodup oneToOne named).mp unique
  obtain ⟨opened, embodies⟩ := start.forM_defineStruct distinct awaits run
  refine ⟨opened, fun {name body?} mem => ?_⟩
  obtain ⟨⟨id, _⟩, listed, rfl, found⟩ := exists_mem_of_forall₂ known mem
  exact ⟨id, (opened.names name).trans found, embodies _ listed⟩

/-! ## Fields that are spelled -/

/-- A field that was read and can be stored is spelled. -/
theorem Opened.spells (opened : document.Opened p) {node : TypeNode} {field : TypeId}
    (read : Yields (typeOf node) p field q) {shape : TypeShape}
    (found : q.types.shape field = .ok shape) (storable : shape.Storable) :
    ∃ term, document.Spells node term ∧ term.Storable := by
  have enlarges := enlarges_typeOf opened.draft.built.types.regular read
  have regular := opened.draft.built.types.regular.interns enlarges.types.interns
  cases node with
  | func ret params vararg =>
    rw [typeOf] at read
    simp only [yields_bind_iff, yields_withTypes_iff] at read
    obtain ⟨ret, r, -, params, s, -, rfl, rfl⟩ := read
    have made : (s.types.func params ret vararg).2.shape (s.types.func params ret vararg).1
        = .ok (.func params ret vararg) := Types.shape_intern rfl
    cases made.symm.trans found
    exact storable.elim
  | text text =>
    simp only [typeOf, typeOfText, yields_bind_iff, yields_get_iff, yields_set_iff,
      yields_except_iff] at read
    obtain ⟨_, _, ⟨rfl, rfl⟩, _, _, rfl, read, rfl⟩ := read
    rcases opened.twins.readText text.toList with ⟨id, _, there, read', same⟩ | ⟨-, failed⟩
    · cases read.symm.trans read'
      refine ⟨_, ⟨text, id, rfl, there, same.has, rfl⟩, ?_⟩
      rw [← same.same, regular.layered.term_of_shape found]
      exact TypeShape.storable_termWith_iff.mpr storable
    · cases read.symm.trans failed

/-- While structs are still open, the fields of a body that is accepted spell terms that can be
stored. -/
theorem Opened.all_spell (opened : document.Opened p) {nodes : List TypeNode}
    {fields : List TypeId} (read : Yields (Loader.typesOf nodes) p fields q)
    (storable : ∀ field ∈ fields, ∃ shape, q.types.shape field = .ok shape ∧ shape.Storable) :
    ∀ node ∈ nodes, ∃ term, document.Spells node term ∧ term.Storable := by
  induction nodes generalizing p fields with
  | nil => simp
  | cons node rest ih =>
    rw [Loader.typesOf] at read
    simp only [yields_bind_iff, yields_pure_iff] at read
    obtain ⟨field, r, first, others, _, second, rfl, rfl⟩ := read
    obtain ⟨proceeds, has⟩ := ensures_typeOf opened.draft node first
    have between := opened.enlarge proceeds
      (enlarges_typeOf opened.draft.built.types.regular first)
    obtain ⟨-, more, -⟩ := between.typesOf second
    rw [List.forall_mem_cons] at storable ⊢
    obtain ⟨⟨shape, found, stored⟩, storable⟩ := storable
    obtain ⟨known, there⟩ := has.exists_shape
    cases found.symm.trans (more.types.interns.shape_eq there)
    exact ⟨opened.spells first there stored, ih between second storable⟩

/-- **Fields are spelled** if the structs of a document can be loaded. -/
theorem fieldsSpelled_of_loadStructs (unique : (document.structs.map (·.1)).Nodup)
    {layout : DataLayout} (run : Yields document.loadStructs (.empty layout) () q) :
    document.FieldsSpelled := by
  refine fieldsSpelled_iff.mpr fun name body listed => ?_
  obtain ⟨id, -, embodies⟩ := (embodies_of_loadStructs unique run).2 listed
  obtain ⟨_, fields, p, q, opened, read, -, storable, -⟩ := embodies
  exact opened.all_spell read storable

/-! ## Another order -/

/-- **Whether structs can be loaded** does not depend on their order. -/
theorem exists_loadStructs_of_reorders (unique : (document.structs.map (·.1)).Nodup)
    (reorders : document.Reorders other) {layout : DataLayout}
    (run : Yields document.loadStructs (.empty layout) () q) :
    ∃ q, Yields other.loadStructs (.empty layout) () q :=
  (loadStructs_iff_of_perm reorders.structs unique (fieldsSpelled_of_loadStructs unique run)
    layout).mpr ⟨q, run⟩

/-- Documents with the same structs have arenas with the same names. -/
theorem Opened.twins_of_reorders (opened : document.Opened p) (opened' : other.Opened q)
    (reorders : document.Reorders other) : p.types.Twins q.types where
  regular := opened.draft.built.types.regular
  regular' := opened'.draft.built.types.regular
  names name := by rw [opened.names, opened'.names, (twins_declared reorders.structs).names]

/-- Fields that are written the same have the same terms. -/
theorem HasBody.alike (reorders : document.Reorders other) {types types' : Types} {id id' : TypeId}
    {body : StructEntry} (hasBody : document.HasBody types id body)
    (hasBody' : other.HasBody types' id' body) {shape shape' : TypeShape}
    (found : types.shape id = .ok shape) (there : types'.shape id' = .ok shape')
    (names : shape'.structName? = shape.structName?) :
    shape.Alike (Types.SameTerm types types') shape' := by
  obtain ⟨name, fields, p, q, opened, read, kept, -, known⟩ := hasBody
  obtain ⟨name', fields', p', q', opened', read', kept', -, known'⟩ := hasBody'
  cases found.symm.trans known
  cases there.symm.trans known'
  cases names
  have twins := opened.twins_of_reorders opened' reorders
  obtain ⟨enlarges, enlarges', terms⟩ := (along_typesOf twins body.fields).of_yields read read'
  have twins := twins.mono enlarges.types.interns enlarges'.types.interns
  refine .struct (some name) body.packed true (terms.imp fun _ _ same => ?_)
  exact same.extend twins.regular.complete twins.regular'.complete kept kept'

/-- **Structs with the same name have the same body**, in whatever order they are listed. -/
theorem namedAlike_of_reorders (unique : (document.structs.map (·.1)).Nodup)
    (reorders : document.Reorders other) {layout : DataLayout}
    (run : Yields document.loadStructs (.empty layout) () p)
    (run' : Yields other.loadStructs (.empty layout) () q) : Types.NamedAlike p.types q.types := by
  have unique' := (reorders.structs.map (·.1)).nodup_iff.mpr unique
  obtain ⟨opened, embodies⟩ := embodies_of_loadStructs unique run
  obtain ⟨opened', embodies'⟩ := embodies_of_loadStructs unique' run'
  intro name id id' handle handle'
  have listed : name ∈ document.structs.map (·.1) := by
    have declared : (document.declared.named? name).isSome = true := by
      rw [← opened.names, handle]
      rfl
    refine (Types.isSome_named?_declareStructs.mp declared).resolve_left fun initial => ?_
    obtain ⟨_, basic⟩ := Option.isSome_iff_exists.mp initial
    obtain ⟨_, stored, taken⟩ := Types.shape_of_named? basic
    cases (Types.unnamed_of_initial stored).symm.trans taken
  obtain ⟨⟨_, body?⟩, mem, rfl⟩ := List.mem_map.mp listed
  obtain ⟨_, again, embodied⟩ := embodies mem
  cases handle.symm.trans again
  obtain ⟨_, again, embodied'⟩ := embodies' (reorders.structs.mem_iff.mpr mem)
  cases handle'.symm.trans again
  obtain ⟨shape, found, named⟩ := Types.shape_of_named? handle
  obtain ⟨shape', there, named'⟩ := Types.shape_of_named? handle'
  have names := named'.trans named.symm
  refine ⟨shape, shape', found, there, ?_⟩
  cases body? with
  | none =>
    obtain ⟨_, known⟩ := embodied
    obtain ⟨_, known'⟩ := embodied'
    cases found.symm.trans known
    cases there.symm.trans known'
    cases names
    exact .struct _ false false .nil
  | some body => exact embodied.alike reorders embodied' found there names

end Document

end IrStream
