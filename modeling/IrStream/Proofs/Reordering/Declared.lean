import IrStream.Proofs.Document.Pending
import IrStream.Proofs.Reordering.Declarations

/-!
# The same declarations in two programs

When everything is declared, each entry of the document has its global or function, and there are no
others (`Loader.Declarations`).  Two documents that list the same entries in different orders are
both declared, or neither of them is (`Loader.exists_declares_of_reorders`).  In the one program and
in the other, what has the same name comes from the same entry, so it is declared alike
(`Loader.Declarations.declared`).

An entry is found by its name.  Names are taken once in each program, so from a global of the first
program there is a way to its entry, from the entry to the other list, which has the same entries,
and from there to a global of the second program.  `sameGlobal_iff` and `sameFunction_iff` go this
way in both directions.

What an entry declares is a type and, for functions, names of arguments.  The type was read from the
same text in two arenas with the same names of structs, so its term is the same
(`alike_of_sameGlobal`, `alike_of_sameFunction`), and two function types with the same term have as
many parameters, with the same terms (`params_of_sameTerm`).

## Statements

* `exists_declares_iff`: a document can be declared if its types can be read and no name is there
  twice.  Neither condition mentions an order.
* `exists_declares_of_reorders`: so **whether a document can be declared** does not depend on its
  order.
* `Declares.declarations`: what there is when everything is declared.
* `Declarations.declared`: **the same entries are declared alike.**
-/

set_option autoImplicit false

namespace IrStream

/-- The second document lists the same entries in another order. -/
structure Document.Reorders (document other : Document) : Prop where
  /-- The target is the same. -/
  layout : other.layout = document.layout
  /-- The same structs, in any order. -/
  structs : other.structs.Perm document.structs
  /-- The same globals, in any order. -/
  globals : other.globals.Perm document.globals
  /-- The same functions, in any order. -/
  functions : other.functions.Perm document.functions

theorem Document.Reorders.symm {document other : Document} (reorders : document.Reorders other) :
    other.Reorders document :=
  ⟨reorders.layout.symm, reorders.structs.symm, reorders.globals.symm, reorders.functions.symm⟩

namespace Loader

open Program

variable {base base' p q r : Program} {document other : Document}
  {globals globals' : List (GlobalId × GlobalEntry)}
  {functions functions' : List (FuncId × FunctionEntry)}

/-- Everything that a document declares is declared. -/
def Declares (document : Document) (base : Program) (globals : List (GlobalId × GlobalEntry))
    (functions : List (FuncId × FunctionEntry)) (p : Program) : Prop :=
  ∃ r, Yields (document.globals.mapM declareGlobal) base globals r
    ∧ Yields (document.functions.mapM declareFunction) r functions p

/-! ## Whether there are declarations

The condition is one on the lists: which types can be read, and that no name is there twice. -/

/-- Declaring fails only for types that cannot be read and for names that are there twice. -/
theorem exists_declares_iff (regular : base.types.Regular) (none : base.names = []) :
    (∃ globals functions p, Declares document base globals functions p)
      ↔ (∀ entry ∈ document.globals, ∃ type s, Yields (typeOf entry.type) base type s)
        ∧ (∀ entry ∈ document.functions, ∃ type s, Yields (signature entry) base type s)
        ∧ (document.functions.map (·.name) ++ document.globals.map (·.name)).Nodup := by
  have ofGlobals := declaring_declareGlobal regular
  have ofFunctions := declaring_declareFunction regular
  have distinct : base.names.Nodup := none ▸ List.nodup_nil
  have start := ofGlobals.exists_mapM_iff document.globals (.refl base) distinct
  rw [none, List.append_nil] at start
  constructor
  · rintro ⟨globals, functions, p, r, added, opened⟩
    obtain ⟨adds, names, -⟩ := ofGlobals.mapM (.refl base) added
    rw [none, List.append_nil] at names
    obtain ⟨readable, apart⟩ := start.mp ⟨globals, r, added⟩
    obtain ⟨readable', all⟩ := (ofFunctions.exists_mapM_iff document.functions adds
      (names.nodup_iff.mpr apart)).mp ⟨functions, p, opened⟩
    exact ⟨readable, readable', (names.append_left _).nodup_iff.mp all⟩
  · rintro ⟨readable, readable', all⟩
    obtain ⟨globals, r, added⟩ := start.mpr ⟨readable, (List.nodup_append.mp all).2.1⟩
    obtain ⟨adds, names, -⟩ := ofGlobals.mapM (.refl base) added
    rw [none, List.append_nil] at names
    have apart := names.nodup_iff.mpr (List.nodup_append.mp all).2.1
    obtain ⟨functions, p, opened⟩ := (ofFunctions.exists_mapM_iff document.functions adds apart).mpr
      ⟨readable', (names.append_left _).nodup_iff.mpr all⟩
    exact ⟨globals, functions, p, r, added, opened⟩

/-- **Whether a document can be declared** does not depend on its order. -/
theorem exists_declares_of_reorders (twins : base.types.Twins base'.types) (none : base.names = [])
    (none' : base'.names = []) (reorders : document.Reorders other)
    (declares : ∃ globals functions p, Declares document base globals functions p) :
    ∃ globals functions p, Declares other base' globals functions p := by
  obtain ⟨readable, readable', distinct⟩ := (exists_declares_iff twins.regular none).mp declares
  refine (exists_declares_iff twins.regular' none').mpr
    ⟨fun entry mem => ?_, fun entry mem => ?_, ?_⟩
  · exact (along_typeOf twins entry.type).exists_iff.mpr
      (readable entry (reorders.globals.mem_iff.mp mem))
  · exact (along_signature twins entry).exists_iff.mpr
      (readable' entry (reorders.functions.mem_iff.mp mem))
  · exact ((reorders.functions.map _).append (reorders.globals.map _)).nodup_iff.mpr distinct

/-! ## What is declared -/

theorem not_has_of_names (none : p.names = []) (known : Named) : ¬ p.Has known := by
  obtain ⟨globals, functions⟩ := List.append_eq_nil_iff.mp none
  rw [List.map_eq_nil_iff, Array.toList_eq_nil_iff] at globals functions
  cases known with
  | global id => simp [Has, global_eq_ok_iff, globals]
  | function id => simp [Has, function_eq_ok_iff, functions]

/-- Each entry has its global or function, and there are no others. -/
structure Declarations (base p : Program) (globals : List (GlobalId × GlobalEntry))
    (functions : List (FuncId × FunctionEntry)) : Prop where
  /-- The program is one that is being loaded. -/
  draft : p.Draft
  /-- What the program began with is still there. -/
  adds : base.Adds p
  /-- Each entry of a global has declared what is at its handle. -/
  global : ∀ listed ∈ globals, DeclaresGlobal base p listed.1 listed.2
  /-- Each entry of a function has declared what is at its handle. -/
  function : ∀ listed ∈ functions, DeclaresFunction base p listed.1 listed.2
  /-- Every global has been declared by an entry. -/
  allGlobals : ∀ {id global}, p.global id = .ok global → id ∈ globals.map (·.1)
  /-- Every function has been declared by an entry. -/
  allFunctions : ∀ {id function}, p.function id = .ok function → id ∈ functions.map (·.1)
  /-- The names that are taken are those of the entries. -/
  names : p.names.Perm (functions.map (·.2.name) ++ globals.map (·.2.name))

/-- Declaring one entry after the other gives each of them its global or its function, and adds no
others. -/
theorem Declares.declarations (draft : base.Draft) (none : base.names = [])
    (declares : Declares document base globals functions p) :
    Declarations base p globals functions ∧ globals.map (·.2) = document.globals
      ∧ functions.map (·.2) = document.functions := by
  obtain ⟨r, added, opened⟩ := declares
  have regular := draft.built.types.regular
  obtain ⟨adds, names, entries, declared, found⟩ :=
    (declaring_declareGlobal regular).mapM (.refl base) added
  obtain ⟨more, names', entries', declared', found'⟩ :=
    (declaring_declareFunction regular).mapM adds opened
  have first := Ensures.mapM draft
    (fun before entry _ => ensures_declareGlobal before.draft entry) (fun _ _ => trivial) added
  have second := Ensures.mapM first.1.draft
    (fun before entry _ => ensures_declareFunction before.draft entry) (fun _ _ => trivial) opened
  rw [none, List.append_nil] at names
  have all (known : Named) (there : p.Has known) :
      known ∈ globals.map (.global ·.1) ∨ known ∈ functions.map (.function ·.1) := by
    rcases found' known there with old | listed
    · exact .inl ((found known old).resolve_left (not_has_of_names none known))
    · exact .inr listed
  refine ⟨⟨second.1.draft, adds.trans more, fun listed mem => ?_, declared', fun there => ?_,
    fun there => ?_, ?_⟩, entries, entries'⟩
  · exact (declared listed mem).adds more
  · obtain listed | listed := all (.global _) ⟨_, there⟩
    · obtain ⟨listed, mem, same⟩ := List.mem_map.mp listed
      exact List.mem_map.mpr ⟨listed, mem, Named.global.inj same⟩
    · obtain ⟨_, -, same⟩ := List.mem_map.mp listed
      cases same
  · obtain listed | listed := all (.function _) ⟨_, there⟩
    · obtain ⟨_, -, same⟩ := List.mem_map.mp listed
      cases same
    · obtain ⟨listed, mem, same⟩ := List.mem_map.mp listed
      exact List.mem_map.mpr ⟨listed, mem, Named.function.inj same⟩
  · have names := names'.trans (names.append_left _)
    rwa [← entries, ← entries', List.map_map, List.map_map] at names

/-- Function types with the same term have the same parameters. -/
theorem params_of_sameTerm (twins : p.Twins q) {type type' : TypeId}
    (same : Types.SameTerm p.types q.types type type') {params params' : List TypeId}
    {ret ret' : TypeId} {vararg vararg' : Bool}
    (shape : p.types.shape type = .ok (.func params ret vararg))
    (shape' : q.types.shape type' = .ok (.func params' ret' vararg')) :
    List.Forall₂ (Types.SameTerm p.types q.types) params params' := by
  rcases (twins.shapes same).of_ok shape shape' with alike | ⟨_, _, never, -⟩
  · cases alike with
    | func _ parameters _ => exact parameters
  · cases never

/-! ## The same entry -/

/-- In lists with the same entries, each name is that of one entry. -/
theorem entry_eq_of_name {α ι κ : Type} (name : α → String) {list : List (ι × α)}
    {others : List (κ × α)} (perm : (others.map (·.2)).Perm (list.map (·.2)))
    (distinct : (list.map (name ·.2)).Nodup) {a : ι × α} {b : κ × α} (mem : a ∈ list)
    (mem' : b ∈ others) (same : name b.2 = name a.2) : b.2 = a.2 := by
  obtain ⟨c, listed, entry⟩ := List.mem_map.mp (perm.mem_iff.mp (List.mem_map_of_mem mem'))
  rw [← entry] at same ⊢
  rw [List.inj_on_of_nodup_map distinct listed mem same]

namespace Declarations

variable (listed : Declarations base p globals functions)
include listed

theorem nodup_functions : (functions.map (·.2.name)).Nodup :=
  (List.nodup_append.mp (listed.names.nodup_iff.mp listed.draft.built.distinct)).1

theorem nodup_globals : (globals.map (·.2.name)).Nodup :=
  (List.nodup_append.mp (listed.names.nodup_iff.mp listed.draft.built.distinct)).2.1

/-- A global is found by its name exactly if it is declared. -/
theorem isSome_findGlobal? {name : String} :
    (p.findGlobal? name).isSome = true ↔ name ∈ globals.map (·.2.name) := by
  rw [Option.isSome_iff_exists, List.mem_map]
  simp only [listed.draft.built.arranged.findGlobal]
  constructor
  · rintro ⟨id, global, found, rfl⟩
    obtain ⟨entry, mem, rfl⟩ := List.mem_map.mp (listed.allGlobals found)
    obtain ⟨_, _, _, -, -, -, again⟩ := listed.global _ mem
    cases found.symm.trans again
    exact ⟨entry, mem, rfl⟩
  · rintro ⟨entry, mem, rfl⟩
    obtain ⟨_, _, _, -, -, -, found⟩ := listed.global _ mem
    exact ⟨_, _, found, rfl⟩

/-- A function is found by its name exactly if it is declared. -/
theorem isSome_findFunction? {name : String} :
    (p.findFunction? name).isSome = true ↔ name ∈ functions.map (·.2.name) := by
  rw [Option.isSome_iff_exists, List.mem_map]
  simp only [listed.draft.built.arranged.findFunction]
  constructor
  · rintro ⟨id, function, found, rfl⟩
    obtain ⟨entry, mem, rfl⟩ := List.mem_map.mp (listed.allFunctions found)
    obtain ⟨_, _, _, _, -, -, -, again, -⟩ := listed.function _ mem
    cases found.symm.trans again
    exact ⟨entry, mem, rfl⟩
  · rintro ⟨entry, mem, rfl⟩
    obtain ⟨_, _, _, _, -, -, -, found, -⟩ := listed.function _ mem
    exact ⟨_, _, found, rfl⟩

variable (listed' : Declarations base' q globals' functions')
include listed'

/-- Globals have the same name if they come from the same entry. -/
theorem sameGlobal_iff (perm : (globals'.map (·.2)).Perm (globals.map (·.2)))
    {id other : GlobalId} :
    p.SameGlobal q id other ↔ ∃ entry, (id, entry) ∈ globals ∧ (other, entry) ∈ globals' := by
  constructor
  · rintro ⟨global, global', found, there, same⟩
    obtain ⟨⟨_, entry⟩, mem, rfl⟩ := List.mem_map.mp (listed.allGlobals found)
    obtain ⟨⟨_, entry'⟩, mem', rfl⟩ := List.mem_map.mp (listed'.allGlobals there)
    obtain ⟨_, _, _, -, -, -, found'⟩ := listed.global _ mem
    obtain ⟨_, _, _, -, -, -, there'⟩ := listed'.global _ mem'
    cases found.symm.trans found'
    cases there.symm.trans there'
    cases entry_eq_of_name GlobalEntry.name perm listed.nodup_globals mem mem' same
    exact ⟨_, mem, mem'⟩
  · rintro ⟨entry, mem, mem'⟩
    obtain ⟨_, _, _, -, -, -, found⟩ := listed.global _ mem
    obtain ⟨_, _, _, -, -, -, there⟩ := listed'.global _ mem'
    exact ⟨_, _, found, there, rfl⟩

/-- Functions have the same name if they come from the same entry. -/
theorem sameFunction_iff (perm : (functions'.map (·.2)).Perm (functions.map (·.2)))
    {id other : FuncId} :
    p.SameFunction q id other
      ↔ ∃ entry, (id, entry) ∈ functions ∧ (other, entry) ∈ functions' := by
  constructor
  · rintro ⟨function, function', found, there, same⟩
    obtain ⟨⟨_, entry⟩, mem, rfl⟩ := List.mem_map.mp (listed.allFunctions found)
    obtain ⟨⟨_, entry'⟩, mem', rfl⟩ := List.mem_map.mp (listed'.allFunctions there)
    obtain ⟨_, _, _, _, -, -, -, found', -⟩ := listed.function _ mem
    obtain ⟨_, _, _, _, -, -, -, there', -⟩ := listed'.function _ mem'
    cases found.symm.trans found'
    cases there.symm.trans there'
    cases entry_eq_of_name FunctionEntry.name perm listed.nodup_functions mem mem' same
    exact ⟨_, mem, mem'⟩
  · rintro ⟨entry, mem, mem'⟩
    obtain ⟨_, _, _, _, -, -, -, found, -⟩ := listed.function _ mem
    obtain ⟨_, _, _, _, -, -, -, there, -⟩ := listed'.function _ mem'
    exact ⟨_, _, found, there, rfl⟩

variable (twins : base.types.Twins base'.types)
include twins

/-- Globals of the same entry have the same type. -/
theorem alike_of_sameGlobal (entries : (globals'.map (·.2)).Perm (globals.map (·.2)))
    {id other : GlobalId} (same : p.SameGlobal q id other) :
    BothOk (fun global global' => Types.SameTerm p.types q.types global.type global'.type
      ∧ global'.threadLocal = global.threadLocal) (p.global id) (q.global other) := by
  obtain ⟨entry, mem, mem'⟩ := (listed.sameGlobal_iff listed' entries).mp same
  obtain ⟨type, r, s, before, resolved, behind, found⟩ := listed.global _ mem
  obtain ⟨type', r', s', before', resolved', behind', there⟩ := listed'.global _ mem'
  have twins := twins.mono before.types.interns before'.types.interns
  obtain ⟨more, more', typed⟩ := (along_typeOf twins entry.type).of_yields resolved resolved'
  have twins := twins.mono more.types.interns more'.types.interns
  exact ⟨_, _, found, there, typed.mono twins behind.types.interns behind'.types.interns, rfl⟩

/-- Functions of the same entry have the same type, and their arguments the names of the same
parameters. -/
theorem alike_of_sameFunction (entries : (functions'.map (·.2)).Perm (functions.map (·.2)))
    {id other : FuncId} (same : p.SameFunction q id other) :
    BothOk (fun function function' => Types.SameTerm p.types q.types function.type function'.type
      ∧ ∃ params : List ParamEntry, NamesArgs p function.args params
        ∧ NamesArgs q function'.args params) (p.function id) (q.function other) := by
  obtain ⟨entry, mem, mem'⟩ := (listed.sameFunction_iff listed' entries).mp same
  obtain ⟨type, args, r, s, before, resolved, behind, found, names⟩ := listed.function _ mem
  obtain ⟨type', args', r', s', before', resolved', behind', there, names'⟩ :=
    listed'.function _ mem'
  have twins := twins.mono before.types.interns before'.types.interns
  obtain ⟨more, more', typed⟩ := (along_signature twins entry).of_yields resolved resolved'
  have twins := twins.mono more.types.interns more'.types.interns
  exact ⟨_, _, found, there, typed.mono twins behind.types.interns behind'.types.interns,
    entry.params, names, names'⟩

variable (known : base.types.LiteralsKnown) (known' : base'.types.LiteralsKnown)
  (entries : (globals'.map (·.2)).Perm (globals.map (·.2)))
  (entries' : (functions'.map (·.2)).Perm (functions.map (·.2)))
include known known' entries entries'

/-- Programs with the same declarations have the same names. -/
theorem twins_declared : p.Twins q where
  types := twins.mono listed.adds.types.interns listed'.adds.types.interns
  known := known.writes listed.adds.types
  known' := known'.writes listed'.adds.types
  globals name := by
    have perm := entries.map GlobalEntry.name
    rw [List.map_map, List.map_map] at perm
    rw [Bool.eq_iff_iff, listed.isSome_findGlobal?, listed'.isSome_findGlobal?]
    exact perm.mem_iff
  functions name := by
    have perm := entries'.map FunctionEntry.name
    rw [List.map_map, List.map_map] at perm
    rw [Bool.eq_iff_iff, listed.isSome_findFunction?, listed'.isSome_findFunction?]
    exact perm.mem_iff

/-- **The same entries are declared alike.** -/
theorem declared : p.Declared q := by
  have all := listed.twins_declared listed' twins known known' entries entries'
  have functions {id other : FuncId} (same : p.SameFunction q id other) :=
    listed.alike_of_sameFunction listed' twins entries' same
  refine ⟨all, listed.alike_of_sameGlobal listed' twins entries, fun same => ?_, ?_⟩
  · obtain ⟨function, function', found, there, typed, -⟩ := functions same
    obtain ⟨params, ret, vararg, shape, length, stands⟩ := listed.draft.built.parametrized found
    obtain ⟨params', ret', vararg', shape', length', stands'⟩ :=
      listed'.draft.built.parametrized there
    have parameters := params_of_sameTerm all typed shape shape'
    refine ⟨function, function', found, there, typed, List.forall₂_iff_get.mpr
      ⟨by rw [length, length', parameters.length_eq], fun number bound bound' => ?_⟩⟩
    obtain ⟨arg, known, rfl, place, -⟩ := stands number _ (List.getElem?_eq_getElem bound)
    obtain ⟨arg', known', rfl, place', -⟩ := stands' number _ (List.getElem?_eq_getElem bound')
    exact ⟨arg, arg', known, known', same, place'.trans place.symm⟩
  -- arguments correspond if their functions do and they have the same place
  · rintro id other ⟨arg, arg', found, there, same, number⟩
    obtain ⟨function, function', owner, owner', typed, params, names, names'⟩ := functions same
    obtain ⟨_, types, _, _, again, shape, type, place⟩ := listed.draft.built.consistent.1.arg found
    cases owner.symm.trans again
    obtain ⟨_, types', _, _, again, shape', type', place'⟩ :=
      listed'.draft.built.consistent.1.arg there
    cases owner'.symm.trans again
    obtain ⟨_, again, name⟩ := names _ _ place
    cases found.symm.trans again
    obtain ⟨_, again, name'⟩ := names' _ _ place'
    cases there.symm.trans again
    rw [number] at type' name'
    refine ⟨arg, arg', found, there, ?_, name'.trans name.symm⟩
    have related := optionRel_getElem? (params_of_sameTerm all typed shape shape') arg.number
    rw [type, type'] at related
    cases related with
    | some typed => exact typed

end Declarations

end Loader

end IrStream
