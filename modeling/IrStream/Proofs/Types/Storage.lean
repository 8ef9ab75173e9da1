import IrStream.Proofs.Types.Legible
import IrStream.Proofs.Types.Room

/-!
# What is stored in a struct

Giving a struct a body checks the fields one after the other: a field must be neither void nor a
function, and must not contain the struct.  The first field that does not pass decides how the body
is refused (`Types.Refuses`).

The first half of that looks at the field itself and no further, the second half at everything in
its storage.  So a void or a function can get into a struct inside an array or an unnamed struct.
Nothing else lets one in (`Types.FieldsStorable` is the invariant), and a struct that has one has no
layout.

The statement has to say three things to be exact: which bodies are accepted, how the others are
refused, and what an accepted body may have in it all the same.

* *Accepted* is a condition on each field (`Admits`), and the order of fields plays no part in it.
* *Refused* is a condition on the first field that is not admitted.  Which error it is depends on
  that field alone (`Refuses.unique`), so a body is refused in one way.
* What slips through is found by following the storage of the struct down to the void or the
  function.  The last step of the way does not start from a named struct, since its fields were
  checked; so it starts from an array or from a struct without a name
  (`FieldsStorable.exists_holder`).  And a type without a size in the storage of a struct means that
  the struct has none either (`Complete.no_layout_of_contains`).
-/

set_option autoImplicit false

namespace IrStream

open Relation (ReflTransGen)

/-! ## Loops that may fail

A body is checked in a loop that does nothing but fail. -/

section

variable {ε α : Type} {step : α → Except ε Unit} {list : List α} {fault : ε}

/-- A loop succeeds if all of its rounds do. -/
theorem forM_eq_ok_iff : list.forM step = .ok () ↔ ∀ a ∈ list, step a = .ok () := by
  induction list with
  | nil => exact iff_of_true rfl (by simp)
  | cons a rest ih =>
    rw [List.forM_eq_forM, List.forM_cons, bind_eq_ok_iff, List.forall_mem_cons, ← ih]
    exact ⟨fun ⟨_, first, others⟩ => ⟨first, others⟩, fun ⟨first, others⟩ => ⟨_, first, others⟩⟩

/-- A loop fails in the first round that does. -/
theorem forM_eq_error_iff : list.forM step = .error fault ↔
    ∃ before a after, list = before ++ a :: after ∧ (∀ b ∈ before, step b = .ok ())
      ∧ step a = .error fault := by
  induction list with
  | nil => exact iff_of_false nofun (by simp)
  | cons a rest ih =>
    rw [List.forM_eq_forM, List.forM_cons, bind_eq_error_iff]
    constructor
    · rintro (first | ⟨_, passed, others⟩)
      · exact ⟨[], a, rest, rfl, by simp, first⟩
      · obtain ⟨before, b, after, rfl, earlier, fails⟩ := ih.mp others
        exact ⟨a :: before, b, after, rfl, List.forall_mem_cons.mpr ⟨passed, earlier⟩, fails⟩
    · rintro ⟨before, b, after, split, earlier, fails⟩
      cases before with
      | nil =>
        obtain ⟨rfl, rfl⟩ := List.cons.inj split
        exact .inl fails
      | cons c before =>
        obtain ⟨rfl, rfl⟩ := List.cons.inj split
        obtain ⟨passed, earlier⟩ := List.forall_mem_cons.mp earlier
        exact .inr ⟨(), passed, ih.mpr ⟨before, b, after, rfl, earlier, fails⟩⟩

end

/-! ## Fields

The check of a field in two halves, and the two ways to fail it.  What is wrong with the field
itself is seen from its shape; containing the struct is a property of everything below the field. -/

/-- What is wrong with a field of that shape in a struct called `name`, wherever the struct is. -/
def TypeShape.fieldFault? (name : String) : TypeShape → Option ProgramError
  | void => some (.voidField name)
  | func params ret vararg => some (.functionField name params ret vararg)
  | _ => none

/-- Nothing is wrong with a field that can be stored. -/
theorem TypeShape.fieldFault?_eq_none_iff {name : String} {shape : TypeShape} :
    shape.fieldFault? name = none ↔ shape.Storable := by
  cases shape <;> simp [fieldFault?, Storable]

namespace Types

variable {types after : Types} {id field : TypeId} {shape : TypeShape} {name : String}

/-- The type is neither void nor a function. -/
def IsStorable (types : Types) (id : TypeId) : Prop :=
  ∃ shape, types.shape id = .ok shape ∧ shape.Storable

/-- A field of the type may stand in the body of the struct `id`. -/
def Admits (types : Types) (id field : TypeId) : Prop :=
  types.IsStorable field ∧ ¬ types.Contains field id

/-- Why a field of the type may not stand in the body of the struct `id`, called `name`. -/
inductive Refuses (types : Types) (id : TypeId) (name : String) (field : TypeId) :
    ProgramError → Prop
  /-- Nothing is stored for the field itself. -/
  | unstored {shape : TypeShape} {fault : ProgramError} (found : types.shape field = .ok shape)
      (unstorable : shape.fieldFault? name = some fault) : Refuses types id name field fault
  /-- The field could be stored, but holds the struct itself. -/
  | recursive (storable : types.IsStorable field) (contains : types.Contains field id) :
      Refuses types id name field (.recursiveStruct name)

/-- The field passes the check, or it is refused for a reason. -/
theorem Complete.checkField_exact (complete : types.Complete) (acyclic : types.Acyclic)
    (has : types.Has field) (id : TypeId) (name : String) :
    (types.Admits id field ∧ types.checkField id name field = .ok ())
      ∨ ∃ fault, types.Refuses id name field fault
        ∧ types.checkField id name field = .error fault := by
  obtain ⟨shape, found⟩ := has.exists_shape
  cases unstorable : shape.fieldFault? name with
  | some fault =>
    refine .inr ⟨fault, .unstored found unstorable, ?_⟩
    rw [checkField, found]
    cases shape with
    | void | func =>
      cases unstorable
      rfl
    | _ => cases unstorable
  | none =>
    have storable := TypeShape.fieldFault?_eq_none_iff.mp unstorable
    rcases complete.checkField_eq acyclic found storable id name with
      ⟨contains, refused⟩ | ⟨apart, passed⟩
    · exact .inr ⟨_, .recursive ⟨shape, found, storable⟩ contains, refused⟩
    · exact .inl ⟨⟨⟨shape, found, storable⟩, apart⟩, passed⟩

/-- The field is given, so its shape is, and that is what the error is about. -/
theorem Refuses.unique {fault other : ProgramError} (one : types.Refuses id name field fault)
    (two : types.Refuses id name field other) : fault = other := by
  cases one with
  | unstored found unstorable =>
    cases two with
    | unstored found' unstorable' =>
      cases found.symm.trans found'
      exact Option.some.inj (unstorable.symm.trans unstorable')
    | recursive storable =>
      obtain ⟨shape, found', storable⟩ := storable
      cases found.symm.trans found'
      cases unstorable.symm.trans (TypeShape.fieldFault?_eq_none_iff.mpr storable)
  | recursive storable =>
    cases two with
    | unstored found unstorable =>
      obtain ⟨shape, found', storable⟩ := storable
      cases found.symm.trans found'
      cases unstorable.symm.trans (TypeShape.fieldFault?_eq_none_iff.mpr storable)
    | recursive => rfl

/-- What is refused is not admitted. -/
theorem Refuses.not_admits {fault : ProgramError} (refuses : types.Refuses id name field fault) :
    ¬ types.Admits id field := by
  rintro ⟨⟨shape, found, storable⟩, apart⟩
  cases refuses with
  | unstored found' unstorable =>
    cases found.symm.trans found'
    cases unstorable.symm.trans (TypeShape.fieldFault?_eq_none_iff.mpr storable)
  | recursive _ contains => exact apart contains

/-- The check is passed by what is admitted. -/
theorem Complete.checkField_eq_ok_iff (complete : types.Complete) (acyclic : types.Acyclic)
    (has : types.Has field) :
    types.checkField id name field = .ok () ↔ types.Admits id field := by
  rcases complete.checkField_exact acyclic has id name with ⟨admits, passed⟩ | ⟨_, refuses, refused⟩
  · exact iff_of_true passed admits
  · exact iff_of_false (by simp [refused]) refuses.not_admits

/-- The check is failed by what is refused, and for that reason. -/
theorem Complete.checkField_eq_error_iff (complete : types.Complete) (acyclic : types.Acyclic)
    (has : types.Has field) {fault : ProgramError} :
    types.checkField id name field = .error fault ↔ types.Refuses id name field fault := by
  rcases complete.checkField_exact acyclic has id name with ⟨admits, passed⟩ | ⟨_, refuses, refused⟩
  · exact iff_of_false (by simp [passed]) fun refuses => refuses.not_admits admits
  · rw [refused, Except.error.injEq]
    exact ⟨fun same => same ▸ refuses, fun other => refuses.unique other⟩

/-! ## Bodies

From fields to bodies, and from one body to an arena.  That no named struct has a void or a function
for a field is kept by every operation: a body is checked when it is set, and nothing else gives a
named struct a field. -/

/-- A body is accepted exactly if every field passes its check. -/
theorem setStructBody_eq_ok_iff (found : types.shape id = .ok shape)
    (named : shape.structName? = some name) {fields : List TypeId} {packed : Bool} :
    (∃ after, types.setStructBody id fields packed = .ok after)
      ↔ fields.forM (types.checkField id name) = .ok () := by
  rw [setStructBody_of_named found named]
  simp only [bind_eq_ok_iff, pure_eq_ok_iff]
  constructor
  · rintro ⟨after, done, checked, made⟩
    exact checked
  · intro checked
    exact ⟨_, (), checked, rfl⟩

/-- A body is refused for the reason that the loop over its fields ends with. -/
theorem setStructBody_eq_error_iff (found : types.shape id = .ok shape)
    (named : shape.structName? = some name) {fields : List TypeId} {packed : Bool}
    {fault : ProgramError} : types.setStructBody id fields packed = .error fault
      ↔ fields.forM (types.checkField id name) = .error fault := by
  rw [setStructBody_of_named found named, bind_eq_error_iff]
  constructor
  · rintro (checked | ⟨_, -, made⟩)
    · exact checked
    · cases made
  · exact .inl

/-- The fields of named structs are neither void nor functions. -/
def FieldsStorable (types : Types) : Prop :=
  ∀ ⦃id shape⦄, types.shape id = .ok shape → shape.structName? ≠ none →
    ∀ field ∈ shape.stored, types.IsStorable field

/-- Whether a type can be stored never changes, as it is a matter of its shape. -/
theorem Extends.isStorable (kept : types.Extends after) (storable : types.IsStorable id) :
    after.IsStorable id := by
  obtain ⟨shape, found, storable⟩ := storable
  obtain ⟨later, there, rfl | ⟨name, -, named⟩⟩ := kept id shape found
  · exact ⟨_, there, storable⟩
  · refine ⟨later, there, ?_⟩
    cases later with
    | void | func => cases named
    | _ => trivial

/-- Interning keeps the invariant, if it adds no named struct with fields. -/
theorem FieldsStorable.intern (known : types.FieldsStorable)
    (plain : shape.structName? ≠ none → shape.stored = []) :
    (types.intern shape).2.FieldsStorable := by
  intro id entry found named field mem
  rcases shape_of_shape_intern found with old | ⟨-, -, -, rfl⟩
  · exact (extends_intern shape).isStorable (known old named field mem)
  · rw [plain named] at mem
    cases mem

/-- Reading types keeps the invariant. -/
theorem FieldsStorable.interns (known : types.FieldsStorable) (interns : types.Interns after) :
    after.FieldsStorable := by
  induction interns with
  | refl => exact known
  | intern before shape unnamed parts ih => exact ih.intern fun named => absurd unnamed named

/-- A body that was accepted keeps the invariant. -/
theorem FieldsStorable.setStructBody (known : types.FieldsStorable) {fields : List TypeId}
    {packed : Bool} (run : types.setStructBody id fields packed = .ok after) :
    after.FieldsStorable := by
  have kept := extends_setStructBody run
  have checked := storable_of_setStructBody run
  obtain ⟨shape, name, there, named, rfl⟩ := setStructBody_eq_ok run
  intro other entry found named field mem
  rcases shape_of_shape_set there found with ⟨-, rfl⟩ | found
  · exact kept.isStorable (checked field mem)
  · exact kept.isStorable (known found named field mem)

/-- **Only what has no name holds a void or a function**, in every arena of the constructors. -/
theorem Constructed.fieldsStorable (constructed : types.Constructed) : types.FieldsStorable := by
  induction constructed with
  | initial =>
    intro id shape found named
    exact absurd (unnamed_of_initial found) named
  | int _ bits ih => exact ih.intern fun _ => rfl
  | ptr _ addrSpace ih => exact ih.intern fun _ => rfl
  | float _ kind ih => exact ih.intern fun _ => rfl
  | func _ _ _ vararg ih => exact ih.intern fun _ => rfl
  | array _ _ length ih => exact ih.intern fun named => absurd rfl named
  | literalStruct _ _ packed ih => exact ih.intern fun named => absurd rfl named
  | declareStruct _ name ih => exact ih.intern fun _ => rfl
  | setStructBody _ _ run ih => exact ih.setStructBody run
  | readText before text ih => exact ih.interns (readText_interns before.built.has_ptr text)

/-- What is in the storage of a struct and has no storage itself is in something without a name. -/
theorem FieldsStorable.exists_holder (known : types.FieldsStorable) {part : TypeId}
    (storable : types.IsStorable id) (contains : types.Contains id part)
    (unstored : ¬ types.IsStorable part) :
    ∃ holder shape, types.Contains id holder ∧ types.shape holder = .ok shape
      ∧ shape.structName? = none ∧ part ∈ shape.stored := by
  cases contains with
  | refl => exact absurd storable unstored
  | @tail holder _ outside holds =>
    obtain ⟨shape, found, mem⟩ := holds
    refine ⟨holder, shape, outside, found, ?_, mem⟩
    by_contra named
    exact unstored (known found named part mem)

/-- What has no storage itself spoils the layout of everything that it is in. -/
theorem Complete.no_layout_of_contains (complete : types.Complete) (acyclic : types.Acyclic)
    (has : types.Has id) {part : TypeId} (contains : types.Contains id part)
    (unstored : ¬ types.IsStorable part) (target : DataLayout) :
    types.allocSize? target id = .ok none ∧ types.structLayout? target id = .ok none := by
  obtain ⟨shape, found⟩ := (complete.has_of_contains has contains).exists_shape
  have unsized : types.IsUnsized part := by
    cases shape with
    | void => exact .inl found
    | func params ret vararg => exact .inr (.inl ⟨params, ret, vararg, found⟩)
    | _ => exact absurd ⟨_, found, trivial⟩ unstored
  have unfit : ¬ types.Fits target id := fun fits =>
    (complete.fits_iff_not_obstructed acyclic has).mp fits ⟨part, contains, .inl unsized⟩
  constructor
  · obtain ⟨size?, answered⟩ := @Complete.allocSize?_eq_ok types target id complete has
    cases size? with
    | none => exact answered
    | some size => exact absurd (fits_of_allocSize? answered) unfit
  · obtain ⟨layout?, answered⟩ := @Complete.structLayout?_eq_ok types target id complete has
    cases layout? with
    | none => exact answered
    | some layout =>
      obtain ⟨shape, found⟩ := exists_struct_of_structLayout? answered
      exact absurd (fits_of_structLayout? found answered) unfit

end Types

open IrStream.Types

/-- **What a body is checked for.**  It is accepted if no field is void or a function itself, or has
the struct in its storage, and otherwise it is refused for the first field that is.  A void or a
function in the storage of a struct with an accepted body is an element of an array or a field of an
unnamed struct there, and the struct has no layout then. -/
theorem struct_storage_exact {types : Types} (constructed : types.Constructed) {id : TypeId}
    {shape : TypeShape} {name : String} (found : types.shape id = .ok shape)
    (named : shape.structName? = some name) {fields : List TypeId}
    (has : ∀ field ∈ fields, types.Has field) (packed : Bool) :
    ((∃ after, types.setStructBody id fields packed = .ok after)
      ↔ ∀ field ∈ fields, types.Admits id field)
    ∧ (∀ fault, types.setStructBody id fields packed = .error fault ↔
      ∃ before field rest, fields = before ++ field :: rest
        ∧ (∀ other ∈ before, types.Admits id other) ∧ types.Refuses id name field fault)
    ∧ ∀ after, types.setStructBody id fields packed = .ok after →
      ∀ part, after.Contains id part → ¬ after.IsStorable part →
        (∃ holder shape, after.Contains id holder ∧ after.shape holder = .ok shape
          ∧ shape.structName? = none ∧ part ∈ shape.stored)
        ∧ ∀ target, after.allocSize? target id = .ok none
          ∧ after.structLayout? target id = .ok none := by
  have complete := constructed.built.complete
  have acyclic := constructed.built.acyclic
  refine ⟨?_, fun fault => ?_, fun after run part contains unstored => ?_⟩
  · rw [setStructBody_eq_ok_iff found named, forM_eq_ok_iff]
    exact forall₂_congr fun field mem => complete.checkField_eq_ok_iff acyclic (has field mem)
  · rw [setStructBody_eq_error_iff found named, forM_eq_error_iff]
    refine exists_congr fun before => exists_congr fun field => exists_congr fun rest =>
      and_congr_right ?_
    rintro rfl
    have passes (other : TypeId) (mem : other ∈ before) :=
      @Complete.checkField_eq_ok_iff types id other name complete acyclic
        (has other (List.mem_append_left _ mem))
    refine and_congr (forall₂_congr passes) ?_
    exact complete.checkField_eq_error_iff acyclic (has field (by simp))
  · have later := constructed.setStructBody has run
    obtain ⟨_, called, there, -, rfl⟩ := setStructBody_eq_ok run
    have here := @shape_withBody_self types id _ called fields packed there
    refine ⟨later.fieldsStorable.exists_holder ⟨_, here, trivial⟩ contains unstored, ?_⟩
    exact later.built.complete.no_layout_of_contains later.built.acyclic (has_of_shape here)
      contains unstored

/-- An arena with a struct that has no body yet, and with four voids in a row. -/
def Types.voids : Types :=
  ((Types.initial.declareStruct "S").2.array .void 4).2

/-- Four voids in a row are accepted as a field, one by itself is refused. -/
theorem struct_storage_exact_voids :
    (∃ after, voids.setStructBody ⟨6⟩ [⟨7⟩] false = .ok after
      ∧ after.Contains ⟨6⟩ .void ∧ after.allocSize? .standard ⟨6⟩ = .ok none)
    ∧ voids.setStructBody ⟨6⟩ [.void] false = .error (.voidField "S") := by
  have constructed : voids.Constructed := by
    refine .array (.declareStruct .initial "S") ?_ 4
    decide +kernel
  have struct : voids.shape ⟨6⟩ = .ok (.struct ⟨some "S", [], false, false⟩) := by decide +kernel
  have array : voids.shape ⟨7⟩ = .ok (.array .void 4) := by decide +kernel
  have void : voids.shape .void = .ok .void := by decide +kernel
  have has : ∀ field ∈ [(⟨7⟩ : TypeId)], voids.Has field := by decide +kernel
  have hasVoid : ∀ field ∈ [TypeId.void], voids.Has field := by decide +kernel
  constructor
  · obtain ⟨accepts, -, stored⟩ :=
      struct_storage_exact constructed struct rfl has false
    have apart : ¬ voids.Contains ⟨7⟩ ⟨6⟩ := by
      intro contains
      rcases contains_iff.mp contains with same | ⟨part, holds, contains⟩
      · cases same
      · rw [holds_iff_of_shape array] at holds
        cases List.mem_singleton.mp holds
        rcases contains_iff.mp contains with same | ⟨part, holds, -⟩
        · cases same
        · rw [holds_iff_of_shape void] at holds
          cases holds
    obtain ⟨after, run⟩ := accepts.mpr (List.forall_mem_singleton.mpr ⟨⟨_, array, trivial⟩, apart⟩)
    obtain ⟨_, called, -, -, rfl⟩ := setStructBody_eq_ok run
    let filled := voids.withBody ⟨6⟩ called [⟨7⟩] false
    have element : filled.Holds ⟨7⟩ .void :=
      ⟨_, (shape_withBody_of_ne (show (⟨7⟩ : TypeId) ≠ ⟨6⟩ by decide)).trans array,
        List.mem_singleton_self _⟩
    have field : filled.Holds ⟨6⟩ ⟨7⟩ := ⟨_, shape_withBody_self struct, List.mem_singleton_self _⟩
    have contains : filled.Contains ⟨6⟩ .void := .head field (.single element)
    refine ⟨_, run, contains, ?_⟩
    refine ((stored _ run .void contains ?_).2 .standard).1
    rintro ⟨shape, found, storable⟩
    cases found.symm.trans
      ((shape_withBody_of_ne (show TypeId.void ≠ ⟨6⟩ by decide)).trans void)
    exact storable
  · obtain ⟨-, refuses, -⟩ := struct_storage_exact constructed struct rfl hasVoid false
    exact (refuses _).mpr ⟨[], .void, [], rfl, by simp, .unstored void rfl⟩

end IrStream
