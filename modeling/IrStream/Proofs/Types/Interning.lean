import IrStream.Proofs.Pairing.Constants
import IrStream.Proofs.Types.Regular

/-!
# Handles are faithful

What a handle tells of the type or the constant it stands for, and how long that lasts.

* `Types.Faithful` and `Constants.Faithful` say of one arena that interning answers a handle of what
  was interned, and that equal handles are equal entries.  Named structs go by their names.
* `Types.Stable` and `Constants.Stable` say what a later arena has under the handles of an earlier
  one: the same, except that a named struct has the last body it was given.  A single operation
  replaces at most one body (`Step.shape_eq`), so over a run it is the last one that counts
  (`Run.shape_eq`).

Comparing handles in place of types is only right if both hold.  That equal types have equal handles
is what interning is for; that equal handles are equal types is trivial of an arena at one moment,
and far from it over time, since an arena changes.  A handle is kept in programs, tables and
documents for long after it was given out.

The exception is what makes the statement interesting.  A named struct is declared, used, and given
its body afterwards, maybe more than once.  So its handle does not stand for a body but for a name,
and `Stable` says for each handle which of the two cases it is: the shape is the one that it was, or
it is the last body that some operation of the run gave to it, and all operations behind that one
leave it alone.

Nothing is assumed about what happens in between.  Operations may fail, texts may be no types, and
what they leave behind counts as well.
-/

set_option autoImplicit false

namespace IrStream

open Relation (ReflTransGen)

namespace Types

/-- Public operations one after the other. -/
def Run : Types → Types → Prop :=
  ReflTransGen Step

/-- The handles of an arena and what they stand for. -/
structure Faithful (types : Types) : Prop where
  /-- Types without a name are told apart by their shapes. -/
  eq_iff : ∀ {id other first second}, types.shape id = .ok first → types.shape other = .ok second →
    first.structName? = none → second.structName? = none → (id = other ↔ first = second)
  /-- A name stands for the struct that has it. -/
  named?_eq_iff : ∀ {name id}, types.named? name = some id ↔
    ∃ shape, types.shape id = .ok shape ∧ shape.structName? = some name
  /-- Interning again what is stored adds nothing. -/
  intern_stored : ∀ {id shape}, types.shape id = .ok shape → shape.structName? = none →
    types.intern shape = (id, types)
  /-- The answer of interning has the shape that was asked for, and of a named struct the name. -/
  intern_answer : ∀ shape, ∃ stored,
    (types.intern shape).2.shape (types.intern shape).1 = .ok stored
      ∧ stored.structName? = shape.structName? ∧ (shape.structName? = none → stored = shape)
  /-- The six types that are there from the beginning. -/
  basic : types.shape .void = .ok .void ∧ types.shape .i1 = .ok (.int 1)
    ∧ types.shape .i8 = .ok (.int 8) ∧ types.shape .i32 = .ok (.int 32)
    ∧ types.shape .i64 = .ok (.int 64) ∧ types.shape .ptr = .ok (.ptr 0)

/-- Giving `id` a body succeeds, makes `after` of the arena, and changes nothing but that body:
not the name, and no other type. -/
def Replaces (types : Types) (id : TypeId) (body : TypeShape) (after : Types) : Prop :=
  ∃ before name fields packed, types.shape id = .ok before ∧ before.structName? = some name
    ∧ types.setStructBody id fields packed = .ok after
    ∧ body = .struct ⟨some name, fields, packed, true⟩ ∧ after.shape id = .ok body
    ∧ ∀ other, other ≠ id → after.shape other = types.shape other

/-- What is said of a type stays true in every later arena, except that the last body it was given
after now is the one it has then. -/
structure Stable (types : Types) : Prop where
  /-- Giving a body does that. -/
  replaces : ∀ {id fields packed after}, types.setStructBody id fields packed = .ok after →
    ∃ body, types.Replaces id body after
  /-- Nothing else changes a type. -/
  step : ∀ {after id shape}, Step types after → types.shape id = .ok shape →
    after.shape id = .ok shape ∨ ∃ body, types.Replaces id body after
  /-- Over a run the last body counts. -/
  run : ∀ {after id shape}, types.Run after → types.shape id = .ok shape →
    after.shape id = .ok shape ∨ ∃ name, shape.structName? = some name
      ∧ ∃ before body set, types.Run before ∧ before.Replaces id body set ∧ set.Run after
        ∧ body.structName? = some name ∧ after.shape id = .ok body

variable {types after : Types} {id : TypeId} {shape : TypeShape}

/-! ## One arena -/

theorem NamesUnique.named?_eq_iff (names : types.NamesUnique) {name : String} :
    types.named? name = some id ↔
      ∃ shape, types.shape id = .ok shape ∧ shape.structName? = some name :=
  ⟨shape_of_named?, fun ⟨_, found, named⟩ => names found named⟩

/-- Interning a named struct answers the one of that name. -/
theorem shape_intern_of_named (types : Types) {name : String}
    (named : shape.structName? = some name) :
    ∃ stored, (types.intern shape).2.shape (types.intern shape).1 = .ok stored
      ∧ stored.structName? = some name := by
  rw [Types.intern]
  split
  · next id known =>
    rw [find?, named] at known
    exact shape_of_named? known
  · exact ⟨shape, resolve_push_self rfl, named⟩

/-- **Handles of a regular arena are faithful.** -/
theorem Regular.faithful (regular : types.Regular) : types.Faithful where
  eq_iff {id other first second} found there unnamed _ := by
    constructor
    · rintro rfl
      exact Except.ok.inj (found.symm.trans there)
    · rintro rfl
      exact regular.canonical found there unnamed
  named?_eq_iff := regular.names.named?_eq_iff
  intern_stored := regular.canonical.intern_of_shape
  intern_answer shape := by
    cases named : shape.structName? with
    | none => exact ⟨shape, shape_intern named, named, fun _ => rfl⟩
    | some name =>
      obtain ⟨stored, found, same⟩ := shape_intern_of_named types named
      exact ⟨stored, found, same, nofun⟩
  basic := by
    refine ⟨?_, ?_, ?_, ?_, ?_, ?_⟩ <;> exact regular.basic rfl

/-! ## Later arenas -/

theorem replaces_of_setStructBody {fields : List TypeId} {packed : Bool}
    (run : types.setStructBody id fields packed = .ok after) :
    ∃ body, types.Replaces id body after := by
  obtain ⟨before, name, found, named, rfl⟩ := setStructBody_eq_ok run
  refine ⟨_, before, name, fields, packed, found, named, run, rfl, ?_, fun other apart => ?_⟩
  · rw [shape_eq_ok_iff, Array.getElem?_setIfInBounds_self_of_lt (has_of_shape found)]
  · exact resolve_set_of_ne fun same => apart (TypeId.ext same)

/-- **One operation** leaves a type alone or gives it a body. -/
theorem Step.shape_eq (step : Step types after) (ptr : types.Has .ptr)
    (found : types.shape id = .ok shape) :
    after.shape id = .ok shape ∨ ∃ body, types.Replaces id body after := by
  cases step with
  | intern interned parts => exact .inl (shape_intern_of_shape found interned)
  | readText text => exact .inl ((readText_interns ptr text).shape_eq found)
  | @setStructBody _ target fields packed parts run =>
    obtain ⟨body, replaces⟩ := replaces_of_setStructBody run
    by_cases same : id = target
    · exact .inr ⟨body, same ▸ replaces⟩
    · obtain ⟨-, -, -, -, -, -, -, -, -, others⟩ := replaces
      exact .inl ((others id same).trans found)

theorem Built.run (built : types.Built) (run : types.Run after) : after.Built := by
  induction run with
  | refl => exact built
  | tail _ step ih => exact ih.step step

/-- **A run** leaves a type with the last body it was given. -/
theorem Run.shape_eq (run : types.Run after) (built : types.Built)
    (found : types.shape id = .ok shape) :
    after.shape id = .ok shape ∨ ∃ name, shape.structName? = some name
      ∧ ∃ before body set, types.Run before ∧ before.Replaces id body set ∧ set.Run after
        ∧ body.structName? = some name ∧ after.shape id = .ok body := by
  induction run with
  | refl => exact .inl found
  | @tail middle after earlier step ih =>
    have has := (built.run earlier).has_ptr
    rcases ih with kept | ⟨name, named, before, body, set, first, replaces, rest, same, there⟩
    · rcases step.shape_eq has kept with kept | ⟨body, replaces⟩
      · exact .inl kept
      · have ⟨now, name, _, _, here, named, _, same, there, _⟩ := replaces
        cases kept.symm.trans here
        exact .inr ⟨name, named, middle, body, after, earlier, replaces, .refl, same ▸ rfl, there⟩
    · refine .inr ⟨name, named, ?_⟩
      rcases step.shape_eq has there with kept | ⟨next, replaces'⟩
      · exact ⟨before, body, set, first, replaces, rest.tail step, same, kept⟩
      -- the name that the new body gets is the one that the old body had
      · have ⟨now, again, _, _, here, named', _, same', there', _⟩ := replaces'
        cases there.symm.trans here
        cases same.symm.trans named'
        exact ⟨middle, next, after, earlier, replaces', .refl, same' ▸ rfl, there'⟩

theorem Built.stable (built : types.Built) : types.Stable where
  replaces := replaces_of_setStructBody
  step step found := step.shape_eq built.has_ptr found
  run run found := run.shape_eq built found

end Types

/-! ## Constants

Constants are simpler: none is ever replaced. -/

namespace Constants

/-- The arena with some constants interned. -/
inductive Interns : Constants → Constants → Prop
  | refl (constants : Constants) : Interns constants constants
  | intern {constants after : Constants} (before : Interns constants after) (constant : Constant) :
      Interns constants (after.intern constant).2

/-- The handles of an arena and the constants they stand for. -/
structure Faithful (constants : Constants) : Prop where
  /-- Two handles are the same exactly if their constants are. -/
  eq_iff : ∀ {id other first second}, constants.constant id = .ok first →
    constants.constant other = .ok second → (id = other ↔ first = second)
  /-- What interning answers stands for what was asked for. -/
  intern_answer : ∀ constant,
    (constants.intern constant).2.constant (constants.intern constant).1 = .ok constant

/-- No constant changes, whatever is interned after it. -/
def Stable (constants : Constants) : Prop :=
  ∀ ⦃after id constant⦄, constants.Interns after → constants.constant id = .ok constant →
    after.constant id = .ok constant

variable {constants after : Constants}

theorem Canonical.interns (canonical : constants.Canonical) (interns : constants.Interns after) :
    after.Canonical := by
  induction interns with
  | refl => exact canonical
  | intern before constant ih => exact ih.intern constant

theorem Canonical.faithful (canonical : constants.Canonical) : constants.Faithful where
  eq_iff {id other first second} found there := by
    constructor
    · rintro rfl
      exact Except.ok.inj (found.symm.trans there)
    · rintro rfl
      exact canonical found there
  intern_answer constant := constant_intern

theorem stable : constants.Stable := by
  intro after id constant interns found
  induction interns with
  | refl => exact found
  | intern before interned ih => exact constant_intern_of_constant ih interned

end Constants

/-! ## Both arenas -/

/-- An arena with a struct that was declared before it had a body, and with a type that is left of a
text that is not one as a whole. -/
def Types.linked : Types :=
  ⟨Types.initial.shapes ++ #[.struct ⟨some "node", [.ptr, .i32], false, true⟩, .int 16]⟩

theorem Types.built_linked : Types.linked.Built := by
  have declared : (Types.initial.declareStruct "node").2.Built :=
    Built.initial.step (.intern _ (by decide +kernel))
  have filled :
      Built ⟨Types.initial.shapes ++ #[.struct ⟨some "node", [.ptr, .i32], false, true⟩]⟩ :=
    declared.step (@Step.setStructBody _ _ ⟨6⟩ [.ptr, .i32] false (by decide +kernel)
      (by decide +kernel))
  exact Eq.mp (congrArg Built (by decide +kernel)) (filled.step (.readText _ "[2 x i16".toList))

/-- **Interning is faithful and stable**, for types whatever operations made the arena, and for
constants whatever was interned before.  Faithful means that equal shapes have one handle and
different ones different handles; stable, that a handle stands for the same shape ever after, but
for a named struct that gets a body. -/
theorem interning_faithful {types : Types} {constants : Constants} (built : types.Built)
    (interned : Constants.empty.Interns constants) :
    types.Faithful ∧ types.Stable ∧ constants.Faithful ∧ constants.Stable :=
  ⟨built.regular.faithful, built.stable,
    (Constants.canonical_empty.interns interned).faithful, Constants.stable⟩

/-- A struct of a pointer and an integer, and an integer type behind it that was made by a text
which is no type. -/
theorem interning_faithful_linked :
    Types.linked.named? "node" = some ⟨6⟩ ∧ Types.linked.intern (.int 16) = (⟨7⟩, Types.linked)
    ∧ (∀ after, Types.linked.Run after → after.shape ⟨7⟩ = .ok (.int 16))
    ∧ ∀ after, Constants.Interns ⟨#[.int .i32 1, .null .ptr]⟩ after →
      after.constant ⟨1⟩ = .ok (.null .ptr) := by
  have interned : Constants.empty.Interns ⟨#[.int .i32 1, .null .ptr]⟩ :=
    Eq.mp (congrArg (Constants.Interns _) (by decide +kernel))
      (((Constants.Interns.refl .empty).intern (.int .i32 1)).intern (.null .ptr))
  obtain ⟨faithful, stable, -, kept⟩ := interning_faithful Types.built_linked interned
  have short : Types.linked.shape ⟨7⟩ = .ok (.int 16) := by decide +kernel
  refine ⟨faithful.named?_eq_iff.mpr ⟨_, rfl, rfl⟩, faithful.intern_stored short rfl,
    fun after run => ?_, fun after more => kept more rfl⟩
  rcases stable.run run short with same | ⟨name, named, -⟩
  · exact same
  · cases named

end IrStream
