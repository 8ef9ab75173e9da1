import IrStream.Encode.Basic
import IrStream.Proofs.Stream.RoundTrip

/-!
# Steps of encoding that succeed

`Encoding.Yields step before value after` says that a step succeeds, and from where to where.  It is
phrased for taking runs apart: there is one equivalence for each way of making a step out of others
and one for each primitive step, all of them for `simp`, so that a run of a `do` block becomes a
chain of runs of its parts.

A primitive step changes one table or the counts and the log, and the equivalences say which.

The encoder is a state monad over errors.  Opened, one of its steps is a function to a sum of pairs,
and a block of ten lines a nest of ten matches.  Nothing in this development opens it: a hypothesis
`Yields step s a t` is rewritten to what the parts of `step` did, and the states between them are
named when the existentials are taken apart.

For runs that fail there is no such relation, as nothing is known of the state then.  That an error
has a cause is shown with `Encoding.Settles`, and that two runs have the same error with
`Encoding.Agrees`.

## What there is

* `yields_bind_iff`, `yields_pure_iff`, `yields_map_iff`, `yields_throw_iff`: blocks.
* `yields_mapM_nil_iff`, `yields_mapM_cons_iff`: loops.
* `yields_dangling_iff`, `yields_field_iff`: steps that only ask the program, or only check a
  number.  They leave the state as it is.
* `yields_registerConstant_iff`, `yields_registerType_iff`, `yields_registerGlobal_iff`: the tables.
* `yields_sized_iff`, `yields_unterminated_iff`: the two checks that a field of the stream has to
  pass.
-/

set_option autoImplicit false

namespace IrStream

namespace Encoding

variable {α β : Type}

/-- The step succeeds: it turns `before` into `after` and answers `value`. -/
def Yields (step : Encoding α) (before : EncodeState) (value : α) (after : EncodeState) : Prop :=
  step.run.run before = (.ok value, after)

variable {s t : EncodeState}

/-! ## Making steps out of steps

For `simp`.  A look-up that may find nothing is a step that leaves the state alone. -/

@[simp] theorem yields_pure_iff {a value : α} :
    Yields (pure a) s value t ↔ value = a ∧ t = s := by
  constructor
  · intro h
    cases h
    exact ⟨rfl, rfl⟩
  · rintro ⟨rfl, rfl⟩
    rfl

@[simp] theorem yields_throw_iff {error : EncodeError} {value : α} :
    Yields (throw error) s value t ↔ False := by
  constructor
  · intro h
    cases h
  · exact False.elim

/-- A block succeeds if both parts do, and the second one runs in the state that the first one
leaves. -/
@[simp] theorem yields_bind_iff {step : Encoding α} {next : α → Encoding β} {value : β} :
    Yields (step >>= next) s value t ↔ ∃ a u, Yields step s a u ∧ Yields (next a) u value t := by
  have run : (step >>= next).run.run s
      = ExceptT.bindCont next (step.run.run s).1 (step.run.run s).2 := rfl
  constructor
  · intro h
    rw [Yields, run] at h
    cases first : step.run.run s with
    | mk outcome u =>
      rw [first] at h
      cases outcome with
      | ok a => exact ⟨a, u, first, h⟩
      | error error => cases h
  · rintro ⟨a, u, first, second⟩
    rw [Yields, run, first]
    exact second

@[simp] theorem yields_map_iff {step : Encoding α} {f : α → β} {value : β} :
    Yields (f <$> step) s value t ↔ ∃ a, Yields step s a t ∧ value = f a := by
  rw [← bind_pure_comp]
  simp only [yields_bind_iff, yields_pure_iff]
  constructor
  · rintro ⟨a, u, first, rfl, rfl⟩
    exact ⟨a, first, rfl⟩
  · rintro ⟨a, first, rfl⟩
    exact ⟨a, t, first, rfl, rfl⟩

@[simp] theorem yields_dangling_iff {answer : Except Dangling α} {value : α} :
    Yields (liftM answer) s value t ↔ answer = .ok value ∧ t = s := by
  cases answer with
  | ok a =>
    refine Iff.trans (yields_pure_iff (a := a)) ?_
    simp [eq_comm]
  | error handle => exact ⟨fun h => (yields_throw_iff.mp h).elim, fun h => nomatch h.1⟩

@[simp] theorem yields_field_iff {answer : Except FieldFault α} {value : α} :
    Yields (liftM answer) s value t ↔ answer = .ok value ∧ t = s := by
  cases answer with
  | ok a =>
    refine Iff.trans (yields_pure_iff (a := a)) ?_
    simp [eq_comm]
  | error fault => exact ⟨fun h => (yields_throw_iff.mp h).elim, fun h => nomatch h.1⟩

@[simp] theorem yields_get_iff {state : EncodeState} :
    Yields get s state t ↔ state = s ∧ t = s := by
  constructor
  · intro h
    cases h
    exact ⟨rfl, rfl⟩
  · rintro ⟨rfl, rfl⟩
    rfl

@[simp] theorem yields_set_iff {state : EncodeState} {done : PUnit} :
    Yields (set state) s done t ↔ t = state := by
  constructor
  · intro h
    cases h
    rfl
  · rintro rfl
    rfl

@[simp] theorem yields_modify_iff {f : EncodeState → EncodeState} {done : PUnit} :
    Yields (modify f) s done t ↔ t = f s := by
  constructor
  · intro h
    cases h
    rfl
  · rintro rfl
    rfl

/-! ## Steps over lists -/

theorem yields_mapM_nil_iff {step : α → Encoding β} {values : List β} :
    Yields ([].mapM step) s values t ↔ values = [] ∧ t = s := by
  rw [List.mapM_nil]
  exact yields_pure_iff

/-- The first entry is done before the others. -/
theorem yields_mapM_cons_iff {step : α → Encoding β} {a : α} {rest : List α} {values : List β} :
    Yields ((a :: rest).mapM step) s values t ↔
      ∃ value u more, Yields (step a) s value u ∧ Yields (rest.mapM step) u more t
        ∧ values = value :: more := by
  rw [List.mapM_cons]
  simp only [yields_bind_iff, yields_pure_iff]
  constructor
  · rintro ⟨value, u, first, more, v, others, rfl, rfl⟩
    exact ⟨value, u, more, first, others, rfl⟩
  · rintro ⟨value, u, more, first, others, rfl⟩
    exact ⟨value, u, first, more, t, others, rfl, rfl⟩

/-! ## Primitive steps -/

@[simp] theorem yields_log_iff {event : LogEvent} {done : Unit} :
    Yields (log event) s done t ↔ t = { s with log := s.log.push event } :=
  yields_modify_iff

@[simp] theorem yields_count_iff {step : EncodeStats → EncodeStats} {done : Unit} :
    Yields (count step) s done t ↔ t = { s with stats := step s.stats } :=
  yields_modify_iff

theorem yields_registerConstant_iff {constant : Constant} {index : Nat} :
    Yields (registerConstant constant) s index t ↔
      index = (s.constants.insert constant).1
        ∧ t = { s with constants := (s.constants.insert constant).2 } := by
  simp [registerConstant, and_comm]

theorem yields_registerType_iff {program : Program} {id : TypeId} {index : Nat} :
    Yields (registerType program id) s index t ↔
      ∃ types, program.types.register s.types id = .ok (index, types)
        ∧ t = { s with types } := by
  simp [registerType]

theorem yields_registerGlobal_iff {program : Program} {id : GlobalId} {index : Nat} :
    Yields (registerGlobal program id) s index t ↔
      ∃ globals constants, program.registerGlobal s.globals s.constants id
          = .ok (index, globals, constants)
        ∧ t = { s with globals, constants } := by
  simp [registerGlobal]

@[simp] theorem yields_sized_iff {word : WordSize} {value size : Nat} :
    Yields (sized word value) s size t ↔ size = value ∧ value ≤ word.maxValue ∧ t = s := by
  rw [sized, yields_field_iff, WordSize.fit]
  by_cases fits : value ≤ word.maxValue
  · simp [fits, eq_comm]
  · simp [fits]

@[simp] theorem yields_unterminated_iff {text field : String} :
    Yields (unterminated text) s field t ↔ field = text ∧ NulFree text ∧ t = s := by
  rw [unterminated, yields_field_iff, fitText]
  by_cases free : NulFree text
  · rw [if_neg free]
    simp [free, eq_comm]
  · rw [if_pos (not_not.mp free)]
    simp [free]

end Encoding

end IrStream
