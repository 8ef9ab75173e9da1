import IrStream.Proofs.Pairing.Constants
import IrStream.Proofs.Program.Complete
import IrStream.Proofs.Types.Regular

/-!
# Built programs store parts first

The types of a built program are built (`Program.Built.types`), and the elements of an aggregate are
stored before it (`Program.Built.constants`).  Of all operations only one changes the types, and
constants are only ever interned (`Program.Step.stored`), so none is stored twice
(`Program.Built.canonical_constants`).

`Step.stored` is the lemma that connects programs with their arenas.  A fact about all arenas of
types that operations make — that no shape is stored twice, that no struct contains itself, that
every type has a text — becomes a fact about the types of every built program, and the same for
constants.  What a program does with its functions and blocks is of no concern to them.

## Statements

* `Step.stored`: the types are as they were or one step further, and the constants are as they were
  or one interning further.
* `Built.types`, `Built.constants`: what follows for the two arenas by induction on the operations.
* `Built.canonical_constants`, `Built.internConstant_of_constant`: a constant has one handle, and
  interning it again answers that handle and adds nothing.
-/

set_option autoImplicit false

namespace IrStream

/-- An interned aggregate is stored behind its elements. -/
theorem Constants.Layered.intern {constants : Constants} (layered : constants.Layered)
    {constant : Constant} (parts : ∀ {type elems}, constant = .aggregate type elems →
      ∀ elem ∈ elems, elem.index < constants.size) : (constants.intern constant).2.Layered := by
  intro id type elems found elem mem
  rcases constant_of_constant_intern found with old | ⟨-, -, last, same⟩
  · exact layered old elem mem
  · exact Nat.lt_of_lt_of_eq (parts same.symm elem mem) last.symm

namespace Program

variable {program after : Program}

/-- What an operation does with types and constants. -/
theorem Step.stored (step : Step program after) :
    (after.types = program.types ∨ Types.Step program.types after.types)
    ∧ (after.constants = program.constants ∨ ∃ constant : Constant, constant.InRange program
      ∧ after.constants = (program.constants.intern constant).2) := by
  cases step with
  | setLayout layout => exact ⟨.inl rfl, .inl rfl⟩
  | types step => exact ⟨.inr step, .inl rfl⟩
  | internConstant inRange => exact ⟨.inl rfl, .inr ⟨_, inRange, rfl⟩⟩
  | constInt run =>
    obtain ⟨constant, inRange, same⟩ := inRange_of_constInt run
    obtain rfl : (program.internConstant constant).2 = after := congrArg Prod.snd same
    exact ⟨.inl rfl, .inr ⟨constant, inRange, rfl⟩⟩
  | addGlobal _ run =>
    obtain ⟨-, rfl⟩ := addGlobal_eq_ok run
    exact ⟨.inl rfl, .inl rfl⟩
  | setInitializer _ run =>
    obtain ⟨_, -, rfl⟩ := setInitializer_eq_ok run
    exact ⟨.inl rfl, .inl rfl⟩
  | addFunction run =>
    obtain ⟨_, _, _, -, -, rfl⟩ := addFunction_eq_ok run
    exact ⟨.inl rfl, .inl rfl⟩
  | setArgName run =>
    obtain ⟨_, -, rfl⟩ := setArgName_eq_ok run
    exact ⟨.inl rfl, .inl rfl⟩
  | addBlock run =>
    obtain ⟨_, -, -, rfl⟩ := addBlock_eq_ok run
    exact ⟨.inl rfl, .inl rfl⟩
  | addInst _ _ _ run =>
    obtain ⟨_, -, -, rfl⟩ := addInst_eq_ok run
    exact ⟨.inl rfl, .inl rfl⟩
  | setOperands _ run =>
    obtain ⟨_, -, rfl⟩ := setOperands_eq_ok run
    exact ⟨.inl rfl, .inl rfl⟩
  | setInstType _ run =>
    obtain ⟨_, -, rfl⟩ := setInstType_eq_ok run
    exact ⟨.inl rfl, .inl rfl⟩

/-- The arena of types of a built program is itself built by operations. -/
theorem Built.types (built : program.Built) : program.types.Built := by
  induction built with
  | empty layout => exact .initial
  | step built step ih =>
    rcases step.stored.1 with same | step
    · exact same ▸ ih
    · exact ih.step step

/-- No aggregate is stored before its elements. -/
theorem Built.constants (built : program.Built) : program.constants.Layered := by
  induction built with
  | empty layout =>
    intro id type elems found
    simp [Constants.constant_eq_ok_iff, Program.empty, Constants.empty] at found
  | step built step ih =>
    rcases step.stored.2 with same | ⟨constant, inRange, same⟩
    · exact same ▸ ih
    · rw [same]
      refine ih.intern fun aggregate => ?_
      subst aggregate
      exact inRange.2

/-- No constant is stored twice. -/
theorem Built.canonical_constants (built : program.Built) : program.constants.Canonical := by
  induction built with
  | empty layout => exact Constants.canonical_empty
  | step built step ih =>
    rcases step.stored.2 with same | ⟨constant, -, same⟩
    · exact same ▸ ih
    · rw [same]
      exact ih.intern constant

/-- A constant that is stored is found again. -/
theorem Built.internConstant_of_constant (built : program.Built) {id : ConstId}
    {constant : Constant} (found : program.constant id = .ok constant) :
    program.internConstant constant = (id, program) := by
  rw [internConstant, built.canonical_constants.intern_of_constant found]

end Program

end IrStream
