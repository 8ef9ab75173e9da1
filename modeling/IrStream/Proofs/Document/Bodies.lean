import IrStream.Proofs.Document.Resolving
import IrStream.Proofs.Program.Frame

/-!
# Steps of loading that leave function bodies alone

A program is loaded in phases: structs, globals, functions with their arguments and blocks,
initializers, and last the instructions of one function after the other.  Several statements about
the result speak of one function only — which blocks it has, which instructions stand in them, what
their operands are.  For those it has to be known that everything which happens elsewhere in the
document does not matter.

Resolving does not touch functions, blocks and instructions, and neither do structs, globals and
names of arguments.  Steps with that property are those that `Loader.LeavesBodies` holds of, and it
holds of a `do` block if it holds of its parts.

The property is one of *steps*, not of states: `LeavesBodies step` says of every run of `step` that
the program behind it has the same bodies as the program before it (`Program.SameBodies`).  That is
what makes it compose.  The rules for `do`, `mapM`, `forM` and `foldlM` all come from
`LeavesBodies.composes`, which is the one fact that a property of steps has to meet; see
`Document/Step.lean`.

## What is here

* `Program.Grows.sameBodies` — a program that only gets new types and constants keeps its bodies.
* `Resolves.leavesBodies` — so whatever resolves a text or a node leaves bodies alone.
* `leavesBodies_declareStruct`, `leavesBodies_declareGlobal`, `leavesBodies_nameArg` and the others
  — one lemma for each phase that is not about instructions.
-/

set_option autoImplicit false

namespace IrStream

/-- Growth is by types and constants, and bodies are made of neither. -/
theorem Program.Grows.sameBodies {p q : Program} (grows : p.Grows q) : p.SameBodies q := by
  induction grows with
  | refl => exact .refl _
  | readText _ _ ih | func _ _ _ _ ih | internConstant _ _ ih =>
    exact ⟨ih.functions, ih.blocks, ih.insts⟩

namespace Loader

open Program

/-- The step only adds types, constants, globals and names of arguments. -/
structure LeavesBodies {α : Type} (step : Loader α) : Prop where
  sameBodies : ∀ {p value q}, Yields step p value q → p.SameBodies q

theorem Resolves.leavesBodies {α : Type} {step : Loader α} (h : Resolves step) :
    LeavesBodies step where
  sameBodies run := (h.grows run).sameBodies

namespace LeavesBodies

variable {α β : Type}

theorem pure (value : α) : LeavesBodies (Pure.pure value : Loader α) :=
  (Resolves.pure value).leavesBodies

theorem except (answer : Except ProgramError α) : LeavesBodies (liftM answer : Loader α) where
  sameBodies run := by
    cases (yields_except_iff.mp run).2
    exact .refl _

theorem bind {step : Loader α} {next : α → Loader β} (first : LeavesBodies step)
    (second : ∀ a, LeavesBodies (next a)) : LeavesBodies (step >>= next) where
  sameBodies run := by
    obtain ⟨a, r, run, others⟩ := yields_bind_iff.mp run
    exact (first.sameBodies run).trans ((second a).sameBodies others)

/-- The property of the states before and after is reflexive and transitive, which is all that a
`do` block needs. -/
theorem composes : Composes Loader LeavesBodies :=
  ⟨pure, bind⟩

theorem mapM {step : α → Loader β} (each : ∀ a, LeavesBodies (step a)) (list : List α) :
    LeavesBodies (list.mapM step) :=
  composes.mapM each list

theorem forM {step : α → Loader PUnit} (each : ∀ a, LeavesBodies (step a)) (list : List α) :
    LeavesBodies (list.forM step) :=
  composes.forM each list

theorem foldlM {step : β → α → Loader β} (each : ∀ b a, LeavesBodies (step b a)) (start : β)
    (list : List α) : LeavesBodies (list.foldlM step start) :=
  composes.foldlM each start list

theorem withTypes (step : Types → α × Types) : LeavesBodies (Loader.withTypes step) where
  sameBodies run := by
    obtain ⟨-, rfl⟩ := yields_withTypes_iff.mp run
    exact ⟨rfl, rfl, rfl⟩

/-- An operation of the program that keeps bodies is a step that leaves them alone. -/
theorem update {step : Program → Except ProgramError (α × Program)}
    (h : ∀ {p value q}, step p = .ok (value, q) → p.SameBodies q) :
    LeavesBodies (Loader.update step) where
  sameBodies run := h (yields_update_iff.mp run)

end LeavesBodies

theorem leavesBodies_typeOf (node : TypeNode) : LeavesBodies (typeOf node) :=
  (resolves_typeOf node).leavesBodies

theorem leavesBodies_typesOf (nodes : List TypeNode) : LeavesBodies (typesOf nodes) :=
  (resolves_typesOf nodes).leavesBodies

/-! ## What is loaded outside of functions

These are the phases before the instructions, one lemma each.  A step of the loader that is written
with `Loader.update` changes the program by one operation of `Program`, and `LeavesBodies.update`
asks no more than that this operation keeps the bodies. -/

theorem leavesBodies_declareStruct (entry : String × Option StructEntry) :
    LeavesBodies (declareStruct entry) :=
  .bind (.withTypes _) fun _ => .pure _

theorem leavesBodies_defineStruct (entry : TypeId × Option StructEntry) :
    LeavesBodies (defineStruct entry) := by
  obtain ⟨id, _ | body⟩ := entry
  · exact .pure _
  · refine .bind (leavesBodies_typesOf body.fields) fun fields => .update fun run => ?_
    simp only [bind_eq_ok_iff, pure_eq_ok_iff] at run
    obtain ⟨types, -, same⟩ := run
    cases same
    exact ⟨rfl, rfl, rfl⟩

theorem leavesBodies_declareGlobal (entry : GlobalEntry) : LeavesBodies (declareGlobal entry) :=
  .bind (leavesBodies_typeOf entry.type) fun _ =>
    .bind (.update sameBodies_addGlobal) fun _ => .pure _

/-- An initializer is resolved, which adds constants, and is entered in a global. -/
theorem leavesBodies_initializeGlobal (entry : GlobalId × GlobalEntry) :
    LeavesBodies (initializeGlobal entry) where
  sameBodies run := by
    obtain ⟨id, entry⟩ := entry
    unfold initializeGlobal at run
    dsimp only at run
    split at run
    · cases (yields_pure_iff.mp run).2
      exact .refl _
    · simp only [yields_bind_iff, yields_get_iff, yields_dangling_iff, yields_set_iff] at run
      obtain ⟨operand, r, resolved, id, s, required, _, _, ⟨rfl, rfl⟩, _, _, ⟨run, rfl⟩, rfl⟩ := run
      obtain ⟨global, -, rfl⟩ := setInitializer_eq_ok run
      refine ((resolves_operandOf _ _).grows resolved).sameBodies.trans ?_
      have := ((resolves_requireConstant _ _).grows required).sameBodies
      exact ⟨this.functions, this.blocks, this.insts⟩

/-- Naming an argument changes the arena of arguments and no other. -/
theorem leavesBodies_nameArg (entry : ArgId × ParamEntry) : LeavesBodies (nameArg entry) where
  sameBodies run := by
    obtain ⟨id, entry⟩ := entry
    unfold nameArg at run
    dsimp only at run
    split at run
    · simp only [yields_bind_iff, yields_get_iff, yields_dangling_iff, yields_set_iff] at run
      obtain ⟨_, _, ⟨rfl, rfl⟩, _, _, ⟨run, rfl⟩, rfl⟩ := run
      obtain ⟨arg, -, rfl⟩ := setArgName_eq_ok run
      exact ⟨rfl, rfl, rfl⟩
    · cases (yields_pure_iff.mp run).2
      exact .refl _

theorem leavesBodies_scopeArg (scope : Scope) (id : ArgId) :
    LeavesBodies (scopeArg scope id) := by
  refine .bind Resolves.get.leavesBodies fun program =>
    .bind (Resolves.dangling _).leavesBodies fun arg => ?_
  split
  · exact .except _
  · exact .pure _

end Loader

end IrStream
