import IrStream.Proofs.Document.Step
import IrStream.Proofs.Program.Built

/-!
# What resolving does to a program

To resolve a type, a constant or an operand may add types and constants to the program, and nothing
else.  `Program.Grows` says that, and `Loader.Resolves` is the judgment that a step of loading is
made of steps that do no more.

`Resolves` is about the *text* of a step, so to speak, and not about its runs: it is inductive, with
one constructor for each way in which a step may be made.  That has two uses.  Whatever can be shown
for these few ways holds of all that resolves something, by one induction; that a program grows is
the first such fact (`Resolves.grows`), and that resolving never fails because of a name for a
result of type void is another one (`Resolves.lenient`).  And a part of the loader is known to
resolve by following its definition, one lemma per part, without any reasoning about states.

The relation `Grows` is inductive as well: it is closed under adding types and under adding a
constant, in any order and number.  A property that both of these keep is kept by growth.
-/

set_option autoImplicit false

namespace IrStream

/-- The second program is the first one with the types and constants that resolving added. -/
inductive Program.Grows (p : Program) : Program → Prop
  /-- Nothing was resolved. -/
  | refl : Grows p p
  /-- A text was read as a type, with or without success. -/
  | readText {q : Program} (before : Grows p q) (text : List Char) :
      Grows p { q with types := (q.types.readText text).1 }
  /-- A function type was interned. -/
  | func {q : Program} (before : Grows p q) (params : List TypeId) (ret : TypeId) (vararg : Bool) :
      Grows p { q with types := (q.types.func params ret vararg).2 }
  /-- A constant was interned. -/
  | internConstant {q : Program} (before : Grows p q) (constant : Constant) :
      Grows p (q.internConstant constant).2

/-- Growth after growth. -/
theorem Program.Grows.trans {p q r : Program} (first : p.Grows q) (second : q.Grows r) :
    p.Grows r := by
  induction second with
  | refl => exact first
  | readText _ text ih => exact ih.readText text
  | func _ params ret vararg ih => exact ih.func params ret vararg
  | internConstant _ constant ih => exact ih.internConstant constant

namespace Loader

/-- The step resolves something: it is made of steps that look something up, that add a type or a
constant, and that give up because of what is written. -/
inductive Resolves : {α : Type} → Loader α → Prop
  /-- An answer that needs nothing. -/
  | pure {α : Type} (value : α) : Resolves (Pure.pure value : Loader α)
  /-- A refusal, but not because of a name for a result of type void. -/
  | throw {α : Type} (error : ProgramError)
      (other : ∀ function name, error ≠ .namedVoidValue function name) :
      Resolves (MonadExcept.throw error : Loader α)
  /-- The program is looked at. -/
  | get : Resolves (MonadState.get : Loader Program)
  /-- Something is looked up in the program. -/
  | dangling {α : Type} (answer : Except Dangling α) : Resolves (liftM answer : Loader α)
  /-- A type is read from its text. -/
  | typeOfText (text : List Char) : Resolves (typeOfText text)
  /-- A function type is interned. -/
  | func (params : List TypeId) (ret : TypeId) (vararg : Bool) :
      Resolves (withTypes (·.func params ret vararg))
  /-- A constant is interned. -/
  | constant (constant : Constant) : Resolves (Loader.constant constant)
  /-- An integer constant is made. -/
  | constInt (type : TypeId) (value : Int) : Resolves (update (·.constInt type value))
  /-- Two such steps, the second one chosen by what the first one answers. -/
  | bind {α β : Type} {step : Loader α} {next : α → Loader β} (first : Resolves step)
      (second : ∀ a, Resolves (next a)) : Resolves (step >>= next)

/-- A list is resolved if each of its entries is. -/
theorem Resolves.mapM {α β : Type} {step : α → Loader β} (each : ∀ a, Resolves (step a))
    (list : List α) : Resolves (list.mapM step) :=
  Composes.mapM ⟨.pure, .bind⟩ each list

/-- **Resolving only adds types and constants.** -/
theorem Resolves.grows {α : Type} {step : Loader α} (resolves : Resolves step) {p q : Program}
    {value : α} (run : Yields step p value q) : p.Grows q := by
  induction resolves generalizing p q with
  | pure =>
    cases (yields_pure_iff.mp run).2
    exact .refl
  | throw => exact (yields_throw_iff.mp run).elim
  | get =>
    cases (yields_get_iff.mp run).2
    exact .refl
  | dangling =>
    cases (yields_dangling_iff.mp run).2
    exact .refl
  | typeOfText text =>
    simp only [Loader.typeOfText, yields_bind_iff, yields_get_iff, yields_set_iff,
      yields_except_iff] at run
    obtain ⟨_, _, ⟨rfl, rfl⟩, _, _, rfl, -, rfl⟩ := run
    exact .readText .refl text
  | func params ret vararg =>
    obtain ⟨-, rfl⟩ := yields_withTypes_iff.mp run
    exact .func .refl params ret vararg
  | constant constant =>
    cases yields_update_iff.mp run
    exact .internConstant .refl constant
  | constInt =>
    obtain ⟨_, -, same⟩ := Program.constInt_eq_ok (yields_update_iff.mp run)
    cases same
    exact .internConstant .refl _
  | bind _ _ first second =>
    obtain ⟨a, r, run, others⟩ := yields_bind_iff.mp run
    exact (first run).trans (second a others)

/-! ## Resolving

One lemma for each part of the loader that resolves something, in the order in which the parts are
built on each other. -/

mutual

theorem resolves_typeOf (node : TypeNode) : Resolves (typeOf node) := by
  cases node with
  | text text => exact .typeOfText _
  | func ret params vararg =>
    rw [typeOf]
    exact .bind (resolves_typeOf ret) fun _ =>
      .bind (resolves_typesOf params) fun _ => .func _ _ _

theorem resolves_typesOf (nodes : List TypeNode) : Resolves (typesOf nodes) := by
  cases nodes with
  | nil => exact .pure _
  | cons node rest =>
    rw [typesOf]
    exact .bind (resolves_typeOf node) fun _ =>
      .bind (resolves_typesOf rest) fun _ => .pure _

end

/-- By the words that every type knows, and then by the shape of the type; each branch makes one
constant or gives up. -/
theorem resolves_literal (type : TypeId) (text : List Char) : Resolves (literal type text) := by
  rw [literal]
  split
  · exact .constant _
  split
  · exact .constant _
  refine .bind .get fun _ =>
    .bind (.dangling _) fun shape => ?_
  split
  · split
    · exact .bind (.constInt _ _) fun _ => .pure _
    · exact .throw _ nofun
  · split
    · exact .constant _
    · exact .throw _ nofun
  · exact .throw _ nofun

/-- A name is looked up, and a symbol becomes a constant. -/
theorem resolves_named (scope : Scope) (name : List Char) : Resolves (named scope name) := by
  unfold named
  split
  · dsimp only
    split
    · exact .pure _
    · exact .throw _ nofun
  · refine .bind .get fun _ => ?_
    split
    · exact .constant _
    · refine .bind .get fun _ => ?_
      split
      · exact .constant _
      · exact .throw _ nofun

/-- However an operand is written, the steps that resolve it look something up or add a type or a
constant. -/
theorem resolves_operandOfText (scope : Scope) (text : List Char) :
    Resolves (operandOfText scope text) := by
  unfold operandOfText
  extract_lets text rest
  have leaves (done : Unit) : Resolves (rest done) := by
    dsimp only [rest]
    split
    · exact resolves_named scope text
    · split
      · exact .throw _ nofun
      · split
        · exact resolves_named scope _
        · exact .bind (.typeOfText _) fun type =>
            resolves_literal type _
  generalize text = text
  split
  · exact .pure _
  · split
    · dsimp only
      split
      · exact .pure _
      · exact .bind (.throw _ nofun) leaves
    · exact leaves ()

theorem resolves_requireConstant (node : OperandNode) (operand : Operand) :
    Resolves (requireConstant node operand) := by
  unfold requireConstant
  split
  · exact .pure _
  · exact .throw _ nofun

mutual

theorem resolves_operandOf (scope : Scope) (node : OperandNode) :
    Resolves (operandOf scope node) := by
  cases node with
  | text text => exact resolves_operandOfText scope _
  | aggregate type elems =>
    rw [operandOf]
    exact .bind (resolves_typeOf type) fun _ =>
      .bind (resolves_constantsOf scope elems) fun _ => .constant _

theorem resolves_constantsOf (scope : Scope) (nodes : List OperandNode) :
    Resolves (constantsOf scope nodes) := by
  cases nodes with
  | nil => exact .pure _
  | cons node rest =>
    rw [constantsOf]
    exact .bind (resolves_operandOf scope node) fun operand =>
      .bind (resolves_requireConstant node operand) fun _ =>
        .bind (resolves_constantsOf scope rest) fun _ => .pure _

end

end Loader

end IrStream
