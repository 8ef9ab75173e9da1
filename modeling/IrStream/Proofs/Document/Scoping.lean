import IrStream.Proofs.Document.Draft
import IrStream.Proofs.Document.Resolving

/-!
# Resolving in scope

`Loader.Ensures` is the judgment that a step of loading, run on a draft, leaves a draft, and what it
answers has a property there.  There is one rule for each way of making a step out of others.

What is resolved is in range: types are in the arena, and an operand is a constant, a text or what
its name stands for in the scope.  So if the scope has only names of what a function offers
(`Scope.Offered`), an operand that is resolved in it is offered as well (`ensures_operandOf`).

The judgment is a triple.  What is true before is fixed, since it is always the same: `p` is a
draft.  What is true behind is a property `Q` of the answer *and of the program that it lies in*,
because an answer is mostly a handle, and a handle means nothing without its program.  The rule for
`do` shows why that matters.  Between two steps the program may have grown, so what the first answer
had must still be so behind the second one, and therefore `Ensures.bind` hands the second step not
only `P q a` but also that `q` comes from `p` (`Program.Proceeds`).

Types, constants and operands are resolved by three layers of definitions, and the lemmas are one
for each definition.  `ensures_operandOf` is the one that other modules use.

## Statements

* `Ensures.bind`, `Ensures.mapM`, `Ensures.forM`: the rules.
* `ensures_typeOf`, `ensures_literal`, `ensures_named`: types, constants, and what a name stands
  for.
* `ensures_operandOf`: **an operand is offered by the function** in the scope of which it is
  resolved.
-/

set_option autoImplicit false

namespace IrStream

open Program

/-! ## Scopes

A scope that has names of what is offered keeps to that while the program grows, and while names of
what is offered are added. -/

/-- The names in a scope stand for what a function offers.  Names are brought in one by one, and
each stands for something of the function or for nothing. -/
structure Scope.Offered (program : Program) (func : FuncId) (scope : Scope) : Prop where
  value : ∀ {name value}, scope.values.lookup name = some value → program.Offers func value
  block : ∀ {name block}, scope.blocks.lookup name = some block →
    program.Offers func (.block block)

namespace Scope.Offered

variable {p q : Program} {func : FuncId} {scope after : Scope}

/-- No name stands for anything. -/
theorem of_nil (none : scope.values = []) (no : scope.blocks = []) : scope.Offered p func where
  value found := by simp [none] at found
  block found := by simp [no] at found

theorem mono (offered : scope.Offered p func) (keeps : p.Keeps q) : scope.Offered q func :=
  ⟨fun found => keeps.offers (offered.value found), fun found => keeps.offers (offered.block found)⟩

/-- A scope may be given a name for something that the function offers.  If the name has a meaning
already the step fails. -/
theorem defineValue (offered : scope.Offered p func) {name : String} {value : Operand}
    (offers : p.Offers func value) (run : scope.defineValue name value = .ok after) :
    after.Offered p func := by
  rw [Scope.defineValue] at run
  split at run
  · cases run
  · cases run
    refine ⟨fun found => ?_, offered.block⟩
    rw [List.lookup_cons] at found
    split at found
    · cases found
      exact offers
    · exact offered.value found

/-- It may be given a label for a block of the function.  Labels are not names of values, so they
may be the same texts. -/
theorem defineBlock (offered : scope.Offered p func) {label : String} {block : BlockId}
    (offers : p.Offers func (.block block)) (run : scope.defineBlock label block = .ok after) :
    after.Offered p func := by
  rw [Scope.defineBlock] at run
  split at run
  · cases run
  · cases run
    refine ⟨offered.value, fun found => ?_⟩
    rw [List.lookup_cons] at found
    split at found
    · cases found
      exact offers
    · exact offered.block found

end Scope.Offered

/-! ## Handles that are found -/

namespace Program

variable {program : Program}

theorem lt_size_of_findGlobal? {name : String} {id : GlobalId}
    (found : program.findGlobal? name = some id) : id.index < program.globals.size := by
  simp only [findGlobal?, Option.map_eq_some_iff, Array.findIdx?_eq_some_iff_getElem] at found
  obtain ⟨index, ⟨bound, -⟩, rfl⟩ := found
  exact bound

theorem lt_size_of_findFunction? {name : String} {id : FuncId}
    (found : program.findFunction? name = some id) : id.index < program.functions.size := by
  simp only [findFunction?, Option.map_eq_some_iff, Array.findIdx?_eq_some_iff_getElem] at found
  obtain ⟨index, ⟨bound, -⟩, rfl⟩ := found
  exact bound

/-- Types of operands are types of the program, since every entry of it has a type of the program.
This is where closedness is used: a type is inferred from an operand. -/
theorem Built.has_operandType? (built : program.Built) {operand : Operand} {type : TypeId}
    (typed : program.operandType? operand = .ok (some type)) : program.types.Has type := by
  cases operand with
  | const id =>
    simp only [operandType?, bind_eq_ok_iff, pure_eq_ok_iff, Option.some.injEq] at typed
    obtain ⟨constant, found, rfl⟩ := typed
    have inRange : constant.InRange program := built.complete.constant found
    exact inRange.has built.consistent.2
  | arg id =>
    simp only [operandType?, bind_eq_ok_iff, pure_eq_ok_iff, Option.some.injEq] at typed
    obtain ⟨arg, found, rfl⟩ := typed
    exact built.has_type_arg found
  | inst id =>
    simp only [operandType?, bind_eq_ok_iff, pure_eq_ok_iff, Option.some.injEq] at typed
    obtain ⟨inst, found, rfl⟩ := typed
    exact built.complete.result found
  | block id => cases typed
  | text text => cases typed

end Program

namespace Loader

/-! ## The judgment

Rules for the steps of which the loader is made.  Those for steps that look something up have what
was found as a hypothesis of the rest. -/

/-- Run on the draft `p`, the step leaves a draft, and what it answers has a property there.  If the
step fails there is nothing to show, since the loader stops. -/
def Ensures {α : Type} (p : Program) (step : Loader α) (Q : Program → α → Prop) : Prop :=
  ∀ ⦃value q⦄, Yields step p value q → p.Proceeds q ∧ Q q value

variable {α β : Type} {p q : Program}

namespace Ensures

variable {step : Loader α} {next : α → Loader β} {P : Program → α → Prop} {Q : Program → β → Prop}

theorem pure {value : α} (draft : p.Draft) (h : P p value) : Ensures p (Pure.pure value) P := by
  intro _ _ run
  obtain ⟨rfl, rfl⟩ := yields_pure_iff.mp run
  exact ⟨draft.refl, h⟩

theorem throw {error : ProgramError} : Ensures p (MonadExcept.throw error : Loader α) P :=
  fun _ _ run => (yields_throw_iff.mp run).elim

/-- The rest runs on the draft that the first step leaves, and knows that it comes from `p`. -/
theorem bind (first : Ensures p step P)
    (second : ∀ {q a}, p.Proceeds q → P q a → Ensures q (next a) Q) :
    Ensures p (step >>= next) Q := by
  intro _ _ run
  obtain ⟨a, r, run, others⟩ := yields_bind_iff.mp run
  obtain ⟨before, property⟩ := first run
  obtain ⟨behind, answers⟩ := second before property others
  exact ⟨before.trans behind, answers⟩

theorem get {next : Program → Loader β} (rest : Ensures p (next p) Q) :
    Ensures p (MonadState.get >>= next) Q := by
  intro _ _ run
  obtain ⟨_, _, got, others⟩ := yields_bind_iff.mp run
  obtain ⟨rfl, rfl⟩ := yields_get_iff.mp got
  exact rest others

theorem dangling {answer : Except Dangling α}
    (rest : ∀ {a}, answer = .ok a → Ensures p (next a) Q) :
    Ensures p (liftM answer >>= next) Q := by
  intro _ _ run
  obtain ⟨a, _, got, others⟩ := yields_bind_iff.mp run
  obtain ⟨found, rfl⟩ := yields_dangling_iff.mp got
  exact rest found others

theorem set {P : Program → PUnit → Prop} (proceeds : p.Proceeds q) (h : P q ⟨⟩) :
    Ensures p (MonadStateOf.set q) P := by
  intro _ _ run
  cases yields_set_iff.mp run
  exact ⟨proceeds, h⟩

theorem update {change : Program → Except ProgramError (α × Program)}
    (h : ∀ {value q}, change p = .ok (value, q) → p.Proceeds q ∧ P q value) :
    Ensures p (Loader.update change) P :=
  fun _ _ run => h (yields_update_iff.mp run)

/-- Each answer has a property that it does not lose.  What holds of an early answer has to hold at
the end, which is what `stays` is for. -/
theorem mapM {step : α → Loader β} {list : List α} (draft : p.Draft)
    (each : ∀ {q}, p.Proceeds q → ∀ a ∈ list, Ensures q (step a) Q)
    (stays : ∀ {q r b}, q.Proceeds r → Q q b → Q r b) :
    Ensures p (list.mapM step) fun q answers => ∀ answer ∈ answers, Q q answer := by
  induction list generalizing p with
  | nil => exact .pure draft (List.forall_mem_nil _)
  | cons a rest ih =>
    rw [List.mapM_cons]
    refine .bind (each draft.refl a List.mem_cons_self) fun {q b} before first => ?_
    refine .bind (ih before.draft fun behind other mem =>
      each (before.trans behind) other (List.mem_cons_of_mem a mem)) fun behind others => ?_
    exact .pure behind.draft (List.forall_mem_cons.mpr ⟨stays behind first, others⟩)

theorem forM {step : α → Loader PUnit} {list : List α} (draft : p.Draft)
    (each : ∀ {q}, q.Draft → ∀ a, Ensures q (step a) fun _ _ => True) :
    Ensures p (list.forM step) fun _ _ => True := by
  induction list generalizing p with
  | nil => exact .pure draft trivial
  | cons a rest ih => exact .bind (each draft a) fun before _ => ih before.draft

end Ensures

/-! ## Types

A type that was resolved is in the arena.  For an object of parts that goes by recursion on the
object. -/

/-- A text that spells a type leaves the types of the text behind, also where it is refused. -/
theorem ensures_typeOfText (draft : p.Draft) (text : List Char) :
    Ensures p (typeOfText text) fun q id => q.types.Has id := by
  intro id q run
  simp only [typeOfText, yields_bind_iff, yields_get_iff, yields_set_iff, yields_except_iff] at run
  obtain ⟨_, _, ⟨rfl, rfl⟩, _, _, rfl, spelled, rfl⟩ := run
  exact ⟨draft.proceeds_types (.readText _ text), Types.has_of_readText draft.ptr spelled⟩

theorem ensures_func (draft : p.Draft) {params : List TypeId} {ret : TypeId} (vararg : Bool)
    (hasParams : ∀ param ∈ params, p.types.Has param) (hasRet : p.types.Has ret) :
    Ensures p (withTypes (·.func params ret vararg)) fun q id => q.types.Has id := by
  intro id q run
  obtain ⟨rfl, rfl⟩ := yields_withTypes_iff.mp run
  have parts : ∀ child ∈ (TypeShape.func params ret vararg).children, p.types.Has child :=
    List.forall_mem_cons.mpr ⟨hasRet, hasParams⟩
  exact ⟨draft.proceeds_types (.intern _ parts), Types.has_intern _⟩

mutual

theorem ensures_typeOf {p : Program} (draft : p.Draft) (node : TypeNode) :
    Ensures p (typeOf node) fun q id => q.types.Has id := by
  cases node with
  | text text => exact ensures_typeOfText draft _
  | func ret params vararg =>
    rw [typeOf]
    refine .bind (ensures_typeOf draft ret) fun before hasRet => ?_
    refine .bind (ensures_typesOf before.draft params) fun behind hasParams => ?_
    exact ensures_func behind.draft vararg hasParams (behind.has hasRet)

/-- Types in a row: each is in the arena when it is read, and stays there while the others are.  The
induction is on the list of nodes. -/
theorem ensures_typesOf {p : Program} (draft : p.Draft) (nodes : List TypeNode) :
    Ensures p (typesOf nodes) fun q ids => ∀ id ∈ ids, q.types.Has id := by
  cases nodes with
  | nil =>
    rw [typesOf]
    exact .pure draft (List.forall_mem_nil _)
  | cons node rest =>
    rw [typesOf]
    refine .bind (ensures_typeOf draft node) fun before has => ?_
    refine .bind (ensures_typesOf before.draft rest) fun behind others => ?_
    exact .pure behind.draft (List.forall_mem_cons.mpr ⟨behind.has has, others⟩)

end

/-! ## Constants

Integers are cut to their width by `constInt`, so they are proper; other constants need a type of
their kind, which `literal` looks at before it makes one. -/

theorem ensures_constInt (draft : p.Draft) (type : TypeId) (value : Int) :
    Ensures p (update (·.constInt type value)) fun q id => id.index < q.constants.size :=
  .update draft.proceeds_constInt

theorem ensures_constant (draft : p.Draft) (func : FuncId) {value : Constant}
    (inRange : value.InRange p) (typed : value.Typed p) :
    Ensures p (constant value) fun q operand => q.Offers func operand := by
  refine .update fun run => ?_
  cases run
  exact ⟨draft.proceeds_internConstant inRange typed, Draft.lt_size_internConstant value⟩

/-- Literals are constants, and each of them has been interned when it is answered.  The type
decides what the literal may be, and an unfitting one is an error. -/
theorem ensures_literal (draft : p.Draft) (func : FuncId) {type : TypeId} (has : p.types.Has type)
    (text : List Char) : Ensures p (literal type text) fun q operand => q.Offers func operand := by
  have null : Constant.InRange p (.null type) := has
  have undef : Constant.InRange p (.undef type) := has
  rw [literal]
  split
  · exact ensures_constant draft func null trivial
  split
  · exact ensures_constant draft func undef trivial
  refine .get (.dangling fun {shape} found => ?_)
  split
  · split
    · exact .bind (ensures_constInt draft _ _) fun behind bound => .pure behind.draft bound
    · exact .throw
  · split
    · next bits _ =>
      have float : Constant.InRange p (.float type (UInt64.ofNat bits)) := has
      exact ensures_constant draft func float ⟨_, found⟩
    · exact .throw
  · exact .throw

/-! ## Operands -/

section

variable {func : FuncId} {scope : Scope} (draft : p.Draft) (offered : scope.Offered p func)
include draft offered

/-- A name stands for what it is in the scope, for a global or for a function.  If it is none of
these the step fails. -/
theorem ensures_named (name : List Char) :
    Ensures p (named scope name) fun q operand => q.Offers func operand := by
  unfold named
  split
  · dsimp only
    split
    · next found => exact .pure draft (offered.value found)
    · exact .throw
  · refine .get ?_
    split
    · next id found =>
      have inRange : Constant.InRange p (.global id) := lt_size_of_findGlobal? found
      exact ensures_constant draft func inRange trivial
    · refine .get ?_
      split
      · next id found =>
        have inRange : Constant.InRange p (.function id) := lt_size_of_findFunction? found
        exact ensures_constant draft func inRange trivial
      · exact .throw

/-- What an operand text means is something that the function may use: a constant, or one of its own
arguments, blocks or instructions. -/
theorem ensures_operandOfText (text : List Char) :
    Ensures p (operandOfText scope text) fun q operand => q.Offers func operand := by
  unfold operandOfText
  extract_lets text rest
  have others (done : Unit) : Ensures p (rest done) fun q operand => q.Offers func operand := by
    dsimp only [rest]
    split
    · exact ensures_named draft offered text
    · split
      · exact .throw
      · split
        · exact ensures_named draft offered _
        · exact .bind (ensures_typeOfText draft _) fun behind has =>
            ensures_literal behind.draft func has _
  generalize text = text
  split
  · exact .pure draft trivial
  · split
    · dsimp only
      split
      · next found => exact .pure draft (offered.block found)
      · exact .bind (P := fun _ _ => False) .throw fun _ never => never.elim
    · exact others ()

end

theorem ensures_requireConstant (draft : p.Draft) (node : OperandNode) {func : FuncId}
    {operand : Operand} (offers : p.Offers func operand) :
    Ensures p (requireConstant node operand) fun q id => id.index < q.constants.size := by
  unfold requireConstant
  split
  · exact .pure draft offers
  · exact .throw

mutual

/-- **An operand is offered by the function** in the scope of which it is resolved. -/
theorem ensures_operandOf {p : Program} {func : FuncId} {scope : Scope} (draft : p.Draft)
    (offered : scope.Offered p func) (node : OperandNode) :
    Ensures p (operandOf scope node) fun q operand => q.Offers func operand := by
  cases node with
  | text text => exact ensures_operandOfText draft offered _
  | aggregate type elems =>
    rw [operandOf]
    refine .bind (ensures_typeOf draft type) fun before has => ?_
    refine .bind (ensures_constantsOf before.draft (offered.mono before.keeps) elems)
      fun {q ids} behind elems => ?_
    have inRange : Constant.InRange q (.aggregate _ ids) := ⟨behind.has has, elems⟩
    exact ensures_constant behind.draft func inRange trivial

/-- Parts of an aggregate are constants, and constants belong to no function. -/
theorem ensures_constantsOf {p : Program} {func : FuncId} {scope : Scope} (draft : p.Draft)
    (offered : scope.Offered p func) (nodes : List OperandNode) :
    Ensures p (constantsOf scope nodes) fun q ids => ∀ id ∈ ids, id.index < q.constants.size := by
  cases nodes with
  | nil =>
    rw [constantsOf]
    exact .pure draft (List.forall_mem_nil _)
  | cons node rest =>
    rw [constantsOf]
    refine .bind (ensures_operandOf draft offered node) fun first offers => ?_
    refine .bind (ensures_requireConstant first.draft node offers) fun second bound => ?_
    have known := (offered.mono first.keeps).mono second.keeps
    refine .bind (ensures_constantsOf second.draft known rest) fun third others => ?_
    exact .pure third.draft (List.forall_mem_cons.mpr
      ⟨Nat.lt_of_lt_of_le bound third.keeps.constants, others⟩)

end

end Loader

end IrStream
