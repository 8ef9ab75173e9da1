import IrStream.Proofs.Document.Resolving
import IrStream.Proofs.Pairing.Program

/-!
# Resolving in two programs

`Loader.Parallel` is the judgment that two steps of loading, each run on its own program, leave
programs that are paired again and answers that are alike, if both succeed.  It holds of two `do`
blocks if it holds of their parts; the pairing grows on the way.

Types, constants and operands that are written the same resolve alike, in scopes in which every name
of the first stands for something alike in the second (`Scope.Alike`).

Nothing is said of steps that fail.  The first document of two is loaded in full before anything is
compared, and so is the second; a judgment for two runs that succeed is enough, and it is a simpler
one than `Encoding.Agrees`, in which one run has to succeed because the other one does.

What is answered is stated by a property of *the pairing behind* and the two answers.  For a later
step to use the answers, they have to be related under the pairing that is reached by then, so such
properties are stable under growth (`Pairing.Stable`).

## Statements

* `Parallel.bind`, `Parallel.mapM`, `Parallel.forM`, `Parallel.update`: the rules.
* `parallel_typeOf`: types, as texts or as nodes.
* `parallel_literal`, `parallel_constInt`: constants behind their types.
* `parallel_operandOfText`, `parallel_operandOf`: operands.  The scope of the second document may
  know more names, because the first one may lack instructions; so a name that the first one knows
  is what the lemma is about.
* `parallel_constantsOf`: the parts of an aggregate.
-/

set_option autoImplicit false

namespace IrStream

/-- What is related by a pairing is still related by a larger one.  Whatever a step has related has
to last until the function is finished. -/
def Pairing.Stable {α β : Type} (S : Pairing → α → β → Prop) : Prop :=
  ∀ {m larger : Pairing}, m.Le larger → ∀ {a b}, S m a b → S larger a b

/-- The names of the first scope stand for the same in the second, which may have more.  It has the
names of instructions that were deleted in the first document. -/
structure Scope.Alike (m : Pairing) (scope other : Scope) : Prop where
  /-- The scopes are of the same function. -/
  function : other.function = scope.function
  /-- A name of the first scope stands for something alike in the second. -/
  value : ∀ {name value}, scope.values.lookup name = some value →
    ∃ value', other.values.lookup name = some value' ∧ value.Alike m value'
  /-- The labels stand for the same blocks. -/
  blocks : other.blocks = scope.blocks

theorem Scope.Alike.mono {m larger : Pairing} (le : m.Le larger) {scope other : Scope}
    (h : scope.Alike m other) : scope.Alike larger other where
  function := h.function
  value found := by
    obtain ⟨value', there, alike⟩ := h.value found
    exact ⟨value', there, alike.mono le⟩
  blocks := h.blocks

namespace Loader

open Program

variable {α β γ δ : Type} {m : Pairing} {small large after afterLarge : Program}

/-- If both steps succeed, the programs that they leave are paired, and the answers have the
property `Q`, under a pairing that has all the pairs of `m`.  If one of them fails, nothing is said:
both documents are ones that load. -/
def Parallel (m : Pairing) (small large : Program) (left : Loader α) (right : Loader β)
    (Q : Pairing → α → β → Prop) : Prop :=
  small.Paired m large → ∀ {a after b afterLarge},
    Yields left small a after → Yields right large b afterLarge →
      ∃ larger, m.Le larger ∧ after.Paired larger afterLarge ∧ Q larger a b

namespace Parallel

variable {P Q : Pairing → α → β → Prop} {left : Loader α} {right : Loader β}

/-! ## Making steps out of steps -/

theorem pure {a : α} {b : β} (h : Q m a b) :
    Parallel m small large (Pure.pure a) (Pure.pure b) Q := by
  intro paired _ _ _ _ run run'
  obtain ⟨rfl, rfl⟩ := yields_pure_iff.mp run
  obtain ⟨rfl, rfl⟩ := yields_pure_iff.mp run'
  exact ⟨m, .refl m, paired, h⟩

theorem throw {error : ProgramError} :
    Parallel m small large (MonadExcept.throw error) right Q :=
  fun _ _ _ _ _ run => (yields_throw_iff.mp run).elim

/-- The programs may be taken to be paired.  So a proof can take out of the pairing what it needs
before it looks at the steps. -/
theorem of_paired (h : small.Paired m large → Parallel m small large left right Q) :
    Parallel m small large left right Q :=
  fun paired => h paired paired

theorem bind {next : α → Loader γ} {next' : β → Loader δ} {Q : Pairing → γ → δ → Prop}
    (first : Parallel m small large left right P)
    (second : ∀ {larger small large a b}, m.Le larger → P larger a b →
      Parallel larger small large (next a) (next' b) Q) :
    Parallel m small large (left >>= next) (right >>= next') Q := by
  intro paired c after d afterLarge run run'
  obtain ⟨a, middle, here, run⟩ := yields_bind_iff.mp run
  obtain ⟨b, middleLarge, there, run'⟩ := yields_bind_iff.mp run'
  obtain ⟨larger, le, paired, related⟩ := first paired here there
  obtain ⟨largest, more, paired, holds⟩ := second le related paired run run'
  exact ⟨largest, le.trans more, paired, holds⟩

theorem get {next next' : Program → Loader γ} {Q : Pairing → γ → γ → Prop}
    (rest : small.Paired m large → Parallel m small large (next small) (next' large) Q) :
    Parallel m small large (MonadState.get >>= next) (MonadState.get >>= next') Q := by
  intro paired c after d afterLarge run run'
  simp only [yields_bind_iff, yields_get_iff] at run run'
  obtain ⟨_, _, ⟨rfl, rfl⟩, run⟩ := run
  obtain ⟨_, _, ⟨rfl, rfl⟩, run'⟩ := run'
  exact rest paired paired run run'

theorem dangling {answer : Except Dangling α} {answer' : Except Dangling β}
    {next : α → Loader γ} {next' : β → Loader δ} {Q : Pairing → γ → δ → Prop}
    (rest : ∀ {a b}, answer = .ok a → answer' = .ok b →
      Parallel m small large (next a) (next' b) Q) :
    Parallel m small large (liftM answer >>= next) (liftM answer' >>= next') Q := by
  intro paired c after d afterLarge run run'
  simp only [yields_bind_iff, yields_dangling_iff] at run run'
  obtain ⟨a, _, ⟨found, rfl⟩, run⟩ := run
  obtain ⟨b, _, ⟨there, rfl⟩, run'⟩ := run'
  exact rest found there paired run run'

theorem except {answer : Except ProgramError α} {answer' : Except ProgramError β}
    (holds : ∀ {a b}, answer = .ok a → answer' = .ok b → Q m a b) :
    Parallel m small large (liftM answer) (liftM answer') Q := by
  intro paired a after b afterLarge run run'
  obtain ⟨found, rfl⟩ := yields_except_iff.mp run
  obtain ⟨there, rfl⟩ := yields_except_iff.mp run'
  exact ⟨m, .refl m, paired, holds found there⟩

theorem set {next next' : PUnit → Loader γ} {Q : Pairing → γ → γ → Prop} {p q : Program}
    {larger : Pairing} (le : m.Le larger) (paired : p.Paired larger q)
    (rest : Parallel larger p q (next ⟨⟩) (next' ⟨⟩) Q) :
    Parallel m small large (MonadStateOf.set p >>= next) (MonadStateOf.set q >>= next') Q := by
  intro _ c after d afterLarge run run'
  simp only [yields_bind_iff, yields_set_iff] at run run'
  obtain ⟨_, _, rfl, run⟩ := run
  obtain ⟨_, _, rfl, run'⟩ := run'
  obtain ⟨largest, more, paired, holds⟩ := rest paired run run'
  exact ⟨largest, le.trans more, paired, holds⟩

theorem update {step : Program → Except ProgramError (α × Program)}
    {step' : Program → Except ProgramError (β × Program)}
    (h : small.Paired m large → ∀ {a after b afterLarge}, step small = .ok (a, after) →
      step' large = .ok (b, afterLarge) →
        ∃ larger, m.Le larger ∧ after.Paired larger afterLarge ∧ Q larger a b) :
    Parallel m small large (Loader.update step) (Loader.update step') Q :=
  fun paired _ _ _ _ run run' =>
    h paired (yields_update_iff.mp run) (yields_update_iff.mp run')

/-! ## Steps over lists -/

/-- A step for each entry, where the relation may grow from one step to the next; what is related
stays related.  By induction on the related lists, with the pairing as it is at that point. -/
theorem mapM {S : Pairing → α → β → Prop} {Q : Pairing → γ → δ → Prop}
    (stable : Pairing.Stable S) (kept : Pairing.Stable Q) {step : α → Loader γ}
    {step' : β → Loader δ}
    (each : ∀ {m small large a b}, S m a b → Parallel m small large (step a) (step' b) Q)
    {as : List α} {bs : List β} (related : List.Forall₂ (S m) as bs) :
    Parallel m small large (as.mapM step) (bs.mapM step') fun m => List.Forall₂ (Q m) := by
  induction as generalizing m small large bs with
  | nil =>
    cases related
    rw [List.mapM_nil, List.mapM_nil]
    exact .pure .nil
  | cons a as ih =>
    cases related with
    | cons here rest =>
      rw [List.mapM_cons, List.mapM_cons]
      refine (each here).bind fun le holds => ?_
      refine (ih (rest.imp fun _ _ => stable le)).bind fun more others => ?_
      exact .pure (.cons (kept more holds) others)

/-- A loop for effects alone, over entries that are related. -/
theorem forM {S : Pairing → α → β → Prop} (stable : Pairing.Stable S) {step : α → Loader PUnit}
    {step' : β → Loader PUnit}
    (each : ∀ {m small large a b}, S m a b →
      Parallel m small large (step a) (step' b) fun _ _ _ => True)
    {as : List α} {bs : List β} (related : List.Forall₂ (S m) as bs) :
    Parallel m small large (as.forM step) (bs.forM step') fun _ _ _ => True := by
  induction as generalizing m small large bs with
  | nil =>
    cases related
    exact .pure trivial
  | cons a as ih =>
    cases related with
    | cons here rest => exact (each here).bind fun le _ => ih (rest.imp fun _ _ => stable le)

end Parallel

/-! ## Types -/

theorem parallel_typeOfText (text : List Char) :
    Parallel m small large (typeOfText text) (typeOfText text) (·.type) := by
  intro paired id after other afterLarge run run'
  simp only [typeOfText, yields_bind_iff, yields_get_iff, yields_set_iff, yields_except_iff]
    at run run'
  obtain ⟨_, _, ⟨rfl, rfl⟩, _, _, rfl, found, rfl⟩ := run
  obtain ⟨_, _, ⟨rfl, rfl⟩, _, _, rfl, there, rfl⟩ := run'
  obtain ⟨type, le, typesPaired, related⟩ := paired.types.readText (Prod.ext rfl found)
    (Prod.ext rfl there)
  exact ⟨_, Pairing.le_withTypes le, paired.withTypes le typesPaired, related⟩

/-- Function types with related parameters and results are related, in both cases of interning.  A
type that only one arena has yet gets different handles, and these are a new pair. -/
theorem parallel_func {params others : List TypeId} {ret other : TypeId} (vararg : Bool)
    (parameters : List.Forall₂ m.type params others) (result : m.type ret other) :
    Parallel m small large (withTypes (·.func params ret vararg))
      (withTypes (·.func others other vararg)) (·.type) := by
  intro paired id after other' afterLarge run run'
  obtain ⟨rfl, rfl⟩ := yields_withTypes_iff.mp run
  obtain ⟨rfl, rfl⟩ := yields_withTypes_iff.mp run'
  have le : m.type ≤ WithPair m.type (small.types.func params ret vararg).1
      (large.types.func others other vararg).1 := fun _ _ => .old
  exact ⟨_, Pairing.le_withTypes le,
    paired.withTypes le (paired.types.intern (.func vararg parameters result) rfl), .new⟩

mutual

theorem parallel_typeOf {m : Pairing} {small large : Program} (node : TypeNode) :
    Parallel m small large (typeOf node) (typeOf node) (·.type) := by
  cases node with
  | text text => exact parallel_typeOfText _
  | func ret params vararg =>
    rw [typeOf]
    refine (parallel_typeOf ret).bind fun le result => ?_
    refine (parallel_typesOf params).bind fun more parameters => ?_
    exact parallel_func vararg parameters (more.type result)

theorem parallel_typesOf {m : Pairing} {small large : Program} (nodes : List TypeNode) :
    Parallel m small large (typesOf nodes) (typesOf nodes) fun m => List.Forall₂ m.type := by
  cases nodes with
  | nil => exact .pure .nil
  | cons node rest =>
    rw [typesOf]
    refine (parallel_typeOf node).bind fun le related => ?_
    refine (parallel_typesOf rest).bind fun more others => ?_
    exact .pure (.cons (more.type related) others)

end

/-! ## Constants -/

theorem parallel_constant {value other : Constant} (alike : value.Alike m other) :
    Parallel m small large (constant value) (constant other) fun m a b => a.Alike m b := by
  refine .update fun paired {_ _ _ _} run run' => ?_
  cases run
  cases run'
  exact ⟨_, Pairing.le_withConstant _ _, paired.internConstant alike, .const .new⟩

theorem parallel_constInt {type other : TypeId} {value : Int} (related : m.type type other) :
    Parallel m small large (update (·.constInt type value)) (update (·.constInt other value))
      (·.constant) :=
  .update fun paired {_ _ _ _} run run' =>
    ⟨_, Pairing.le_withConstant _ _, paired.constInt related run run', .new⟩

/-- Which literals a type has depends on its shape only, and related types have shapes of one form.
-/
theorem parallel_literal {type other : TypeId} (related : m.type type other) (text : List Char) :
    Parallel m small large (literal type text) (literal other text) fun m a b => a.Alike m b := by
  rw [literal, literal]
  split
  · exact parallel_constant (.null related)
  split
  · exact parallel_constant (.undef related)
  refine .get fun paired => .dangling fun {shape shape'} found there => ?_
  cases paired.types.alike_of_shape related found there with
  | int bits =>
    dsimp only
    split
    · exact (parallel_constInt related).bind fun _ same => .pure (.const same)
    · exact .throw
  | float kind =>
    dsimp only
    split
    · exact parallel_constant (.float _ related)
    · exact .throw
  | _ => exact .throw

/-! ## Operands -/

section

variable {scope other : Scope} (alike : scope.Alike m other)
include alike

/-- A name is looked up in scopes that know the same names.  The second scope may know more names,
but the text is from an instruction that both have. -/
theorem parallel_named (name : List Char) :
    Parallel m small large (named scope name) (named other name) fun m a b => a.Alike m b := by
  unfold named
  split
  · dsimp only
    split
    · next found =>
      obtain ⟨value', there, related⟩ := alike.value found
      rw [there]
      exact .pure related
    · exact .throw
  · refine .get fun paired => ?_
    rw [paired.findGlobal?_eq]
    split
    · exact parallel_constant (.global (paired.whole.global_self _))
    · refine .get fun paired => ?_
      rw [paired.findFunction?_eq]
      split
      · exact parallel_constant (.function (paired.whole.function _))
      · exact .throw

/-- Which form an operand has is decided by its text, so both sides take the same branch.  It is a
text behind a mark, a label, a name, or a type with a name or a literal behind it. -/
theorem parallel_operandOfText (text : List Char) :
    Parallel m small large (operandOfText scope text) (operandOfText other text)
      fun m a b => a.Alike m b := by
  unfold operandOfText
  extract_lets text rest rest'
  have others (done : Unit) : Parallel m small large (rest done) (rest' done)
      fun m a b => a.Alike m b := by
    dsimp only [rest, rest']
    split
    · exact parallel_named alike text
    · split
      · exact .throw
      · split
        · exact parallel_named alike _
        · exact (parallel_typeOfText _).bind fun _ related => parallel_literal related _
  generalize text = text
  split
  · exact .pure (.text _)
  · split
    · dsimp only
      rw [alike.blocks]
      split
      · exact .of_paired fun paired => .pure (.block (paired.whole.block _))
      · exact Parallel.throw
    · exact others ()

end

theorem parallel_requireConstant (node : OperandNode) {operand other : Operand}
    (alike : operand.Alike m other) :
    Parallel m small large (requireConstant node operand) (requireConstant node other)
      (·.constant) := by
  cases alike with
  | const related => exact .pure related
  | _ => exact .throw

mutual

/-- By recursion on the node: a text, or an aggregate of nodes. -/
theorem parallel_operandOf {m : Pairing} {small large : Program} {scope other : Scope}
    (alike : scope.Alike m other) (node : OperandNode) :
    Parallel m small large (operandOf scope node) (operandOf other node)
      fun m a b => a.Alike m b := by
  cases node with
  | text text => exact parallel_operandOfText alike _
  | aggregate type elems =>
    rw [operandOf, operandOf]
    refine (parallel_typeOf type).bind fun le related => ?_
    refine (parallel_constantsOf (alike.mono le) elems).bind fun more parts => ?_
    exact parallel_constant (.aggregate (more.type related) parts)

/-- The elements of an aggregate, in the order in which they are written. -/
theorem parallel_constantsOf {m : Pairing} {small large : Program} {scope other : Scope}
    (alike : scope.Alike m other) (nodes : List OperandNode) :
    Parallel m small large (constantsOf scope nodes) (constantsOf other nodes)
      fun m => List.Forall₂ m.constant := by
  cases nodes with
  | nil => exact .pure .nil
  | cons node rest =>
    rw [constantsOf, constantsOf]
    refine (parallel_operandOf alike node).bind fun le operand => ?_
    refine (parallel_requireConstant node operand).bind fun more related => ?_
    refine (parallel_constantsOf (alike.mono (le.trans more)) rest).bind fun most others => ?_
    exact .pure (.cons (most.constant related) others)

end

end Loader

end IrStream
