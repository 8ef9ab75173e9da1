import IrStream.Proofs.Pairing.Constants
import IrStream.Proofs.Pairing.Types

/-!
# What look-ups answer in two programs

`Agree` relates the answers of two programs: both are values, which are related, or both are errors,
which are related as well.

`Program.Alike` says what two programs have in common under a pairing: look-ups of related handles
agree, and what they answer is alike again.  It is all that encoding needs to know of two programs
to go the same way in both, and there is more than one way to come by it.  Two programs that are
built side by side have it (`Program.Paired.alike`), and so have a program and one that has the same
entries under other handles (`Program.Embedded.alike`).

The modules behind this one go by the interface and never by the way in which it was come by.  What
is in it was chosen by what they look up: the entries of every arena, by related handles, and which
blocks and functions are met on the way.  Functions, blocks and arguments are there in both programs
or in none, and that is what makes errors agree: a handle that is dangling in one program is so in
the other one.

`Agree` has a relation for values and one for errors, and mostly the second one is equality.  It is
something else where an error tells a handle, and where it does not matter which error it is.

## What is here

* `Agree` — the relation between answers, with a rule for each way to make answers out of answers.
* `Program.Alike` — the interface that the modules on texts, layouts and encoding go by.
* look-ups of types, constants and named results in programs that are alike.
-/

set_option autoImplicit false

namespace IrStream

/-! ## Answers

Values with values, errors with errors.  The rules are the ones of `do` blocks and of loops. -/

/-- Both answers are values, related by `Q`, or both are errors, related by `E`. -/
inductive Agree {α β ε δ : Type} (E : ε → δ → Prop) (Q : α → β → Prop) :
    Except ε α → Except δ β → Prop
  /-- Both answer. -/
  | ok {a : α} {b : β} (related : Q a b) : Agree E Q (.ok a) (.ok b)
  /-- Both fail, for reasons that go together. -/
  | error {left : ε} {right : δ} (related : E left right) : Agree E Q (.error left) (.error right)

namespace Agree

variable {α β γ ζ ε δ : Type} {E : ε → δ → Prop} {P Q : α → β → Prop} {answer : Except ε α}
  {answer' : Except δ β}

theorem imp (h : Agree E P answer answer') (weaker : ∀ {a b}, P a b → Q a b) :
    Agree E Q answer answer' := by
  cases h with
  | ok related => exact .ok (weaker related)
  | error related => exact .error related

theorem refl (answer : Except ε α) : Agree Eq Eq answer answer := by
  cases answer with
  | ok a => exact .ok rfl
  | error left => exact .error rfl

theorem pure {a : α} {b : β} (related : Q a b) :
    Agree E Q (Pure.pure a : Except ε α) (Pure.pure b : Except δ β) :=
  .ok related

/-- Values that agree are what was answered. -/
theorem found (h : Agree E Q answer answer') :
    Agree E (fun a b => Q a b ∧ answer = .ok a) answer answer' := by
  cases h with
  | ok related => exact .ok ⟨related, rfl⟩
  | error related => exact .error related

theorem bind {next : α → Except ε γ} {next' : β → Except δ ζ} {Q : γ → ζ → Prop}
    (first : Agree E P answer answer') (second : ∀ {a b}, P a b → Agree E Q (next a) (next' b)) :
    Agree E Q (answer >>= next) (answer' >>= next') := by
  cases first with
  | ok related => exact second related
  | error related => exact .error related

theorem mapM {S : γ → ζ → Prop} {step : γ → Except ε α} {step' : ζ → Except δ β} {as : List γ}
    {bs : List ζ} (related : List.Forall₂ S as bs)
    (each : ∀ {a b}, S a b → Agree E Q (step a) (step' b)) :
    Agree E (List.Forall₂ Q) (as.mapM step) (bs.mapM step') := by
  induction related with
  | nil =>
    rw [List.mapM_nil, List.mapM_nil]
    exact .pure .nil
  | cons here _ ih =>
    rw [List.mapM_cons, List.mapM_cons]
    exact (each here).bind fun first => ih.bind fun rest => .pure (.cons first rest)

/-- Answers of a kind that are equal whenever they are values. -/
theorem mapM_eq {S : γ → ζ → Prop} {step : γ → Except ε α} {step' : ζ → Except δ α}
    {as : List γ} {bs : List ζ} (related : List.Forall₂ S as bs)
    (each : ∀ {a b}, S a b → Agree E Eq (step a) (step' b)) :
    Agree E Eq (as.mapM step) (bs.mapM step') :=
  (mapM related each).imp fun same => List.forall₂_eq_eq_eq ▸ same

/-- Errors may be turned into related errors of another kind. -/
theorem mapError {ε' δ' : Type} {E' : ε' → δ' → Prop} (h : Agree E Q answer answer') {f : ε → ε'}
    {g : δ → δ'} (faults : ∀ {left right}, E left right → E' (f left) (g right)) :
    Agree E' Q (answer.mapError f) (answer'.mapError g) := by
  cases h with
  | ok related => exact .ok related
  | error related => exact .error (faults related)

theorem of_ok (h : Agree E Q answer answer') {a : α} {b : β} (found : answer = .ok a)
    (there : answer' = .ok b) : Q a b := by
  cases h with
  | ok related =>
    cases found
    cases there
    exact related
  | error => cases found

/-- There are two values or none. -/
theorem exists_iff (h : Agree E Q answer answer') :
    (∃ b, answer' = .ok b) ↔ ∃ a, answer = .ok a := by
  cases h with
  | ok => simp
  | error => simp

end Agree

/-- Arenas with related entries at the same places answer related entries, or both have none. -/
theorem SameArena.agree_resolve {α β : Type} {R : α → β → Prop} {as : Array α} {bs : Array β}
    (h : SameArena R as bs) (index : Nat) (handle : Dangling) :
    Agree Eq R (resolve as index handle) (resolve bs index handle) := by
  cases found : as[index]? with
  | none =>
    have none : bs[index]? = none := by
      rw [Array.getElem?_eq_none_iff, ← h.size]
      exact Array.getElem?_eq_none_iff.mp found
    rw [resolve, resolve, found, none]
    exact .error rfl
  | some a =>
    obtain ⟨b, there, related⟩ := h.exists_right found
    rw [resolve, resolve, found, there]
    exact .ok related

namespace Types.Embeds

variable {R : TypeId → TypeId → Prop} {small large : Types} (embeds : small.Embeds R large)
  {id other : TypeId} (related : R id other)
include embeds related

theorem agree_shape : Agree Eq (TypeShape.Alike R) (small.shape id) (large.shape other) := by
  obtain ⟨_, _, found, there, alike⟩ := embeds.shape related
  rw [found, there]
  exact .ok alike

theorem agree_isVoid : Agree Eq Eq (small.isVoid id) (large.isVoid other) :=
  (embeds.agree_shape related).bind fun alike => .pure alike.isVoid_eq.symm

end Types.Embeds

/-! ## Programs that are alike -/

namespace Program

/-- Look-ups of related handles agree, and what they answer is alike. -/
structure Alike (m : Pairing) (small large : Program) : Prop where
  /-- Sizes are computed for the same target. -/
  layout : large.layout = small.layout
  /-- The types that every arena begins with have the same handles. -/
  basic : ∀ {id : TypeId}, id.index ≤ 5 → m.type id id
  /-- Types of the first program have related types in the second. -/
  types : small.types.Embeds m.type large.types
  /-- Constants of the first program have related constants in the second. -/
  constants : small.constants.Embeds m large.constants
  /-- No global is related to two. -/
  biUnique_global : Relator.BiUnique m.global
  /-- No instruction is related to two. -/
  biUnique_inst : Relator.BiUnique m.inst
  /-- Globals that are related are both there or both missing. -/
  global : ∀ {id other}, m.global id other →
    Agree Eq (Global.Alike m) (small.global id) (large.global other)
  /-- A function that both programs have is the same up to handles. -/
  function : ∀ {id}, m.function id →
    Agree Eq (Function.Alike m) (small.function id) (large.function id)
  /-- A block that both programs have is the same up to handles. -/
  block : ∀ {id}, m.block id → Agree Eq (Block.Alike m) (small.block id) (large.block id)
  /-- An argument that both programs have is the same up to handles. -/
  arg : ∀ {id}, m.arg id → Agree Eq (Arg.Alike m) (small.arg id) (large.arg id)
  /-- Instructions that are related are there, and alike. -/
  inst : ∀ {id other}, m.inst id other → ∃ first second, small.inst id = .ok first
    ∧ large.inst other = .ok second ∧ first.Alike m second
  /-- Operands show a result by its name, or by a handle that is the same in both programs. -/
  value : ∀ {id other}, m.value id other → m.inst id other
    ∧ ∀ {inst}, small.inst id = .ok inst → inst.name.isSome = true ∨ other = id
  /-- An instruction that only the second program has is a debug instruction. -/
  dropped : ∀ {id}, m.dropped id → ∃ inst, large.inst id = .ok inst ∧ inst.kind.isDebug = true
  /-- Blocks of a function that both programs have are in both programs. -/
  listed : ∀ {id function}, m.function id → small.function id = .ok function →
    ∀ block ∈ function.blocks, m.block block
  /-- The function of a block that both programs have is in both programs. -/
  owner : ∀ {id block}, m.block id → small.block id = .ok block → m.function block.func

namespace Alike

variable {m : Pairing} {small large : Program} (programs : small.Alike m large)
include programs

theorem biUnique_constant : Relator.BiUnique (Constant.Alike m) :=
  ⟨fun _ _ _ first second => first.left_unique programs.types.left programs.constants.left
      programs.biUnique_global.1 second,
    fun _ _ _ first second => first.right_unique programs.types.right programs.constants.right
      programs.biUnique_global.2 second⟩

theorem agree_constant {id other : ConstId} (related : m.constant id other) :
    Agree Eq (Constant.Alike m) (small.constant id) (large.constant other) := by
  obtain ⟨_, _, found, there, alike⟩ := programs.constants.constant related
  rw [Program.constant, Program.constant, found, there]
  exact .ok alike

theorem agree_inst {id other : InstId} (related : m.inst id other) :
    Agree Eq (Inst.Alike m) (small.inst id) (large.inst other) := by
  obtain ⟨_, _, found, there, alike⟩ := programs.inst related
  rw [found, there]
  exact .ok alike

end Alike

end Program

end IrStream
