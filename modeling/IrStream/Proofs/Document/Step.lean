import IrStream.Document.Loading
import IrStream.Proofs.Program.Lookup

/-!
# Steps of loading that succeed

`Loader.Yields step before value after` says that a step of loading succeeds, and from which program
to which.  As for encoding there is one equivalence for each way of making a step out of others, so
that a run of a `do` block is taken apart by `simp`.

A loop takes one entry after the other.  What a `do` block inherits from its steps, a loop inherits
from its rounds (`Composes`).  `yields_forM_each` is for loops whose rounds do not get in each
other's way: what a round does for its own entry is still there in the end.

The loader is a state monad over errors, and unfolding it in a proof shows a nest of matches on
pairs.  `Yields` is the only place where that happens.  Behind it a run is a conjunction of
equations between programs, and its shape is that of the `do` block: an existential for each
variable that is bound, and a program for each semicolon.

Judgments on steps come up again and again — that a step leaves bodies alone, that it never fails
for a certain reason, that it resolves something.  All of them hold of a block if they hold of its
steps.  `Composes` is exactly that property of a judgment, for any monad, and the rules for `mapM`,
`forM` and `foldlM` are proved from it once.

## What there is

* `yields_bind_iff`, `yields_pure_iff`, `yields_map_iff`, `yields_throw_iff`: blocks.
* `yields_update_iff`, `yields_withTypes_iff`: operations on the program, and operations on its
  types alone.
* `yields_mapM_cons_iff`, `yields_forM_cons_iff`: loops, one round at a time.
* `yields_forM_each`: a loop over entries that are done each for itself.
* `Composes.mapM`, `Composes.forM`, `Composes.foldlM`: loops of steps that have a property.
-/

set_option autoImplicit false

namespace IrStream

/-! ## Blocks -/

/-- A property that a `do` block has if each of its steps has it. -/
structure Composes (m : Type → Type) [Monad m] (P : {α : Type} → m α → Prop) : Prop where
  pure : ∀ {α : Type} (value : α), P (Pure.pure value : m α)
  bind : ∀ {α β : Type} {step : m α} {next : α → m β}, P step → (∀ a, P (next a)) →
    P (step >>= next)

namespace Composes

variable {m : Type → Type} [Monad m] {P : {α : Type} → m α → Prop} {α β : Type}

theorem mapM [LawfulMonad m] (composes : Composes m P) {step : α → m β} (each : ∀ a, P (step a))
    (list : List α) : P (list.mapM step) := by
  induction list with
  | nil => exact List.mapM_nil (f := step) ▸ composes.pure []
  | cons a rest ih =>
    rw [List.mapM_cons]
    exact composes.bind (each a) fun value => composes.bind ih fun more => composes.pure _

theorem forM (composes : Composes m P) {step : α → m PUnit} (each : ∀ a, P (step a))
    (list : List α) : P (list.forM step) := by
  induction list with
  | nil => exact composes.pure PUnit.unit
  | cons a rest ih => exact composes.bind (each a) fun _ => ih

theorem foldlM (composes : Composes m P) {step : β → α → m β} (each : ∀ b a, P (step b a))
    (start : β) (list : List α) : P (list.foldlM step start) := by
  induction list generalizing start with
  | nil => exact composes.pure start
  | cons a rest ih =>
    rw [List.foldlM_cons]
    exact composes.bind (each start a) ih

end Composes

namespace Loader

variable {α β : Type}

/-- The step succeeds: it turns `before` into `after` and answers `value`. -/
def Yields (step : Loader α) (before : Program) (value : α) (after : Program) : Prop :=
  step.run before = .ok (value, after)

variable {p q : Program}

/-! ## Making steps out of steps

All of these are for `simp`, which rewrites a run of a block to the runs of its steps. -/

@[simp] theorem yields_pure_iff {a value : α} :
    Yields (pure a) p value q ↔ value = a ∧ q = p := by
  constructor
  · intro h
    cases h
    exact ⟨rfl, rfl⟩
  · rintro ⟨rfl, rfl⟩
    rfl

@[simp] theorem yields_throw_iff {error : ProgramError} {value : α} :
    Yields (throw error) p value q ↔ False :=
  ⟨fun h => (nomatch h), False.elim⟩

@[simp] theorem yields_bind_iff {step : Loader α} {next : α → Loader β} {value : β} :
    Yields (step >>= next) p value q ↔ ∃ a r, Yields step p a r ∧ Yields (next a) r value q := by
  rw [Yields, StateT.run_bind, bind_eq_ok_iff]
  constructor
  · rintro ⟨⟨a, r⟩, first, second⟩
    exact ⟨a, r, first, second⟩
  · rintro ⟨a, r, first, second⟩
    exact ⟨(a, r), first, second⟩

@[simp] theorem yields_map_iff {step : Loader α} {f : α → β} {value : β} :
    Yields (f <$> step) p value q ↔ ∃ a, Yields step p a q ∧ value = f a := by
  rw [← bind_pure_comp]
  simp only [yields_bind_iff, yields_pure_iff]
  constructor
  · rintro ⟨a, r, first, rfl, rfl⟩
    exact ⟨a, first, rfl⟩
  · rintro ⟨a, first, rfl⟩
    exact ⟨a, q, first, rfl, rfl⟩

@[simp] theorem yields_dangling_iff {answer : Except Dangling α} {value : α} :
    Yields (liftM answer) p value q ↔ answer = .ok value ∧ q = p := by
  cases answer with
  | ok a =>
    refine Iff.trans (yields_pure_iff (a := a)) ?_
    simp [eq_comm]
  | error handle => exact ⟨fun h => (nomatch h), fun h => nomatch h.1⟩

@[simp] theorem yields_except_iff {answer : Except ProgramError α} {value : α} :
    Yields (liftM answer) p value q ↔ answer = .ok value ∧ q = p := by
  cases answer with
  | ok a =>
    refine Iff.trans (yields_pure_iff (a := a)) ?_
    simp [eq_comm]
  | error error => exact ⟨fun h => (nomatch h), fun h => nomatch h.1⟩

@[simp] theorem yields_get_iff {program : Program} :
    Yields get p program q ↔ program = p ∧ q = p := by
  constructor
  · intro h
    cases h
    exact ⟨rfl, rfl⟩
  · rintro ⟨rfl, rfl⟩
    rfl

@[simp] theorem yields_set_iff {program : Program} {done : PUnit} :
    Yields (set program) p done q ↔ q = program := by
  constructor
  · intro h
    cases h
    rfl
  · rintro rfl
    rfl

@[simp] theorem yields_update_iff {step : Program → Except ProgramError (α × Program)} {value : α} :
    Yields (update step) p value q ↔ step p = .ok (value, q) := by
  simp only [update, yields_bind_iff, yields_get_iff, yields_except_iff, yields_set_iff,
    yields_pure_iff]
  constructor
  · rintro ⟨_, _, ⟨rfl, rfl⟩, _, _, ⟨run, rfl⟩, _, _, rfl, rfl, rfl⟩
    exact run
  · intro run
    exact ⟨p, p, ⟨rfl, rfl⟩, _, p, ⟨run, rfl⟩, (), q, rfl, rfl, rfl⟩

theorem run_update {α : Type} (step : Program → Except ProgramError (α × Program))
    (p : Program) : (update step).run p = step p := by
  cases outcome : step p with
  | ok pair => exact yields_update_iff.mpr outcome
  | error error =>
    rw [update, StateT.run_bind, StateT.run_get, pure_bind, StateT.run_bind]
    dsimp only
    rw [outcome]
    rfl

@[simp] theorem yields_withTypes_iff {step : Types → α × Types} {value : α} :
    Yields (withTypes step) p value q ↔
      value = (step p.types).1 ∧ q = { p with types := (step p.types).2 } := by
  simp [withTypes, and_comm]

/-! ## Steps over lists

The equations at the two constructors of a list, for inductions on the list that a loop goes over.
-/

theorem yields_mapM_nil_iff {step : α → Loader β} {values : List β} :
    Yields ([].mapM step) p values q ↔ values = [] ∧ q = p := by
  rw [List.mapM_nil]
  exact yields_pure_iff

/-- The first entry is done before the others, in the program that the loop began with. -/
theorem yields_mapM_cons_iff {step : α → Loader β} {a : α} {rest : List α} {values : List β} :
    Yields ((a :: rest).mapM step) p values q ↔
      ∃ value r more, Yields (step a) p value r ∧ Yields (rest.mapM step) r more q
        ∧ values = value :: more := by
  rw [List.mapM_cons]
  simp only [yields_bind_iff, yields_pure_iff]
  constructor
  · rintro ⟨value, r, first, more, s, others, rfl, rfl⟩
    exact ⟨value, r, more, first, others, rfl⟩
  · rintro ⟨value, r, more, first, others, rfl⟩
    exact ⟨value, r, first, more, q, others, rfl, rfl⟩

theorem yields_forM_nil_iff {step : α → Loader PUnit} {done : PUnit} :
    Yields ([].forM step) p done q ↔ q = p := by
  rw [List.forM_eq_forM, List.forM_nil, yields_pure_iff]
  exact and_iff_right rfl

theorem yields_forM_cons_iff {step : α → Loader PUnit} {a : α} {rest : List α} {done : PUnit} :
    Yields ((a :: rest).forM step) p done q ↔
      ∃ r, Yields (step a) p () r ∧ Yields (rest.forM step) r () q := by
  rw [List.forM_eq_forM, List.forM_cons, yields_bind_iff]
  exact ⟨fun ⟨_, r, first, others⟩ => ⟨r, first, others⟩,
    fun ⟨r, first, others⟩ => ⟨(), r, first, others⟩⟩

/-- A loop whose rounds keep what the other entries need and what they got: if every entry is ready
before the loop, every entry is done behind it, and what was done before is still done.  Entries are
told apart by a key. -/
theorem yields_forM_each {κ : Type} {key : α → κ} (Ready Done : α → Program → Prop)
    {step : α → Loader PUnit}
    (round : ∀ {a r s}, Ready a r → Yields (step a) r () s → Done a s)
    (ready : ∀ {a other r s}, Ready a r → Yields (step a) r () s → key other ≠ key a →
      Ready other r → Ready other s)
    (still : ∀ {a other r s}, Ready a r → Yields (step a) r () s → key other ≠ key a →
      Done other r → Done other s)
    {list : List α} (distinct : (list.map key).Nodup) (before : ∀ a ∈ list, Ready a p)
    {answer : PUnit} (run : Yields (list.forM step) p answer q) :
    (∀ a ∈ list, Done a q)
      ∧ ∀ other, key other ∉ list.map key → Done other p → Done other q := by
  induction list generalizing p with
  | nil =>
    cases yields_forM_nil_iff.mp run
    exact ⟨by simp, fun _ _ h => h⟩
  | cons a rest ih =>
    obtain ⟨r, first, others⟩ := yields_forM_cons_iff.mp run
    obtain ⟨new, distinct⟩ := List.nodup_cons.mp distinct
    have here := before a List.mem_cons_self
    have apart : ∀ b ∈ rest, key b ≠ key a := by
      intro b mem same
      exact new (same ▸ List.mem_map_of_mem mem)
    obtain ⟨behind, kept⟩ := ih distinct
      (fun b mem => ready here first (apart b mem) (before b (List.mem_cons_of_mem _ mem))) others
    refine ⟨fun b mem => ?_, fun other outside h => ?_⟩
    · rcases List.mem_cons.mp mem with rfl | mem
      · exact kept _ new (round here first)
      · exact behind b mem
    · rw [List.map_cons, List.mem_cons, not_or] at outside
      exact kept other outside.2 (still here first outside.1 h)

end Loader

end IrStream
