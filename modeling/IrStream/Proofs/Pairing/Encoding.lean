import IrStream.Proofs.Encode.Step
import IrStream.Proofs.Encode.WellFormed
import IrStream.Proofs.Pairing.Layout
import IrStream.Proofs.Pairing.Tables
import IrStream.Proofs.Pairing.Text

/-!
# Encoding two programs

`Encoding.Agrees` is the judgment that two steps of encoding, run on states that are alike, both
succeed or both fail, and that states that they leave are alike again.  It holds of two `do` blocks
if it holds of their parts, so the proof for a function of the encoder follows its text.

How much of the states is the same depends on the pairing.  Positions in the three tables always
are, and so are the counts, except for skipped instructions.  If instructions keep their handles and
none is dropped (`Pairing.Exact`), then counts, log and errors are the same as well.  One judgment
says both, so nothing has to be shown twice: a step that only agrees if handles are kept has that as
a hypothesis of one of its parts (`agrees_log`, `agrees_count`, `Agrees.throw`).

The judgment is a relational one: it is about two runs at once and says nothing about either of
them.  That is what lets the proofs be so much alike to the definitions.  There is no case for
success and no case for failure, and no statement about how the states look, except in the steps
that register something.

Log and counts could have been left out and treated apart.  They are in the relation because they
are part of the outcome: an encoder that fails keeps what it has logged.

## What is here

* `EncodeState.Alike` — states with the same keys, up to handles.
* `EncodeState.Outcomes` — what two runs may come to.
* `Encoding.Agrees` — the judgment, with a rule for each way to make steps out of steps.
* `agrees_registerType`, `agrees_registerConstant`, `agrees_registerGlobal` — the steps that change
  the tables.
-/

set_option autoImplicit false

namespace IrStream

/-! ## States that are alike

Tables that are alike have equal positions for related keys, and so whatever is written is the same.
-/

/-- The counts are the same, except for skipped instructions. -/
def EncodeStats.SameEmitted (stats other : EncodeStats) : Prop :=
  ∃ skipped, other = { stats with skippedInstructions := skipped }

/-- The tables are alike, and the counts the same except for skipped instructions.  If instructions
keep their handles, counts and log are the same. -/
structure EncodeState.Alike (m : Pairing) (state other : EncodeState) : Prop where
  /-- The type tables have related types at the same positions. -/
  types : state.types.Alike m.type other.types
  /-- The tables of constants have constants that are alike at the same positions. -/
  constants : state.constants.Alike (Constant.Alike m) other.constants
  /-- The tables of globals have related globals at the same positions. -/
  globals : state.globals.Alike m.global other.globals
  /-- All counts but the one of skipped instructions are the same. -/
  stats : state.stats.SameEmitted other.stats
  /-- Where handles are kept, nothing differs. -/
  exact : m.Exact → other.stats = state.stats ∧ other.log = state.log

theorem EncodeState.Alike.initial (m : Pairing) : EncodeState.Alike m .initial .initial :=
  ⟨.empty, .empty, .empty, ⟨0, rfl⟩, fun _ => ⟨rfl, rfl⟩⟩

/-- Both steps succeed, with answers that are related and states that are alike, or both fail.  If
instructions keep their handles, they fail with the same error and the same log. -/
inductive EncodeState.Outcomes {α β : Type} (m : Pairing) (Q : α → β → Prop) :
    Except EncodeError α × EncodeState → Except EncodeError β × EncodeState → Prop
  | ok {a : α} {b : β} {state other : EncodeState} (alike : state.Alike m other)
      (related : Q a b) : Outcomes m Q (.ok a, state) (.ok b, other)
  | error {left right : EncodeError} {state other : EncodeState}
      (exact : m.Exact → right = left ∧ other.log = state.log) :
      Outcomes m Q (.error left, state) (.error right, other)

namespace Encoding

open EncodeState

variable {α β γ δ : Type} {m : Pairing}

/-- Run on states that are alike, the steps have outcomes that agree. -/
def Agrees (m : Pairing) (left : Encoding α) (right : Encoding β) (Q : α → β → Prop) : Prop :=
  ∀ ⦃s t : EncodeState⦄, s.Alike m t → Outcomes m Q (left.run.run s) (right.run.run t)

namespace Agrees

variable {P Q : α → β → Prop} {left : Encoding α} {right : Encoding β}

/-! ## Making steps out of steps

The rules follow the shapes that `do` blocks have: a value, an error, one step after the other, a
look-up, a loop, and reading or writing the state. -/

theorem pure {a : α} {b : β} (related : Q a b) : Agrees m (Pure.pure a) (Pure.pure b) Q :=
  fun _ _ alike => .ok alike related

/-- Both fail.  Their errors may be different only if handles are. -/
theorem throw {error error' : EncodeError} (same : m.Exact → error' = error) :
    Agrees m (MonadExcept.throw error : Encoding α) (MonadExcept.throw error' : Encoding β) Q :=
  fun _ _ alike => .error fun exact => ⟨same exact, (alike.exact exact).2⟩

theorem imp (h : Agrees m left right P) (weaker : ∀ {a b}, P a b → Q a b) :
    Agrees m left right Q := by
  intro s t alike
  have outcomes := h alike
  generalize left.run.run s = first, right.run.run t = second at outcomes ⊢
  cases outcomes with
  | ok alike related => exact .ok alike (weaker related)
  | error exact => exact .error exact

theorem bind {next : α → Encoding γ} {next' : β → Encoding δ} {Q : γ → δ → Prop}
    (first : Agrees m left right P)
    (second : ∀ {a b}, P a b → Agrees m (next a) (next' b) Q) :
    Agrees m (left >>= next) (right >>= next') Q := by
  intro s t alike
  have run : (left >>= next).run.run s
      = ExceptT.bindCont next (left.run.run s).1 (left.run.run s).2 := rfl
  have run' : (right >>= next').run.run t
      = ExceptT.bindCont next' (right.run.run t).1 (right.run.run t).2 := rfl
  have outcomes := first alike
  rw [run, run']
  generalize left.run.run s = first, right.run.run t = second at outcomes ⊢
  cases outcomes with
  | ok alike related => exact second related alike
  | error exact => exact .error exact

/-- Whatever would follow, both fail. -/
theorem throw_bind {error error' : EncodeError} {next : α → Encoding γ} {next' : β → Encoding δ}
    {Q : γ → δ → Prop} (same : m.Exact → error' = error) :
    Agrees m (MonadExcept.throw error >>= next) (MonadExcept.throw error' >>= next') Q :=
  bind (P := fun _ _ => False) (throw same) fun never => never.elim

theorem dangling {answer : Except Dangling α} {answer' : Except Dangling β}
    (agree : Agree Eq Q answer answer') :
    Agrees m (liftM answer : Encoding α) (liftM answer' : Encoding β) Q := by
  cases agree with
  | ok related => exact .pure related
  | error same => exact .throw fun _ => same ▸ rfl

theorem mapM {S : γ → δ → Prop} {step : γ → Encoding α} {step' : δ → Encoding β} {as : List γ}
    {bs : List δ} (related : List.Forall₂ S as bs)
    (each : ∀ {a b}, S a b → Agrees m (step a) (step' b) Q) :
    Agrees m (as.mapM step) (bs.mapM step') (List.Forall₂ Q) := by
  induction related with
  | nil =>
    rw [List.mapM_nil, List.mapM_nil]
    exact .pure .nil
  | cons here _ ih =>
    rw [List.mapM_cons, List.mapM_cons]
    exact (each here).bind fun first => ih.bind fun rest => .pure (.cons first rest)

/-- Rows of steps with the same answers have the same answers. -/
theorem mapM_eq {S : γ → δ → Prop} {step : γ → Encoding α} {step' : δ → Encoding α} {as : List γ}
    {bs : List δ} (related : List.Forall₂ S as bs)
    (each : ∀ {a b}, S a b → Agrees m (step a) (step' b) Eq) :
    Agrees m (as.mapM step) (bs.mapM step') Eq :=
  (mapM related each).imp fun same => List.forall₂_eq_eq_eq ▸ same

theorem get {next next' : EncodeState → Encoding γ} {Q : γ → γ → Prop}
    (rest : ∀ {s t : EncodeState}, s.Alike m t → Agrees m (next s) (next' t) Q) :
    Agrees m (MonadState.get >>= next) (MonadState.get >>= next') Q :=
  fun _ _ alike => rest alike alike

theorem set {next next' : PUnit → Encoding γ} {Q : γ → γ → Prop} {s t : EncodeState}
    (alike : s.Alike m t) (rest : Agrees m (next ⟨⟩) (next' ⟨⟩) Q) :
    Agrees m (MonadStateOf.set s >>= next) (MonadStateOf.set t >>= next') Q :=
  fun _ _ _ => rest alike

/-- A step that succeeds does so in the other program. -/
theorem yields (agrees : Agrees m left right Q) {s s' t : EncodeState} {a : α}
    (alike : s.Alike m t) (run : Yields left s a s') :
    ∃ b t', Yields right t b t' ∧ Q a b ∧ s'.Alike m t' := by
  have outcomes := agrees alike
  rw [show left.run.run s = (.ok a, s') from run] at outcomes
  generalize run' : right.run.run t = second at outcomes
  cases outcomes with
  | ok alike related => exact ⟨_, _, run', related, alike⟩

end Agrees

/-! ## Primitive steps -/

theorem agrees_log {event event' : LogEvent} (same : m.Exact → event' = event) :
    Agrees m (log event) (log event') fun _ _ => True :=
  fun _ _ alike => .ok { alike with
    exact := fun exact => ⟨(alike.exact exact).1,
      congrArg₂ Array.push (alike.exact exact).2 (same exact)⟩ } trivial

/-- Both count the same, whatever was skipped so far.  If a handle may have changed, one of them may
count more skipped instructions. -/
theorem agrees_count {step step' : EncodeStats → EncodeStats}
    (same : ∀ (stats : EncodeStats) (skipped : Nat),
      (step stats).SameEmitted (step' { stats with skippedInstructions := skipped }))
    (exact : m.Exact → step' = step) :
    Agrees m (count step) (count step') fun _ _ => True := by
  intro s t alike
  obtain ⟨skipped, counted⟩ := alike.stats
  refine .ok { alike with stats := ?_, exact := fun kept => ?_ } trivial
  · dsimp only
    rw [counted]
    exact same s.stats skipped
  · obtain ⟨stats, log⟩ := alike.exact kept
    refine ⟨?_, log⟩
    dsimp only
    rw [exact kept, stats]

theorem agrees_sized (word : WordSize) (value : Nat) :
    Agrees m (sized word value) (sized word value) Eq := by
  unfold sized WordSize.fit
  split
  · exact .pure rfl
  · exact .throw fun _ => rfl

theorem agrees_unterminated {text text' : String} (free : NulFree text ↔ NulFree text')
    (same : m.Exact → text' = text) :
    Agrees m (unterminated text) (unterminated text') fun a b => a = text ∧ b = text' := by
  unfold unterminated fitText
  by_cases clean : NulFree text
  · rw [if_neg clean, if_neg (free.mp clean)]
    exact .pure ⟨rfl, rfl⟩
  · rw [if_pos (not_not.mp clean), if_pos (not_not.mp (mt free.mpr clean))]
    exact .throw fun exact => by rw [same exact]

section

variable {small large : Program} (programs : small.Alike m large)
include programs

theorem agrees_registerType {id other : TypeId} (related : m.type id other) :
    Agrees m (registerType small id) (registerType large other) Eq := by
  refine .get fun alike => ?_
  refine (Agrees.dangling (programs.types.agree_register alike.types related)).bind ?_
  rintro ⟨index, types⟩ ⟨_, types'⟩ ⟨rfl, types⟩
  exact .set { alike with types } (.pure rfl)

theorem agrees_registerConstant {constant other : Constant} (related : constant.Alike m other) :
    Agrees m (registerConstant constant) (registerConstant other) Eq := by
  refine .get fun alike => ?_
  obtain ⟨same, constants⟩ := alike.constants.insert programs.biUnique_constant related
  exact .set { alike with constants } (.pure same.symm)

theorem agrees_registerGlobal {id other : GlobalId} (related : m.global id other) :
    Agrees m (registerGlobal small id) (registerGlobal large other) Eq := by
  refine .get fun alike => ?_
  refine (Agrees.dangling
    (programs.agree_registerGlobal alike.globals alike.constants related)).bind ?_
  rintro ⟨index, globals, constants⟩ ⟨_, globals', constants'⟩ ⟨rfl, globals, constants⟩
  exact .set { alike with globals, constants } (.pure rfl)

end

end Encoding

end IrStream
