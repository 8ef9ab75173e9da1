import IrStream.Proofs.Reordering.Functions

/-!
# Loops whose rounds can be exchanged

Globals are initialized one after the other, and function bodies are loaded one after the other.
`Loader.Rounds` is what the two loops have in common.  A round only completes the program, and it
keeps what belongs to other entries; so an entry that is ready stays so until its turn.  Whether its
round succeeds depends on the declarations only, so it succeeds at its turn if it would have
succeeded at once.

So a loop succeeds if each of its rounds would (`Loader.Rounds.exists_forM_iff`), in whatever order
they come, and what a round does for its entry is there in the end (`Loader.Rounds.turns`).  For the
same entries in another order, in another program, it is alike (`Loader.TwinRounds`).

`Rounds` has four things to be filled in: how programs grow (`G`), when an entry is ready (`Ready`),
what belongs to an entry (`Keeps`, by its key), and by what key entries are told apart.  The loops
fill them in like this.

* Initializing a global: the key is its handle, it is ready while it has no initializer, and what
  belongs to it is its entry in the arena.
* Loading a body: the key is the function, it is ready while it has no blocks, and what belongs to
  it is everything outside of what other functions may touch.

Both then have `TwinRounds`, for two orders and two programs, and the conclusion is for each entry
separately: in each run there is a moment right behind its round, the two moments are alike as far
as the entry is concerned, and nothing that comes later changes it.
-/

set_option autoImplicit false

namespace IrStream

namespace Loader

open Program

variable {α κ : Type} {p q r s : Program}

/-- Rounds for entries, which are told apart by a key.  Behind `p`, a round for an entry that is
ready grows the program by `G`, and keeps what belongs to entries with another key. -/
structure Rounds (G : Program → Program → Prop) (p : Program) (step : α → Loader PUnit)
    (key : α → κ) (Ready : α → Program → Prop) (Keeps : κ → Program → Program → Prop) : Prop where
  /-- A round grows the program. -/
  grows : ∀ {a r s}, G p r → Ready a r → Yields (step a) r () s → G r s
  /-- A round leaves what belongs to other entries as it is. -/
  keeps : ∀ {a r s k}, G p r → Ready a r → Yields (step a) r () s → k ≠ key a → Keeps k r s
  /-- What belongs to an entry stays while nothing happens. -/
  refl : ∀ k r, Keeps k r r
  /-- What stays twice stays. -/
  trans : ∀ {k r s t}, Keeps k r s → Keeps k s t → Keeps k r t
  /-- An entry is ready as long as what belongs to it stays. -/
  ready : ∀ {a r s}, Keeps (key a) r s → Ready a r → Ready a s
  /-- Whether a round succeeds does not depend on which rounds have come before it. -/
  exists_iff : ∀ {a r}, G p r → Ready a p → Ready a r →
    ((∃ s, Yields (step a) r () s) ↔ ∃ s, Yields (step a) p () s)

namespace Rounds

variable {G : Program → Program → Prop} [Growth G] {step : α → Loader PUnit} {key : α → κ}
  {Ready : α → Program → Prop} {Keeps : κ → Program → Program → Prop}
  (rounds : Rounds G p step key Ready Keeps) {list : List α}
include rounds

/-- **Every entry has its turn**: it is ready then, and from then on what belongs to it is kept. -/
theorem turns (before : G p r) (distinct : (list.map key).Nodup)
    (ready : ∀ a ∈ list, Ready a r) {done : PUnit} (run : Yields (list.forM step) r done q) :
    G r q ∧ (∀ k ∉ list.map key, Keeps k r q)
      ∧ ∀ a ∈ list, ∃ s t, G r s ∧ Ready a s ∧ Yields (step a) s () t ∧ G t q
        ∧ Keeps (key a) t q := by
  induction list generalizing r with
  | nil =>
    cases yields_forM_nil_iff.mp run
    exact ⟨Growth.refl _, fun k _ => rounds.refl k _, by simp⟩
  | cons a rest ih =>
    obtain ⟨s, first, others⟩ := yields_forM_cons_iff.mp run
    obtain ⟨new, distinct⟩ := List.nodup_cons.mp distinct
    have here := ready a List.mem_cons_self
    have grows := rounds.grows before here first
    have still : ∀ b ∈ rest, Ready b s := by
      intro b mem
      have apart : key b ≠ key a := fun same => new (same ▸ List.mem_map_of_mem mem)
      exact rounds.ready (rounds.keeps before here first apart)
        (ready b (List.mem_cons_of_mem _ mem))
    obtain ⟨behind, kept, turns⟩ := ih (Growth.trans before grows) distinct still others
    refine ⟨Growth.trans grows behind, fun k outside => ?_, List.forall_mem_cons.mpr
      ⟨⟨r, s, Growth.refl r, here, first, behind, kept _ new⟩, fun b mem => ?_⟩⟩
    · rw [List.map_cons, List.mem_cons, not_or] at outside
      exact rounds.trans (rounds.keeps before here first outside.1) (kept k outside.2)
    · obtain ⟨t, u, earlier, turn⟩ := turns b mem
      exact ⟨t, u, Growth.trans grows earlier, turn⟩

/-- **A loop succeeds if each round would** succeed at once. -/
theorem exists_forM_iff (before : G p r) (distinct : (list.map key).Nodup)
    (start : ∀ a ∈ list, Ready a p) (ready : ∀ a ∈ list, Ready a r) :
    (∃ q, Yields (list.forM step) r () q) ↔ ∀ a ∈ list, ∃ s, Yields (step a) p () s := by
  induction list generalizing r with
  | nil => exact iff_of_true ⟨r, yields_forM_nil_iff.mpr rfl⟩ (by simp)
  | cons a rest ih =>
    obtain ⟨new, distinct⟩ := List.nodup_cons.mp distinct
    rw [List.forall_mem_cons] at start ready
    rw [List.forall_mem_cons, ← rounds.exists_iff before start.1 ready.1]
    have behind {s : Program} (first : Yields (step a) r () s) :
        (∃ q, Yields (rest.forM step) s () q) ↔ ∀ b ∈ rest, ∃ t, Yields (step b) p () t := by
      refine ih (Growth.trans before (rounds.grows before ready.1 first)) distinct start.2
        fun b mem => ?_
      have apart : key b ≠ key a := fun same => new (same ▸ List.mem_map_of_mem mem)
      exact rounds.ready (rounds.keeps before ready.1 first apart) (ready.2 b mem)
    constructor
    · rintro ⟨q, run⟩
      obtain ⟨s, first, others⟩ := yields_forM_cons_iff.mp run
      exact ⟨⟨s, first⟩, (behind first).mp ⟨q, others⟩⟩
    · rintro ⟨⟨s, first⟩, others⟩
      obtain ⟨q, run⟩ := (behind first).mpr others
      exact ⟨q, yields_forM_cons_iff.mpr ⟨s, first, run⟩⟩

end Rounds

/-! ## Another order -/

/-- The same entries in two orders, with rounds in two programs that go alike for the same entry.
Each round leaves in its program what belongs to the entry, and these are alike. -/
structure TwinRounds {ι ε : Type} (G : Program → Program → Prop) (p q : Program)
    (step : ι × ε → Loader PUnit) (Ready : ι × ε → Program → Prop)
    (Keeps : ι → Program → Program → Prop) (Alike : ι → ι → Program → Program → Prop)
    (list list' : List (ι × ε)) : Prop where
  /-- The rounds in the first program, for entries told apart by their handles. -/
  left : Rounds G p step (·.1) Ready Keeps
  /-- The rounds in the second program. -/
  right : Rounds G q step (·.1) Ready Keeps
  /-- Both loops go over the same entries. -/
  entries : (list'.map (·.2)).Perm (list.map (·.2))
  /-- No handle comes twice in the first loop. -/
  distinct : (list.map (·.1)).Nodup
  /-- No handle comes twice in the second loop. -/
  distinct' : (list'.map (·.1)).Nodup
  /-- All entries of the first loop are ready when it begins. -/
  ready : ∀ a ∈ list, Ready a p
  /-- All entries of the second loop are ready when it begins. -/
  ready' : ∀ b ∈ list', Ready b q
  /-- Rounds for the same entry go alike, wherever they come in their loops. -/
  along : ∀ {i j entry r s}, G p r → G q s → Ready (i, entry) r → Ready (j, entry) s →
    Along G r s (step (i, entry)) (step (j, entry)) fun t u _ _ => Alike i j t u

namespace TwinRounds

variable {ι ε : Type} {G : Program → Program → Prop} [Growth G] {step : ι × ε → Loader PUnit}
  {Ready : ι × ε → Program → Prop} {Keeps : ι → Program → Program → Prop}
  {Alike : ι → ι → Program → Program → Prop} {list list' : List (ι × ε)}
  (rounds : TwinRounds G p q step Ready Keeps Alike list list')
include rounds

/-- **Whether the loop succeeds** does not depend on the order. -/
theorem exists_forM (run : Yields (list.forM step) p () r) :
    ∃ s, Yields (list'.forM step) q () s := by
  have each := (rounds.left.exists_forM_iff (Growth.refl p) rounds.distinct rounds.ready
    rounds.ready).mp ⟨r, run⟩
  refine (rounds.right.exists_forM_iff (Growth.refl q) rounds.distinct' rounds.ready'
    rounds.ready').mpr ?_
  rintro ⟨j, entry⟩ mem'
  obtain ⟨⟨i, _⟩, mem, rfl⟩ :=
    List.mem_map.mp (rounds.entries.mem_iff.mp (List.mem_map_of_mem mem'))
  exact (rounds.along (Growth.refl p) (Growth.refl q) (rounds.ready _ mem)
    (rounds.ready' _ mem')).exists_unit_iff.mpr (each _ mem)

variable (run : Yields (list.forM step) p () r) (run' : Yields (list'.forM step) q () s)
include run run'

theorem grows : G p r ∧ G q s :=
  ⟨(rounds.left.turns (Growth.refl p) rounds.distinct rounds.ready run).1,
    (rounds.right.turns (Growth.refl q) rounds.distinct' rounds.ready' run').1⟩

/-- **What the same entry got is alike**, and it is still there. -/
theorem alike {i j : ι} {entry : ε} (mem : (i, entry) ∈ list) (mem' : (j, entry) ∈ list') :
    ∃ t u, (G p t ∧ G q u) ∧ (G t r ∧ G u s) ∧ (Keeps i t r ∧ Keeps j u s) ∧ Alike i j t u := by
  obtain ⟨-, -, turns⟩ := rounds.left.turns (Growth.refl p) rounds.distinct rounds.ready run
  obtain ⟨-, -, turns'⟩ := rounds.right.turns (Growth.refl q) rounds.distinct' rounds.ready' run'
  obtain ⟨v, t, before, ready, round, behind, kept⟩ := turns _ mem
  obtain ⟨w, u, before', ready', round', behind', kept'⟩ := turns' _ mem'
  obtain ⟨grows, grows', alike⟩ :=
    (rounds.along before before' ready ready').of_yields round round'
  exact ⟨t, u, ⟨Growth.trans before grows, Growth.trans before' grows'⟩, ⟨behind, behind'⟩,
    ⟨kept, kept'⟩, alike⟩

end TwinRounds

/-! ## Initializers -/

/-- The globals have initializers that stand for each other, or both have none. -/
def SameInit (p q : Program) (id other : GlobalId) : Prop :=
  BothOk (fun global global' => Option.Rel (p.SameConst q) global.init global'.init) (p.global id)
    (q.global other)

/-- Initializers stay alike while globals stay as they are. -/
theorem SameInit.fill {p' q' : Program} {id other : GlobalId} (same : SameInit p q id other)
    (twins : p.types.Twins q.types) (fills : p.Fills p') (fills' : q.Fills q') :
    SameInit p' q' id other := by
  rw [SameInit, Program.global, Program.global, fills.globals, fills'.globals]
  exact same.imp fun inits => optionRel_imp inits (·.mono fills.later fills'.later twins)

/-- An initializer is entered in one global and changes nothing else. -/
theorem completes_setInitializer {id : GlobalId} {init : ConstId}
    (run : p.setInitializer id init = .ok q) : p.Completes q := by
  have names := sameNames_setInitializer run
  obtain ⟨global, found, rfl⟩ := setInitializer_eq_ok run
  refine ⟨{ Later.refl p with global := fun {other entry} there => ?_ }, names, rfl⟩
  by_cases same : other = id
  · subst same
    cases found.symm.trans there
    exact ⟨_, resolve_set_self found, rfl, rfl, rfl⟩
  · exact ⟨entry, (resolve_set_of_ne fun index => same (GlobalId.ext index)).trans there, rfl, rfl,
      rfl⟩

/-- Globals that stand for each other get initializers that do. -/
theorem bothOk_setInitializer (twins : p.types.Twins q.types) {id other : GlobalId}
    (same : SameInit p q id other) {init init' : ConstId} (related : p.SameConst q init init') :
    BothOk (fun p' q' => p.Completes p' ∧ q.Completes q' ∧ SameInit p' q' id other)
      (p.setInitializer id init) (q.setInitializer other init') := by
  obtain ⟨global, global', found, there, -⟩ := same
  have run : p.setInitializer id init = .ok { p with
      globals := p.globals.setIfInBounds id.index { global with init := some init } } := by
    rw [setInitializer, found]
    rfl
  have run' : q.setInitializer other init' = .ok { q with
      globals := q.globals.setIfInBounds other.index { global' with init := some init' } } := by
    rw [setInitializer, there]
    rfl
  have completes := completes_setInitializer run
  have completes' := completes_setInitializer run'
  exact ⟨_, _, run, run', completes, completes', _, _, resolve_set_self found,
    resolve_set_self there, .some (related.mono completes.later completes'.later twins)⟩

/-- **The same initializer** is resolved alike in programs with the same declarations. -/
theorem along_initializeGlobal (declared : p.Declared q) {id other : GlobalId}
    (same : SameInit p q id other) (entry : GlobalEntry) :
    Along Completes p q (initializeGlobal (id, entry)) (initializeGlobal (other, entry))
      fun p q _ _ => SameInit p q id other := by
  unfold initializeGlobal
  dsimp only
  cases entry.init with
  | none => exact .pure same
  | some init =>
    have empty : Scope.Corresponds (p.matching q .none) .empty .empty :=
      ⟨fun _ => .none, fun _ => .none⟩
    have resolved : Along Enlarges p q (operandOf .empty init >>= requireConstant init)
        (operandOf .empty init >>= requireConstant init) fun p q => p.SameConst q :=
      (along_operandOf declared.twins empty init).bind
        fun _ _ operand => along_requireConstant init operand
    dsimp only
    rw [← bind_assoc, ← bind_assoc]
    refine (resolved.imp (fun enlarges => enlarges.fills.toCompletes)
      fun first second related => And.intro first (And.intro second related)).bind ?_
    rintro p' q' constant constant' - - ⟨first, second, related⟩
    have twins := declared.twins.enlarge first second
    have same := same.fill declared.twins.types first.fills second.fills
    refine .get (.dangling (bothOk_setInitializer twins.types same related) ?_)
    rintro p q ⟨completes, completes', same⟩
    exact .set completes completes' (.pure same)

theorem globals_of_grows (grows : p.Grows q) : q.globals = p.globals := by
  induction grows with
  | refl => rfl
  | readText _ _ ih | func _ _ _ _ ih | internConstant _ _ ih => exact ih

/-- An initializer is no business of other globals. -/
theorem global_of_initializeGlobal {listed : GlobalId × GlobalEntry}
    (run : Yields (initializeGlobal listed) p () q) {id : GlobalId} (apart : id ≠ listed.1) :
    q.global id = p.global id := by
  obtain ⟨own, entry⟩ := listed
  unfold initializeGlobal at run
  dsimp only at run
  split at run
  · rw [(yields_pure_iff.mp run).2]
  · simp only [yields_bind_iff, yields_get_iff, yields_dangling_iff, yields_set_iff] at run
    obtain ⟨operand, r, resolved, init, s, required, _, _, ⟨rfl, rfl⟩, _, _, ⟨changed, rfl⟩, rfl⟩ :=
      run
    have grows := ((resolves_operandOf _ _).grows resolved).trans
      ((resolves_requireConstant _ _).grows required)
    obtain ⟨global, -, rfl⟩ := setInitializer_eq_ok changed
    rw [Program.global, Program.global, ← globals_of_grows grows]
    exact resolve_set_of_ne fun index => apart (GlobalId.ext index)

/-- A global without an initializer. -/
def Blank (listed : GlobalId × GlobalEntry) (p : Program) : Prop :=
  ∃ global, p.global listed.1 = .ok global ∧ global.init = none

theorem Blank.sameInit {listed : GlobalId × GlobalEntry} {other : GlobalId × GlobalEntry}
    (blank : Blank listed p) (blank' : Blank other q) : SameInit p q listed.1 other.1 := by
  obtain ⟨global, found, none⟩ := blank
  obtain ⟨global', there, none'⟩ := blank'
  refine ⟨global, global', found, there, ?_⟩
  dsimp only
  rw [none, none']
  exact .none

/-- The order in which globals are initialized is free. -/
theorem rounds_initializeGlobal (declared : p.Declared p) :
    Rounds Completes p initializeGlobal (·.1) Blank fun id r s => s.global id = r.global id where
  grows before blank run :=
    ((along_initializeGlobal (declared.complete before before) (blank.sameInit blank) _).of_yields
      run run).1
  keeps _ _ run apart := global_of_initializeGlobal run apart
  refl _ _ := rfl
  trans first second := second.trans first
  ready kept blank := by
    obtain ⟨global, found, none⟩ := blank
    exact ⟨global, kept.trans found, none⟩
  exists_iff before blank blank' :=
    (along_initializeGlobal (declared.complete (.refl p) before)
      (blank.sameInit blank') _).exists_unit_iff

/-! ## Function bodies

Bodies of different functions have no block and no instruction in common. -/

/-- Everything but the blocks and instructions that the program has and one function. -/
def others (p : Program) (func : FuncId) : Footprint where
  function id := id ≠ func
  block id := p.blocks.size ≤ id.index
  inst id := p.insts.size ≤ id.index

theorem body_within_others {f g : FuncId} (apart : g ≠ f) :
    (Footprint.body p f).Within (others p g) where
  function _ same := by
    rw [show _ = f from same]
    exact apart.symm
  block _ := id
  inst _ := id

theorem others_within {func : FuncId} (blocks : p.blocks.size ≤ q.blocks.size)
    (insts : p.insts.size ≤ q.insts.size) : (others q func).Within (others p func) :=
  ⟨fun _ => id, fun _ => Nat.le_trans blocks, fun _ => Nat.le_trans insts⟩

theorem bodiless_of_declares {f g : FuncId} {entry : FunctionEntry} (declares : p.Declares f entry)
    (declares' : q.Declares g entry) : BothOk (fun function function' =>
      function'.name = function.name ∧ function.blocks = [] ∧ function'.blocks = [])
      (p.function f) (q.function g) := by
  obtain ⟨function, found, name, empty⟩ := declares
  obtain ⟨function', there, name', empty'⟩ := declares'
  exact ⟨function, function', found, there, name'.trans name.symm, empty, empty'⟩

/-- The order in which function bodies are loaded is free. -/
theorem rounds_defineFunction (declared : p.Declared p) :
    Rounds Fills p defineFunction (·.1) (fun listed r => r.Declares listed.1 listed.2)
      fun func r s => Frame (others r func) r s where
  grows before declares run :=
    ((along_defineFunction (declared.complete before.toCompletes before.toCompletes)
      (bodiless_of_declares declares declares) _).of_yields run run).1
  keeps _ _ run apart := (defineFunction_spec run).1.widen (body_within_others apart)
  refl _ _ := (SameBodies.refl _).frame
  trans first second := first.trans (second.widen (others_within first.blocks first.insts))
  ready frame declares := declares.keep frame fun apart => apart rfl
  exists_iff before declares declares' :=
    (along_defineFunction (declared.complete (.refl p) before.toCompletes)
      (bodiless_of_declares declares declares') _).exists_unit_iff

end Loader

end IrStream
