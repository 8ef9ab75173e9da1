import IrStream.Proofs.Document.Faults
import IrStream.Proofs.Document.Naming
import IrStream.Proofs.Program.Layered

/-!
# Types of operators

An operator that is written without a type (`InstEntry.Inferred`) gets the type of its first
operand.  It gets it in its own round, from what the operand is by then: a constant, an argument and
an instruction that states its type have theirs from the beginning, but an operator whose round is
still to come has none yet.  Such an operand is `Provisional`, and reads as void.

`Document.InfersTypes` says what comes of that.  In a document that loads, an operator without a
type has the one of its first operand, or none if that is provisional, and a document is refused for
naming a result of type void, among others, if it names such an operator.

The difficulty is in the word *by then*.  The type of an operand is asked for in a program that
exists only between two rounds, while the statement is about the program at the end.  So the module
shows which types stay.

* `KeepsType p q id` — instruction `id` has the same type in both programs.  Growth keeps all types,
  and a step with a footprint keeps the types outside of it.
* `Reaches.keepsType` — the rounds that are still to come keep the type of every instruction except
  those whose type is inferred in one of them.
* `Reaches.operandType?_of_provisional` — and these are void until then.

What a round leaves is an equation (`settledType_of_stated`, `settledType_of_inferred`), and from it
comes the exact condition under which it leaves void (`settledType_eq_void_iff`).  The two are put
together in `Reaches.infers` and `Reaches.leavesVoid_iff`, one about the type of the operator and
one about the refusal of its name.
-/

set_option autoImplicit false

namespace IrStream

namespace Program

variable {p q r : Program} {id : InstId} {inst : Inst} {entry : InstEntry}
  {operands : List Operand}

/-! ## Types that stay

An operand has the type of what it stands for, so it keeps its type unless it is the result of an
instruction that does not. -/

/-- The instruction has the same type in both programs. -/
def KeepsType (p q : Program) (id : InstId) : Prop :=
  ∀ inst, p.inst id = .ok inst → ∃ later, q.inst id = .ok later ∧ later.type = inst.type

theorem KeepsType.trans (first : p.KeepsType q id) (second : q.KeepsType r id) :
    p.KeepsType r id := by
  intro inst found
  obtain ⟨middle, there, same⟩ := first inst found
  obtain ⟨later, last, again⟩ := second middle there
  exact ⟨later, last, again.trans same⟩

theorem Frame.keepsType {footprint : Footprint} (frame : Frame footprint p q)
    (outside : ¬ footprint.inst id) : p.KeepsType q id :=
  fun inst found => ⟨inst, (frame.inst id outside).trans found, rfl⟩

theorem Grows.keepsType (grows : p.Grows q) (id : InstId) : p.KeepsType q id :=
  fun inst found => ⟨inst, by rwa [Program.inst, grows.sameBodies.insts], rfl⟩

/-- An operand keeps its type unless it is the result of an instruction that does not. -/
theorem KeepsValues.operandType? (values : p.KeepsValues q) {operand : Operand}
    {type? : Option TypeId} (results : ∀ id, operand = .inst id → p.KeepsType q id)
    (typed : p.operandType? operand = .ok type?) : q.operandType? operand = .ok type? := by
  cases operand with
  | const id =>
    simp only [Program.operandType?, bind_eq_ok_iff, pure_eq_ok_iff] at typed ⊢
    obtain ⟨constant, found, rfl⟩ := typed
    exact ⟨constant, values.constant found, rfl⟩
  | arg id =>
    simp only [Program.operandType?, bind_eq_ok_iff, pure_eq_ok_iff] at typed ⊢
    rwa [Program.arg, values.args]
  | inst id =>
    simp only [Program.operandType?, bind_eq_ok_iff, pure_eq_ok_iff] at typed ⊢
    obtain ⟨inst, found, rfl⟩ := typed
    obtain ⟨later, there, same⟩ := results id rfl inst found
    exact ⟨later, there, by rw [same]⟩
  | block | text => exact typed

/-- Only one type is void. -/
theorem Built.isVoid_iff (built : p.Built) {type : TypeId} :
    p.types.isVoid type = .ok true ↔ type = .void := by
  have regular := built.types.regular
  have void : p.types.shape .void = .ok .void := regular.basic rfl
  simp only [Types.isVoid, bind_eq_ok_iff, pure_eq_ok_iff]
  constructor
  · rintro ⟨shape, found, isVoid⟩
    cases shape with
    | void => exact regular.canonical found void rfl
    | _ => cases isVoid
  · rintro rfl
    exact ⟨_, void, rfl⟩

/-! ## The type that a round leaves

`Program.settledType` is the type that the last step of a round sets.  Whether it is stated or
inferred can be told from the entry. -/

theorem settledType_of_stated (isKind : entry.IsKind inst.kind) (stated : ¬ entry.Inferred) :
    p.settledType inst entry operands = .ok inst.type :=
  settledType_of_other fun op _ _ binary untyped _ =>
    stated (isKind.inferred_iff.mpr ⟨untyped, op, binary⟩)

theorem settledType_of_inferred (isKind : entry.IsKind inst.kind) (inferred : entry.Inferred)
    {first : Operand} {rest : List Operand} :
    p.settledType inst entry (first :: rest)
      = (do return (← p.operandType? first).getD inst.type) := by
  obtain ⟨untyped, op, binary⟩ := isKind.inferred_iff.mp inferred
  exact settledType_of_binary binary untyped

/-- **A round leaves an instruction without a type** if it states void, or if it is an operator
whose first operand has none. -/
theorem settledType_eq_void_iff (isKind : entry.IsKind inst.kind)
    (untyped : entry.Inferred → inst.type = .void) :
    p.settledType inst entry operands = .ok .void ↔
      (¬ entry.Inferred → inst.type = .void) ∧
      (entry.Inferred → ∀ first rest, operands = first :: rest →
        p.operandType? first = .ok none ∨ p.operandType? first = .ok (some .void)) := by
  by_cases inferred : entry.Inferred
  · have void := untyped inferred
    cases operands with
    | nil =>
      rw [settledType_of_other (by simp), void]
      simp
    | cons first rest =>
      rw [settledType_of_inferred isKind inferred, void]
      simp only [bind_eq_ok_iff, pure_eq_ok_iff, inferred, not_true_eq_false, false_imp_iff,
        true_and, forall_const, List.cons.injEq, and_imp]
      constructor
      · rintro ⟨type?, typed, void⟩ _ _ rfl rfl
        cases type? with
        | none => exact .inl typed
        | some type =>
          cases void
          exact .inr typed
      · intro typed
        rcases typed first rest rfl rfl with typed | typed
        · exact ⟨none, typed, rfl⟩
        · exact ⟨some .void, typed, rfl⟩
  · rw [settledType_of_stated isKind inferred, Except.ok.injEq]
    simp [inferred]

end Program

open Program Loader

/-! ## Between rounds

`Document.Reaches` is a moment of loading: the body of `func` is open, the rounds for `done` are
behind and those for `todo` are ahead.  `Provisional` depends on `todo` and on nothing else. -/

/-- The operand is the result of an operator whose type is still to be inferred. -/
def Provisional (todo : List (InstId × InstEntry)) (operand : Operand) : Prop :=
  ∃ id entry, operand = .inst id ∧ (id, entry) ∈ todo ∧ entry.Inferred

namespace Document.Reaches

variable {document : Document} {func : FuncId} {entry : FunctionEntry} {scope : Scope}
  {done todo : List (InstId × InstEntry)} {p q : Program}

/-- The instructions of a function are different ones, and those that are not finished are as they
were added. -/
theorem unfinished (reached : document.Reaches func entry scope done todo p) :
    ((done ++ todo).map (·.1)).Nodup ∧ ∀ inst ∈ todo, p.Opens inst.1 inst.2 := by
  induction reached with
  | opens declared earlier opened =>
    obtain ⟨function, found, -, -⟩ := declares_of_earlier declared earlier
    obtain ⟨added, -⟩ := openBody_spec opened found
    exact ⟨added.distinct, added.opens⟩
  | @finish done todo inst p q _ round ih =>
    obtain ⟨distinct, opens⟩ := ih
    rw [← List.append_cons]
    refine ⟨distinct, fun other mem => ?_⟩
    have apart : other.1 ≠ inst.1 :=
      fun same => (key_notMem_of_nodup distinct).2 (same ▸ List.mem_map_of_mem mem)
    exact (opens other (List.mem_cons_of_mem _ mem)).keep (finishInst_spec round).1 apart

/-- A provisional operand reads as void. -/
theorem operandType?_of_provisional (reached : document.Reaches func entry scope done todo p)
    {operand : Operand} (provisional : Provisional todo operand) :
    p.operandType? operand = .ok (some .void) := by
  obtain ⟨id, written, rfl, mem, inferred⟩ := provisional
  obtain ⟨inst, found, -, -, untyped⟩ := reached.unfinished.2 _ mem
  rw [operandType?, found, ← untyped inferred]
  rfl

/-- Rounds keep the type of an instruction unless it is to be inferred in one of them. -/
theorem keepsType (reached : document.Reaches func entry scope done todo p) {answer : PUnit}
    (rounds : Yields (todo.forM (finishInst scope)) p answer q) {id : InstId}
    (settled : ∀ entry, (id, entry) ∈ todo → ¬ entry.Inferred) : p.KeepsType q id := by
  induction todo generalizing done p with
  | nil =>
    cases yields_forM_nil_iff.mp rounds
    exact fun inst found => ⟨inst, found, rfl⟩
  | cons inst rest ih =>
    obtain ⟨r, round, others⟩ := yields_forM_cons_iff.mp rounds
    refine KeepsType.trans ?_ (ih (reached.finish round) others fun entry mem =>
      settled entry (List.mem_cons_of_mem _ mem))
    obtain ⟨other, written⟩ := inst
    by_cases same : id = other
    · subst same
      obtain ⟨stored, there, -, isKind, -⟩ := reached.unfinished.2 _ List.mem_cons_self
      obtain ⟨_, operands, s, type, again, resolved, kept, known, changed⟩ :=
        finishInst_settles round
      cases there.symm.trans again
      rw [settledType_of_stated isKind (settled written List.mem_cons_self)] at known
      cases known
      intro _ found
      cases there.symm.trans found
      exact ⟨_, (setInst_frame kept changed).1, rfl⟩
    · exact (finishInst_spec round).1.keepsType same

/-- Rounds leave the other instructions alone. -/
theorem inst_of_rounds {p q : Program} {answer : PUnit}
    (rounds : Yields (todo.forM (finishInst scope)) p answer q) {id : InstId}
    (apart : id ∉ todo.map (·.1)) : q.inst id = p.inst id := by
  have frame : Frame ⟨fun _ => False, fun _ => False, (· ∈ todo.map (·.1))⟩ p q := by
    refine frame_forM (fun inst mem _ _ round => (finishInst_spec round).1.widen ?_) rounds
    exact ⟨fun _ => False.elim, fun _ => False.elim, fun _ same => same ▸ List.mem_map_of_mem mem⟩
  exact frame.inst id apart

/-- **Behind the rounds** an operator without a type has the one that its first operand was read
with in its round.  That is the one of the operand itself, except if it was provisional. -/
theorem infers {id : InstId} {written : InstEntry}
    (reached : document.Reaches func entry scope done ((id, written) :: todo) p)
    {answer : PUnit} (rounds : Yields (((id, written) :: todo).forM (finishInst scope)) p answer q)
    (inferred : written.Inferred) :
    ∃ inst, q.inst id = .ok inst ∧ ∀ first rest, inst.operands = first :: rest →
      ∃ type?, inst.type = type?.getD .void
        ∧ (¬ Provisional ((id, written) :: todo) first → q.operandType? first = .ok type?)
        ∧ (Provisional ((id, written) :: todo) first → type? = some .void) := by
  obtain ⟨s, round, behind⟩ := yields_forM_cons_iff.mp rounds
  obtain ⟨distinct, opens⟩ := reached.unfinished
  obtain ⟨_, there, -, isKind, untyped⟩ := opens _ List.mem_cons_self
  obtain ⟨inst, operands, r, type, found, resolved, kept, settled, changed⟩ :=
    finishInst_settles round
  cases there.symm.trans found
  obtain ⟨made, frame⟩ := setInst_frame kept changed
  have fresh : id ∉ todo.map (·.1) := (key_notMem_of_nodup distinct).2
  refine ⟨_, (inst_of_rounds behind fresh).trans made, fun first rest same => ?_⟩
  dsimp only at same ⊢
  subst same
  rw [settledType_of_inferred isKind inferred, untyped inferred] at settled
  simp only [bind_eq_ok_iff, pure_eq_ok_iff] at settled
  obtain ⟨type?, read, rfl⟩ := settled
  refine ⟨type?, rfl, fun settled => ?_, fun provisional => ?_⟩
  -- a type that is settled does not change again, neither in this round nor in a later one
  · have values : r.KeepsValues q :=
      (keepsValues_setInst changed).trans (keepsValues_forM keepsValues_finishInst behind)
    refine values.operandType? (fun other same => ?_) read
    have apart : other ≠ id := by
      rintro rfl
      exact settled ⟨other, written, same, List.mem_cons_self, inferred⟩
    refine (frame.keepsType apart).trans ((reached.finish round).keepsType behind ?_)
    exact fun entry mem late => settled ⟨other, entry, same, List.mem_cons_of_mem _ mem, late⟩
  -- an operand whose own round has not come is still void, also after this one was resolved
  · have grows := (resolves_operandsOf _ _ _).grows resolved
    have void := grows.keepsValues.operandType? (fun id _ => grows.keepsType id)
      (reached.operandType?_of_provisional provisional)
    cases read.symm.trans void
    rfl

/-- **A round leaves an instruction without a type** if that is void from the beginning and is not
inferred, or is inferred from an operand that is provisional or has no type either. -/
theorem leavesVoid_iff {id : InstId} {written : InstEntry} {inst : Inst} {operands : List Operand}
    (reached : document.Reaches func entry scope done ((id, written) :: todo) p)
    (found : p.inst id = .ok inst)
    (resolved : Yields (operandsOf scope inst.kind written) p operands q) :
    (∃ type, q.settledType inst written operands = .ok type ∧ q.types.isVoid type = .ok true) ↔
      (¬ written.Inferred → inst.type = .void)
      ∧ (written.Inferred → ∀ first rest, operands = first :: rest →
        Provisional ((id, written) :: todo) first ∨ q.operandType? first = .ok none
          ∨ q.operandType? first = .ok (some .void)) := by
  obtain ⟨_, again, -, isKind, untyped⟩ := reached.unfinished.2 _ List.mem_cons_self
  cases found.symm.trans again
  have built : q.Built :=
    (ensures_operandsOf reached.draft reached.pending.2 _ _ resolved).1.draft.built
  have settles := @settledType_eq_void_iff q inst written operands isKind untyped
  simp only [built.isVoid_iff, exists_eq_right, settles]
  refine and_congr_right fun _ => forall_congr' fun _ => forall₃_congr fun first rest same => ?_
  refine (or_iff_right_of_imp fun provisional => .inr ?_).symm
  have grows := (resolves_operandsOf _ _ _).grows resolved
  exact grows.keepsValues.operandType? (fun id _ => grows.keepsType id)
    (reached.operandType?_of_provisional provisional)

end Document.Reaches

/-! ## Documents

The main statement is a structure with one clause for documents that load and one for those that do
not.  The example at the end meets both, with the same two operators. -/

/-- What becomes of the operators of a document that state no type. -/
structure Document.InfersTypes (document : Document) : Prop where
  /-- In a program an operator has the type of its first operand, if that has one.  But if the
  operand is an operator as well, this one or one further down, it has no type. -/
  loaded : ∀ program number entry, document.toProgram = .ok program →
    document.functions[number]? = some entry →
    ∃ insts : List (InstId × InstEntry), insts.map (·.2) = entry.blocks.flatMap (·.insts)
      ∧ insts.map (·.1) = (program.blocksOf ⟨number⟩).flatMap program.instsOf
      ∧ ∀ done id written todo, insts = done ++ (id, written) :: todo → written.Inferred →
        ∃ inst, program.inst id = .ok inst ∧ ∀ first rest type, inst.operands = first :: rest →
          program.operandType? first = .ok (some type) →
          (¬ Provisional ((id, written) :: todo) first → inst.type = type)
            ∧ (Provisional ((id, written) :: todo) first → inst.type = .void)
  /-- A document is refused because of a name exactly if loading reaches an instruction with that
  name that has no type: an operator that states none and whose first operand is an operator like
  that, this one or one further down, or has no type either, or another instruction whose type is
  void. -/
  refused : ∀ function name, document.toProgram = .error (.namedVoidValue function name) ↔
    ∃ func entry scope done id written todo p inst operands r,
      document.Reaches func entry scope done ((id, written) :: todo) p
      ∧ entry.name = function ∧ written.name = some name ∧ p.inst id = .ok inst
      ∧ Yields (operandsOf scope inst.kind written) p operands r
      ∧ (¬ written.Inferred → inst.type = .void)
      ∧ (written.Inferred → ∀ first rest, operands = first :: rest →
        Provisional ((id, written) :: todo) first ∨ r.operandType? first = .ok none
          ∨ r.operandType? first = .ok (some .void))

/-- **Operators have the types of their first operands**, except where those are inferred too late.
An operator that states a type is not concerned. -/
theorem infers_types (document : Document) : document.InfersTypes where
  loaded program number entry loaded listed := by
    obtain ⟨scope, insts, after, p, q, reached, rounds, later, -, others⟩ :=
      exists_reaches loaded listed
    have all : document.Reaches ⟨number⟩ entry scope insts [] q := by
      rw [← List.append_nil insts] at reached
      exact reached.finish_all rounds
    obtain ⟨entries, ids⟩ := all.listed
    rw [List.append_nil] at entries ids
    refine ⟨insts, entries, ?_, ?_⟩
    · rw [body_of_defineFunctions later all.draft.built others, ids]
    · rintro done id written todo rfl inferred
      -- the round of this instruction, with what came before it and what comes behind
      obtain ⟨r, before, rounds⟩ := yields_forM_append_iff.mp rounds
      obtain ⟨inst, found, typed⟩ := (reached.finish_all before).infers rounds inferred
      refine ⟨inst, inst_of_defineFunctions later found, fun first rest type same known => ?_⟩
      obtain ⟨type?, outcome, settled, provisional⟩ := typed first rest same
      refine ⟨fun apart => ?_, fun early => ?_⟩
      · have last := (keepsValues_forM keepsValues_defineFunction later).operandType?
          (fun _ _ inst found => ⟨inst, inst_of_defineFunctions later found, rfl⟩) (settled apart)
        cases known.symm.trans last
        exact outcome
      · rw [outcome, provisional early]
        rfl
  refused function name := by
    rw [Document.refusesName_iff]
    constructor
    · rintro ⟨func, entry, scope, done, ⟨id, written⟩, todo, p, reached, failed⟩
      obtain ⟨rfl, named, inst, operands, r, type, found, resolved, void⟩ :=
        fails_finishInst_iff.mp failed
      exact ⟨func, entry, scope, done, id, written, todo, p, inst, operands, r, reached,
        reached.function.symm, named, found, resolved,
        (reached.leavesVoid_iff found resolved).mp ⟨type, void⟩⟩
    · rintro ⟨func, entry, scope, done, id, written, todo, p, inst, operands, r, reached, rfl,
        named, found, resolved, untyped⟩
      obtain ⟨type, void⟩ := (reached.leavesVoid_iff found resolved).mpr untyped
      exact ⟨func, entry, scope, done, (id, written), todo, p, reached, fails_finishInst_iff.mpr
        ⟨reached.function, named, inst, operands, r, type, found, resolved, void⟩⟩

/-- A document with an operator that uses the one behind it. -/
def Document.lookahead (name : Option String) : Document where
  layout := none
  structs := []
  globals := []
  functions := [⟨"f", [], none, false, [⟨none, [
    ⟨name, "add", none, [.text "%b", .text "i32 1"], none, none, none⟩,
    ⟨some "b", "add", none, [.text "i32 1", .text "i32 2"], none, none, none⟩,
    ⟨none, "ret", none, [], none, none, none⟩]⟩]⟩]

/-- The operand of the first operator has a type in the end, but the operator has none, and so it
may not have a name. -/
theorem infers_types_lookahead :
    (∃ program inst rest, (Document.lookahead none).toProgram = .ok program
      ∧ program.inst ⟨0⟩ = .ok inst ∧ inst.operands = .inst ⟨1⟩ :: rest
      ∧ program.operandType? (.inst ⟨1⟩) = .ok (some .i32) ∧ inst.type = .void)
    ∧ (Document.lookahead (some "a")).toProgram = .error (.namedVoidValue "f" "a") := by
  constructor
  · have loads : (Document.lookahead none).toProgram.toOption.any (fun program =>
        (program.blocksOf ⟨0⟩).flatMap program.instsOf = [⟨0⟩, ⟨1⟩, ⟨2⟩]
        ∧ program.operandType? (.inst ⟨1⟩) = .ok (some .i32)
        ∧ (program.inst ⟨0⟩).toOption.any (·.operands.head? = some (.inst ⟨1⟩))) = true := by
      decide +kernel
    obtain ⟨program, loaded, found⟩ := exists_of_any_toOption loads
    obtain ⟨listed, known, first⟩ := of_decide_eq_true found
    obtain ⟨insts, entries, ids, typed⟩ := (infers_types _).loaded program 0 _ loaded rfl
    have split := List.zip_of_prod (ids.trans listed) entries
    obtain ⟨inst, here, outcome⟩ := typed [] ⟨0⟩ _ _ split ⟨rfl, .add, rfl⟩
    rw [here] at first
    obtain ⟨rest, operands⟩ := List.head?_eq_some_iff.mp (of_decide_eq_true first)
    have provisional := (outcome _ rest _ operands known).2
      ⟨⟨1⟩, _, rfl, List.mem_cons_of_mem _ List.mem_cons_self, rfl, .add, rfl⟩
    exact ⟨program, inst, rest, loaded, here, operands, known, provisional⟩
  · decide +kernel

end IrStream
