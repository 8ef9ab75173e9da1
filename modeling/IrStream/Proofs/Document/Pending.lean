import IrStream.Proofs.Document.Loading
import IrStream.Proofs.Document.Scoping

/-!
# Loading in scope

A function is loaded in two passes: its instructions are added without operands, then each of them
is finished.  `Program.Pending` is what is known in between: the program is a draft, the
instructions that are to be finished belong to the function and have the names that are in scope,
and all other names stand for results.  Adding an instruction makes the list of those longer, and
finishing the first one makes it shorter, so in the end every name stands for a result
(`defineFunction_named`).

What is loaded before the bodies of functions leaves a draft without any instruction.  So a document
that loads gives a draft in which every name stands for a result (`Loader.load_named`).

## The two passes

An invariant of a loop is easiest to keep if it does not mention what the loop has already done.
`Pending` mentions only the instructions that are still unfinished, as a list in the order in which
they will be finished.

* In the first pass an instruction is appended (`Pending.addInst`).  It has void for a type if its
  type is to be inferred, so its name does not stand for a result yet, and it has no operands, so
  nothing is asked of them.
* In the second pass the first instruction of the list goes (`Pending.finish`).  This is the moment
  when its operands have to be offered by the function, which they are because the scope has only
  such names (`Scope.Offered`), and when a name has to stand for a result, which the last check of
  the round sees to.

Everything else that a round or a phase does is covered by the judgment `Loader.Ensures` of
`Document/Scoping.lean`; the lemmas here with that name are one for each part of the loader.
-/

set_option autoImplicit false

namespace IrStream

namespace Program

variable {p q : Program} {func : FuncId} {unfinished : List (InstId × InstEntry)}

/-- Some instructions of a function, which are there with their names, are not finished. -/
structure Pending (program : Program) (func : FuncId) (unfinished : List (InstId × InstEntry)) :
    Prop where
  draft : program.Draft
  /-- All of them belong to the function. -/
  owner : ∀ inst ∈ unfinished, program.ownerOfInst inst.1 = .ok func
  /-- All of them have the names of their entries by now. -/
  name : ∀ inst ∈ unfinished, ∃ stored, program.inst inst.1 = .ok stored
    ∧ stored.name = inst.2.name
  /-- Any other instruction with a name has a result. -/
  results : program.NamesResults (unfinished.map (·.1))

/-- Steps that leave the instructions alone leave the same ones to be finished.  Their names stand
for nothing yet, and that is allowed of these. -/
theorem Pending.keep (pending : p.Pending func unfinished) (proceeds : p.Proceeds q)
    (same : q.insts = p.insts) : q.Pending func unfinished := by
  refine ⟨proceeds.draft, fun inst mem => proceeds.keeps.ownerOfInst (pending.owner inst mem),
    fun inst mem => ?_, ?_⟩
  · rw [Program.inst, same]
    exact pending.name inst mem
  · refine pending.results.of_kept proceeds.keeps.types fun found finished => ⟨?_, finished⟩
    rwa [Program.inst, same] at found

/-- An instruction without operands is pending, and the list of those which are not finished grows
by it.  It may have a name already, for which its type says nothing until it is finished. -/
theorem Pending.addInst (pending : p.Pending func unfinished) {block : BlockId} {kind : InstKind}
    {type : TypeId} {entry : InstEntry} {id : InstId} (own : p.Offers func (.block block))
    (kindInRange : kind.InRange p) (typeInRange : p.types.Has type)
    (run : p.addInst block kind type [] entry.name = .ok (id, q)) :
    p.Proceeds q ∧ q.Pending func (unfinished ++ [(id, entry)]) := by
  have proceeds := pending.draft.proceeds_addInst kindInRange typeInRange run
  obtain ⟨rfl, -, made, frame⟩ := addInst_frame run
  obtain ⟨owner, there, owned⟩ := proceeds.keeps.offers own
  refine ⟨proceeds, proceeds.draft, fun inst mem => ?_, fun inst mem => ?_, ?_⟩
  · rcases List.mem_append.mp mem with mem | mem
    · exact proceeds.keeps.ownerOfInst (pending.owner inst mem)
    · obtain rfl := List.mem_singleton.mp mem
      exact ownerOfInst_eq_ok_iff.mpr ⟨_, owner, made, there, owned⟩
  · rcases List.mem_append.mp mem with mem | mem
    · obtain ⟨stored, found, named⟩ := pending.name inst mem
      exact ⟨stored, (frame.inst inst.1 (Nat.not_le_of_lt (lt_size_of_inst found))).trans found,
        named⟩
    · obtain rfl := List.mem_singleton.mp mem
      exact ⟨_, made, rfl⟩
  · refine pending.results.of_kept proceeds.keeps.types fun {other inst} found finished => ?_
    rw [List.map_append, List.mem_append, not_or] at finished
    refine ⟨(frame.inst other fun new => ?_).symm.trans found, finished.1⟩
    have bound := lt_size_of_inst found
    obtain ⟨_, -, -, rfl⟩ := addInst_eq_ok run
    rw [Array.size_push] at bound
    exact finished.2 (List.mem_singleton.mpr
      (InstId.ext (Nat.le_antisymm (Nat.le_of_lt_succ bound) new)))

/-- An instruction is finished: only that one changes, and its name stands for a result.  It leaves
the list from the front, because the loop finishes instructions in the order in which they were
added. -/
theorem Pending.finish {id : InstId} {entry : InstEntry}
    (pending : p.Pending func ((id, entry) :: unfinished)) (proceeds : p.Proceeds q)
    (frame : Frame (.one id) p q) (named : ∀ {inst}, q.inst id = .ok inst →
      entry.name.isSome = true → q.types.isVoid inst.type = .ok false) :
    q.Pending func unfinished := by
  refine ⟨proceeds.draft, fun inst mem => ?_, fun inst mem => ?_,
    fun other inst found name finished => ?_⟩
  · exact proceeds.keeps.ownerOfInst (pending.owner inst (List.mem_cons_of_mem _ mem))
  · obtain ⟨stored, found, same⟩ := pending.name inst (List.mem_cons_of_mem _ mem)
    obtain ⟨later, there, kept, -⟩ := proceeds.keeps.inst found
    exact ⟨later, there, kept.trans same⟩
  · by_cases here : other = id
    · subst here
      obtain ⟨stored, before, same⟩ := pending.name _ List.mem_cons_self
      obtain ⟨later, there, kept, -⟩ := proceeds.keeps.inst before
      cases found.symm.trans there
      exact named found (same ▸ kept ▸ name)
    · have before : p.inst other = .ok inst := (frame.inst other here).symm.trans found
      exact proceeds.keeps.types.isVoid (pending.results before name
        (List.not_mem_cons_of_ne_of_not_mem here finished))

end Program

namespace Loader

open Program

variable {p q : Program} {func : FuncId} {scope after : Scope}

/-! ## Names in scope

Names of arguments, labels and results come into scope while the body is opened, and each stands for
something that the function offers. -/

/-- An argument is offered by its own function, and so the scope may have it.  Bringing it in
changes no program. -/
theorem scopeArg_offered {id : ArgId} (offered : scope.Offered p func)
    (own : p.Offers func (.arg id)) (run : Yields (scopeArg scope id) p after q) :
    q = p ∧ after.Offered p func := by
  rw [scopeArg] at run
  simp only [yields_bind_iff, yields_get_iff, yields_dangling_iff] at run
  obtain ⟨_, _, ⟨rfl, rfl⟩, arg, _, ⟨-, rfl⟩, run⟩ := run
  split at run
  · obtain ⟨defined, rfl⟩ := yields_except_iff.mp run
    exact ⟨rfl, offered.defineValue own defined⟩
  · obtain ⟨rfl, rfl⟩ := yields_pure_iff.mp run
    exact ⟨rfl, offered⟩

/-- All arguments of a function, one after the other. -/
theorem scopeArgs_offered {args : List ArgId} (offered : scope.Offered p func)
    (own : ∀ id ∈ args, p.Offers func (.arg id))
    (run : Yields (args.foldlM scopeArg scope) p after q) : q = p ∧ after.Offered p func := by
  induction args generalizing scope with
  | nil =>
    rw [List.foldlM_nil, yields_pure_iff] at run
    obtain ⟨rfl, rfl⟩ := run
    exact ⟨rfl, offered⟩
  | cons id rest ih =>
    rw [List.foldlM_cons, yields_bind_iff] at run
    obtain ⟨larger, r, first, others⟩ := run
    obtain ⟨rfl, known⟩ := scopeArg_offered offered (own id List.mem_cons_self) first
    exact ih known (fun other mem => own other (List.mem_cons_of_mem _ mem)) others

theorem scopeWithBlock_offered {label : Option String} {id : BlockId}
    (offered : scope.Offered p func) (own : p.Offers func (.block id))
    (run : scopeWithBlock scope label id = .ok after) : after.Offered p func := by
  unfold scopeWithBlock at run
  split at run
  · exact offered.defineBlock own run
  · cases run
    exact offered

theorem scopeWith_offered {name : Option String} {id : InstId} (offered : scope.Offered p func)
    (own : name.isSome = true → p.Offers func (.inst id))
    (run : scopeWith scope name id = .ok after) : after.Offered p func := by
  unfold scopeWith at run
  split at run
  · exact offered.defineValue (own rfl) run
  · cases run
    exact offered

/-! ## Blocks -/

/-- Adding blocks touches no instruction, and what the scope knows afterwards belongs to the same
function.  All blocks of a body are added before the first instruction, so a branch may name a later
one. -/
theorem addBlocks_offered (draft : p.Draft) {entries : List BlockEntry}
    {blocks : List (BlockId × BlockEntry)} (offered : scope.Offered p func)
    (run : Yields (addBlocks func scope entries) p (after, blocks) q) :
    p.Proceeds q ∧ q.insts = p.insts ∧ after.Offered q func
      ∧ ∀ block ∈ blocks, q.Offers func (.block block.1) := by
  induction entries generalizing p scope blocks with
  | nil =>
    rw [addBlocks, yields_pure_iff] at run
    obtain ⟨same, rfl⟩ := run
    cases same
    exact ⟨draft.refl, rfl, offered, List.forall_mem_nil _⟩
  | cons entry entries ih =>
    obtain ⟨id, r, larger, more, added, defined, others, rfl⟩ := addBlocks_cons run
    have first := draft.proceeds_addBlock added
    have new : r.Offers func (.block id) := ⟨_, (addBlock_frame added).2.2.2.1, rfl⟩
    have known := scopeWithBlock_offered (offered.mono first.keeps) new defined
    obtain ⟨behind, kept, all, own⟩ := ih first.draft known others
    obtain ⟨_, -, -, rfl⟩ := addBlock_eq_ok added
    exact ⟨first.trans behind, kept, all, List.forall_mem_cons.mpr ⟨behind.keeps.offers new, own⟩⟩

/-! ## Instructions without operands

The parts of adding an instruction: its keys, its kind, its result type.  Kinds that carry a type
get it resolved here, so it is in range. -/

theorem ensures_requireKey {α : Type} (draft : p.Draft) {op key : String} {value? : Option α} :
    Ensures p (requireKey op key value?) fun _ _ => True := by
  cases value? with
  | none => exact .throw
  | some value => exact .pure draft trivial

theorem inRange_ofMnemonic {name : String} : (InstKind.ofMnemonic name).InRange p := by
  unfold InstKind.ofMnemonic
  repeat' split
  all_goals trivial

/-- The types that a kind mentions have been read when the kind is made.  Reading a type may intern
some, and the handle that it answers is in the arena after that. -/
theorem ensures_kindOf (draft : p.Draft) (entry : InstEntry) :
    Ensures p (kindOf entry) fun q kind => kind.InRange q := by
  rw [kindOf]
  split
  · refine .bind (ensures_requireKey draft) fun before _ => ?_
    exact .bind (ensures_typeOf before.draft _) fun behind has => .pure behind.draft has
  · refine .bind (ensures_requireKey draft) fun before _ => ?_
    exact .bind (ensures_typeOf before.draft _) fun behind has => .pure behind.draft has
  · refine .bind (ensures_requireKey draft) fun before _ => ?_
    split
    · exact .pure before.draft trivial
    · exact .throw
  · refine .bind (ensures_requireKey draft) fun before _ => ?_
    split
    · exact .pure before.draft trivial
    · exact .throw
  · exact .pure draft inRange_ofMnemonic

/-- The handles that are fixed come before the one of pointers.  An arena that has the handle of
pointers has all of those. -/
theorem has_defaultType (draft : p.Draft) (kind : InstKind) : p.types.Has (defaultType kind) := by
  have fixed {id : TypeId} (first : id.index ≤ TypeId.ptr.index) : p.types.Has id :=
    Nat.lt_of_le_of_lt first draft.ptr
  unfold defaultType
  split
  all_goals exact fixed (by decide)

theorem ensures_resultOf (draft : p.Draft) (entry : InstEntry) (kind : InstKind) :
    Ensures p (resultOf entry kind) fun q id => q.types.Has id := by
  unfold resultOf
  split
  · exact ensures_typeOf draft _
  · exact .pure draft (has_defaultType draft kind)

section

variable {unfinished : List (InstId × InstEntry)}

/-- One instruction more is unfinished.  Its name is brought into scope before it has operands,
which is how a later instruction can be referred to. -/
theorem addInst_pending {block : BlockId} {entry : InstEntry} {id : InstId}
    (pending : p.Pending func unfinished) (offered : scope.Offered p func)
    (own : p.Offers func (.block block))
    (run : Yields (addInst block scope entry) p (after, id) q) :
    p.Keeps q ∧ after.Offered q func ∧ q.Pending func (unfinished ++ [(id, entry)]) := by
  obtain ⟨kind, type, r, s, asked, resolved, added, defined⟩ := addInst_steps run
  obtain ⟨first, kindInRange⟩ := ensures_kindOf pending.draft entry asked
  obtain ⟨second, typeInRange⟩ := ensures_resultOf first.draft entry kind resolved
  have before := first.trans second
  have same := (kindOf_spec asked).2.trans ((resolves_resultOf entry kind).grows resolved)
  obtain ⟨third, made⟩ := (pending.keep before same.sameBodies.insts).addInst
    (before.keeps.offers own) (kindInRange.mono second.keeps.types.has) typeInRange added
  have all := before.trans third
  refine ⟨all.keeps, scopeWith_offered (offered.mono all.keeps) (fun named => ?_) defined, made⟩
  have listed : (id, entry) ∈ unfinished ++ [(id, entry)] := by simp
  obtain ⟨stored, found, same⟩ := made.name _ listed
  exact ⟨made.owner _ listed, stored, found, same ▸ named⟩

/-- The instructions of a block are appended to the list, in order. -/
theorem addInsts_pending {block : BlockId} {entries : List InstEntry}
    {insts : List (InstId × InstEntry)} (pending : p.Pending func unfinished)
    (offered : scope.Offered p func) (own : p.Offers func (.block block))
    (run : Yields (addInsts block scope entries) p (after, insts) q) :
    p.Keeps q ∧ after.Offered q func ∧ q.Pending func (unfinished ++ insts) := by
  induction entries generalizing p scope unfinished insts with
  | nil =>
    rw [addInsts, yields_pure_iff] at run
    obtain ⟨same, rfl⟩ := run
    cases same
    exact ⟨.refl _, offered, (List.append_nil unfinished).symm ▸ pending⟩
  | cons entry entries ih =>
    rw [addInsts] at run
    simp only [yields_bind_iff, yields_pure_iff] at run
    obtain ⟨⟨larger, id⟩, r, first, ⟨_, more⟩, _, others, same, rfl⟩ := run
    cases same
    obtain ⟨before, known, made⟩ := addInst_pending pending offered own first
    obtain ⟨behind, all, filled⟩ := ih made known (before.offers own) others
    rw [List.append_assoc, List.singleton_append] at filled
    exact ⟨before.trans behind, all, filled⟩

/-- The instructions of all blocks are appended to the list, in order.  The scope goes from block to
block, so names of one block are known in the next. -/
theorem fillBlocks_pending {blocks : List (BlockId × BlockEntry)}
    {insts : List (InstId × InstEntry)} (pending : p.Pending func unfinished)
    (offered : scope.Offered p func) (own : ∀ block ∈ blocks, p.Offers func (.block block.1))
    (run : Yields (fillBlocks scope blocks) p (after, insts) q) :
    p.Keeps q ∧ after.Offered q func ∧ q.Pending func (unfinished ++ insts) := by
  induction blocks generalizing p scope unfinished insts with
  | nil =>
    rw [fillBlocks, yields_pure_iff] at run
    obtain ⟨same, rfl⟩ := run
    cases same
    exact ⟨.refl _, offered, (List.append_nil unfinished).symm ▸ pending⟩
  | cons block blocks ih =>
    obtain ⟨id, entry⟩ := block
    rw [fillBlocks] at run
    simp only [yields_bind_iff, yields_pure_iff] at run
    obtain ⟨⟨larger, insts⟩, r, first, ⟨_, more⟩, _, others, same, rfl⟩ := run
    cases same
    obtain ⟨before, known, made⟩ :=
      addInsts_pending pending offered (own _ List.mem_cons_self) first
    obtain ⟨behind, all, filled⟩ := ih made known
      (fun block mem => before.offers (own block (List.mem_cons_of_mem _ mem))) others
    rw [List.append_assoc] at filled
    exact ⟨before.trans behind, all, filled⟩

/-! ## Operands -/

theorem ensures_mapM_operandOf (draft : p.Draft) (offered : scope.Offered p func)
    (nodes : List OperandNode) : Ensures p (nodes.mapM (operandOf scope))
      fun q operands => ∀ operand ∈ operands, q.Offers func operand :=
  .mapM draft (fun proceeds node _ =>
    ensures_operandOf proceeds.draft (offered.mono proceeds.keeps) node)
    fun proceeds => proceeds.keeps.offers

theorem ensures_operandsOf (draft : p.Draft) (offered : scope.Offered p func) (kind : InstKind)
    (entry : InstEntry) : Ensures p (operandsOf scope kind entry)
      fun q operands => ∀ operand ∈ operands, q.Offers func operand := by
  rw [operandsOf]
  refine .bind (ensures_mapM_operandOf draft offered _) fun before written => ?_
  split
  · refine .bind (ensures_constInt before.draft _ _) fun behind bound => ?_
    exact .pure behind.draft (List.forall_mem_singleton.mpr bound)
  · exact .pure before.draft written

/-- A type that is inferred is that of an operand, so the program has it.  Nothing else about the
type is needed here; `Document.InfersTypes` says which one it is. -/
theorem ensures_inferType (draft : p.Draft) (id : InstId) (kind : InstKind) (entry : InstEntry)
    (operands : List Operand) :
    Ensures p (inferType id kind entry operands) fun _ _ => True := by
  unfold inferType
  split
  · refine .get (.dangling fun {type?} typed => ?_)
    split
    · next type =>
      have has : p.types.Has type := draft.built.has_operandType? typed
      exact .get (.dangling fun changed => .set (draft.proceeds_setInstType has changed) trivial)
    · exact .pure draft trivial
  · exact .pure draft trivial

/-- A round finishes the first instruction of the list.  Operands are resolved in the scope with all
names of the function, and are offered by it. -/
theorem finishInst_pending {inst : InstId × InstEntry}
    (pending : p.Pending func (inst :: unfinished)) (offered : scope.Offered p func)
    (run : Yields (finishInst scope inst) p () q) :
    p.Keeps q ∧ q.Pending func unfinished := by
  obtain ⟨id, entry⟩ := inst
  obtain ⟨inst, operands, r, s, found, resolved, inferred, changed, named⟩ := finishInst_eq_ok run
  obtain ⟨first, offers⟩ := ensures_operandsOf pending.draft offered _ _ resolved
  obtain ⟨second, -⟩ := ensures_inferType first.draft _ _ _ _ inferred
  have before := first.trans second
  have owned := before.keeps.ownerOfInst (pending.owner _ List.mem_cons_self)
  have third := second.draft.proceeds_setOperands owned
    (fun operand mem => second.keeps.offers (offers operand mem)) changed
  have all := before.trans third
  exact ⟨all.keeps, pending.finish all (finishInst_spec run).1 named⟩

/-- Behind the rounds no instruction is unfinished.  By induction on the list, from the front. -/
theorem finishInsts_pending {insts : List (InstId × InstEntry)} (pending : p.Pending func insts)
    (offered : scope.Offered p func) {done : PUnit}
    (run : Yields (insts.forM (finishInst scope)) p done q) : q.Pending func [] := by
  induction insts generalizing p with
  | nil =>
    cases yields_forM_nil_iff.mp run
    exact pending
  | cons inst rest ih =>
    obtain ⟨r, first, others⟩ := yields_forM_cons_iff.mp run
    obtain ⟨keeps, fewer⟩ := finishInst_pending pending offered first
    exact ih fewer (offered.mono keeps) others

end

/-! ## Functions -/

/-- The instructions of a function are there, and in the scope are the names of what it offers.  It
starts with no scope, brings in the arguments, and then adds blocks and instructions. -/
theorem openBody_pending {function : FuncId × FunctionEntry} {insts : List (InstId × InstEntry)}
    (draft : p.Draft) (named : p.NamesResults [])
    (run : Yields (openBody function) p (after, insts) q) :
    p.Keeps q ∧ after.Offered q function.1 ∧ q.Pending function.1 insts := by
  obtain ⟨id, entry⟩ := function
  obtain ⟨function, scope, r, larger, blocks, s, found, args, added, filled⟩ := openBody_steps run
  obtain ⟨rfl, known⟩ :=
    scopeArgs_offered (.of_nil rfl rfl) (draft.built.rooted.arg found) args
  obtain ⟨first, same, offered, own⟩ := addBlocks_offered draft known added
  have opened : r.Pending id [] := ⟨draft, List.forall_mem_nil _, List.forall_mem_nil _, named⟩
  obtain ⟨second, all, pending⟩ := fillBlocks_pending (opened.keep first same) offered own filled
  exact ⟨first.keeps.trans second, all, List.nil_append insts ▸ pending⟩

/-- **Every name of a function stands for a result** once the function is loaded.  Opening makes
everything pending, and the rounds finish it. -/
theorem defineFunction_named {function : FuncId × FunctionEntry} (draft : p.Draft)
    (named : p.NamesResults []) (run : Yields (defineFunction function) p () q) :
    q.Draft ∧ q.NamesResults [] := by
  rw [defineFunction_eq, yields_bind_iff] at run
  obtain ⟨⟨scope, insts⟩, r, run, finished⟩ := run
  obtain ⟨-, all, pending⟩ := openBody_pending draft named run
  have finished := finishInsts_pending pending all finished
  exact ⟨finished.draft, finished.results⟩

/-- Bodies are finished one by one, and behind each of them no instruction is pending. -/
theorem defineFunctions_named {functions : List (FuncId × FunctionEntry)} (draft : p.Draft)
    (named : p.NamesResults []) {done : PUnit}
    (run : Yields (functions.forM defineFunction) p done q) : q.Draft ∧ q.NamesResults [] := by
  induction functions generalizing p with
  | nil =>
    cases yields_forM_nil_iff.mp run
    exact ⟨draft, named⟩
  | cons function rest ih =>
    obtain ⟨r, first, others⟩ := yields_forM_cons_iff.mp run
    obtain ⟨draft, named⟩ := defineFunction_named draft named first
    exact ih draft named others

/-! ## What is loaded outside of functions

None of these steps adds an instruction, so all they have to do is to leave a draft. -/

section

variable (draft : p.Draft)
include draft

theorem ensures_declareStruct (entry : String × Option StructEntry) :
    Ensures p (declareStruct entry) fun _ _ => True := by
  refine .bind (P := fun _ _ => True) (fun id q run => ?_) fun before _ =>
    .pure before.draft trivial
  obtain ⟨-, rfl⟩ := yields_withTypes_iff.mp run
  exact ⟨draft.proceeds_types (.intern _ (List.forall_mem_nil _)), trivial⟩

theorem ensures_defineStruct (entry : TypeId × Option StructEntry) :
    Ensures p (defineStruct entry) fun _ _ => True := by
  obtain ⟨id, _ | body⟩ := entry
  · exact .pure draft trivial
  · refine .bind (ensures_typesOf draft body.fields) fun {q fields} before parts => .update ?_
    intro _ after run
    simp only [bind_eq_ok_iff, pure_eq_ok_iff] at run
    obtain ⟨types, defined, same⟩ := run
    cases same
    exact ⟨before.draft.proceeds_types (.setStructBody parts defined), trivial⟩

theorem ensures_declareGlobal (entry : GlobalEntry) :
    Ensures p (declareGlobal entry) fun _ _ => True := by
  refine .bind (ensures_typeOf draft entry.type) fun before has => ?_
  refine .bind (P := fun _ _ => True) (.update fun added => ?_) fun behind _ =>
    .pure behind.draft trivial
  exact ⟨before.draft.proceeds_addGlobal has added, trivial⟩

/-- An initializer is resolved in the empty scope, so it refers to nothing that a function owns. -/
theorem ensures_initializeGlobal (entry : GlobalId × GlobalEntry) :
    Ensures p (initializeGlobal entry) fun _ _ => True := by
  obtain ⟨id, entry⟩ := entry
  unfold initializeGlobal
  dsimp only
  split
  · exact .pure draft trivial
  · next init _ =>
    -- without names, no function is asked for what it offers, so any one will do
    have outside : Scope.empty.Offered p ⟨0⟩ := .of_nil rfl rfl
    refine .bind (ensures_operandOf draft outside init) fun before offers => ?_
    refine .bind (ensures_requireConstant before.draft init offers) fun behind bound => ?_
    exact .get (.dangling fun changed =>
      .set (behind.draft.proceeds_setInitializer bound changed) trivial)

theorem ensures_nameArg (entry : ArgId × ParamEntry) :
    Ensures p (nameArg entry) fun _ _ => True := by
  obtain ⟨id, entry⟩ := entry
  unfold nameArg
  dsimp only
  split
  · exact .get (.dangling fun changed => .set (draft.proceeds_setArgName changed) trivial)
  · exact .pure draft trivial

theorem ensures_returnOf (entry : FunctionEntry) :
    Ensures p (returnOf entry) fun q id => q.types.Has id := by
  unfold returnOf
  split
  · exact ensures_typeOf draft _
  · exact .pure draft (Nat.lt_of_le_of_lt (by decide) draft.ptr)

/-- A function that is only declared has no body, and nothing can be out of scope in it. -/
theorem ensures_declareFunction (entry : FunctionEntry) :
    Ensures p (declareFunction entry) fun _ _ => True := by
  intro answer q run
  obtain ⟨params, r, ret, s, type, t, id, u, function, resolved, typed, made, added, -, named, -⟩ :=
    declareFunction_steps run
  obtain ⟨first, hasParams⟩ := ensures_typesOf draft _ resolved
  obtain ⟨second, hasRet⟩ := ensures_returnOf first.draft entry typed
  obtain ⟨third, -⟩ := ensures_func second.draft entry.vararg
    (fun param mem => second.has (hasParams param mem)) hasRet made
  have fourth := third.draft.proceeds_addFunction added
  obtain ⟨fifth, -⟩ := Ensures.forM fourth.draft (fun draft => ensures_nameArg draft) named
  exact ⟨(((first.trans second).trans third).trans fourth).trans fifth, trivial⟩

end

theorem insts_of_declareFunctions {entries : List FunctionEntry}
    {functions : List (FuncId × FunctionEntry)}
    (run : Yields (entries.mapM declareFunction) p functions q) : q.insts = p.insts := by
  induction entries generalizing p functions with
  | nil => rw [(yields_mapM_nil_iff.mp run).2]
  | cons entry entries ih =>
    obtain ⟨_, r, more, first, others, -⟩ := yields_mapM_cons_iff.mp run
    obtain ⟨s, t, type, id, before, added, behind, -⟩ := declareFunction_eq_ok first
    obtain ⟨_, _, _, -, -, rfl⟩ := addFunction_eq_ok added
    exact (ih others).trans (behind.insts.trans before.insts)

/-! ## Documents -/

/-- What is loaded outside of function bodies is a draft without instructions.  There are no blocks
before the first body is loaded, so the draft has nothing to check. -/
theorem declare_draft {document : Document} {layout : DataLayout}
    {functions : List (FuncId × FunctionEntry)}
    (run : Yields document.declare (.empty layout) functions q) : q.Draft ∧ q.insts = #[] := by
  rw [Document.declare] at run
  simp only [yields_bind_iff, yields_pure_iff] at run
  obtain ⟨structs, p₁, declared, _, p₂, defined, globals, p₃, added, _, p₄, opened, _, _,
    initialized, rfl, rfl⟩ := run
  have first := Ensures.mapM (.empty layout)
    (fun before entry _ => ensures_declareStruct before.draft entry) (fun _ _ => trivial) declared
  have second := Ensures.forM first.1.draft (fun draft => ensures_defineStruct draft) defined
  have third := Ensures.mapM second.1.draft
    (fun before entry _ => ensures_declareGlobal before.draft entry) (fun _ _ => trivial) added
  have fourth := Ensures.mapM third.1.draft
    (fun before entry _ => ensures_declareFunction before.draft entry) (fun _ _ => trivial) opened
  have fifth :=
    Ensures.forM fourth.1.draft (fun draft => ensures_initializeGlobal draft) initialized
  refine ⟨fifth.1.draft, ?_⟩
  calc q.insts
    _ = p₄.insts :=
      ((LeavesBodies.forM leavesBodies_initializeGlobal _).sameBodies initialized).insts
    _ = p₃.insts := insts_of_declareFunctions opened
    _ = p₂.insts := ((LeavesBodies.mapM leavesBodies_declareGlobal _).sameBodies added).insts
    _ = p₁.insts := ((LeavesBodies.forM leavesBodies_defineStruct _).sameBodies defined).insts
    _ = #[] := ((LeavesBodies.mapM leavesBodies_declareStruct _).sameBodies declared).insts

/-- Where there are no instructions, none has a name. -/
theorem namesResults_of_empty {unfinished : List InstId} (none : p.insts = #[]) :
    p.NamesResults unfinished := by
  intro id inst found
  simp [inst_eq_ok_iff, none] at found

/-- **Loading leaves a draft**, and no instruction of it is unfinished.  Structs, globals and
declarations come first, and then a body at a time. -/
theorem load_named {document : Document} {layout : DataLayout}
    (run : Yields document.load (.empty layout) () q) : q.Draft ∧ q.NamesResults [] := by
  rw [Document.load_eq_declare, yields_bind_iff] at run
  obtain ⟨functions, p, declared, bodies⟩ := run
  obtain ⟨draft, none⟩ := declare_draft declared
  exact defineFunctions_named draft (namesResults_of_empty none) bodies

end Loader

/-- **The program of a document is a draft** in which every name stands for a result. -/
theorem named_of_toProgram {document : Document} {program : Program}
    (loaded : document.toProgram = .ok program) : program.Draft ∧ program.NamesResults [] := by
  simp only [Document.toProgram, bind_eq_ok_iff, pure_eq_ok_iff] at loaded
  obtain ⟨⟨_, q⟩, run, rfl⟩ := loaded
  exact Loader.load_named run

end IrStream
