import IrStream.Proofs.Document.Loading
import IrStream.Proofs.Pairing.Resolving

/-!
# Loading a document with and without debug instructions

A document *strips* another one if it is the other one without some of its debug instructions.  The
programs of two such documents are paired (`paired_of_strips`): what is left of a function body is
loaded alike in both, and a debug instruction that only the second document has brings nothing into
its program but types, constants and itself (`Program.Paired.of_grows`).

No remaining instruction refers to one that was deleted, for the first document could not be loaded
then.

The two loads go side by side, and most of the time they do the same: structs, globals, signatures,
blocks and whatever is in both bodies are loaded by the same steps on both sides, and for each step
there is a lemma `parallel_` with its name.  Where a debug instruction stands in the second document
only, the second side makes steps alone.

* When it is added, its kind and its type are resolved, so its program may grow; it gets a handle
  that is related to none; and its name, if it has one, comes into the second scope only
  (`addInst_dropped`).
* When it is finished, its operands are resolved, and its program may grow again
  (`finishInst_dropped`).

The scope is where the two sides could drift apart.  `Scope.Alike` asks only that the names of the
*first* scope stand for the same in the second.  That is enough because an operand that is in both
documents was resolved in the first one.
-/

set_option autoImplicit false

namespace IrStream

/-! ## Deleting debug instructions

Entries are compared list by list.  Everything that is not an instruction is the same in both
documents. -/

/-- The block is the other one without some debug instructions. -/
structure BlockEntry.Strips (entry other : BlockEntry) : Prop where
  label : other.label = entry.label
  insts : Thinned Eq (fun inst : InstEntry => inst.isEmitted = false) entry.insts other.insts

/-- The function is the other one without some debug instructions. -/
structure FunctionEntry.Strips (entry other : FunctionEntry) : Prop where
  /-- The name is the same. -/
  name : other.name = entry.name
  /-- The parameters are the same. -/
  params : other.params = entry.params
  /-- The return type is the same. -/
  ret : other.ret = entry.ret
  /-- Both are vararg or none is. -/
  vararg : other.vararg = entry.vararg
  /-- The blocks are the same, without some debug instructions in them. -/
  blocks : List.Forall₂ BlockEntry.Strips entry.blocks other.blocks

/-- The document is the other one without some debug instructions. -/
structure Document.Strips (document other : Document) : Prop where
  /-- The target is the same. -/
  layout : other.layout = document.layout
  /-- The structs are the same. -/
  structs : other.structs = document.structs
  /-- The globals are the same. -/
  globals : other.globals = document.globals
  /-- The functions are the same, without some debug instructions in them. -/
  functions : List.Forall₂ FunctionEntry.Strips document.functions other.functions

/-! ## What debug instructions bring

A step that the second side makes alone resolves something.  It adds types and constants that the
first program need not have, and the pairing does not mention them. -/

/-- The second program may get types and constants. -/
theorem Program.Paired.of_grows {m : Pairing} {small large after : Program}
    (paired : small.Paired m large) (grows : large.Grows after) : small.Paired m after := by
  induction grows with
  | refl => exact paired
  | readText _ text ih =>
    have ptr := (ih.types.toEmbeds.has (ih.basic (Nat.le_refl 5))).2
    exact ih.of_types (ih.types.of_interns (Types.readText_interns ptr text))
  | func _ params ret vararg ih => exact ih.of_types (ih.types.of_intern rfl)
  | internConstant _ constant ih => exact ih.of_internConstant constant

namespace Loader

open Program

variable {m : Pairing} {small large after afterLarge : Program}

/-! ## Structs and globals

The two documents declare the same, so these phases are the same loops over the same entries.  The
handles of globals are even equal on both sides.  Those of types need not be once bodies are loaded,
so types are related by the pairing from the beginning. -/

/-- Declared structs, with their entries. -/
def SameStruct (m : Pairing) (entry other : TypeId × Option StructEntry) : Prop :=
  m.type entry.1 other.1 ∧ other.2 = entry.2

/-- Structs that are the same stay so while the pairing grows. -/
theorem stable_sameStruct : Pairing.Stable SameStruct :=
  fun le _ _ h => ⟨le.type h.1, h.2⟩

/-- A struct is declared on both sides, and the two are related. -/
theorem parallel_declareStruct (entry : String × Option StructEntry) :
    Parallel m small large (declareStruct entry) (declareStruct entry) SameStruct := by
  intro paired a after b afterLarge run run'
  simp only [declareStruct, yields_bind_iff, yields_withTypes_iff, yields_pure_iff] at run run'
  obtain ⟨_, _, ⟨rfl, rfl⟩, rfl, rfl⟩ := run
  obtain ⟨_, _, ⟨rfl, rfl⟩, rfl, rfl⟩ := run'
  have le : m.type ≤ WithPair m.type (small.types.declareStruct entry.1).1
      (large.types.declareStruct entry.1).1 := fun _ _ => .old
  exact ⟨_, Pairing.le_withTypes le, paired.withTypes le (paired.types.declareStruct entry.1),
    .new, rfl⟩

/-- Both loaders set the body that is declared, or find the same reason not to. -/
theorem parallel_defineStruct {entry other : TypeId × Option StructEntry}
    (same : SameStruct m entry other) :
    Parallel m small large (defineStruct entry) (defineStruct other) fun _ _ _ => True := by
  obtain ⟨id, body?⟩ := entry
  obtain ⟨other, body'?⟩ := other
  obtain ⟨related, same⟩ := same
  cases (show body'? = body? from same)
  cases body? with
  | none => exact .pure trivial
  | some body =>
    refine (parallel_typesOf body.fields).bind fun le parts => .update fun paired => ?_
    intro _ after _ afterLarge run run'
    simp only [bind_eq_ok_iff, pure_eq_ok_iff] at run run'
    obtain ⟨types, changed, same⟩ := run
    obtain ⟨types', changed', same'⟩ := run'
    cases same
    cases same'
    exact ⟨_, Pairing.le_withTypes le_rfl,
      paired.withTypes le_rfl (paired.types.setStructBody (le.type related) parts changed changed'),
      trivial⟩

/-- A global is declared on both sides, with the same handle. -/
theorem parallel_declareGlobal (entry : GlobalEntry) :
    Parallel m small large (declareGlobal entry) (declareGlobal entry)
      fun _ a b => a = b := by
  refine (parallel_typeOf entry.type).bind fun _ related => ?_
  refine Parallel.bind (P := fun _ a b => a = b) (.update fun paired => ?_) ?_
  · intro _ _ _ _ run run'
    obtain ⟨rfl, paired⟩ := paired.addGlobal related run run'
    exact ⟨_, .refl _, paired, rfl⟩
  · rintro _ _ _ id _ - rfl
    exact .pure rfl

/-- Outside of functions nothing is in scope. -/
theorem alike_empty : Scope.Alike m .empty .empty where
  function := rfl
  value found := nomatch found
  blocks := rfl

/-- Initializers are resolved in the empty scope on both sides, from the same texts. -/
theorem parallel_initializeGlobal (entry : GlobalId × GlobalEntry) :
    Parallel m small large (initializeGlobal entry) (initializeGlobal entry)
      fun _ _ _ => True := by
  obtain ⟨id, entry⟩ := entry
  unfold initializeGlobal
  dsimp only
  split
  · exact .pure trivial
  · next init _ =>
    refine (parallel_operandOf alike_empty init).bind fun _ alike => ?_
    refine (parallel_requireConstant init alike).bind fun _ related => ?_
    refine .get fun paired => .dangling fun run run' => ?_
    exact .set (.refl _) (paired.setInitializer related run run') (.pure trivial)

/-! ## Function signatures

A signature is loaded before any body, and the two documents have the same signatures. -/

/-- An argument gets the same name on both sides. -/
theorem parallel_nameArg (entry : ArgId × ParamEntry) :
    Parallel m small large (nameArg entry) (nameArg entry) fun _ _ _ => True := by
  obtain ⟨id, param⟩ := entry
  unfold nameArg
  dsimp only
  split
  · refine .get fun paired => .dangling fun run run' => ?_
    exact .set (.refl _) (paired.setArgName run run') (.pure trivial)
  · exact .pure trivial

/-- Declared functions, with their entries. -/
def SameFunction (entry other : FuncId × FunctionEntry) : Prop :=
  other.1 = entry.1 ∧ entry.2.Strips other.2

/-- A function and its thinned copy have the same signature, and only that is declared. -/
theorem parallel_declareFunction {entry other : FunctionEntry} (strips : entry.Strips other) :
    Parallel m small large (declareFunction entry) (declareFunction other)
      fun _ => SameFunction := by
  unfold declareFunction
  rw [strips.params, strips.ret, strips.vararg, strips.name]
  refine (parallel_typesOf _).bind fun {_ _ _ params others} _ parameters => ?_
  extract_lets add add'
  have added {m : Pairing} {small large : Program} {ret other : TypeId}
      (parameters : List.Forall₂ m.type params others) (result : m.type ret other) :
      Parallel m small large (add ret) (add' other) fun _ => SameFunction := by
    refine (parallel_func _ parameters result).bind fun _ related => ?_
    refine Parallel.bind (P := fun _ a b => b = a) (.update fun paired => ?_) ?_
    · intro _ _ _ _ run run'
      obtain ⟨rfl, paired⟩ := paired.addFunction related run run'
      exact ⟨_, .refl _, paired, rfl⟩
    · rintro m _ _ id _ - rfl
      refine .get fun paired => .dangling fun found there => ?_
      rw [(paired.function found there).args]
      refine Parallel.bind (P := fun _ _ _ => True) ?_ fun _ _ => .pure ⟨rfl, strips⟩
      refine .forM (S := fun _ a b => a = b) (fun _ _ _ same => same) ?_
        (List.forall₂_same.mpr fun _ _ => rfl)
      rintro _ _ _ entry _ rfl
      exact parallel_nameArg entry
  split
  · exact (parallel_typeOf _).bind fun le result =>
      added (parameters.imp fun _ _ => le.type) result
  · refine Parallel.of_paired fun paired => ?_
    exact .bind (P := fun m a b => m.type a b) (.pure (paired.basic (Nat.zero_le 5)))
      fun le result => added (parameters.imp fun _ _ => le.type) result

/-! ## Scopes

A scope is changed in the same way on both sides, or a debug instruction gives the second one a name
that the first one lacks.  That the name is new for the second scope is checked there, so it is new
for the first one all the more. -/

/-- A name that is defined was free, and is now the first one. -/
theorem defineValue_eq_ok {scope after : Scope} {name : String} {value : Operand}
    (run : scope.defineValue name value = .ok after) :
    scope.values.lookup name = none
      ∧ after = { scope with values := (name, value) :: scope.values } := by
  rw [Scope.defineValue] at run
  split at run
  · cases run
  · next new =>
    cases run
    exact ⟨Option.not_isSome_iff_eq_none.mp new, rfl⟩

/-- A name gets values that are alike. -/
theorem alike_defineValue {scope other after after' : Scope} (alike : scope.Alike m other)
    {name : String} {value value' : Operand} (related : value.Alike m value')
    (run : scope.defineValue name value = .ok after)
    (run' : other.defineValue name value' = .ok after') : after.Alike m after' := by
  obtain ⟨-, rfl⟩ := defineValue_eq_ok run
  obtain ⟨-, rfl⟩ := defineValue_eq_ok run'
  refine ⟨alike.function, fun {asked answer} found => ?_, alike.blocks⟩
  rw [List.lookup_cons] at found ⊢
  split at found
  · cases found
    exact ⟨value', rfl, related⟩
  · exact alike.value found

/-- The second scope alone gets a name. -/
theorem alike_defineValue_right {scope other after' : Scope} (alike : scope.Alike m other)
    {name : String} {value' : Operand} (run' : other.defineValue name value' = .ok after') :
    scope.Alike m after' := by
  obtain ⟨new, rfl⟩ := defineValue_eq_ok run'
  refine ⟨alike.function, fun {asked answer} found => ?_, alike.blocks⟩
  obtain ⟨answer', there, related⟩ := alike.value found
  refine ⟨answer', ?_, related⟩
  -- the new name hides nothing, for the scope did not have it
  rw [List.lookup_cons]
  split
  · next same =>
    rw [beq_iff_eq.mp same, new] at there
    cases there
  · exact there

/-- A label stands for the same block in both scopes. -/
theorem alike_defineBlock {scope other after after' : Scope} (alike : scope.Alike m other)
    {label : String} {block : BlockId} (run : scope.defineBlock label block = .ok after)
    (run' : other.defineBlock label block = .ok after') : after.Alike m after' := by
  rw [Scope.defineBlock] at run run'
  split at run
  · cases run
  · split at run'
    · cases run'
    · cases run
      cases run'
      exact ⟨alike.function, alike.value, by rw [alike.blocks]⟩

/-- An argument enters both scopes under the name that it has in both programs. -/
theorem parallel_scopeArg {scope other : Scope} (alike : scope.Alike m other) (id : ArgId) :
    Parallel m small large (scopeArg scope id) (scopeArg other id) fun m a b => a.Alike m b := by
  unfold scopeArg
  refine .get fun paired => .dangling fun found there => ?_
  rw [(paired.arg found there).name]
  have known := paired.whole.arg id
  split
  · exact .except fun run run' => alike_defineValue alike (.arg known) run run'
  · exact .pure alike

/-- The arguments of a function enter the scopes one after the other. -/
theorem parallel_scopeArgs {scope other : Scope} (alike : scope.Alike m other)
    (ids : List ArgId) :
    Parallel m small large (ids.foldlM scopeArg scope) (ids.foldlM scopeArg other)
      fun m a b => a.Alike m b := by
  induction ids generalizing m small large scope other with
  | nil => exact .pure alike
  | cons id ids ih =>
    rw [List.foldlM_cons, List.foldlM_cons]
    exact (parallel_scopeArg alike id).bind fun _ alike => ih alike

/-! ## Blocks

Deleting instructions leaves the blocks as they are, with their labels. -/

/-- Added blocks, with their entries. -/
def SameBlock (entry other : BlockId × BlockEntry) : Prop :=
  other.1 = entry.1 ∧ entry.2.Strips other.2

/-- The same blocks are added on both sides, also where instructions are missing in one of them. -/
theorem parallel_addBlocks (func : FuncId) {scope other : Scope} (alike : scope.Alike m other)
    {entries others : List BlockEntry} (strips : List.Forall₂ BlockEntry.Strips entries others) :
    Parallel m small large (addBlocks func scope entries) (addBlocks func other others)
      fun m a b => a.1.Alike m b.1 ∧ List.Forall₂ SameBlock a.2 b.2 := by
  induction strips generalizing m small large scope other with
  | nil => exact .pure ⟨alike, .nil⟩
  | @cons entry entry' entries others here _ ih =>
    rw [addBlocks, addBlocks, here.label]
    refine .get fun paired => .dangling fun {a b} run run' => ?_
    obtain ⟨id, p⟩ := a
    obtain ⟨id', q⟩ := b
    obtain ⟨rfl, paired⟩ := paired.addBlock run run'
    refine .set (.refl _) paired ?_
    extract_lets rest rest'
    have added {m : Pairing} {small large : Program} {scope other : Scope}
        (alike : scope.Alike m other) : Parallel m small large (rest scope) (rest' other)
        fun m a b => a.1.Alike m b.1 ∧ List.Forall₂ SameBlock a.2 b.2 := by
      refine (ih alike).bind ?_
      rintro _ _ _ ⟨scope, blocks⟩ ⟨other, blocks'⟩ - ⟨alike, same⟩
      exact .pure ⟨alike, .cons ⟨rfl, here⟩ same⟩
    split
    · refine Parallel.bind (P := fun m a b => a.Alike m b) (.except fun run run' => ?_)
        fun _ => added
      exact alike_defineBlock alike run run'
    · exact Parallel.bind (P := fun m a b => a.Alike m b) (.pure alike) fun _ => added

/-! ## Instructions without operands

Two lists of instructions come out of a body, and the first one is the second one thinned.  Debug
instructions are what is missing. -/

/-- A key is there in both entries or in none, as the entries are equal. -/
theorem parallel_requireKey {α : Type} (op key : String) (value? : Option α) :
    Parallel m small large (requireKey op key value?) (requireKey op key value?)
      fun _ a b => a = b := by
  cases value? with
  | none => exact .throw
  | some value => exact .pure rfl

/-- A kind that is only a mnemonic mentions no types. -/
theorem alike_ofMnemonic {R : TypeId → TypeId → Prop} (name : String) :
    (InstKind.ofMnemonic name).Alike R (.ofMnemonic name) := by
  refine .plain ?_
  unfold InstKind.ofMnemonic
  repeat' split
  all_goals rfl

/-- The types that a kind mentions are read from the same texts. -/
theorem parallel_kindOf (entry : InstEntry) :
    Parallel m small large (kindOf entry) (kindOf entry) fun m a b => a.Alike m.type b := by
  have needed {op key : String} {node? : Option TypeNode} {kind : TypeId → InstKind}
      (alike : ∀ {R : TypeId → TypeId → Prop} {a b}, R a b → (kind a).Alike R (kind b)) :
      Parallel m small large (do return kind (← typeOf (← requireKey op key node?)))
        (do return kind (← typeOf (← requireKey op key node?))) fun m a b => a.Alike m.type b := by
    refine (parallel_requireKey op key node?).bind ?_
    rintro _ _ _ node _ - rfl
    exact (parallel_typeOf node).bind fun _ related => .pure (alike related)
  rw [kindOf]
  split
  · exact needed .alloca
  · exact needed .getElementPtr
  · refine (parallel_requireKey _ _ _).bind ?_
    rintro _ _ _ name _ - rfl
    split
    · exact .pure (.plain rfl)
    · exact .throw
  · refine (parallel_requireKey _ _ _).bind ?_
    rintro _ _ _ name _ - rfl
    split
    · exact .pure (.plain rfl)
    · exact .throw
  · exact .pure (alike_ofMnemonic _)

/-- The default type of a kind is one that every program begins with. -/
theorem related_defaultType (paired : small.Paired m large) {kind other : InstKind}
    (alike : kind.Alike m.type other) : m.type (defaultType kind) (defaultType other) := by
  cases alike with
  | alloca | getElementPtr => exact paired.basic (Nat.le_refl 5)
  | plain none =>
    refine paired.basic ?_
    unfold Loader.defaultType
    split <;> decide

/-- An instruction of both documents, with its entry. -/
def SameInst (m : Pairing) (entry other : InstId × InstEntry) : Prop :=
  m.inst entry.1 other.1 ∧ other.2 = entry.2

/-- An instruction of the second document alone, with its entry. -/
def Deleted (m : Pairing) (entry : InstId × InstEntry) : Prop :=
  m.dropped entry.1

/-- An instruction that both documents have is added on both sides, and the new handles are related
from now on. -/
theorem parallel_addInst (block : BlockId) {scope other : Scope} (alike : scope.Alike m other)
    (entry : InstEntry) :
    Parallel m small large (addInst block scope entry) (addInst block other entry)
      fun m a b => a.1.Alike m b.1 ∧ m.inst a.2 b.2 := by
  rw [addInst, addInst]
  refine (parallel_kindOf entry).bind fun {_ _ _ kind kind'} le kinds => ?_
  extract_lets add add'
  have alike := alike.mono le
  have added {m : Pairing} {small large : Program} {type type' : TypeId}
      (alike : scope.Alike m other) (kinds : kind.Alike m.type kind')
      (related : m.type type type') : Parallel m small large (add type) (add' type')
      fun m a b => a.1.Alike m b.1 ∧ m.inst a.2 b.2 := by
    refine .get fun paired => .dangling fun {a b} run run' => ?_
    obtain ⟨id, p⟩ := a
    obtain ⟨id', q⟩ := b
    have paired := paired.addInst kinds related .nil run run'
    have le := m.le_withInst id id' entry.name.isSome
    refine .set le paired ?_
    have alike := alike.mono le
    split
    · next name named =>
      rw [named] at alike ⊢
      refine Parallel.bind (P := fun m a b => a.Alike m b ∧ m.inst id id')
        (.except fun run run' => ?_) fun _ known => .pure known
      exact ⟨alike_defineValue alike (.inst .new) run run', .new⟩
    · next named => exact .pure ⟨alike, .new⟩
  split
  · exact (parallel_typeOf _).bind fun more related =>
      added (alike.mono more) (kinds.mono more) related
  · refine .of_paired fun paired => ?_
    exact Parallel.bind (P := fun m a b => m.type a b) (.pure (related_defaultType paired kinds))
      fun more related => added (alike.mono more) (kinds.mono more) related

/-- A debug instruction that only the second document has. -/
theorem addInst_dropped {block : BlockId} {scope other after' : Scope} {entry : InstEntry}
    {id : InstId} (alike : scope.Alike m other) (debug : entry.isEmitted = false)
    (run : Yields (addInst block other entry) large (after', id) afterLarge)
    (paired : small.Paired m large) :
    ∃ larger, m.Le larger ∧ small.Paired larger afterLarge ∧ scope.Alike larger after'
      ∧ larger.dropped id := by
  obtain ⟨kind, type, r, isKind, grows, added, defined⟩ := addInst_eq_ok run
  have isDebug : kind.isDebug = true := by simpa [isKind.isEmitted] using debug
  have le := m.le_withDropped id
  refine ⟨_, le, (paired.of_grows grows).addDropped isDebug added, ?_, .inr rfl⟩
  unfold scopeWith at defined
  split at defined
  · exact alike_defineValue_right (alike.mono le) defined
  · cases defined
    exact alike.mono le

/-- An instruction that one document lacks is added on one side only.  It is never emitted, so its
handle is not needed in the relation. -/
theorem parallel_addInsts (block : BlockId) {scope other : Scope} (alike : scope.Alike m other)
    {entries others : List InstEntry}
    (thinned : Thinned Eq (fun entry : InstEntry => entry.isEmitted = false) entries others) :
    Parallel m small large (addInsts block scope entries) (addInsts block other others)
      fun m a b => a.1.Alike m b.1 ∧ Thinned (SameInst m) (Deleted m) a.2 b.2 := by
  induction thinned generalizing m small large scope other with
  | nil => exact .pure ⟨alike, .nil⟩
  | @keep entry _ entries others same _ ih =>
    cases same
    rw [addInsts, addInsts]
    refine (parallel_addInst block alike entry).bind ?_
    rintro _ _ _ ⟨scope, id⟩ ⟨other, id'⟩ - ⟨alike, related⟩
    refine (ih alike).bind ?_
    rintro _ _ _ ⟨scope, insts⟩ ⟨other, insts'⟩ le ⟨alike, thinned⟩
    exact .pure ⟨alike, .keep ⟨le.inst related, rfl⟩ thinned⟩
  | @drop entry entries others debug _ ih =>
    -- here only the second document makes a step, so the rule for `bind` does not apply
    intro paired answer after answer' afterLarge run run'
    rw [addInsts] at run'
    obtain ⟨⟨other, id⟩, r, dropped, run'⟩ := yields_bind_iff.mp run'
    obtain ⟨⟨scope', insts⟩, s, others, run'⟩ := yields_bind_iff.mp run'
    obtain ⟨rfl, rfl⟩ := yields_pure_iff.mp run'
    obtain ⟨larger, le, paired, alike, isDropped⟩ := addInst_dropped alike debug dropped paired
    obtain ⟨largest, more, paired, alike, thinned⟩ := ih alike paired run others
    exact ⟨largest, le.trans more, paired, alike, .drop (more.dropped isDropped) thinned⟩

/-- A list that was thinned stays so while the pairing grows. -/
theorem stable_thinned {m larger : Pairing} (le : m.Le larger)
    {insts others : List (InstId × InstEntry)}
    (thinned : Thinned (SameInst m) (Deleted m) insts others) :
    Thinned (SameInst larger) (Deleted larger) insts others :=
  thinned.imp (fun same => ⟨le.inst same.1, same.2⟩) le.dropped

/-- The instructions of all blocks, thinned block by block. -/
theorem parallel_fillBlocks {scope other : Scope} (alike : scope.Alike m other)
    {blocks others : List (BlockId × BlockEntry)} (same : List.Forall₂ SameBlock blocks others) :
    Parallel m small large (fillBlocks scope blocks) (fillBlocks other others)
      fun m a b => a.1.Alike m b.1 ∧ Thinned (SameInst m) (Deleted m) a.2 b.2 := by
  induction same generalizing m small large scope other with
  | nil => exact .pure ⟨alike, .nil⟩
  | @cons block block' blocks others here _ ih =>
    obtain ⟨id, entry⟩ := block
    obtain ⟨id', entry'⟩ := block'
    obtain ⟨sameId, strips⟩ := here
    cases (show id' = id from sameId)
    rw [fillBlocks, fillBlocks]
    refine (parallel_addInsts id alike strips.insts).bind ?_
    rintro _ _ _ ⟨scope, insts⟩ ⟨other, insts'⟩ - ⟨alike, thinned⟩
    refine (ih alike).bind ?_
    rintro _ _ _ ⟨scope, more⟩ ⟨other, more'⟩ le ⟨alike, others⟩
    exact .pure ⟨alike, (stable_thinned le thinned).append others⟩

/-! ## Operands

Rounds go through both lists together.  A round of the second side alone is one for a dropped
instruction, and it changes nothing that is related. -/

/-- Operands that are alike stay so while the pairing grows. -/
theorem stable_operandAlike : Pairing.Stable fun m a b => Operand.Alike m a b :=
  fun le _ _ alike => alike.mono le

/-- Operands are resolved from the same texts, in scopes that know related handles. -/
theorem parallel_operandsOf {scope other : Scope} (alike : scope.Alike m other)
    {kind kind' : InstKind} (kinds : kind.Alike m.type kind') (entry : InstEntry) :
    Parallel m small large (operandsOf scope kind entry) (operandsOf other kind' entry)
      fun m => List.Forall₂ (Operand.Alike m) := by
  have written : Parallel m small large (entry.args.mapM (operandOf scope))
      (entry.args.mapM (operandOf other)) fun m => List.Forall₂ (Operand.Alike m) := by
    refine .mapM (S := fun m a b => scope.Alike m other ∧ a = b)
      (fun le _ _ h => ⟨h.1.mono le, h.2⟩) stable_operandAlike ?_
      (List.forall₂_same.mpr fun _ _ => ⟨alike, rfl⟩)
    rintro _ _ _ node _ ⟨alike, rfl⟩
    exact parallel_operandOf alike node
  unfold operandsOf
  refine written.bind fun le related => ?_
  have kinds := kinds.mono le
  cases related with
  | nil =>
    cases kinds with
    | alloca =>
      refine .of_paired fun paired => ?_
      exact (parallel_constInt (paired.basic (by decide))).bind
        fun _ same => .pure (.cons (.const same) .nil)
    | getElementPtr => exact .pure .nil
    | plain none =>
      cases kind with
      | alloca => cases none
      | _ => exact .pure .nil
  | cons here rest => exact .pure (.cons here rest)

/-- A type that is inferred is that of an operand, and related operands have related types. -/
theorem parallel_inferType {id id' : InstId} (related : m.inst id id') {kind kind' : InstKind}
    (kinds : kind.Alike m.type kind') (entry : InstEntry) {operands others : List Operand}
    (used : List.Forall₂ (Operand.Alike m) operands others) :
    Parallel m small large (inferType id kind entry operands)
      (inferType id' kind' entry others) fun _ _ _ => True := by
  have operator {op : BinaryOp} : Parallel m small large (inferType id (.binary op) entry operands)
      (inferType id' (.binary op) entry others) fun _ _ _ => True := by
    unfold inferType
    cases used with
    | nil => cases entry.type <;> exact .pure trivial
    | cons here _ =>
      cases entry.type with
      | some node => exact .pure trivial
      | none =>
        refine .get fun paired => .dangling fun found there => ?_
        cases paired.operandType? here found there with
        | none => exact .pure trivial
        | some typed =>
          refine .get fun paired => .dangling fun run run' => ?_
          exact .set (.refl _) (paired.setInstType related typed run run') (.pure trivial)
  cases kinds with
  | alloca | getElementPtr => exact .pure trivial
  | plain =>
    cases kind with
    | binary op => exact operator
    | _ => exact .pure trivial

/-- An instruction that both documents have is completed by related operands and a related type. -/
theorem parallel_finishInst {scope other : Scope} (alike : scope.Alike m other)
    {inst inst' : InstId × InstEntry} (same : SameInst m inst inst') :
    Parallel m small large (finishInst scope inst) (finishInst other inst')
      fun _ _ _ => True := by
  obtain ⟨id, entry⟩ := inst
  obtain ⟨id', entry'⟩ := inst'
  obtain ⟨related, sameEntry⟩ := same
  cases (show entry' = entry from sameEntry)
  intro paired _ after _ afterLarge run run'
  obtain ⟨inst, operands, p, r, found, resolved, inferred, changed, -⟩ := finishInst_eq_ok run
  obtain ⟨inst', operands', q, s, there, resolved', inferred', changed', -⟩ := finishInst_eq_ok run'
  have kinds := (paired.inst related found there).kind
  obtain ⟨larger, le, paired, used⟩ :=
    parallel_operandsOf alike kinds entry paired resolved resolved'
  obtain ⟨largest, more, paired, -⟩ :=
    parallel_inferType (le.inst related) (kinds.mono le) entry used paired inferred inferred'
  exact ⟨largest, le.trans more, paired.setOperands ((le.trans more).inst related)
    (used.imp fun _ _ => .mono more) changed changed', trivial⟩

/-- A debug instruction that only the second document has gets its operands. -/
theorem finishInst_dropped {scope : Scope} {inst : InstId × InstEntry} (deleted : Deleted m inst)
    (run : Yields (finishInst scope inst) large () afterLarge) (paired : small.Paired m large) :
    small.Paired m afterLarge := by
  obtain ⟨id, entry⟩ := inst
  obtain ⟨inst, operands, r, s, found, resolved, inferred, changed, -⟩ := finishInst_eq_ok run
  obtain ⟨_, there, debug⟩ := paired.insts.dropped deleted
  cases (inst_eq_ok_iff.mp found).symm.trans there
  -- only operators take the type of an operand
  have same : s = r := by
    unfold inferType at inferred
    split at inferred
    · next isBinary _ =>
      rw [isBinary] at debug
      cases debug
    · exact (yields_pure_iff.mp inferred).2
  subst same
  exact (paired.of_grows (operandsOf_spec resolved).1).setDropped deleted changed

/-- A debug instruction is completed on one side only.  That may add types and constants to the
program, but nothing that is emitted refers to it. -/
theorem parallel_finishInsts {scope other : Scope} (alike : scope.Alike m other)
    {insts others : List (InstId × InstEntry)}
    (thinned : Thinned (SameInst m) (Deleted m) insts others) :
    Parallel m small large (insts.forM (finishInst scope)) (others.forM (finishInst other))
      fun _ _ _ => True := by
  induction others generalizing m small large insts scope other with
  | nil =>
    cases thinned
    exact .pure trivial
  | cons inst' others ih =>
    cases thinned with
    | keep same thinned =>
      exact (parallel_finishInst alike same).bind fun le _ =>
        ih (alike.mono le) (stable_thinned le thinned)
    | drop deleted thinned =>
      intro paired _ after _ afterLarge run run'
      obtain ⟨r, finished, run'⟩ := yields_forM_cons_iff.mp run'
      exact ih alike thinned (finishInst_dropped deleted finished paired) run run'

/-! ## Functions and documents

The three passes over the bodies, and the phases in front of them. -/

/-- A body is loaded in three passes over the same blocks, and each of the passes runs in parallel.
-/
theorem parallel_defineFunction {function other : FuncId × FunctionEntry}
    (same : SameFunction function other) :
    Parallel m small large (defineFunction function) (defineFunction other)
      fun _ _ _ => True := by
  obtain ⟨id, entry⟩ := function
  obtain ⟨id', entry'⟩ := other
  obtain ⟨sameId, strips⟩ := same
  cases (show id' = id from sameId)
  rw [defineFunction, defineFunction, strips.name]
  refine .get fun paired => .dangling fun found there => ?_
  rw [(paired.function found there).args]
  have start : Scope.Alike m (.ofFunction entry.name) (.ofFunction entry.name) :=
    ⟨rfl, fun found => (by cases found), rfl⟩
  refine (parallel_scopeArgs start _).bind fun _ alike => ?_
  refine (parallel_addBlocks id alike strips.blocks).bind ?_
  rintro _ _ _ ⟨scope, blocks⟩ ⟨other, blocks'⟩ - ⟨alike, blocks⟩
  refine (parallel_fillBlocks alike blocks).bind ?_
  rintro _ _ _ ⟨scope, insts⟩ ⟨other, insts'⟩ - ⟨alike, thinned⟩
  exact parallel_finishInsts alike thinned

/-- Both documents are loaded side by side. -/
theorem parallel_load {document other : Document} (strips : document.Strips other) :
    Parallel m small large document.load other.load fun _ _ _ => True := by
  unfold Document.load
  rw [strips.structs, strips.globals]
  have equal {α : Type} : Pairing.Stable fun _ (a b : α) => a = b := fun _ _ _ same => same
  have same {α : Type} (list : List α) : List.Forall₂ (fun a b => a = b) list list :=
    List.forall₂_same.mpr fun _ _ => rfl
  refine Parallel.bind (.mapM equal stable_sameStruct ?_ (same _)) fun _ structs => ?_
  · rintro _ _ _ entry _ rfl
    exact parallel_declareStruct entry
  refine Parallel.bind (.forM stable_sameStruct parallel_defineStruct structs) fun _ _ => ?_
  refine Parallel.bind (.mapM equal equal ?_ (same _)) fun {_ _ _ globals globals'} _ known => ?_
  · rintro _ _ _ entry _ rfl
    exact parallel_declareGlobal entry
  cases List.forall₂_eq_eq_eq ▸ known
  refine Parallel.bind (.mapM (S := fun _ => FunctionEntry.Strips) (fun _ _ _ h => h)
    (fun _ _ _ h => h) parallel_declareFunction strips.functions) fun _ functions => ?_
  refine Parallel.bind (.forM equal ?_ (same _)) fun _ _ => ?_
  · rintro _ _ _ entry _ rfl
    exact parallel_initializeGlobal entry
  exact .forM (S := fun _ => SameFunction) (fun _ _ _ h => h) parallel_defineFunction functions

end Loader

/-- **The programs of a document with and without debug instructions are paired.** -/
theorem paired_of_strips {document other : Document} (strips : document.Strips other)
    {small large : Program} (loaded : document.toProgram = .ok small)
    (loaded' : other.toProgram = .ok large) : ∃ m, small.Paired m large := by
  simp only [Document.toProgram, bind_eq_ok_iff, pure_eq_ok_iff] at loaded loaded'
  obtain ⟨⟨_, p⟩, run, rfl⟩ := loaded
  obtain ⟨⟨_, q⟩, run', rfl⟩ := loaded'
  rw [strips.layout] at run'
  obtain ⟨m, -, paired, -⟩ := Loader.parallel_load strips (.empty _) run run'
  exact ⟨m, paired⟩

end IrStream
