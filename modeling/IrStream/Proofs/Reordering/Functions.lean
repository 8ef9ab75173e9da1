import IrStream.Proofs.Pairing.Loading
import IrStream.Proofs.Reordering.Bodies

/-!
# Loading the same function into two programs

Run on programs with the same declarations, the steps that load the body of a function both fail or
both succeed, and then the two functions are built to the same extent (`Program.SameBody`).  This is
so for each of the passes: arguments come into scope, blocks are added, instructions are added, and
instructions get their operands.  Together they make `Loader.along_defineFunction`.

Blocks and instructions that are added stand for each other from then on, so the first passes end
with larger `Locals` than they began with (`Loader.Grown`).

The two runs go in step.  They have the same entry, so they make the same steps with the same texts,
and the only thing in which they may differ is what the programs answer.  For each part of the
loader that loads bodies there is a lemma here with its name, and `along_` in front of it.

* What resolves a type, a constant or an operand is known to go alike (`Reordering/Resolving.lean`),
  in scopes that correspond.
* What changes the bodies is known to keep them alike (`Reordering/Bodies.lean`).
* What remains is the scope.  A name is defined on both sides or refused on both, since the two
  scopes have the same names (`agree_defineValue`, `agree_defineBlock`).

Failing is part of the statement, and it has to be: if one of two documents could fail where the
other one goes on, then whether a document loads would depend on the order of its entries.
-/

set_option autoImplicit false

namespace IrStream

namespace Loader

open Program

variable {α β : Type} {p q : Program} {locals : Locals} {f g : FuncId} {scope other : Scope}

/-- Resolving leaves functions built to the same extent. -/
theorem Along.inBody {left : Loader α} {right : Loader β}
    {P : Program → Program → α → β → Prop} (along : Along Enlarges p q left right P)
    (body : SameBody locals f g p q) :
    Along Fills p q left right fun p q a b => SameBody locals f g p q ∧ P p q a b :=
  along.imp Enlarges.fills fun first second holds => ⟨body.enlarge first second, holds⟩

/-- Handles that stand for each other, with the same entry. -/
def WithEntry {ε : Type} (R : α → β → Prop) (a : α × ε) (b : β × ε) : Prop :=
  R a.1 b.1 ∧ b.2 = a.2

/-- More blocks and instructions stand for each other, under which the functions are built to the
same extent, scopes correspond, and answers are related. -/
inductive Grown (locals : Locals) (f g : FuncId) (R : Locals → α → β → Prop) (p q : Program)
    (a : Scope × α) (b : Scope × β) : Prop
  | intro (larger : Locals) (le : locals.Le larger) (body : SameBody larger f g p q)
      (alike : a.1.Corresponds (p.matching q larger) b.1) (related : R larger a.2 b.2)

/-! ## Scopes

Two scopes correspond if they have the same names, and what has the same name stands for each other.
So a definition is refused in both, or makes one more such name. -/

section

variable {m : Correspondence}

/-- Of related answers both are there or none is. -/
theorem optionRel_isSome {R : α → β → Prop} {a : Option α} {b : Option β}
    (related : Option.Rel R a b) : b.isSome = a.isSome := by
  cases related <;> rfl

/-- What is looked up in lists with one more entry of the same name. -/
theorem optionRel_lookup_cons {R : α → β → Prop} {list : List (String × α)}
    {list' : List (String × β)} {a : α} {b : β} {name : String} (related : R a b)
    (others : ∀ name, Option.Rel R (list.lookup name) (list'.lookup name)) (asked : String) :
    Option.Rel R (((name, a) :: list).lookup asked) (((name, b) :: list').lookup asked) := by
  rw [List.lookup_cons, List.lookup_cons]
  split
  · exact .some related
  · exact others asked

/-- A value is defined in both scopes or refused in both, as a name is taken in both or in none. -/
theorem agree_defineValue (alike : scope.Corresponds m other) (name : String)
    {value value' : Operand} (related : value.Corresponds m value') :
    Agree ⊤ (Scope.Corresponds m) (scope.defineValue name value)
      (other.defineValue name value') := by
  rw [Scope.defineValue, Scope.defineValue, optionRel_isSome (alike.values name)]
  split
  · exact .error trivial
  · exact .ok ⟨optionRel_lookup_cons related alike.values, alike.blocks⟩

/-- A block is defined in both scopes or refused in both. -/
theorem agree_defineBlock (alike : scope.Corresponds m other) (label : String)
    {block block' : BlockId} (related : m.block block block') :
    Agree ⊤ (Scope.Corresponds m) (scope.defineBlock label block)
      (other.defineBlock label block') := by
  rw [Scope.defineBlock, Scope.defineBlock, optionRel_isSome (alike.blocks label)]
  split
  · exact .error trivial
  · exact .ok ⟨alike.values, optionRel_lookup_cons related alike.blocks⟩

end

/-- An argument has the same name in both programs, so it enters both scopes under it. -/
theorem along_scopeArg (body : SameBody locals f g p q)
    (alike : scope.Corresponds (p.matching q locals) other) {id id' : ArgId}
    (same : p.SameArg q id id') :
    Along Fills p q (scopeArg scope id) (scopeArg other id')
      fun p q a b => SameBody locals f g p q ∧ a.Corresponds (p.matching q locals) b := by
  refine .get (.dangling (body.declared.arg same) fun {arg arg'} known => ?_)
  rw [known.2]
  split
  · exact .except ((agree_defineValue alike _ (.arg same)).imp fun alike => ⟨body, alike⟩)
  · exact .pure ⟨body, alike⟩

/-- Arguments enter both scopes under the same names, in the order of the parameters. -/
theorem along_scopeArgs (body : SameBody locals f g p q)
    (alike : scope.Corresponds (p.matching q locals) other) {ids ids' : List ArgId}
    (same : List.Forall₂ (p.SameArg q) ids ids') :
    Along Fills p q (ids.foldlM scopeArg scope) (ids'.foldlM scopeArg other)
      fun p q a b => SameBody locals f g p q ∧ a.Corresponds (p.matching q locals) b := by
  induction ids generalizing p q ids' scope other with
  | nil =>
    cases same
    exact .pure ⟨body, alike⟩
  | cons id ids ih =>
    cases same with
    | cons here rest =>
      rw [List.foldlM_cons, List.foldlM_cons]
      refine (along_scopeArg body alike here).bind fun fills fills' known => ?_
      exact ih known.1 known.2 (rest.imp fun _ _ => SameArg.mono fills.later fills'.later)

/-! ## Blocks

Both functions get a block for each entry, and these stand for each other from then on. -/

/-- The same blocks are added to two functions that are the same so far, and corresponding blocks
have corresponding handles. -/
theorem along_addBlocks (body : SameBody locals f g p q)
    (alike : scope.Corresponds (p.matching q locals) other) (entries : List BlockEntry) :
    Along Fills p q (addBlocks f scope entries) (addBlocks g other entries)
      (Grown locals f g fun larger => List.Forall₂ (WithEntry larger.block)) := by
  induction entries generalizing p q locals scope other with
  | nil => exact .pure ⟨locals, .refl _, body, alike, .nil⟩
  | cons entry entries ih =>
    rw [addBlocks, addBlocks]
    refine .get (.dangling (body.addBlock entry.label) ?_)
    rintro ⟨id, p'⟩ ⟨id', q'⟩ ⟨fills, fills', body'⟩
    refine .set fills fills' ?_
    extract_lets rest rest'
    have le : locals.Le ⟨WithPair locals.block id id', locals.inst⟩ := ⟨.old, fun h => h⟩
    have alike := alike.mono (matching_le fills.later fills'.later body.declared.twins.types le)
    have added {scope other : Scope} {p q : Program}
        (body : SameBody ⟨WithPair locals.block id id', locals.inst⟩ f g p q)
        (alike : scope.Corresponds
          (p.matching q ⟨WithPair locals.block id id', locals.inst⟩) other) :
        Along Fills p q (rest scope) (rest' other)
          (Grown locals f g fun larger => List.Forall₂ (WithEntry larger.block)) := by
      refine (ih body alike).bind ?_
      rintro p q ⟨scope, blocks⟩ ⟨other, blocks'⟩ - - ⟨larger, more, body, alike, same⟩
      exact .pure ⟨larger, le.trans more, body, alike, .cons ⟨more.block .new, rfl⟩ same⟩
    split
    · exact .except_bind (agree_defineBlock alike _ .new) fun known => added body' known
    · exact added body' alike

/-! ## Instructions without operands

The same for instructions.  Kinds and result types are resolved on the way, which adds types to both
programs, but not necessarily the same. -/

/-- The entry is the same, so a key is there on both sides or on none. -/
theorem along_requireKey (op key : String) (value? : Option α) :
    Along Enlarges p q (requireKey op key value?) (requireKey op key value?)
      fun _ _ a b => a = b := by
  cases value? with
  | none => exact .throw
  | some value => exact .pure rfl

/-- A kind mentions types by their texts, and texts mean the same term in twin arenas. -/
theorem along_kindOf (twins : p.types.Twins q.types) (entry : InstEntry) :
    Along Enlarges p q (kindOf entry) (kindOf entry)
      fun p q a b => a.Alike (Types.SameTerm p.types q.types) b := by
  have needed {op key : String} {node? : Option TypeNode} {kind : TypeId → InstKind}
      (alike : ∀ {R : TypeId → TypeId → Prop} {a b}, R a b → (kind a).Alike R (kind b)) :
      Along Enlarges p q (do return kind (← typeOf (← requireKey op key node?)))
        (do return kind (← typeOf (← requireKey op key node?)))
        fun p q a b => a.Alike (Types.SameTerm p.types q.types) b := by
    refine (along_requireKey op key node?).bind ?_
    rintro p q node _ first first' rfl
    have twins := twins.mono first.types.interns first'.types.interns
    exact (along_typeOf twins node).bind fun _ _ same => .pure (alike same)
  rw [kindOf]
  split
  · exact needed .alloca
  · exact needed .getElementPtr
  · refine (along_requireKey _ _ _).bind ?_
    rintro _ _ name _ - - rfl
    split
    · exact .pure (.plain rfl)
    · exact .throw
  · refine (along_requireKey _ _ _).bind ?_
    rintro _ _ name _ - - rfl
    split
    · exact .pure (.plain rfl)
    · exact .throw
  · exact .pure (alike_ofMnemonic _)

/-- The default type of a kind is one that every arena begins with, and has the same term in all of
them. -/
theorem sameTerm_defaultType (twins : p.types.Twins q.types) {kind kind' : InstKind}
    (alike : kind.Alike (Types.SameTerm p.types q.types) kind') :
    Types.SameTerm p.types q.types (defaultType kind) (defaultType kind') := by
  cases alike with
  | alloca | getElementPtr => exact twins.sameTerm_basic (Nat.le_refl 5)
  | plain none =>
    refine twins.sameTerm_basic ?_
    unfold defaultType
    split <;> decide

/-- The same instruction is added to corresponding blocks. -/
theorem along_addInst (body : SameBody locals f g p q)
    (alike : scope.Corresponds (p.matching q locals) other) {block block' : BlockId}
    (related : locals.block block block') (entry : InstEntry) :
    Along Fills p q (addInst block scope entry) (addInst block' other entry)
      (Grown locals f g Locals.inst) := by
  rw [addInst, addInst]
  refine ((along_kindOf body.declared.twins.types entry).inBody body).bind ?_
  rintro p' q' kind kind' fills fills' ⟨body', kinds⟩
  have alike := alike.mono (body.mono fills fills')
  extract_lets add add'
  have added {p q : Program} {type type' : TypeId} (body : SameBody locals f g p q)
      (alike : scope.Corresponds (p.matching q locals) other)
      (kinds : kind.Alike (Types.SameTerm p.types q.types) kind')
      (typed : Types.SameTerm p.types q.types type type') :
      Along Fills p q (add type) (add' type') (Grown locals f g Locals.inst) := by
    refine .get (.dangling (body.addInst related kinds typed entry.name) ?_)
    rintro ⟨id, p'⟩ ⟨id', q'⟩ ⟨fills, fills', body'⟩
    refine .set fills fills' ?_
    have le : locals.Le ⟨locals.block, WithPair locals.inst id id'⟩ := ⟨fun h => h, .old⟩
    have alike := alike.mono (matching_le fills.later fills'.later body.declared.twins.types le)
    split
    · exact .except_bind (agree_defineValue alike _ (.inst .new)) fun known =>
        .pure ⟨_, le, body', known, .new⟩
    · exact .pure ⟨_, le, body', alike, .new⟩
  split
  · refine ((along_typeOf body'.declared.twins.types _).inBody body').bind ?_
    rintro p q type type' more more' ⟨body, typed⟩
    have larger := body'.mono more more'
    exact added body (alike.mono larger) (kinds.imp larger.type) typed
  · exact added body' alike kinds (sameTerm_defaultType body'.declared.twins.types kinds)

/-- The instructions of one block, in the order of the entries. -/
theorem along_addInsts (body : SameBody locals f g p q)
    (alike : scope.Corresponds (p.matching q locals) other) {block block' : BlockId}
    (related : locals.block block block') (entries : List InstEntry) :
    Along Fills p q (addInsts block scope entries) (addInsts block' other entries)
      (Grown locals f g fun larger => List.Forall₂ (WithEntry larger.inst)) := by
  induction entries generalizing p q locals scope other with
  | nil => exact .pure ⟨locals, .refl _, body, alike, .nil⟩
  | cons entry entries ih =>
    rw [addInsts, addInsts]
    refine (along_addInst body alike related entry).bind ?_
    rintro p q ⟨scope, id⟩ ⟨other, id'⟩ - - ⟨middle, le, body, alike, new⟩
    refine (ih body alike (le.block related)).bind ?_
    rintro p q ⟨scope, insts⟩ ⟨other, insts'⟩ - - ⟨larger, more, body, alike, opened⟩
    exact .pure ⟨larger, le.trans more, body, alike, .cons ⟨more.inst new, rfl⟩ opened⟩

/-- All instructions are added in the order of the blocks, so they correspond by position. -/
theorem along_fillBlocks (body : SameBody locals f g p q)
    (alike : scope.Corresponds (p.matching q locals) other)
    {blocks blocks' : List (BlockId × BlockEntry)}
    (same : List.Forall₂ (WithEntry locals.block) blocks blocks') :
    Along Fills p q (fillBlocks scope blocks) (fillBlocks other blocks')
      (Grown locals f g fun larger => List.Forall₂ (WithEntry larger.inst)) := by
  induction blocks generalizing p q locals scope other blocks' with
  | nil =>
    cases same
    exact .pure ⟨locals, .refl _, body, alike, .nil⟩
  | cons block blocks ih =>
    obtain ⟨id, entry⟩ := block
    cases same with
    | @cons _ block' _ blocks' here rest =>
      obtain ⟨id', entry'⟩ := block'
      obtain ⟨related, sameEntry⟩ := here
      cases (show entry' = entry from sameEntry)
      rw [fillBlocks, fillBlocks]
      refine (along_addInsts body alike related entry.insts).bind ?_
      rintro p q ⟨scope, insts⟩ ⟨other, insts'⟩ - - ⟨middle, le, body, alike, opened⟩
      refine (ih body alike (rest.imp fun _ _ h => ⟨le.block h.1, h.2⟩)).bind ?_
      rintro p q ⟨scope, others⟩ ⟨other, others'⟩ - - ⟨larger, more, body, alike, opened'⟩
      refine .pure ⟨larger, le.trans more, body, alike, List.rel_append ?_ opened'⟩
      exact opened.imp fun _ _ h => ⟨more.inst h.1, h.2⟩

/-! ## Operands

In this pass nothing is added to the bodies.  An instruction is replaced by one with operands, on
both sides, and its type is inferred from operands that correspond. -/

/-- The operands of an instruction are resolved one after the other, while the arenas grow. -/
theorem along_operandsOf (twins : p.Twins q) (alike : scope.Corresponds (p.matching q locals) other)
    {kind kind' : InstKind} (kinds : kind.Alike (Types.SameTerm p.types q.types) kind')
    (entry : InstEntry) :
    Along Enlarges p q (operandsOf scope kind entry) (operandsOf other kind' entry)
      fun p q => List.Forall₂ (Operand.Corresponds (p.matching q locals)) := by
  have written : Along Enlarges p q (entry.args.mapM (operandOf scope))
      (entry.args.mapM (operandOf other))
      fun p q => List.Forall₂ (Operand.Corresponds (p.matching q locals)) := by
    refine .mapM (fun node first first' => ?_) fun first first' second second' known => ?_
    · have le := matching_le first.later first'.later twins.types (.refl locals)
      exact along_operandOf (twins.enlarge first first') (alike.mono le) node
    · exact known.mono (matching_le second.later second'.later (twins.enlarge first first').types
        (.refl locals))
  unfold operandsOf
  refine written.bind fun {p q _ _} first first' related => ?_
  have twins := twins.enlarge first first'
  cases related with
  | nil =>
    cases kinds with
    | alloca =>
      exact (along_constInt twins (twins.types.sameTerm_basic (by decide)) 1).bind
        fun _ _ same => .pure (.cons (.const same) .nil)
    | getElementPtr => exact .pure .nil
    | plain none =>
      cases kind with
      | alloca => cases none
      | _ => exact .pure .nil
  | cons here rest => exact .pure (.cons here rest)

/-- Operands that correspond have types with the same term, or none. -/
theorem bothOk_operandType? (body : SameBody locals f g p q) {operand operand' : Operand}
    (alike : operand.Corresponds (p.matching q locals) operand') :
    BothOk (Option.Rel (Types.SameTerm p.types q.types)) (p.operandType? operand)
      (q.operandType? operand') := by
  cases alike with
  | const same =>
    obtain ⟨constant, constant', found, there, alike⟩ := same.bothOk locals
    refine ⟨_, _, by rw [operandType?, found]; rfl, by rw [operandType?, there]; rfl, .some ?_⟩
    exact alike.type (body.declared.twins.types.sameTerm_basic (Nat.le_refl 5))
  | arg same =>
    obtain ⟨arg, arg', found, there, typed, -⟩ := body.declared.arg same
    exact ⟨_, _, by rw [operandType?, found]; rfl, by rw [operandType?, there]; rfl, .some typed⟩
  | inst related =>
    obtain ⟨inst, inst', found, there, alike⟩ := body.inst related
    exact ⟨_, _, by rw [operandType?, found]; rfl, by rw [operandType?, there]; rfl,
      .some alike.type⟩
  | block | text => exact ⟨_, _, rfl, rfl, .none⟩

/-- The type of a corresponding operand is of the same term. -/
theorem along_inferType (body : SameBody locals f g p q) {id id' : InstId}
    (related : locals.inst id id') {kind kind' : InstKind}
    (kinds : kind.Alike (Types.SameTerm p.types q.types) kind') (entry : InstEntry)
    {operands operands' : List Operand}
    (used : List.Forall₂ (Operand.Corresponds (p.matching q locals)) operands operands') :
    Along Fills p q (inferType id kind entry operands) (inferType id' kind' entry operands')
      fun p q _ _ => SameBody locals f g p q := by
  have operator {op : BinaryOp} : Along Fills p q (inferType id (.binary op) entry operands)
      (inferType id' (.binary op) entry operands') fun p q _ _ => SameBody locals f g p q := by
    unfold inferType
    cases used with
    | nil => cases entry.type <;> exact .pure body
    | cons here _ =>
      cases entry.type with
      | some node => exact .pure body
      | none =>
        refine .get (.dangling (bothOk_operandType? body here) fun typed => ?_)
        cases typed with
        | none => exact .pure body
        | some typed =>
          refine .get (.dangling (body.setInstType related typed) fun changed => ?_)
          exact .set changed.1 changed.2.1 (.pure changed.2.2)
  cases kinds with
  | alloca | getElementPtr => exact .pure body
  | plain =>
    cases kind with
    | binary op => exact operator
    | _ => exact .pure body

/-- Types with the same term are both void or none of them is. -/
theorem bothOk_isVoid (twins : p.Twins q) {type type' : TypeId}
    (same : Types.SameTerm p.types q.types type type') :
    BothOk (fun isVoid isVoid' => isVoid' = isVoid) (p.types.isVoid type)
      (q.types.isVoid type') := by
  obtain ⟨shape, shape', found, there, alike⟩ := twins.shapes same
  refine ⟨_, _, by rw [Types.isVoid, found]; rfl, by rw [Types.isVoid, there]; rfl, ?_⟩
  rcases alike with alike | ⟨_, _, rfl, rfl⟩
  · exact alike.isVoid_eq
  · rfl

/-- Corresponding instructions get corresponding operands and types of one term. -/
theorem along_finishInst (body : SameBody locals f g p q)
    (alike : scope.Corresponds (p.matching q locals) other) {id id' : InstId}
    (related : locals.inst id id') (entry : InstEntry) :
    Along Fills p q (finishInst scope (id, entry)) (finishInst other (id', entry))
      fun p q _ _ => SameBody locals f g p q := by
  rw [finishInst, finishInst]
  refine .get (.dangling (body.inst related) fun {inst inst'} same => ?_)
  refine ((along_operandsOf body.declared.twins alike same.kind entry).inBody body).bind ?_
  rintro p' q' operands operands' first first' ⟨body', used⟩
  have kinds := same.kind.imp (body.mono first first').type
  refine (along_inferType body' related kinds entry used).bind
    fun {p'' q'' _ _} second second' body'' => ?_
  have used := used.imp fun _ _ => Operand.Corresponds.mono (body'.mono second second')
  refine .get (.dangling (body''.setOperands related used) fun changed => ?_)
  refine .set changed.1 changed.2.1 ?_
  have body := changed.2.2
  split
  · refine .get (.dangling (body.inst related) fun same => ?_)
    refine .get (.dangling (bothOk_isVoid body.declared.twins same.type) ?_)
    rintro isVoid _ rfl
    split
    · exact .throw
    · exact .pure body
  · exact .pure body

/-- Instructions are finished in the order in which they were added, which is the same on both
sides. -/
theorem along_finishInsts (body : SameBody locals f g p q)
    (alike : scope.Corresponds (p.matching q locals) other)
    {insts insts' : List (InstId × InstEntry)}
    (opened : List.Forall₂ (WithEntry locals.inst) insts insts') :
    Along Fills p q (insts.forM (finishInst scope)) (insts'.forM (finishInst other))
      fun p q _ _ => SameBody locals f g p q := by
  induction insts generalizing p q insts' with
  | nil =>
    cases opened
    exact .pure body
  | cons inst insts ih =>
    obtain ⟨id, entry⟩ := inst
    cases opened with
    | @cons _ inst' _ insts' here rest =>
      obtain ⟨id', entry'⟩ := inst'
      obtain ⟨related, same⟩ := here
      cases (show entry' = entry from same)
      exact (along_finishInst body alike related entry).bind fun fills fills' body' =>
        ih body' (alike.mono (body.mono fills fills')) rest

/-! ## Functions

The passes in a row: a body is opened on both sides, and then its instructions are finished. -/

/-- **The same function entry is loaded alike** into programs with the same declarations, or into
neither of them. -/
theorem along_defineFunction (declared : p.Declared q)
    (bodiless : BothOk (fun function function' => function'.name = function.name
      ∧ function.blocks = [] ∧ function'.blocks = []) (p.function f) (q.function g))
    (entry : FunctionEntry) :
    Along Fills p q (defineFunction (f, entry)) (defineFunction (g, entry))
      fun p q _ _ => ∃ locals, SameBody locals f g p q := by
  have body := SameBody.start declared bodiless
  rw [defineFunction, defineFunction]
  refine .get (.dangling (declared.function body.sameFunction) fun same => ?_)
  have start : Scope.Corresponds (p.matching q .none) (.ofFunction entry.name)
      (.ofFunction entry.name) := ⟨fun _ => .none, fun _ => .none⟩
  refine (along_scopeArgs body start same.2).bind ?_
  rintro p q scope other - - ⟨body, alike⟩
  refine (along_addBlocks body alike entry.blocks).bind ?_
  rintro p q ⟨scope, blocks⟩ ⟨other, blocks'⟩ - - ⟨middle, -, body, alike, added⟩
  refine (along_fillBlocks body alike added).bind ?_
  rintro p q ⟨scope, insts⟩ ⟨other, insts'⟩ - - ⟨locals, -, body, alike, opened⟩
  exact (along_finishInsts body alike opened).imp id fun _ _ body => ⟨locals, body⟩

end Loader

end IrStream
