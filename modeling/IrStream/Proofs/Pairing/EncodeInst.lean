import IrStream.Proofs.Pairing.Encoding

/-!
# Encoding the instructions of two programs

Instructions that are alike are encoded alike, in scopes that know the same locations
(`FunctionScope.Alike`).  Their records are the same, unless an instruction is shown as text
although it has a result without a name; then its text shows a handle (`InstRecord.Alike`).  If
handles are kept, even that text is the same.

A function of the encoder has one lemma here, named after it.  Changing a recipe needs work in its
lemma only, whatever makes the two programs alike.

Nothing but the interface `Program.Alike` is used of the two programs.  So the lemmas serve a
program and a renamed copy of it, where each handle has a counterpart, as well as the programs of a
document with and without debug instructions, where the second one has more.  The single lemma that
has to know of the difference is `agrees_encodeInsts`: it goes through two lists of which one may be
longer, and skips what is dropped.

Errors need some care.  An error shows the instruction that it is about, so in general the two
errors are different texts.  They are the same if handles are, and that is how `agrees_refuse` says
it, once for all recipes.

## What is here

* `agrees_encodeOperand` — operands that are alike have the same record.
* `agrees_encodeRecord` and a lemma for each recipe — what is behind the result type of a record.
* `agrees_encodeInst` — instructions that are alike, by kind and number of operands.
* `agree_emitted`, `agrees_encodeInsts`, `agrees_encodeBlocks` — whole blocks, of which the second
  program's may have dropped instructions among the others.
-/

set_option autoImplicit false

namespace IrStream

open Encoding

/-- The scopes know the same locations. -/
structure FunctionScope.Alike (m : Pairing) (scope other : FunctionScope) : Prop where
  /-- The function has the same handle. -/
  id : other.id = scope.id
  /-- It has the same name. -/
  name : other.name = scope.name
  /-- Its blocks have the same positions. -/
  blocks : other.blocks = scope.blocks
  /-- Instructions that are related are recorded at the same locations. -/
  locations : scope.locations.Alike m other.locations

/-- The records are the same, or show an instruction as different texts. -/
inductive InstRecord.Alike : InstRecord → InstRecord → Prop
  | same (record : InstRecord) : Alike record record
  | text (type : Nat) (text other : String) :
      Alike ⟨type, .unimplemented, [.unimplemented text]⟩
        ⟨type, .unimplemented, [.unimplemented other]⟩

/-- If an instruction is shown as text, its result has a name, or there is none. -/
def Program.NamesEscaped (program : Program) (inst : Inst) : Prop :=
  inst.isEscaped = true →
    inst.name.isSome = true ∨ program.types.isVoid inst.type = .ok true

/-- No instruction is shown with its handle: whatever gets into the stream as text and has a result
has a name for it. -/
def Program.NamesShown (program : Program) : Prop :=
  ∀ ⦃id inst⦄, program.inst id = .ok inst → inst.kind.isDebug = false → program.NamesEscaped inst

namespace Program.Alike

variable {m : Pairing} {small large : Program} (programs : small.Alike m large) {word : WordSize}
include programs

/-! ## Operands

By the sort of the operand.  A result that has no location yet is refused on both sides, because the
scopes know the same locations. -/

/-- Both refuse an operand without a location, and show it. -/
theorem agrees_undefinedValue {α β : Type} {Q : α → β → Prop} {scope other : FunctionScope}
    (scopes : scope.Alike m other) {operand operand' : Operand} (alike : operand.Alike m operand') :
    Agrees m (small.undefinedValue scope operand : Encoding α)
      (large.undefinedValue other operand' : Encoding β) Q :=
  (Agrees.dangling (programs.agree_operandText alike)).bind fun same =>
    .throw fun _ => by rw [scopes.name, same]

/-- Constants that are alike get the same position. -/
theorem agrees_encodeConstant {constant other : Constant} (alike : constant.Alike m other) :
    Agrees m (encodeConstant word constant) (encodeConstant word other) Eq := by
  refine (agrees_registerConstant programs alike).bind fun same => ?_
  subst same
  exact (agrees_sized word _).bind fun same => .pure (by rw [same])

/-- Related types get the same position. -/
theorem agrees_encodeTypeOperand {type other : TypeId} (related : m.type type other) :
    Agrees m (small.encodeTypeOperand word type) (large.encodeTypeOperand word other) Eq := by
  refine (agrees_registerType programs related).bind fun same => ?_
  subst same
  exact (agrees_sized word _).bind fun same => .pure (by rw [same])

omit programs in
/-- Texts are written on both sides or on none, if both or none of them have a zero byte. -/
theorem agrees_encodeText {text text' : String} (free : NulFree text ↔ NulFree text')
    (same : m.Exact → text' = text) :
    Agrees m (encodeText text) (encodeText text')
      fun a b => a = .unimplemented text ∧ b = .unimplemented text' :=
  (agrees_unterminated free same).bind fun ⟨first, second⟩ => .pure ⟨by rw [first], by rw [second]⟩

/-- **Operands that are alike have the same record.** -/
theorem agrees_encodeOperand {scope other : FunctionScope} (scopes : scope.Alike m other)
    {operand operand' : Operand} (alike : operand.Alike m operand') :
    Agrees m (small.encodeOperand word scope operand) (large.encodeOperand word other operand')
      Eq := by
  cases alike with
  | const related =>
    refine (Agrees.dangling (programs.agree_constant related)).bind fun alike => ?_
    cases alike with
    | global related =>
      refine (agrees_registerGlobal programs related).bind fun same => ?_
      subst same
      exact (agrees_sized word _).bind fun same => .pure (by rw [same])
    | function known =>
      dsimp only
      rw [programs.position?_functionTable_eq known]
      split
      · exact (agrees_sized word _).bind fun same => .pure (by rw [same])
      · exact (Agrees.dangling (programs.function known)).bind fun alike =>
          .throw fun _ => by rw [alike.name]
    | int bits typed => exact programs.agrees_encodeConstant (.int bits typed)
    | float bits typed => exact programs.agrees_encodeConstant (.float bits typed)
    | null typed => exact programs.agrees_encodeConstant (.null typed)
    | undef typed => exact programs.agrees_encodeConstant (.undef typed)
    | aggregate typed parts => exact programs.agrees_encodeConstant (.aggregate typed parts)
  | arg known =>
    refine (Agrees.dangling (programs.arg known)).bind fun alike => ?_
    rw [alike.func, alike.number, scopes.id]
    split
    · exact (Agrees.bind (P := fun _ _ => False)
        (programs.agrees_undefinedValue scopes (.arg known)) fun never => never.elim)
    · exact (agrees_sized word _).bind fun same => .pure (by rw [same])
  | @inst id id' related =>
    unfold encodeOperand
    dsimp only
    rw [scopes.locations.find?_eq programs.biUnique_inst (programs.value related).1]
    split
    · exact programs.agrees_undefinedValue scopes (.inst related)
    · refine (agrees_sized word _).bind fun same => ?_
      subst same
      exact (agrees_sized word _).bind fun same => .pure (by rw [same])
  | block known =>
    unfold encodeOperand
    dsimp only
    rw [scopes.blocks]
    split
    · exact (agrees_sized word _).bind fun same => .pure (by rw [same])
    · exact (Agrees.dangling (programs.agree_operandText (.block known))).bind fun same =>
        .throw fun _ => by rw [scopes.name, same]
  | text text =>
    refine (agrees_log fun _ => by rw [scopes.name]).bind fun _ => ?_
    refine (agrees_count (fun _ skipped => ⟨skipped, rfl⟩) fun _ => rfl).bind fun _ => ?_
    exact (agrees_encodeText .rfl fun _ => rfl).imp fun ⟨first, second⟩ => first.trans second.symm

/-! ## Recipes

A lemma for each recipe, in the order in which `encodeInst` tries them.  A recipe writes a record or
refuses the instruction, and which of the two it does has to be decided alike in both programs: by
the number of operands, by whether an operand is a constant, or by a predicate. -/

/-- The operands of a record are encoded behind its result type. -/
theorem agrees_encodeRecord {type other : TypeId} (related : m.type type other) (opcode : Opcode)
    (count : Nat) {operands others : Encoding (List OperandRecord)}
    {P : List OperandRecord → List OperandRecord → Prop} (encoded : Agrees m operands others P) :
    Agrees m (small.encodeRecord word type opcode count operands)
      (large.encodeRecord word other opcode count others)
      fun a b => P a.operands b.operands ∧ b = { a with operands := b.operands }
        ∧ a.opcode = opcode := by
  refine (agrees_registerType programs related).bind fun registered => ?_
  subst registered
  refine (agrees_sized word _).bind fun sized => ?_
  subst sized
  dsimp only
  split
  · exact .throw_bind fun _ => rfl
  · exact encoded.bind fun same => .pure ⟨same, rfl, rfl⟩

/-- Records with the same operands are the same. -/
theorem agrees_encodeRecord_eq {type other : TypeId} (related : m.type type other)
    (opcode : Opcode) (count : Nat) {operands others : Encoding (List OperandRecord)}
    (encoded : Agrees m operands others Eq) :
    Agrees m (small.encodeRecord word type opcode count operands)
      (large.encodeRecord word other opcode count others) Eq :=
  (programs.agrees_encodeRecord related opcode count encoded).imp fun ⟨same, equal, _⟩ => by
    rw [equal, ← same]

/-- Instructions that keep their operands. -/
theorem agrees_encodeOperands {scope other : FunctionScope} (scopes : scope.Alike m other)
    {type type' : TypeId} (related : m.type type type') (opcode : Opcode)
    {operands others : List Operand} (alike : List.Forall₂ (Operand.Alike m) operands others) :
    Agrees m (small.encodeOperands word scope type opcode operands)
      (large.encodeOperands word other type' opcode others) Eq := by
  rw [encodeOperands, encodeOperands, alike.length_eq]
  exact programs.agrees_encodeRecord_eq related opcode _
    (Agrees.mapM_eq alike (programs.agrees_encodeOperand scopes))

/-- Operands that are alike are integer constants both or not. -/
theorem agree_isIntConstant {operand other : Operand} (alike : operand.Alike m other) :
    Agree Eq Eq (small.isIntConstant operand) (large.isIntConstant other) := by
  cases alike with
  | const related =>
    exact (programs.agree_constant related).bind fun alike => .pure (by cases alike <;> rfl)
  | _ => exact .pure rfl

/-- Whether an operand is an integer constant can be told from anything that is like it. -/
theorem agree_allocaCount? {operands others : List Operand}
    (alike : List.Forall₂ (Operand.Alike m) operands others) :
    Agree Eq (Option.Rel (Operand.Alike m)) (small.allocaCount? operands)
      (large.allocaCount? others) := by
  cases alike with
  | nil => exact .pure .none
  | cons count rest =>
    cases rest with
    | cons => exact .pure .none
    | nil =>
      refine (programs.agree_isIntConstant count).bind fun {isInt _} same => ?_
      subst same
      cases isInt with
      | true => exact .pure (.some count)
      | false => exact .pure .none

section

variable {scope other : FunctionScope} (scopes : scope.Alike m other) {id id' : InstId}
  (known : m.inst id id') {inst inst' : Inst} (found : small.inst id = .ok inst)
  (alike : inst.Alike m inst')
include scopes known found

omit scopes in
/-- Both refuse an instruction, and show it. -/
theorem agrees_refuse {α β : Type} {Q : α → β → Prop} {error error' : String → EncodeError}
    (same : ∀ text, error' text = error text) :
    Agrees m (do let text ← (small.instText id : Except Dangling String); throw (error text))
      (do let text ← (large.instText id' : Except Dangling String); throw (error' text)) Q :=
  (Agrees.dangling (programs.agree_instText known found)).bind fun ⟨_, shown⟩ =>
    .throw fun exact => by rw [same, shown (.inl exact)]

/-- Offsets are computed from types and constants, on which the programs agree. -/
theorem agrees_encodeOffset {source source' : TypeId} (related : m.type source source')
    {indices others : List Operand} (used : List.Forall₂ (Operand.Alike m) indices others) :
    Agrees m (small.encodeOffset scope id source indices)
      (large.encodeOffset other id' source' others) Eq := by
  have agree := programs.agree_pointerOffset used related
  unfold encodeOffset
  generalize small.pointerOffset source indices = answer,
    large.pointerOffset source' others = answer' at agree
  cases agree with
  | ok same => exact .pure same
  | error faults =>
    cases faults with
    | nonConstant =>
      exact programs.agrees_refuse known found fun text => by rw [scopes.name]
    | invalid index related =>
      refine programs.agrees_refuse known found fun text => ?_
      rw [scopes.name, programs.types.text_eq related]
    | dangling handle => exact .throw fun _ => rfl

include alike

/-- Instructions that become text. -/
theorem agrees_encodeUnimplemented :
    Agrees m (small.encodeUnimplemented word scope id inst)
      (large.encodeUnimplemented word other id' inst')
      fun a b => a.Alike b ∧ (m.Exact ∨ inst.name.isSome = true
        ∨ small.types.isVoid inst.type = .ok true → a = b) := by
  refine (Agrees.dangling (programs.agree_instText known found)).bind
    fun {text text'} ⟨free, equal⟩ => ?_
  have same (exact : m.Exact) : text' = text := (equal (.inl exact)).symm
  refine Agrees.bind (agrees_log fun exact => by rw [scopes.name, same exact]) fun _ => ?_
  refine (agrees_count (fun _ skipped => ⟨skipped, rfl⟩) fun _ => rfl).bind fun _ => ?_
  have shown : Agrees m (do return [← encodeText text]) (do return [← encodeText text'])
      fun a b => a = [.unimplemented text] ∧ b = [.unimplemented text'] :=
    (agrees_encodeText free same).bind
      fun ⟨first, second⟩ => .pure ⟨by rw [first], by rw [second]⟩
  refine (programs.agrees_encodeRecord alike.type .unimplemented 1 shown).imp ?_
  rintro ⟨type, opcode, operands⟩ ⟨type', opcode', operands'⟩ ⟨⟨first, second⟩, same, known⟩
  cases first
  cases second
  cases same
  cases known
  exact ⟨.text type text text', fun named => by rw [equal named]⟩

/-- The count and the allocated type have the same positions, or there is no count in either
program. -/
theorem agrees_encodeAlloca {allocated allocated' : TypeId}
    (related : m.type allocated allocated') :
    Agrees m (small.encodeAlloca word scope id inst allocated)
      (large.encodeAlloca word other id' inst' allocated') Eq := by
  refine (Agrees.dangling (programs.agree_allocaCount? alike.operands)).bind fun count => ?_
  cases count with
  | none => exact programs.agrees_refuse known found fun text => by rw [scopes.name]
  | some count =>
    refine programs.agrees_encodeRecord_eq alike.type _ _ ?_
    refine (programs.agrees_encodeTypeOperand related).bind fun equal => ?_
    subst equal
    exact (programs.agrees_encodeOperand scopes count).bind fun equal => .pure (by rw [equal])

/-- The base has the same position and the offset is the same number, which is registered as the
same constant. -/
theorem agrees_encodePtrAdd {source source' : TypeId} (related : m.type source source')
    {base base' : Operand} (bases : base.Alike m base') {indices others : List Operand}
    (used : List.Forall₂ (Operand.Alike m) indices others) :
    Agrees m (small.encodePtrAdd word scope id inst source base indices)
      (large.encodePtrAdd word other id' inst' source' base' others) Eq := by
  refine (programs.agrees_encodeOffset scopes known found related used).bind fun equal => ?_
  subst equal
  refine programs.agrees_encodeRecord_eq alike.type _ _ ?_
  refine (programs.agrees_encodeOperand scopes bases).bind fun equal => ?_
  subst equal
  refine (programs.agrees_encodeConstant (.int _ (programs.basic (by decide)))).bind fun equal => ?_
  exact .pure (by rw [equal])

/-- The predicate is decided by the comparison, which is the same one. -/
theorem agrees_encodeComparison (comparison : Comparison) {left left' right right' : Operand}
    (lefts : left.Alike m left') (rights : right.Alike m right') :
    Agrees m (small.encodeComparison word scope id inst comparison left right)
      (large.encodeComparison word other id' inst' comparison left' right') Eq := by
  unfold encodeComparison
  split
  · exact programs.agrees_refuse known found fun text => by rw [scopes.name]
  · refine programs.agrees_encodeRecord_eq alike.type _ _ ?_
    refine (programs.agrees_encodeOperand scopes lefts).bind fun equal => ?_
    subst equal
    exact (programs.agrees_encodeOperand scopes rights).bind fun equal => .pure (by rw [equal])

end

/-- **Related instructions have the same record**, unless the record shows a handle that is not the
same in both programs. -/
theorem agrees_encodeInst {scope other : FunctionScope} (scopes : scope.Alike m other)
    {id id' : InstId} (known : m.inst id id') {inst : Inst} (found : small.inst id = .ok inst) :
    Agrees m (small.encodeInst word scope id) (large.encodeInst word other id')
      fun a b => a.Alike b ∧ (m.Exact ∨ small.NamesEscaped inst → a = b) := by
  refine (Agrees.dangling (programs.agree_inst known).found).bind
    fun {first inst'} ⟨alike, again⟩ => ?_
  cases found.symm.trans again
  -- only what is shown as text can differ, and only in the names of results
  have escaped (escaped : inst.isEscaped = true) :
      Agrees m (small.encodeUnimplemented word scope id inst)
        (large.encodeUnimplemented word other id' inst')
        fun a b => a.Alike b ∧ (m.Exact ∨ small.NamesEscaped inst → a = b) :=
    (programs.agrees_encodeUnimplemented scopes known found alike).imp fun ⟨alike, equal⟩ =>
      ⟨alike, fun shown => equal (shown.imp_right fun named => named escaped)⟩
  have sure {left right : Encoding InstRecord} (same : Agrees m left right Eq) :
      Agrees m left right fun a b => a.Alike b ∧ (m.Exact ∨ small.NamesEscaped inst → a = b) :=
    same.imp fun {record _} equal => ⟨equal ▸ .same record, fun _ => equal⟩
  have keeps (opcode : Opcode) {operands others : List Operand}
      (used : List.Forall₂ (Operand.Alike m) operands others) :
      Agrees m (small.encodeOperands word scope inst.type opcode operands)
        (large.encodeOperands word other inst'.type opcode others)
        fun a b => a.Alike b ∧ (m.Exact ∨ small.NamesEscaped inst → a = b) :=
    sure (programs.agrees_encodeOperands scopes alike.type opcode used)
  -- the recipe depends on the kind and on how many operands there are, which are the same in both
  have kinds := alike.kind
  have used := alike.operands
  generalize isKind : inst.kind = kind, isKind' : inst'.kind = kind' at kinds ⊢
  generalize has : inst.operands = operands, has' : inst'.operands = operands' at used ⊢
  rw [Inst.isEscaped, isKind, has] at escaped
  cases kinds with
  | alloca related => exact sure (programs.agrees_encodeAlloca scopes known found alike related)
  | getElementPtr related =>
    cases used with
    | nil => exact escaped rfl
    | cons base indices =>
      exact sure (programs.agrees_encodePtrAdd scopes known found alike related base indices)
  | plain none =>
    cases kind with
    | alloca | getElementPtr => cases none
    | load | store | ret | insertValue | binary => exact keeps _ used
    | call =>
      have last := optionRel_getLast? used
      have rest := dropLast_of_forall₂ used
      cases used with
      | nil => exact escaped rfl
      | cons =>
        cases last with
        | some callee => exact keeps _ (.cons callee rest)
    | br =>
      cases used with
      | nil => exact escaped rfl
      | cons condition used =>
        cases used with
        | nil => exact keeps _ .nil
        | cons ifFalse used =>
          cases used with
          | nil => exact escaped rfl
          | cons ifTrue used =>
            cases used with
            | nil => exact keeps _ (.cons condition (.cons ifTrue (.cons ifFalse .nil)))
            | cons => exact escaped rfl
    | compare comparison =>
      cases used with
      | nil => exact escaped rfl
      | cons left used =>
        cases used with
        | nil => exact escaped rfl
        | cons right used =>
          cases used with
          | nil =>
            exact sure
              (programs.agrees_encodeComparison scopes known found alike comparison left right)
          | cons => exact escaped rfl
    | debug | other => exact escaped rfl

/-! ## Blocks

The emitted instructions of a block are the same on both sides, since what is dropped is never
emitted. -/

omit programs in
/-- An instruction that is there gets into the stream if it is no debug instruction. -/
theorem isEmitted_of_inst {program : Program} {id : InstId} {inst : Inst}
    (found : program.inst id = .ok inst) : program.isEmitted id = !inst.kind.isDebug := by
  rw [isEmitted, found]

omit programs in
/-- Where all instructions of a block are there, those that get into the stream are a filtered list.
-/
theorem exists_emitted {program : Program} {block : Block}
    (resolve : ∀ id ∈ block.insts, ∃ inst, program.inst id = .ok inst) :
    program.emitted block = .ok (block.insts.filter program.isEmitted) := by
  obtain ⟨insts, run⟩ : ∃ insts, program.emitted block = .ok insts :=
    exists_filterM_eq_ok fun id mem => exists_bind_eq_ok (resolve id mem) fun _ _ => ⟨_, rfl⟩
  rw [run, emitted_eq_ok run]

/-- **The same instructions of a block get into the stream.** -/
theorem agree_emitted {block other : Block} (alike : block.Alike m other) :
    Agree Eq (List.Forall₂ fun a b => small.isEmitted a = true ∧ m.inst a b) (small.emitted block)
      (large.emitted other) := by
  have kept {id id' : InstId} (related : m.inst id id') :
      small.isEmitted id = large.isEmitted id' := by
    obtain ⟨inst, inst', found, there, alike⟩ := programs.inst related
    rw [isEmitted_of_inst found, isEmitted_of_inst there, alike.kind.isDebug_eq]
  have dropped {id : InstId} (dropped : m.dropped id) : large.isEmitted id = false := by
    obtain ⟨inst, there, debug⟩ := programs.dropped dropped
    rw [isEmitted_of_inst there, debug]
    rfl
  -- no look-up fails: each instruction of either block is related to another one or dropped
  rw [exists_emitted, exists_emitted]
  · refine .ok ((List.forall₂_and_left _ _).mpr ⟨fun id mem => ?_, alike.insts.filter kept dropped⟩)
    exact (List.mem_filter.mp mem).2
  · intro id mem
    rcases alike.insts.exists_left mem with ⟨id', related⟩ | dropped
    · obtain ⟨_, inst, -, there, -⟩ := programs.inst related
      exact ⟨inst, there⟩
    · obtain ⟨inst, there, -⟩ := programs.dropped dropped
      exact ⟨inst, there⟩
  · intro id mem
    obtain ⟨id', related⟩ := alike.insts.exists_right mem
    obtain ⟨inst, _, found, -, -⟩ := programs.inst related
    exact ⟨inst, found⟩

/-- Each instruction is encoded in the scope that the instructions before it leave. -/
theorem agrees_encodeInsts (block : Nat) {scope other : FunctionScope}
    (scopes : scope.Alike m other) (position : Nat) {ids others : List InstId}
    (related : List.Forall₂ (fun a b => small.isEmitted a = true ∧ m.inst a b) ids others) :
    Agrees m (small.encodeInsts word block scope position ids)
      (large.encodeInsts word block other position others)
      fun a b => List.Forall₂ InstRecord.Alike a.1 b.1
        ∧ (m.Exact ∨ small.NamesShown → a.1 = b.1) ∧ a.2.Alike m b.2 := by
  induction related generalizing scope other position with
  | nil => exact .pure ⟨.nil, fun _ => rfl, scopes⟩
  | @cons id id' ids others here _ ih =>
    obtain ⟨emitted, known⟩ := here
    obtain ⟨inst, inst', found, there, alike⟩ := programs.inst known
    have names (shown : small.NamesShown) : small.NamesEscaped inst :=
      shown found (by simpa [isEmitted_of_inst found] using emitted)
    rw [encodeInsts, encodeInsts, found, there]
    refine (programs.agrees_encodeInst scopes known found).bind ?_
    rintro record record' ⟨first, same⟩
    refine Agrees.bind (P := fun a b => a = inst ∧ b = inst') (.pure ⟨rfl, rfl⟩) ?_
    rintro inst inst' ⟨rfl, rfl⟩
    refine (Agrees.dangling (programs.types.agree_isVoid alike.type)).bind
      fun {isVoid _} void => ?_
    subst void
    have scopes : FunctionScope.Alike m
        { scope with locations := scope.locations.record id (!isVoid) ⟨block, position⟩ }
        { other with locations := other.locations.record id' (!isVoid) ⟨block, position⟩ } :=
      { scopes with
        locations :=
          scopes.locations.record programs.biUnique_inst known (!isVoid) ⟨block, position⟩ }
    refine (ih scopes (position + 1)).bind ?_
    rintro ⟨records, scope⟩ ⟨records', other⟩ ⟨rest, equal, scopes⟩
    exact .pure ⟨.cons first rest,
      fun shown => congrArg₂ List.cons (same (shown.imp_right names)) (equal shown), scopes⟩

/-- Block by block.  Records may differ in the texts of results without a name, so they are equal if
the relation is exact or if no such text is shown. -/
theorem agrees_encodeBlocks {scope other : FunctionScope} (scopes : scope.Alike m other)
    (position : Nat) {ids : List BlockId} (known : ∀ id ∈ ids, m.block id) :
    Agrees m (small.encodeBlocks word scope position ids)
      (large.encodeBlocks word other position ids)
      fun a b => List.Forall₂ (List.Forall₂ InstRecord.Alike) a b
        ∧ (m.Exact ∨ small.NamesShown → a = b) := by
  induction ids generalizing scope other position with
  | nil => exact .pure ⟨.nil, fun _ => rfl⟩
  | cons id ids ih =>
    obtain ⟨here, others⟩ := List.forall_mem_cons.mp known
    rw [encodeBlocks_cons, encodeBlocks_cons]
    refine (Agrees.dangling (programs.block here)).bind fun {block other} alike => ?_
    refine (Agrees.dangling (programs.agree_emitted alike)).bind fun related => ?_
    rw [related.length_eq]
    -- dropped instructions are counted, and nothing else is done about them
    refine (agrees_count (fun _ skipped => ⟨_, rfl⟩) fun exact => ?_).bind fun _ => ?_
    · rw [alike.insts.length_eq exact.dropped]
    refine (agrees_sized word _).bind fun sized => ?_
    subst sized
    refine (programs.agrees_encodeInsts position scopes 0 related).bind ?_
    rintro ⟨records, scope⟩ ⟨records', other⟩ ⟨first, equal, scopes⟩
    refine (agrees_count (fun _ skipped => ⟨skipped, rfl⟩) fun _ => rfl).bind fun _ => ?_
    refine (ih scopes (position + 1) others).bind ?_
    rintro blocks blocks' ⟨rest, same⟩
    exact .pure
      ⟨.cons first rest, fun shown => congrArg₂ List.cons (equal shown) (same shown)⟩

end Program.Alike

end IrStream
