import IrStream.Proofs.Encode.Settles

/-!
# Every step of encoding settles

Each step of encoding a built program succeeds or finds a reason why the program is not well-formed
(`Encoding.Settles`).  The lemmas follow the steps: operands, recipes, instructions, blocks and
functions, then the sections, and in the end the whole module (`settles_encodeModule`).

There is one lemma for each definition of the encoder, and it is proved with those of the
definitions that this one calls.  So a change of one recipe concerns one lemma here, and none of the
statements above it.

All of them take the same hypotheses about where the encoder is.  `Program.Emits` says that the
instruction is emitted, at which location, and of which function; an operand comes with the fact
that the record of the instruction keeps it.  From these follows

* that every handle which is looked up is in range, so that no step fails on a handle;
* that whatever gets into a table is used by the program (`Program.UsesConstant` and its like), so
  that no table outgrows what the word size can count, in a well-formed program;
* that an operand which is not available is a reason in itself: it is misplaced, and the program is
  not well-formed (`settles_undefinedValue`).

The sections come last, and their rows are the tables as they are then.  Everything in a table is
used, which is an invariant of the judgment and need not be shown again.
-/

set_option autoImplicit false

namespace IrStream

open Encoding EncodeState

/-- The operands that a record keeps are operands of the instruction. -/
theorem Inst.mem_operands_of_written {inst : Inst} {operand : Operand}
    (written : operand ∈ inst.writtenOperands) : operand ∈ inst.operands := by
  unfold writtenOperands at written
  split at written <;> simp_all

namespace Program

variable {program : Program} {word : WordSize} {func : FuncId} {function : Function}
  {here : Location} {id : InstId} {inst : Inst}

/-! ## What a location has

Facts about an emitted instruction that hold in every built program, collected here so that the
rules below can ask for nothing but the location. -/

/-- The operands of an emitted instruction are in range, as all operands of a built program are. -/
theorem Emits.inRange (emits : program.Emits func function here id inst) (built : program.Built)
    {operand : Operand} (written : operand ∈ inst.writtenOperands) : operand.InRange program :=
  built.consistent.1.operands emits.known operand (Inst.mem_operands_of_written written)

/-- Every emitted instruction can be shown as text, so an error that quotes it can be made. -/
theorem Emits.exists_instText (emits : program.Emits func function here id inst)
    (built : program.Built) : ∃ text, program.instText id = .ok text :=
  built.complete.exists_instText built.consistent.1 emits.known

theorem exists_isVoid (built : program.Built) (known : program.inst id = .ok inst) :
    ∃ isVoid, program.types.isVoid inst.type = .ok isVoid :=
  exists_bind_eq_ok (built.complete.result known).exists_shape fun _ _ => ⟨_, rfl⟩

/-- Both halves of a location are counted. -/
theorem WellFormed.location_le (formed : program.WellFormed word)
    (found : program.function func = .ok function)
    (located : program.instAt? function here = some id) :
    here.block ≤ word.maxValue ∧ here.inst ≤ word.maxValue := by
  obtain ⟨insts, block, there⟩ := instAt?_eq_some_iff.mp located
  have blockBound := (List.getElem?_eq_some_iff.mp block).1
  have instBound := (List.getElem?_eq_some_iff.mp there).1
  have blocks := formed.blockCount found
  have counted := formed.instCount found (List.mem_of_getElem? block)
  rw [body, List.length_map] at blockBound
  exact ⟨by omega, by omega⟩

/-! ## Operands

An operand is written by a number: its position in a table, in the function or in a block.  So there
are two things to settle, whether there is a position and whether it fits its field. -/

/-- A value that is not available where it is used is a reason to fail. -/
theorem settles_undefinedValue {α : Type} (built : program.Built)
    (emits : program.Emits func function here id inst) {operand : Operand} {Q : α → Prop}
    (isLocal : operand.isLocal = true) (written : operand ∈ inst.writtenOperands)
    (missing : ¬ program.Available func function here operand) :
    Settles program word (program.undefinedValue (program.scopeAt func function here) operand) Q :=
  (settles_dangling (built.complete.exists_operandText (emits.inRange built written))).bind
    fun _ shown => .throw
      ⟨operand, isLocal, func, function, here, id, inst, emits, rfl, written, shown, missing⟩
      fun formed => missing (formed.available emits _ written)

/-- A constant that is used fits into its table, and so does its position. -/
theorem settles_encodeConstant {constant : Constant} (used : program.UsesConstant constant) :
    Settles program word (encodeConstant word constant) fun _ => True :=
  (settles_registerConstant used).bind fun _ fits =>
    (settles_sized fits).bind fun _ _ => .pure trivial

/-- A type that is used fits into its table, with its parts. -/
theorem settles_encodeTypeOperand (built : program.Built) {type : TypeId}
    (used : program.UsesType type) :
    Settles program word (program.encodeTypeOperand word type) fun _ => True :=
  (settles_registerType built used).bind fun _ fits =>
    (settles_sized fits).bind fun _ _ => .pure trivial

/-- A text that is written must have no zero byte in it. -/
theorem settles_encodeText {text : String} (free : program.WellFormed word → NulFree text) :
    Settles program word (encodeText text) fun _ => True :=
  (settles_unterminated free).bind fun _ _ => .pure trivial

/-- The position of a function is below the number of functions. -/
theorem lt_size_of_position?_functionTable {callee : FuncId} {index : Nat}
    (found : program.functionTable.position? callee = some index) :
    index < program.functions.size := by
  have bound := (Array.getElem?_eq_some_iff.mp (Table.get?_of_position? found)).1
  simpa [functionTable, functionIds] using bound

section

variable (built : program.Built) (emits : program.Emits func function here id inst)
include built emits

/-- A constant is an address, which leads to a global or a function, or it is a value with a record
of its own. -/
theorem settles_constOperand {constId : ConstId} (written : .const constId ∈ inst.writtenOperands) :
    Settles program word
      (program.encodeOperand word (program.scopeAt func function here) (.const constId))
      fun _ => True := by
  have inRange := emits.inRange built written
  refine (settles_dangling (exists_constant inRange)).bind fun constant found => ?_
  split
  · exact (settles_registerGlobal built (.operand emits written found)).bind fun _ fits =>
      (settles_sized fits).bind fun _ _ => .pure trivial
  · have referred : Constant.InRange program (.function _) := built.complete.constant found
    obtain ⟨callee, there⟩ := exists_function referred
    have position := position?_functionTable there
    rw [position]
    refine (settles_sized fun formed => ?_).bind fun _ _ => .pure trivial
    have bound := lt_size_of_position?_functionTable position
    have counted := formed.functionCount
    omega
  · next notGlobal notFunction =>
    have plain : ¬ constant.IsAddress := by
      cases constant <;> simp_all [Constant.IsAddress]
    exact settles_encodeConstant (.operand emits written found plain)

/-- An argument is written by its position, which the function has no more of than a word can count.
-/
theorem settles_argOperand {argId : ArgId} (written : .arg argId ∈ inst.writtenOperands) :
    Settles program word
      (program.encodeOperand word (program.scopeAt func function here) (.arg argId))
      fun _ => True := by
  have inRange := emits.inRange built written
  refine (settles_dangling (exists_arg inRange)).bind fun arg found => ?_
  split
  · next foreign =>
    have missing : ¬ program.Available func function here (.arg argId) := by
      rintro ⟨_, again, owner⟩
      cases found.symm.trans again
      exact foreign owner
    exact (settles_undefinedValue built emits rfl written missing (Q := fun _ => False)).bind
      fun _ never => never.elim
  · next owner =>
    refine (settles_sized fun formed => ?_).bind fun _ _ => .pure trivial
    obtain ⟨function, params, ret, vararg, owned, shape, param, -⟩ :=
      built.consistent.1.arg found
    have bound := (List.getElem?_eq_some_iff.mp param).1
    have counted := formed.paramCount (.signature owned) shape
    omega

/-- The location of the instruction is written if it has one by now.  If not, the operand is one
that comes too late, and that is an error. -/
theorem settles_instOperand {other : InstId} (written : .inst other ∈ inst.writtenOperands) :
    Settles program word
      (program.encodeOperand word (program.scopeAt func function here) (.inst other))
      fun _ => True := by
  simp only [encodeOperand]
  split
  · next missing =>
    refine settles_undefinedValue built emits rfl written ?_
    rintro ⟨there, located, earlier, hasResult⟩
    have none := find?_locationsBefore_eq_none_iff.mp missing there located earlier
    rw [hasResult] at none
    cases none
  · next there known =>
    obtain ⟨located, -, -⟩ := find?_locationsBefore known
    refine (settles_sized fun formed => (formed.location_le emits.found located).1).bind
      fun _ _ => ?_
    exact (settles_sized fun formed => (formed.location_le emits.found located).2).bind
      fun _ _ => .pure trivial

/-- A block of the function has a position in it, and any other block is the error that is listed
for it. -/
theorem settles_blockOperand {block : BlockId} (written : .block block ∈ inst.writtenOperands) :
    Settles program word
      (program.encodeOperand word (program.scopeAt func function here) (.block block))
      fun _ => True := by
  have inRange := emits.inRange built written
  simp only [encodeOperand]
  split
  · next index position =>
    refine (settles_sized fun formed => ?_).bind fun _ _ => .pure trivial
    have bound := (Array.getElem?_eq_some_iff.mp (Table.get?_of_position? position)).1
    have counted := formed.blockCount emits.found
    simp only [scopeAt, Function.blockTable, List.size_toArray] at bound
    omega
  · next missing =>
    have missing : ¬ program.Available func function here (.block block) :=
      Table.position?_eq_none_iff.mp missing
    refine (settles_dangling (built.complete.exists_operandText inRange)).bind fun _ shown => ?_
    exact .throw ⟨block, func, function, here, id, inst, emits, rfl, written, shown, missing⟩
      fun formed => missing (formed.available emits _ written)

/-- An operand that is written gets a record, or the program is not well-formed. -/
theorem settles_encodeOperand {operand : Operand} (written : operand ∈ inst.writtenOperands) :
    Settles program word
      (program.encodeOperand word (program.scopeAt func function here) operand)
      fun _ => True := by
  cases operand with
  | const => exact settles_constOperand built emits written
  | arg => exact settles_argOperand built emits written
  | inst => exact settles_instOperand built emits written
  | block => exact settles_blockOperand built emits written
  | text text =>
    exact (settles_log _).bind fun _ _ => (settles_count _).bind fun _ _ =>
      settles_encodeText fun formed => formed.available emits _ written

end

/-! ## Recipes

A recipe checks the shape of its instruction first.  If the shape is not the one its kind asks for,
the instruction is written as text, and if something about its operands cannot be encoded, the
program is not well-formed for that reason. -/

/-- A record settles if its operands do. -/
theorem settles_encodeRecord (built : program.Built)
    (emits : program.Emits func function here id inst) {opcode : Opcode} {count : Nat}
    {operands : Encoding (List OperandRecord)}
    (small : program.WellFormed word → count < UInt32.size)
    (written : Settles program word operands fun _ => True) :
    Settles program word (program.encodeRecord word inst.type opcode count operands)
      fun _ => True := by
  refine (settles_registerType built (.result emits)).bind fun _ fits =>
    (settles_sized fits).bind fun _ _ => ?_
  split
  · next large =>
    have ill : ¬ program.WellFormed word := fun formed =>
      absurd (small formed) (Nat.not_lt_of_le large)
    have failed : Settles program word (throw (.field (.sizeOverflow count 4)) : Encoding PUnit)
        fun _ => False := .throw trivial ill
    exact failed.bind fun _ never => never.elim
  · exact written.bind fun _ _ => .pure trivial

/-- An instruction that keeps its operands, in whatever order. -/
theorem settles_encodeOperands (built : program.Built)
    (emits : program.Emits func function here id inst) {opcode : Opcode} {operands : List Operand}
    (written : ∀ operand ∈ operands, operand ∈ inst.writtenOperands)
    (count : operands.length ≤ inst.writtenOperands.length) :
    Settles program word
      (program.encodeOperands word (program.scopeAt func function here) inst.type opcode operands)
      fun _ => True :=
  settles_encodeRecord built emits
    (fun formed => Nat.lt_of_le_of_lt count (formed.operandCount emits))
    (settles_mapM fun operand mem => settles_encodeOperand built emits (written operand mem))

/-- An instruction without a recipe is written as one operand, its text. -/
theorem settles_encodeUnimplemented (built : program.Built)
    (emits : program.Emits func function here id inst) (escaped : inst.isEscaped = true) :
    Settles program word
      (program.encodeUnimplemented word (program.scopeAt func function here) id inst)
      fun _ => True := by
  refine (settles_dangling (emits.exists_instText built)).bind fun text shown => ?_
  refine (settles_log _).bind fun _ _ => (settles_count _).bind fun _ _ => ?_
  refine settles_encodeRecord built emits (fun _ => by decide) ?_
  exact (settles_encodeText fun formed => formed.instText emits escaped shown).bind
    fun _ _ => .pure trivial

/-- An integer constant is accepted as the count of an allocation. -/
theorem allocaCount?_of_int {count : ConstId} {type : TypeId} {bits : BitVec 128}
    (found : program.constant count = .ok (.int type bits)) :
    program.allocaCount? [.const count] = .ok (some (.const count)) := by
  simp only [allocaCount?, isIntConstant, found]
  rfl

/-- Whether there is a count is a question that never fails, since the operand is in range. -/
theorem exists_allocaCount? {operands : List Operand}
    (inRange : ∀ operand ∈ operands, operand.InRange program) :
    ∃ count?, program.allocaCount? operands = .ok count? := by
  unfold allocaCount?
  split
  · next count =>
    have isConstant : ∃ answer, program.isIntConstant count = .ok answer := by
      have known := inRange count List.mem_cons_self
      cases count with
      | const constId => exact exists_bind_eq_ok (exists_constant known) fun _ _ => ⟨_, rfl⟩
      | _ => exact ⟨false, rfl⟩
    exact exists_bind_eq_ok isConstant fun _ _ => ⟨_, rfl⟩
  · exact ⟨none, rfl⟩

/-- An allocation has to count by an integer constant, which is then the operand that is written. -/
theorem settles_encodeAlloca (built : program.Built)
    (emits : program.Emits func function here id inst) {allocated : TypeId}
    (kind : inst.kind = .alloca allocated) :
    Settles program word
      (program.encodeAlloca word (program.scopeAt func function here) id inst allocated)
      fun _ => True := by
  refine (settles_dangling (exists_allocaCount?
    (built.consistent.1.operands emits.known))).bind fun count? counted => ?_
  cases count? with
  | none =>
    refine (settles_dangling (emits.exists_instText built)).bind fun _ _ =>
      .throw trivial fun formed => ?_
    obtain ⟨count, type, bits, operands, found⟩ := formed.count emits kind
    rw [operands, allocaCount?_of_int found] at counted
    cases counted
  | some count =>
    -- a count was found, so it is the only operand
    have alone : inst.operands = [count] := by
      unfold allocaCount? at counted
      split at counted
      · next only =>
        simp only [bind_eq_ok_iff, pure_eq_ok_iff] at counted
        obtain ⟨isConstant, -, same⟩ := counted
        cases isConstant <;> cases same
        exact only
      · cases counted
    have written : count ∈ inst.writtenOperands := by
      rw [Inst.writtenOperands, kind, alone]
      exact List.mem_cons_self
    refine settles_encodeRecord built emits (fun _ => by decide) ?_
    refine (settles_encodeTypeOperand built (.allocated emits kind)).bind fun _ _ => ?_
    exact (settles_encodeOperand built emits written).bind fun _ _ => .pure trivial

/-- The fault of a path is never a handle outside its arena. -/
theorem FirstFault.ne_dangling {position : Nat} {type : TypeId} {indices : List Operand}
    {fault : OffsetFault} (first : FirstFault program position type indices fault)
    (handle : Dangling) : fault ≠ .dangling handle := by
  induction first with
  | nonConstant => exact fun h => nomatch h
  | invalid => exact fun h => nomatch h
  | later _ _ _ ih => exact ih

/-- The offset of a `getelementptr` is the one that is computed, whatever the scope is. -/
theorem settles_encodeOffset (built : program.Built)
    (emits : program.Emits func function here id inst) {source : TypeId} {base : Operand}
    {indices : List Operand} (kind : inst.kind = .getElementPtr source)
    (operands : inst.operands = base :: indices) {scope : FunctionScope} :
    Settles program word (program.encodeOffset scope id source indices)
      fun offset => program.pointerOffset source indices = .ok offset := by
  have has : program.types.Has source := by
    have inRange := built.complete.kind emits.known
    rwa [kind] at inRange
  have inRange : ∀ index ∈ indices, index.InRange program := fun index mem =>
    built.consistent.1.operands emits.known index (by simp [operands, mem])
  rw [encodeOffset]
  cases folded : program.pointerOffset source indices with
  | ok offset => exact .pure rfl
  | error fault =>
    -- the sum of the indices is an offset in a well-formed program, and this one has none
    have ill : ¬ program.WellFormed word := fun formed => by
      obtain ⟨exact, reached, addresses⟩ := formed.offset emits kind operands
      cases folded.symm.trans (pointerOffset_eq_ok_iff.mpr ⟨exact, reached, addresses, rfl⟩)
    have first := (pointerOffset_eq_error_iff built.complete has inRange).mp folded
    have shown : Settles program word _ _ := settles_dangling (emits.exists_instText built)
    cases fault with
    | dangling handle => exact absurd rfl (first.ne_dangling handle)
    | nonConstant => exact shown.bind fun _ _ => .throw trivial ill
    | invalid => exact shown.bind fun _ _ => .throw trivial ill

/-- The offset is computed before anything is written, so an index that leads nowhere is the first
fault to be found. -/
theorem settles_encodePtrAdd (built : program.Built)
    (emits : program.Emits func function here id inst) {source : TypeId} {base : Operand}
    {indices : List Operand} (kind : inst.kind = .getElementPtr source)
    (operands : inst.operands = base :: indices) :
    Settles program word
      (program.encodePtrAdd word (program.scopeAt func function here) id inst source base indices)
      fun _ => True := by
  have written : base ∈ inst.writtenOperands := by
    rw [Inst.writtenOperands, kind, operands]
    exact List.mem_cons_self
  refine (settles_encodeOffset built emits kind operands).bind fun offset folded => ?_
  refine settles_encodeRecord built emits (fun _ => by decide) ?_
  refine (settles_encodeOperand built emits written).bind fun _ _ => ?_
  exact (settles_encodeConstant (.offset emits kind operands folded)).bind fun _ _ => .pure trivial

/-- A comparison has to compare integers by a predicate for integers. -/
theorem settles_encodeComparison (built : program.Built)
    (emits : program.Emits func function here id inst) {comparison : Comparison}
    {left right : Operand} (kind : inst.kind = .compare comparison)
    (operands : inst.operands = [left, right]) :
    Settles program word
      (program.encodeComparison word (program.scopeAt func function here) id inst comparison left
        right) fun _ => True := by
  have both : inst.writtenOperands = [left, right] := by
    rw [Inst.writtenOperands, kind, operands]
  cases comparison with
  | float predicate =>
    refine (settles_dangling (emits.exists_instText built)).bind fun _ _ =>
      .throw trivial fun formed => ?_
    obtain ⟨_, same⟩ := formed.predicate emits kind operands
    cases same
  | int predicate =>
    refine settles_encodeRecord built emits (fun _ => by decide) ?_
    refine (settles_encodeOperand built emits (by simp [both])).bind fun _ _ => ?_
    exact (settles_encodeOperand built emits (by simp [both])).bind fun _ _ => .pure trivial

/-! ## Instructions

The cases are those of `encodeInst`, in its order.  Five kinds keep all their operands in their
order, and a branch and a call keep them in another order, so `settles_encodeOperands` serves all of
these. -/

/-- The recipe of an instruction is chosen by its kind and by the number of its operands. -/
theorem settles_encodeInst (built : program.Built)
    (emits : program.Emits func function here id inst) :
    Settles program word (program.encodeInst word (program.scopeAt func function here) id)
      fun _ => True := by
  refine (settles_dangling ⟨inst, emits.known⟩).bind fun again same => ?_
  cases emits.known.symm.trans same
  -- for the kinds whose records keep the operands as they are
  have kept {opcode operands} (same : inst.writtenOperands = operands) :
      Settles program word (program.encodeOperands word (program.scopeAt func function here)
        inst.type opcode operands) fun _ => True :=
    settles_encodeOperands built emits (fun _ mem => same ▸ mem) (Nat.le_of_eq (by rw [same]))
  split
  · next kind => exact kept (by rw [Inst.writtenOperands, kind])
  · next kind => exact kept (by rw [Inst.writtenOperands, kind])
  · next kind => exact kept (by rw [Inst.writtenOperands, kind])
  · next kind => exact kept (by rw [Inst.writtenOperands, kind])
  · next kind => exact kept (by rw [Inst.writtenOperands, kind])
  · next kind => exact settles_encodeAlloca built emits kind
  · exact settles_encodeOperands built emits (by simp) (by simp)
  · next condition ifFalse ifTrue kind operands =>
    have all : inst.writtenOperands = [condition, ifFalse, ifTrue] := by
      rw [Inst.writtenOperands, kind, operands]
    refine settles_encodeOperands built emits (fun operand mem => ?_) (by simp [all])
    simp only [all, List.mem_cons, List.not_mem_nil, or_false] at mem ⊢
    rcases mem with rfl | rfl | rfl <;> simp
  · next kind =>
    have all : inst.writtenOperands = inst.operands := by rw [Inst.writtenOperands, kind]
    split
    · next callee last =>
      have split := List.dropLast_append_getLast? callee last
      refine settles_encodeOperands built emits (fun operand mem => ?_) ?_
      · rw [all]
        rcases List.mem_cons.mp mem with rfl | mem
        · exact List.mem_of_getLast? last
        · exact List.dropLast_subset _ mem
      · rw [all, ← split]
        simp
    · next none =>
      refine settles_encodeUnimplemented built emits ?_
      rw [Inst.isEscaped, kind, List.getLast?_eq_none_iff.mp none]
  · next kind operands => exact settles_encodePtrAdd built emits kind operands
  · next kind operands => exact settles_encodeComparison built emits kind operands
  · refine settles_encodeUnimplemented built emits ?_
    rw [Inst.isEscaped]
    split <;> simp_all

/-- With the record of an instruction its location is recorded, which asks whether its type is void.
-/
theorem settles_encodeInstAt (built : program.Built)
    (emits : program.Emits func function here id inst) :
    Settles program word (program.encodeInstAt word func function here id) fun _ => True := by
  refine (settles_encodeInst built emits).bind fun _ _ => ?_
  refine (settles_dangling ⟨inst, emits.known⟩).bind fun again same => ?_
  cases emits.known.symm.trans same
  exact (settles_dangling (exists_isVoid built emits.known)).bind fun _ _ => .pure trivial

/-! ## Blocks and functions

The promised number of records is compared with the emitted ones here, and the comparison settles
because there is one record for each instruction. -/

theorem Consistent.exists_emitted (consistent : program.Consistent) {blockId : BlockId}
    {block : Block} (found : program.block blockId = .ok block) :
    ∃ insts, program.emitted block = .ok insts :=
  exists_filterM_eq_ok fun id listed => by
    obtain ⟨inst, known, -⟩ := consistent.inst found id listed
    exact exists_bind_eq_ok ⟨inst, known⟩ fun _ _ => ⟨_, rfl⟩

/-- A record is written for each emitted instruction of the block, at its location, and there must
not be more of them than a word can count. -/
theorem settles_encodeBlockAt (built : program.Built)
    (found : program.function func = .ok function) {blockId : BlockId} {position : Nat}
    (listed : function.blocks[position]? = some blockId) :
    Settles program word (program.encodeBlockAt word func function position blockId)
      fun _ => True := by
  have consistent := built.consistent.1
  obtain ⟨block, there, -⟩ := consistent.block found blockId (List.mem_of_getElem? listed)
  refine (settles_dangling ⟨block, there⟩).bind fun again same => ?_
  cases there.symm.trans same
  refine (settles_dangling (consistent.exists_emitted there)).bind fun insts emitted => ?_
  have inBody : (program.body function)[position]? = some insts := by
    rw [body, List.getElem?_map, listed, Option.map_some, blockBody_of_emitted there emitted]
  refine (settles_count _).bind fun _ _ => ?_
  refine (settles_sized fun formed => formed.instCount found
    (List.mem_of_getElem? inBody)).bind fun _ _ => ?_
  refine (settles_mapM fun entry mem => ?_).bind fun _ _ =>
    (settles_count _).bind fun _ _ => .pure trivial
  obtain ⟨id, index⟩ := entry
  have atIndex : insts[index]? = some id := (List.mk_mem_zipIdx_iff_getElem?.mp mem)
  -- the entry is an emitted instruction, and its location is its place in the body of the function
  have located : program.instAt? function ⟨position, index⟩ = some id :=
    instAt?_eq_some_iff.mpr ⟨insts, inBody, atIndex⟩
  have inArena : id ∈ block.insts := by
    rw [emitted_eq_ok emitted] at atIndex
    exact List.mem_of_mem_filter (List.mem_of_getElem? atIndex)
  obtain ⟨inst, known, -⟩ := consistent.inst there id inArena
  exact settles_encodeInstAt built ⟨found, located, known⟩

/-- A function is encoded block by block. -/
theorem settles_encodeFunction (built : program.Built)
    (found : program.function func = .ok function) :
    Settles program word (program.encodeFunction word func) fun _ => True := by
  refine (settles_dangling ⟨function, found⟩).bind fun again same => ?_
  cases found.symm.trans same
  refine (settles_unterminated fun formed => formed.functionName found).bind fun _ _ => ?_
  refine (settles_registerType built (.signature found)).bind fun _ fits =>
    (settles_sized fits).bind fun _ _ => ?_
  refine (settles_sized fun formed => formed.blockCount found).bind fun _ _ => ?_
  refine settles_get.bind fun _ _ => ?_
  -- the encoder carries the locations along, but what it finds in them is what the program says
  rw [encodeBlocks_ofFunction]
  refine (settles_mapM fun entry mem => ?_).bind fun _ _ => ?_
  · exact settles_encodeBlockAt built found (List.mk_mem_zipIdx_iff_getElem?.mp mem)
  · exact (settles_count _).bind fun _ _ => settles_get.bind fun _ _ =>
      (settles_log _).bind fun _ _ => .pure trivial

/-! ## Constants

A payload is never a reason for an error.  Its length is at most 2²⁹, since the width of an integer
type is a number of 32 bits, and even the small word counts further than that. -/

/-- The bytes of an integer constant can be counted, for its type has no more than 32 bits worth
of them. -/
theorem length_constantPayload?_le {constant : Constant} {payload? : Option (List UInt8)}
    (found : program.constantPayload? constant = .ok payload?) (word : WordSize) :
    (payload?.getD []).length ≤ word.maxValue := by
  -- the bytes of an integer, whatever its width is
  have counted (width : UInt32) (bits : BitVec 128) :
      (littleEndian (intBytes width) bits.toNat).length ≤ word.maxValue := by
    rw [length_littleEndian, intBytes]
    have bound := width.toNat_lt
    have room : UInt32.size - 1 ≤ word.maxValue := by cases word <;> decide
    have size : UInt32.size = 4294967296 := rfl
    omega
  unfold constantPayload? at found
  split at found
  · simp only [intPayload?, bind_eq_ok_iff] at found
    obtain ⟨shape, -, found⟩ := found
    split at found
    · cases found
      exact counted _ _
    · cases found
      exact Nat.zero_le _
  · cases found
    exact Nat.zero_le _

/-- Whether a constant has a payload can be said of every constant whose type is in range. -/
theorem exists_constantPayload? {constant : Constant} (inRange : constant.InRange program) :
    ∃ payload?, program.constantPayload? constant = .ok payload? := by
  cases constant with
  | int type bits =>
    refine exists_bind_eq_ok (Types.Has.exists_shape inRange) fun shape _ => ?_
    split <;> exact ⟨_, rfl⟩
  | _ => exact ⟨none, rfl⟩

/-- The index of the type has to fit a word.  A payload is never too long. -/
theorem settles_encodeConstantRecord (built : program.Built) {constant : Constant}
    (used : program.UsesConstant constant) :
    Settles program word (program.encodeConstantRecord word constant) fun _ => True := by
  have inRange := used.inRange built
  refine (settles_dangling (exists_constantPayload? inRange)).bind fun payload? found => ?_
  have written : Settles program word (do
      let type ← Encoding.sized word (← Encoding.registerType program constant.type)
      let payload := payload?.getD []
      let _ ← Encoding.sized word payload.length
      return (⟨type, payload⟩ : ConstantRecord)) fun _ => True :=
    (settles_registerType built (.constant used)).bind fun _ fits =>
      (settles_sized fits).bind fun _ _ =>
        (settles_sized fun _ => length_constantPayload?_le found word).bind fun _ _ => .pure trivial
  split
  · exact (settles_dangling (built.complete.exists_constantText inRange)).bind fun _ _ =>
      (settles_log _).bind fun _ _ => (settles_count _).bind fun _ _ => written
  · exact written

/-- The table of constants is as large as it was when the section began, and all of it is used. -/
theorem settles_encodeConstants (built : program.Built) :
    Settles program word (program.encodeConstants word) fun _ => True := by
  refine settles_get.bind fun state within => ?_
  refine (settles_sized fun formed => ?_).bind fun _ _ =>
    settles_mapM fun constant mem => settles_encodeConstantRecord built (within.constants _ mem)
  have counted := formed.constantCount _ within.distinctConstants within.constants
  rwa [Table.length_toList] at counted

/-! ## Globals

The name of a global is the only thing in its record that can be refused. -/

theorem settles_encodeGlobalRecord (built : program.Built) {id : GlobalId}
    (used : program.UsesGlobal id) :
    Settles program word (program.encodeGlobalRecord id) fun _ => True := by
  have inArena : id.index < program.globals.size := by
    obtain ⟨_, _, found⟩ := used
    exact built.complete.constant found
  refine (settles_dangling (exists_global inArena)).bind fun global found => ?_
  exact (settles_unterminated fun formed => formed.globalName used found).bind
    fun _ _ => .pure trivial

/-- As many records as globals in the table. -/
theorem settles_encodeGlobals (built : program.Built) :
    Settles program word (program.encodeGlobals word) fun _ => True := by
  refine settles_get.bind fun state within => ?_
  refine (settles_sized fun formed => ?_).bind fun _ _ =>
    settles_mapM fun id mem => settles_encodeGlobalRecord built (within.globals _ mem)
  have counted := formed.globalCount _ within.distinctGlobals within.globals
  rwa [Table.length_toList] at counted

/-! ## Types

In the types section nothing is registered: with a type, its parts are in the table. -/

/-- A type that is shown as text needs a text without a zero byte. -/
theorem settles_encodeTypeText {id : TypeId} (used : program.UsesType id)
    (shown : program.ShownAsText id) :
    Settles program word (program.encodeTypeText id) fun _ => True :=
  (settles_log _).bind fun _ _ => (settles_count _).bind fun _ _ =>
    (settles_unterminated fun formed => formed.typeText used shown).bind fun _ _ => .pure trivial

/-- The index of a part fits a word if the type is used, since the part is then used too. -/
theorem settles_encodeTypeIndex (built : program.Built) {id : TypeId}
    (used : program.UsesType id) :
    Settles program word (program.encodeTypeIndex word id) fun _ => True :=
  (settles_registerType built used).bind fun _ fits => settles_sized fits

/-- Offsets are written in bits, and a struct may be so large that this many cannot be counted in a
word. -/
theorem settles_encodeBitOffset {offset : Nat}
    (fits : program.WellFormed word → offset * 8 ≤ word.maxValue) :
    Settles program word (encodeBitOffset word offset) fun _ => True := by
  rw [encodeBitOffset]
  split
  · next large =>
    have ill : ¬ program.WellFormed word := fun formed => by
      have small := fits formed
      have limit : word.maxValue < sizeLimit := by cases word <;> decide
      omega
    have failed : Settles program word
        (throw (.field (.sizeOverflow offset word.bytes)) : Encoding PUnit)
        fun _ => False := .throw trivial ill
    exact failed.bind fun _ never => never.elim
  · exact settles_sized fits

/-- By cases on the shape: a pointer has to have the size of a word, and the indices and the number
of the parts have to fit. -/
theorem settles_encodeTypeRecord (built : program.Built) {id : TypeId}
    (used : program.UsesType id) :
    Settles program word (program.encodeTypeRecord word id) fun _ => True := by
  refine (settles_dangling (used.has built).exists_shape).bind fun shape found => ?_
  -- with a type its parts are used
  have part {child} (listed : child ∈ shape.children) :
      Settles program word (program.encodeTypeIndex word child) fun _ => True :=
    settles_encodeTypeIndex built (used.part found listed)
  cases shape with
  | void | int => exact .pure trivial
  | float | array =>
    exact settles_encodeTypeText used (by first | exact .float found | exact .array found)
  | ptr addrSpace =>
    dsimp only
    split
    · next narrow =>
      have ill : ¬ program.WellFormed word := fun formed => narrow (formed.pointer used found)
      have failed : Settles program word (throw (.pointerSizeMismatch (program.types.text id)
          (program.layout.pointerBytes addrSpace).toNat word.bytes) : Encoding PUnit)
          fun _ => False := .throw trivial ill
      exact failed.bind fun _ never => never.elim
    · exact .pure trivial
  | func params ret vararg =>
    refine (settles_sized fun formed => formed.paramCount used found).bind fun _ _ => ?_
    refine (settles_mapM fun param mem => part (List.mem_cons_of_mem _ mem)).bind fun _ _ => ?_
    exact (part List.mem_cons_self).bind fun _ _ => .pure trivial
  | struct shape =>
    refine (settles_dangling (built.complete.types.structLayout?_eq_ok
      (used.has built))).bind fun layout? laid => ?_
    cases layout? with
    | none => exact settles_encodeTypeText used (.bodiless found laid)
    | some layout =>
      refine (settles_sized fun formed => formed.fieldCount used found laid).bind fun _ _ => ?_
      refine (settles_mapM fun field mem => part mem).bind fun _ _ => ?_
      exact (settles_mapM fun offset mem => settles_encodeBitOffset fun formed =>
        formed.bitOffset used laid offset mem).bind fun _ _ => .pure trivial

/-- The types section is the last one, and the table of types does not grow in it. -/
theorem settles_encodeTypes (built : program.Built) :
    Settles program word (program.encodeTypes word) fun _ => True := by
  refine settles_get.bind fun state within => ?_
  refine (settles_sized fun formed => ?_).bind fun _ _ =>
    settles_mapM fun id mem => settles_encodeTypeRecord built (within.types _ mem)
  -- the types in the table are distinct and used, so a well-formed program has no more of them
  have counted := formed.typeCount _ within.distinctTypes within.types
  rwa [Table.length_toList] at counted

/-! ## The whole module

What remains is to put the rules of the parts in a row, in the order of the stream. -/

/-- **Encoding settles a program**: it succeeds, or it fails with an error that something in the
program causes, and then the program is not well-formed. -/
theorem settles_encodeStream (built : program.Built) :
    Settles program word (program.encodeStream word) fun _ => True := by
  refine (settles_sized fun formed => formed.functionCount).bind fun _ _ => ?_
  refine (settles_mapM fun id mem => ?_).bind fun _ _ => ?_
  · obtain ⟨index, below, rfl⟩ := List.mem_map.mp mem
    obtain ⟨function, found⟩ := exists_function (List.mem_range.mp below)
    exact settles_encodeFunction built found
  · exact (settles_encodeConstants built).bind fun _ _ => (settles_encodeGlobals built).bind
      fun _ _ => (settles_encodeTypes built).bind fun _ _ => .pure trivial

/-- Counting the tables reads the state and cannot fail. -/
theorem settles_countTables : Settles program word countTables fun _ => True := fun s within => by
  have run : Yields countTables s _ _ := rfl
  exact .inl ⟨_, _, run, within.of_sameTables ⟨rfl, rfl, rfl⟩, trivial⟩

/-- The whole module settles, from the empty tables. -/
theorem settles_encodeModule (built : program.Built) :
    Settles program word (program.encodeModule word) fun _ => True :=
  (settles_encodeStream built).bind fun _ _ => settles_countTables.bind fun _ _ =>
    (settles_log _).bind fun _ _ => .pure trivial

end Program

end IrStream
