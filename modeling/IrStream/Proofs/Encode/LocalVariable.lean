import IrStream.Proofs.Encode.Basic
import IrStream.Proofs.Program.Consistent

/-!
# Results of instructions

An operand that is the result of an instruction is written as the location of that instruction.  In
a built program a location belongs to one instruction and an instruction has one location
(`instAt?_injective`), so the pair of numbers in the stream means what the program meant.

The instructions that have no location where the operand stands are listed in `Program.Unavailable`;
an operand that is the result of one of them is an undefined value.

Two things are to be shown, and they come from two sides.

* **What is written is right.**  The pair of numbers was looked up in the scope of the instruction,
  so it is the location of an earlier instruction with a result.  In the stream, the record at that
  location is the record of that instruction, because records are in the order of the instructions
  that are emitted.  Neither number counts debug instructions.
* **What cannot be written is refused.**  Void results, debug instructions, instructions of another
  function, the instruction itself and later ones have no location in scope, and the look-up fails.
  The run of the whole encoder is taken apart only as far as this instruction; what it does for the
  ones before it does not matter.

Both use that the program is consistent: what a block lists is what says that it belongs to the
block, and nothing is listed twice.
-/

set_option autoImplicit false

namespace IrStream

open Encoding EncodeState

theorem Location.not_before_self (location : Location) : ¬ location.Before location := by
  simp [Location.Before]

namespace Program

variable {program : Program} {func : FuncId} {function : Function}

/-! ## Locations of a built program -/

/-- The body of a block is what it lists and emits.  Debug instructions are listed and not emitted.
-/
theorem mem_blockBody {block : BlockId} {id : InstId} :
    id ∈ program.blockBody block ↔
      ∃ entry, program.block block = .ok entry ∧ id ∈ entry.insts
        ∧ program.isEmitted id = true := by
  rw [blockBody]
  split
  · next entry found =>
    rw [List.mem_filter]
    constructor
    · rintro ⟨listed, emitted⟩
      exact ⟨entry, found, listed, emitted⟩
    · rintro ⟨_, again, listed, emitted⟩
      cases found.symm.trans again
      exact ⟨listed, emitted⟩
  · next handle missing =>
    simp [missing]

/-- The instruction at a location is in the block at the position of the location.  Locations count
blocks within the function and instructions within the block. -/
theorem instAt?_eq_some_iff_blocks {location : Location} {id : InstId} :
    program.instAt? function location = some id ↔
      ∃ block, function.blocks[location.block]? = some block
        ∧ (program.blockBody block)[location.inst]? = some id := by
  rw [instAt?_eq_some_iff, body]
  simp only [List.getElem?_map, Option.map_eq_some_iff]
  constructor
  · rintro ⟨_, ⟨block, listed, rfl⟩, found⟩
    exact ⟨block, listed, found⟩
  · rintro ⟨block, listed, found⟩
    exact ⟨_, ⟨block, listed, rfl⟩, found⟩

/-- An instruction at a location gets into the stream, and belongs to the block there. -/
theorem Consistent.inst_of_instAt? (consistent : program.Consistent) {location : Location}
    {id : InstId} (located : program.instAt? function location = some id) :
    program.isEmitted id = true ∧ ∃ inst, program.inst id = .ok inst
      ∧ function.blocks[location.block]? = some inst.block
      ∧ (program.blockBody inst.block)[location.inst]? = some id := by
  obtain ⟨block, listed, found⟩ := instAt?_eq_some_iff_blocks.mp located
  obtain ⟨entry, there, mem, emitted⟩ := mem_blockBody.mp (List.mem_of_getElem? found)
  obtain ⟨inst, known, owner⟩ := consistent.inst there id mem
  rw [← owner] at listed found
  exact ⟨emitted, inst, known, listed, found⟩

/-- No instruction is emitted twice from a block.  A consistent program lists none twice, and
leaving some out does not change that. -/
theorem nodup_blockBody (consistent : program.Consistent) (block : BlockId) :
    (program.blockBody block).Nodup := by
  rw [blockBody]
  split
  · next entry found => exact (consistent.nodup_insts found).filter _
  · exact List.nodup_nil

/-- **An instruction has one location.**  It is listed in one block, once, and the block is listed
in one function, once. -/
theorem Consistent.instAt?_injective (consistent : program.Consistent)
    (found : program.function func = .ok function) {first second : Location} {id : InstId}
    (one : program.instAt? function first = some id)
    (two : program.instAt? function second = some id) : first = second := by
  obtain ⟨-, inst, known, listed, there⟩ := consistent.inst_of_instAt? one
  obtain ⟨-, _, again, listed', there'⟩ := consistent.inst_of_instAt? two
  cases known.symm.trans again
  have block := (List.getElem?_inj (List.getElem?_eq_some_iff.mp listed).1
    (consistent.nodup_blocks found)).mp (listed.trans listed'.symm)
  have inst := (List.getElem?_inj (List.getElem?_eq_some_iff.mp there).1
    (nodup_blockBody consistent _)).mp (there.trans there'.symm)
  cases first
  cases second
  cases block
  cases inst
  rfl

theorem Consistent.ownerOfInst (consistent : program.Consistent)
    (found : program.function func = .ok function) {location : Location} {id : InstId}
    (located : program.instAt? function location = some id) :
    program.ownerOfInst id = .ok func := by
  obtain ⟨-, inst, known, listed, -⟩ := consistent.inst_of_instAt? located
  obtain ⟨block, there, owner⟩ := consistent.block found inst.block (List.mem_of_getElem? listed)
  rw [Program.ownerOfInst, bind_eq_ok_iff]
  refine ⟨inst, known, ?_⟩
  rw [bind_eq_ok_iff]
  exact ⟨block, there, by rw [owner]; rfl⟩

/-! ## Operands of recipes -/

/-- A recipe takes its operands from the instruction.  There is no case in which another operand is
made up, but for the offset and the predicate, which are no results. -/
theorem mem_operands_of_recipe? {id : InstId} {inst : Inst} {recipe : Recipe} {operand : Operand}
    (made : program.recipe? id inst = some recipe) (mem : .operand operand ∈ recipe.sources) :
    operand ∈ inst.operands := by
  have kept {opcode operands} (h : some (Recipe.ofOperands opcode operands) = some recipe) :
      operand ∈ operands := by
    cases h
    simpa [Recipe.ofOperands] using mem
  have escaped (h : program.escape? id = some recipe) : operand ∈ inst.operands := by
    simp only [escape?, Option.bind_eq_bind, Option.bind_eq_some_iff, Option.pure_def,
      Option.some.injEq] at h
    obtain ⟨text, -, rfl⟩ := h
    simp at mem
  -- one case for each line of the recipes, in their order
  rw [recipe?] at made
  split at made
  · exact kept made
  · exact kept made
  · exact kept made
  · exact kept made
  · exact kept made
  · next operands =>
    split at made
    · cases made
      simpa [operands] using mem
    · cases made
  · cases made
  · cases made
    simp at mem
  · next operands =>
    have := kept made
    simp only [operands, List.mem_cons, List.not_mem_nil, or_false] at this ⊢
    tauto
  · split at made
    · next callee last =>
      rcases List.mem_cons.mp (kept made) with rfl | mem
      · exact List.mem_of_getLast? last
      · exact List.mem_of_mem_dropLast mem
    · exact escaped made
  · next source base indices kind operands =>
    split at made
    · cases made
      obtain rfl : operand = base := by simpa using mem
      simp [operands]
    · cases made
  · next operands =>
    cases made
    simpa [operands] using mem
  · cases made
  · exact escaped made

/-! ## Results out of reach -/

/-- Why an instruction has no result at the location `here` of a function. -/
inductive Unavailable (program : Program) (func : FuncId) (function : Function) (here : Location)
    (id : InstId) : Prop
  /-- It has no result. -/
  | void {inst : Inst} (known : program.inst id = .ok inst)
      (isVoid : program.types.isVoid inst.type = .ok true)
  /-- It is left out of the stream. -/
  | debug {inst : Inst} (known : program.inst id = .ok inst) (isDebug : inst.kind.isDebug = true)
  /-- It belongs to another function. -/
  | elsewhere {owner : FuncId} (owned : program.ownerOfInst id = .ok owner) (other : owner ≠ func)
  /-- It is the instruction that asks. -/
  | itself (located : program.instAt? function here = some id)
  /-- It stands behind the instruction that asks. -/
  | later {there : Location} (located : program.instAt? function there = some id)
      (notEarlier : ¬ there.Before here)

/-- What is out of reach has no location in scope.  There is a case for each of the causes, and each
is a look-up that fails. -/
theorem find?_of_unavailable (consistent : program.Consistent)
    (found : program.function func = .ok function) {here : Location} {id : InstId}
    (h : program.Unavailable func function here id) :
    (program.locationsBefore function here).find? id = none := by
  rw [find?_locationsBefore_eq_none_iff]
  intro there located earlier
  obtain ⟨emitted, inst, known, -, -⟩ := consistent.inst_of_instAt? located
  cases h with
  | void again isVoid =>
    cases known.symm.trans again
    exact hasResult_of_isVoid known isVoid
  | debug again isDebug =>
    cases known.symm.trans again
    rw [isEmitted, known] at emitted
    simp [isDebug] at emitted
  | elsewhere owned other =>
    have owner := consistent.ownerOfInst found located
    rw [owned] at owner
    cases owner
    exact absurd rfl other
  | itself again =>
    rw [consistent.instAt?_injective found located again] at earlier
    exact absurd earlier (Location.not_before_self here)
  | later again notEarlier =>
    cases consistent.instAt?_injective found located again
    exact absurd earlier notEarlier

/-- The encoder refuses an operand that is out of reach.  The message has the text of the operand
and the name of the function. -/
theorem encodeOperand_of_unavailable {word : WordSize} {here : Location} {id : InstId}
    {text : String}
    (missing : (program.locationsBefore function here).find? id = none)
    (shown : program.operandText (.inst id) = .ok text) (state : EncodeState) :
    (program.encodeOperand word (program.scopeAt func function here) (.inst id)).run.run state
      = (.error (.undefinedValue function.name text), state) := by
  simp only [encodeOperand, scopeAt, missing, undefinedValue, shown]
  rfl

/-- An operand that is the result of an instruction is written as its location. -/
theorem Denotes.localVariable {tables : EncodeState} {here : Location} {id : InstId}
    {record : OperandRecord}
    (h : program.Denotes tables func function here (.operand (.inst id)) record) :
    ∃ there : Location, record = .localVariable there.block there.inst
      ∧ program.instAt? function there = some id ∧ there.Before here
      ∧ program.hasResult id = true := by
  cases h with
  | inst located earlier hasResult => exact ⟨_, rfl, located, earlier, hasResult⟩

theorem isVoid_of_hasResult {id : InstId} {inst : Inst} (known : program.inst id = .ok inst)
    (h : program.hasResult id = true) : program.types.isVoid inst.type = .ok false := by
  simp only [hasResult, known] at h
  split at h
  · next found => simpa [found] using h
  · cases h

theorem operandText_of_inRange {id : InstId} (inRange : id.index < program.insts.size) :
    ∃ text, program.operandText (.inst id) = .ok text := by
  have known : program.inst id = .ok program.insts[id.index] :=
    inst_eq_ok_iff.mpr (Array.getElem?_eq_getElem inRange)
  exact ⟨_, by rw [operandText, known]; rfl⟩

end Program

/-- The operand at `position` of the record at `here` leads to the record of the instruction `id`,
which is an earlier one in the same function, and one with a result. -/
def Stream.RefersTo (stream : Stream) (program : Program) (tables : EncodeState) (func : FuncId)
    (function : Function) (here : Location) (position : Nat) (id : InstId) : Prop :=
  ∃ owner record there target, stream.functions[func.index]? = some owner
    ∧ owner.instAt? here = some record
    ∧ record.operands[position]? = some (.localVariable there.block there.inst)
    ∧ owner.instAt? there = some target
    ∧ program.instAt? function there = some id
    ∧ program.DescribesInst tables func function there id target
    ∧ there.Before here
    ∧ ∃ inst, program.inst id = .ok inst ∧ program.types.isVoid inst.type = .ok false

/-- The record that an operand leads to is the one of its instruction.  The location is that of the
instruction in the program, and records stand at the locations of their instructions. -/
theorem Stream.Describes.refersTo {program : Program} {word : WordSize} {tables : EncodeState}
    {stream : Stream} (h : stream.Describes program word tables) (consistent : program.Consistent)
    {func : FuncId} {function : Function} (found : program.function func = .ok function)
    {here : Location} {current id : InstId} {inst : Inst} {recipe : Recipe} {position : Nat}
    (located : program.instAt? function here = some current)
    (known : program.inst current = .ok inst) (made : program.recipe? current inst = some recipe)
    (written : recipe.sources[position]? = some (.operand (.inst id))) :
    stream.RefersTo program tables func function here position id := by
  obtain ⟨owner, listed, owned⟩ := exists_right_of_forall₂ h.functions
    (Program.getElem?_functionIds found)
  obtain ⟨record, place, _, _, again, madeAgain, follows⟩ := owned.exists_record found located
  cases known.symm.trans again
  cases made.symm.trans madeAgain
  obtain ⟨_, operand, denotes⟩ := exists_right_of_forall₂ follows.operands written
  obtain ⟨there, rfl, locatedThere, earlier, hasResult⟩ := denotes.localVariable
  obtain ⟨target, placeThere, describes⟩ := owned.exists_record found locatedThere
  obtain ⟨-, result, knownThere, -, -⟩ := consistent.inst_of_instAt? locatedThere
  exact ⟨owner, record, there, target, listed, place, operand, placeThere, locatedThere, describes,
    earlier, result, knownThere, Program.isVoid_of_hasResult knownThere hasResult⟩

/-- An operand out of reach is not written. -/
theorem Stream.RefersTo.not_unavailable {program : Program} {tables : EncodeState}
    {stream : Stream} (consistent : program.Consistent) {func : FuncId} {function : Function}
    (found : program.function func = .ok function) {here : Location} {position : Nat} {id : InstId}
    (h : stream.RefersTo program tables func function here position id) :
    ¬ program.Unavailable func function here id := by
  intro away
  obtain ⟨_, _, there, _, -, -, -, -, located, -, earlier, inst, known, isVoid⟩ := h
  have missing := Program.find?_locationsBefore_eq_none_iff.mp
    (Program.find?_of_unavailable consistent found away) there located earlier
  rw [Program.hasResult_of_isVoid known isVoid] at missing
  cases missing

/-- **Results keep their meaning.**  Take an operand of an instruction that gets into the stream,
where the operand is the result of an instruction `id`.

* If the program is encoded, the operand is a pair of numbers; the record they lead to in the same
  function is the record of `id`, it comes before the record with the operand, and `id` has a
  result.
* No other instruction of the function has the location of `id`, and `id` has no other.
* If `id` is out of reach, the operand is an undefined value, and the program is not encoded.  The
  scope at a location is the one the encoder has there (`Program.encodeBlocks_ofFunction`). -/
theorem refersTo_of_encode {program : Program} (built : program.Built) {func : FuncId}
    {function : Function} (found : program.function func = .ok function) {here : Location}
    {current id : InstId} {inst : Inst} {recipe : Recipe} {position : Nat}
    (located : program.instAt? function here = some current)
    (known : program.inst current = .ok inst) (made : program.recipe? current inst = some recipe)
    (written : recipe.sources[position]? = some (.operand (.inst id))) (word : WordSize) :
    (∀ module, program.encode word = .ok module →
      ∃ stream, Stream.read? word module.bytes = some stream
        ∧ stream.RefersTo program (program.finalTables word) func function here position id)
    ∧ (∀ there other otherId, program.instAt? function there = some id →
        program.instAt? function other = some otherId → (other = there ↔ otherId = id))
    ∧ (program.Unavailable func function here id →
        (∃ text, program.operandText (.inst id) = .ok text ∧ ∀ state,
          (program.encodeOperand word (program.scopeAt func function here) (.inst id)).run.run state
            = (.error (.undefinedValue function.name text), state))
        ∧ ∃ error, program.encode word = .error error) := by
  have consistent := built.consistent.1
  -- the stream, that the location belongs to no other instruction, and what cannot be referred to
  refine ⟨fun module encoded => ?_, fun there other otherId one two => ⟨?_, ?_⟩,
    fun away => ⟨?_, ?_⟩⟩
  · obtain ⟨stream, read, describes, -⟩ := describes_of_encode encoded
    exact ⟨stream, read, describes.refersTo consistent found located known made written⟩
  · rintro rfl
    exact Option.some.inj (two.symm.trans one)
  · rintro rfl
    exact consistent.instAt?_injective found two one
  · have mem := Program.mem_operands_of_recipe? made (List.mem_of_getElem? written)
    obtain ⟨text, shown⟩ := Program.operandText_of_inRange (consistent.operands known _ mem)
    exact ⟨text, shown, Program.encodeOperand_of_unavailable
      (Program.find?_of_unavailable consistent found away) shown⟩
  · cases outcome : program.encode word with
    | error error => exact ⟨error, rfl⟩
    | ok module =>
      obtain ⟨stream, -, describes, -⟩ := describes_of_encode outcome
      have refers := describes.refersTo consistent found located known made written
      exact absurd away (refers.not_unavailable consistent found)

/-- The sum that is returned. -/
theorem refersTo_of_encode_addOne :
    ∃ module stream function, Program.addOne.function ⟨0⟩ = .ok function
      ∧ Program.addOne.encode .eight = .ok module
      ∧ Stream.read? .eight module.bytes = some stream
      ∧ stream.RefersTo .addOne (Program.addOne.finalTables .eight) ⟨0⟩ function ⟨0, 1⟩ 0 ⟨0⟩ := by
  have found : Program.addOne.function ⟨0⟩ = .ok ⟨"addOne", ⟨6⟩, [⟨0⟩], [⟨0⟩]⟩ := rfl
  have located : Program.addOne.instAt? ⟨"addOne", ⟨6⟩, [⟨0⟩], [⟨0⟩]⟩ ⟨0, 1⟩ = some ⟨1⟩ := rfl
  have known : Program.addOne.inst ⟨1⟩ = .ok ⟨.ret, .void, [.inst ⟨0⟩], none, ⟨0⟩⟩ := rfl
  have made : Program.addOne.recipe? ⟨1⟩ ⟨.ret, .void, [.inst ⟨0⟩], none, ⟨0⟩⟩
      = some (.ofOperands .ret [.inst ⟨0⟩]) := rfl
  have written : (Recipe.ofOperands .ret [.inst ⟨0⟩]).sources[0]? = some (.operand (.inst ⟨0⟩)) :=
    rfl
  obtain ⟨module, outcome⟩ := encode_addOne
  obtain ⟨refers, -⟩ :=
    refersTo_of_encode Program.built_addOne found located known made written .eight
  obtain ⟨stream, read, refersTo⟩ := refers module outcome
  exact ⟨module, stream, _, found, outcome, read, refersTo⟩

end IrStream
