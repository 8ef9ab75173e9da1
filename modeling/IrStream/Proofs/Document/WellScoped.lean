import IrStream.Proofs.Document.Pending
import IrStream.Proofs.Encode.Encodable
import IrStream.Proofs.Encode.LocalVariable
import IrStream.Proofs.Program.Listed

/-!
# Documents give closed and well-scoped programs

`Program.WellScoped` says what can be relied on after a document was loaded: handles are in range,
an instruction uses nothing of another function, what is used or has a name has a result, and
integers are no wider than their types.  It is what is known of a draft without any unfinished
instruction (`Draft.wellScoped`).

To encode such a program may still fail, but not for a handle or for a block.  And a value may only
be without a location because it comes too late, or not at all (`Program.ComesTooLate`).

The first half of the statement is about programs, the second about their encodings.  What connects
the two is known from `Encode/Encodable.lean`: an encoding that fails because of an operand has come
to an instruction that *misplaces* one, and which operands are misplaced is a question of locations
(`Program.Misplaces`).  Here it is answered for operands that the function offers.

* A handle that is out of range is never met, since a draft is a built program.
* A block that is offered belongs to the function, so it is available from the beginning.
* An argument has its location before the first instruction.
* An instruction that is offered is somewhere in the body of its function, or it is a debug
  instruction and nowhere.  Locations are ordered, so it comes before the instruction that uses it,
  or it is that instruction, or it comes behind.  In the first case it has a location by then, and
  in the other two it comes too late.
-/

set_option autoImplicit false

namespace IrStream

namespace Program

variable {program : Program} {func : FuncId} {function : Function} {here : Location}
  {id other : InstId} {inst : Inst}

/-- Handles are in range, and values are used where they belong. -/
structure WellScoped (program : Program) : Prop where
  /-- Every handle that is stored is in range of its arena. -/
  closed : program.Closed
  /-- Arguments, instructions and blocks are used in the function that they belong to. -/
  operands : ∀ {id inst}, program.inst id = .ok inst → ∃ func, program.ownerOfInst id = .ok func
    ∧ ∀ operand ∈ inst.operands, program.Offers func operand
  /-- An instruction that is used has a result. -/
  results : ∀ {id inst other}, program.inst id = .ok inst → .inst other ∈ inst.operands →
    program.hasResult other = true
  /-- An instruction with a name has a result. -/
  named : ∀ {id inst}, program.inst id = .ok inst → inst.name.isSome = true →
    program.hasResult id = true
  /-- What a global begins with is a constant. -/
  initializers : ∀ {id global init}, program.global id = .ok global → global.init = some init →
    ∃ constant, program.constant init = .ok constant
  /-- Integers have an integer type of at most 128 bits, and no bit beyond it. -/
  integers : ∀ {id constant}, program.constant id = .ok constant → constant.Proper program

/-- An instruction in the function called `name` uses a value, which `text` shows, that has no
location yet: a debug instruction, the instruction itself, or one that is behind it. -/
def ComesTooLate (program : Program) (name text : String) : Prop :=
  ∃ func function here id inst other, program.Emits func function here id inst
    ∧ function.name = name ∧ .inst other ∈ inst.writtenOperands
    ∧ program.operandText (.inst other) = .ok text
    ∧ ((∃ used, program.inst other = .ok used ∧ used.kind.isDebug = true) ∨ other = id
      ∨ ∃ there, program.instAt? function there = some other ∧ here.Before there)

/-! ## Drafts -/

/-- Where no name is exempt, an instruction with a name has a result. -/
theorem NamesResults.hasResult (named : program.NamesResults [])
    (found : program.inst id = .ok inst) (name : inst.name.isSome = true) :
    program.hasResult id = true :=
  hasResult_of_isVoid found (named found name List.not_mem_nil)

/-- **A draft is well-scoped** if no instruction of it is unfinished. -/
theorem Draft.wellScoped (draft : program.Draft) (named : program.NamesResults []) :
    program.WellScoped where
  closed := draft.built.closed
  operands found := by
    obtain ⟨func, owned⟩ := draft.built.exists_owner found
    exact ⟨func, owned, draft.offers found owned⟩
  results found mem := by
    obtain ⟨func, owned⟩ := draft.built.exists_owner found
    obtain ⟨-, used, there, name⟩ := draft.offers found owned _ mem
    exact named.hasResult there name
  named := named.hasResult
  initializers found initialized := by
    have bound := (draft.built.closed.global found).2 _ initialized
    exact ⟨_, constant_eq_ok_iff.mpr (Array.getElem?_eq_getElem bound)⟩
  integers := draft.proper

/-! ## Where operands are

Locations of one function are compared by block and then by position, and any two of them can be. -/

theorem Location.before_or_eq_or_before (first second : Location) :
    first.Before second ∨ first = second ∨ second.Before first := by
  obtain ⟨block, inst⟩ := first
  obtain ⟨block', inst'⟩ := second
  simp only [Location.Before, Location.mk.injEq]
  omega

/-- What an emitted instruction uses is offered by the function that it is emitted in. -/
theorem Emits.offers (emits : program.Emits func function here id inst) (draft : program.Draft)
    {operand : Operand} (written : operand ∈ inst.writtenOperands) :
    program.Offers func operand :=
  draft.offers emits.known (draft.built.consistent.1.ownerOfInst emits.found emits.located) operand
    (Inst.mem_operands_of_written written)

/-- An instruction is in the body of its function, unless it is a debug instruction. -/
theorem Built.exists_location (built : program.Built)
    (found : program.function func = .ok function) (owned : program.ownerOfInst id = .ok func)
    (emitted : program.isEmitted id = true) :
    ∃ there, program.instAt? function there = some id := by
  obtain ⟨inst, owner, known, there, rfl⟩ := ownerOfInst_eq_ok_iff.mp owned
  have block : inst.block ∈ function.blocks := blocksOf_of_function found ▸ built.listed there
  obtain ⟨_, again, listed⟩ := built.rooted.inst known
  obtain ⟨row, atRow⟩ := List.getElem?_of_mem block
  obtain ⟨column, atColumn⟩ :=
    List.getElem?_of_mem (mem_blockBody.mpr ⟨_, again, listed, emitted⟩)
  exact ⟨⟨row, column⟩, instAt?_eq_some_iff_blocks.mpr ⟨inst.block, atRow, atColumn⟩⟩

/-- A block that is offered is available. -/
theorem Built.available_block (built : program.Built)
    (found : program.function func = .ok function) {block : BlockId}
    (offers : program.Offers func (.block block)) :
    program.Available func function here (.block block) := by
  obtain ⟨entry, there, rfl⟩ := offers
  have listed := built.listed there
  rwa [blocksOf_of_function found] at listed

/-- An instruction that is offered has a location before, or comes too late. -/
theorem Draft.comesTooLate (draft : program.Draft) (named : program.NamesResults [])
    (emits : program.Emits func function here id inst) (offers : program.Offers func (.inst other))
    (missing : ¬ program.Available func function here (.inst other)) :
    (∃ used, program.inst other = .ok used ∧ used.kind.isDebug = true) ∨ other = id
      ∨ ∃ there, program.instAt? function there = some other ∧ here.Before there := by
  obtain ⟨owned, used, known, name⟩ := offers
  cases debug : used.kind.isDebug with
  | true => exact .inl ⟨used, known, debug⟩
  | false =>
    have emitted : program.isEmitted other = true := by rw [isEmitted, known]; simp [debug]
    obtain ⟨there, located⟩ := draft.built.exists_location emits.found owned emitted
    rcases Location.before_or_eq_or_before there here with before | rfl | behind
    · exact (missing ⟨there, located, before, named.hasResult known name⟩).elim
    · exact .inr (.inl (Option.some.inj (located.symm.trans emits.located)))
    · exact .inr (.inr ⟨there, located, behind⟩)

/-! ## Errors -/

section

variable (draft : program.Draft)
include draft

/-- A block of another function is never used. -/
theorem Draft.not_misplaces_block {block : BlockId} {name text : String} :
    ¬ program.Misplaces (.block block) name text := by
  rintro ⟨func, function, here, id, inst, emits, -, written, -, missing⟩
  exact missing (draft.built.available_block emits.found (emits.offers draft written))

/-- In a program where operands are in scope, a local operand that is not available can only be a
result that comes later in the same function. -/
theorem Draft.comesTooLate_of_misplaces (named : program.NamesResults []) {operand : Operand}
    (isLocal : operand.isLocal = true) {name text : String}
    (misplaces : program.Misplaces operand name text) : program.ComesTooLate name text := by
  obtain ⟨func, function, here, id, inst, emits, called, written, shown, missing⟩ := misplaces
  have offers := emits.offers draft written
  cases operand with
  | arg => exact (missing offers).elim
  | inst other =>
    exact ⟨func, function, here, id, inst, other, emits, called, written, shown,
      draft.comesTooLate named emits offers missing⟩
  | const | block | text => cases isLocal

end

end Program

/-! ## Documents -/

/-- **A document that loads gives a closed and well-scoped program.**  So to encode it never comes
upon a handle that is out of range, nor upon a block of another function, and finds a value without
a location only if that comes too late. -/
theorem wellScoped_of_toProgram {document : Document} {program : Program}
    (loaded : document.toProgram = .ok program) :
    program.WellScoped ∧ ∀ word {error}, program.encode word = .error error →
      (∀ handle, error ≠ .dangling handle) ∧ (∀ name text, error ≠ .unknownBlock name text)
        ∧ ∀ name text, error = .undefinedValue name text → program.ComesTooLate name text := by
  obtain ⟨draft, named⟩ := named_of_toProgram loaded
  refine ⟨draft.wellScoped named, fun word error failed => ?_⟩
  have cause : program.Explains error := (Program.encode_of_built draft.built).2 failed
  refine ⟨?_, ?_, ?_⟩
  · rintro handle rfl
    exact cause
  · rintro name text rfl
    obtain ⟨block, misplaced⟩ := cause
    exact draft.not_misplaces_block misplaced
  · rintro name text rfl
    obtain ⟨operand, isLocal, misplaced⟩ := cause
    exact draft.comesTooLate_of_misplaces named isLocal misplaced

/-- A document in which an instruction uses the next one. -/
def Document.usingNext : Document where
  layout := none
  structs := []
  globals := []
  functions := [{
    name := "f"
    params := []
    ret := none
    vararg := false
    blocks := [⟨none, [
      ⟨some "a", "add", some (.text "i32"), [.text "%b", .text "i32 1"], none, none, none⟩,
      ⟨some "b", "add", some (.text "i32"), [.text "i32 1", .text "i32 1"], none, none, none⟩,
      ⟨none, "ret", none, [], none, none, none⟩]⟩] }]

/-- The next instruction has no location yet. -/
theorem wellScoped_of_usingNext :
    ∃ program, Document.usingNext.toProgram = .ok program ∧ program.WellScoped
      ∧ program.encode .eight = .error (.undefinedValue "f" "i32 %b")
      ∧ program.ComesTooLate "f" "i32 %b" := by
  have fails : Document.usingNext.toProgram.toOption.any (fun program =>
      match program.encode .eight with
      | .ok _ => false
      | .error error => error = .undefinedValue "f" "i32 %b") = true := by
    decide +kernel
  obtain ⟨program, loaded, fails⟩ := exists_of_any_toOption fails
  obtain ⟨wellScoped, errors⟩ := wellScoped_of_toProgram loaded
  split at fails
  · cases fails
  · next error failed =>
    obtain rfl := of_decide_eq_true fails
    exact ⟨program, loaded, wellScoped, failed, (errors .eight failed).2.2 _ _ rfl⟩

end IrStream
