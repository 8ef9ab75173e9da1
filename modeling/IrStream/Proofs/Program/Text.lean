import IrStream.Program.Text
import IrStream.Proofs.Program.Complete

/-!
# Texts of built programs

In a complete program, everything that is in range has a text: writing it never comes upon a handle
outside its arena.

The encoder writes texts in three places.  An instruction that has no record of its own is written
as text, an error shows the instruction that it is about, and a type without a record is its text.
For none of them is there anything sensible to do if the text cannot be written, so it is shown here
that this does not happen.

The lemmas follow the printer from below: constants, labels and names, operands, lists of operands,
and instructions.  Constants are printed by a recursion over the elements of aggregates, and that
succeeds with any bound for the depth, so nothing is assumed about the bound.

## Statements

* `Complete.exists_constantBodyWithin`: constants, by induction on the bound.
* `Complete.exists_operandText`: operands of all sorts.
* `Complete.exists_instText`: **every instruction has a text**.

They all say that there is a text, and none says which.  That the texts of two programs are equal is
the subject of `Pairing/Text.lean`, and that a text can be read again is that of
`Types/RoundTrip.lean`.
-/

set_option autoImplicit false

namespace IrStream

namespace Program

variable {program : Program}

/-! ## Look-ups in range

The printer looks at whatever an instruction mentions.  A handle in range is found, so these are the
base cases of all texts. -/

theorem exists_constant {id : ConstId} (h : id.index < program.constants.size) :
    ∃ constant, program.constant id = .ok constant :=
  ⟨_, constant_eq_ok_iff.mpr (Array.getElem?_eq_getElem h)⟩

theorem exists_global {id : GlobalId} (h : id.index < program.globals.size) :
    ∃ global, program.global id = .ok global :=
  ⟨_, global_eq_ok_iff.mpr (Array.getElem?_eq_getElem h)⟩

theorem exists_function {id : FuncId} (h : id.index < program.functions.size) :
    ∃ function, program.function id = .ok function :=
  ⟨_, function_eq_ok_iff.mpr (Array.getElem?_eq_getElem h)⟩

theorem exists_block {id : BlockId} (h : id.index < program.blocks.size) :
    ∃ block, program.block id = .ok block :=
  ⟨_, block_eq_ok_iff.mpr (Array.getElem?_eq_getElem h)⟩

theorem exists_inst {id : InstId} (h : id.index < program.insts.size) :
    ∃ inst, program.inst id = .ok inst :=
  ⟨_, inst_eq_ok_iff.mpr (Array.getElem?_eq_getElem h)⟩

theorem exists_arg {id : ArgId} (h : id.index < program.args.size) :
    ∃ arg, program.arg id = .ok arg :=
  ⟨_, arg_eq_ok_iff.mpr (Array.getElem?_eq_getElem h)⟩

/-! ## Constants and operands -/

/-- The text of a constant is found with any bound on the depth, also with one that is too small.
At depth zero something is written in the place of an element, so there is no case without a text.
-/
theorem Complete.exists_constantBodyWithin (complete : program.Complete) (depth : Nat)
    {constant : Constant} (inRange : constant.InRange program) :
    ∃ text, program.constantBodyWithin depth constant = .ok text := by
  induction depth generalizing constant with
  | zero =>
    cases constant with
    | int type bits =>
      rw [constantBodyWithin]
      refine exists_bind_eq_ok (Types.Has.exists_shape inRange) fun shape _ => ?_
      split <;> exact ⟨_, rfl⟩
    | float | null | undef | aggregate => exact ⟨_, rfl⟩
    | global id => exact exists_bind_eq_ok (exists_global inRange) fun _ _ => ⟨_, rfl⟩
    | function id => exact exists_bind_eq_ok (exists_function inRange) fun _ _ => ⟨_, rfl⟩
  | succ depth ih =>
    cases constant with
    | int type bits =>
      rw [constantBodyWithin]
      refine exists_bind_eq_ok (Types.Has.exists_shape inRange) fun shape _ => ?_
      split <;> exact ⟨_, rfl⟩
    | float | null | undef => exact ⟨_, rfl⟩
    | aggregate type elems =>
      rw [constantBodyWithin]
      have texts := exists_mapM_eq_ok fun id mem =>
        exists_bind_eq_ok (exists_constant (inRange.2 id mem)) fun elem found =>
          exists_bind_eq_ok (ih (complete.constant found)) fun text _ =>
            ⟨program.types.text elem.type ++ " " ++ text, rfl⟩
      refine exists_bind_eq_ok (inRange.1).exists_shape fun shape _ => ?_
      split <;> exact exists_bind_eq_ok texts fun _ _ => ⟨_, rfl⟩
    | global id => exact exists_bind_eq_ok (exists_global inRange) fun _ _ => ⟨_, rfl⟩
    | function id => exact exists_bind_eq_ok (exists_function inRange) fun _ _ => ⟨_, rfl⟩

theorem Complete.exists_constantBody (complete : program.Complete) {constant : Constant}
    (inRange : constant.InRange program) : ∃ text, program.constantBody constant = .ok text :=
  complete.exists_constantBodyWithin _ inRange

theorem Complete.exists_constantText (complete : program.Complete) {constant : Constant}
    (inRange : constant.InRange program) : ∃ text, program.constantText constant = .ok text :=
  exists_bind_eq_ok (complete.exists_constantBody inRange) fun _ _ => ⟨_, rfl⟩

theorem Complete.exists_blockRef (complete : program.Complete) {id : BlockId}
    (inRange : id.index < program.blocks.size) : ∃ text, program.blockRef id = .ok text := by
  refine exists_bind_eq_ok (exists_block inRange) fun block found => ?_
  cases block.label with
  | some label => exact ⟨_, rfl⟩
  | none => exact exists_bind_eq_ok (exists_function (complete.owner found)) fun _ _ => ⟨_, rfl⟩

theorem Complete.exists_operandRef (complete : program.Complete) {operand : Operand}
    (inRange : operand.InRange program) : ∃ text, program.operandRef operand = .ok text := by
  cases operand with
  | const id =>
    exact exists_bind_eq_ok (exists_constant inRange) fun _ found =>
      complete.exists_constantBody (complete.constant found)
  | arg id => exact exists_bind_eq_ok (exists_arg inRange) fun _ _ => ⟨_, rfl⟩
  | inst id => exact exists_bind_eq_ok (exists_inst inRange) fun _ _ => ⟨_, rfl⟩
  | block id => exact complete.exists_blockRef inRange
  | text text => exact ⟨text, rfl⟩

theorem Complete.exists_operandText (complete : program.Complete) {operand : Operand}
    (inRange : operand.InRange program) : ∃ text, program.operandText operand = .ok text := by
  cases operand with
  | const id =>
    exact exists_bind_eq_ok (exists_constant inRange) fun _ found =>
      complete.exists_constantText (complete.constant found)
  | arg id => exact exists_bind_eq_ok (exists_arg inRange) fun _ _ => ⟨_, rfl⟩
  | inst id => exact exists_bind_eq_ok (exists_inst inRange) fun _ _ => ⟨_, rfl⟩
  | block id => exact exists_bind_eq_ok (complete.exists_blockRef inRange) fun _ _ => ⟨_, rfl⟩
  | text text => exact ⟨text, rfl⟩

/-! ## Instructions -/

section

variable {operands : List Operand}

theorem Complete.exists_operandsText (complete : program.Complete)
    (inRange : ∀ operand ∈ operands, operand.InRange program) :
    ∃ text, program.operandsText operands = .ok text :=
  exists_bind_eq_ok (exists_mapM_eq_ok fun operand mem =>
    complete.exists_operandText (inRange operand mem)) fun _ _ => ⟨_, rfl⟩

theorem Complete.exists_headAndOperands (complete : program.Complete) (head : String)
    (inRange : ∀ operand ∈ operands, operand.InRange program) :
    ∃ text, program.headAndOperands head operands = .ok text :=
  exists_bind_eq_ok (exists_mapM_eq_ok fun operand mem =>
    complete.exists_operandText (inRange operand mem)) fun _ _ => ⟨_, rfl⟩

theorem Complete.exists_pairText (complete : program.Complete)
    (inRange : ∀ operand ∈ operands, operand.InRange program) :
    ∃ text, program.pairText operands = .ok text := by
  unfold pairText
  split
  · next left right =>
    exact exists_bind_eq_ok (complete.exists_operandText (inRange left (by simp))) fun _ _ =>
      exists_bind_eq_ok (complete.exists_operandRef (inRange right (by simp))) fun _ _ => ⟨_, rfl⟩
  · exact complete.exists_operandsText inRange

end

/-- An instruction whose operands are in range has a text, whatever its kind is.  One with too few
operands for its kind has a text as well. -/
theorem Complete.exists_actionText (complete : program.Complete) {inst : Inst}
    (inRange : ∀ operand ∈ inst.operands, operand.InRange program) :
    ∃ text, program.actionText inst = .ok text := by
  have listed := complete.exists_operandsText inRange
  have pair := complete.exists_pairText inRange
  unfold actionText
  split
  · exact complete.exists_headAndOperands _ inRange
  · exact ⟨_, rfl⟩
  · exact complete.exists_headAndOperands _ inRange
  · exact complete.exists_headAndOperands _ inRange
  · split
    · exact ⟨_, rfl⟩
    · next callee last =>
      have called := complete.exists_operandRef (inRange callee (List.mem_of_getLast? last))
      have args := complete.exists_operandsText fun operand mem =>
        inRange operand (List.dropLast_subset _ mem)
      exact exists_bind_eq_ok called fun _ _ => exists_bind_eq_ok args fun _ _ => ⟨_, rfl⟩
  · next condition ifFalse ifTrue _ operands =>
    rw [operands] at inRange
    have swapped : ∀ operand ∈ [condition, ifTrue, ifFalse], operand.InRange program := by
      intro operand mem
      refine inRange operand ?_
      simp only [List.mem_cons, List.not_mem_nil, or_false] at mem ⊢
      rcases mem with rfl | rfl | rfl <;> simp
    exact exists_bind_eq_ok (complete.exists_operandsText swapped) fun _ _ => ⟨_, rfl⟩
  · exact exists_bind_eq_ok pair fun _ _ => ⟨_, rfl⟩
  · exact exists_bind_eq_ok pair fun _ _ => ⟨_, rfl⟩
  · exact ⟨_, rfl⟩
  · exact exists_bind_eq_ok listed fun _ _ => ⟨_, rfl⟩

/-- **Every instruction has a text.**  The encoder needs it for what it cannot encode, and so that
never fails. -/
theorem Complete.exists_instText (complete : program.Complete) (consistent : program.Consistent)
    {id : InstId} {inst : Inst} (found : program.inst id = .ok inst) :
    ∃ text, program.instText id = .ok text := by
  have action := complete.exists_actionText (consistent.operands found)
  obtain ⟨shape, shown⟩ := (complete.result found).exists_shape
  have isVoid : ∃ void, program.types.isVoid inst.type = .ok void :=
    exists_bind_eq_ok ⟨shape, shown⟩ fun _ _ => ⟨_, rfl⟩
  refine exists_bind_eq_ok ⟨inst, found⟩ fun _ same => ?_
  cases found.symm.trans same
  exact exists_bind_eq_ok isVoid fun _ _ => exists_bind_eq_ok action fun _ _ => ⟨_, rfl⟩

end Program

end IrStream
