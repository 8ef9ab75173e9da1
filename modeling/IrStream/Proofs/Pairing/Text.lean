import IrStream.Program.Text
import IrStream.Proofs.Pairing.Lookup
import IrStream.Proofs.Stream.RoundTrip

/-!
# Texts of two programs

In programs that are alike, what is alike has the same text, with one exception.  A result without a
name is shown by its handle, which may be another one in each program
(`Program.Alike.agree_instText`).  Only the instruction itself can be shown like that, for operands
refer to results by their names or by handles that are the same (`Program.Alike.value`).

Where the texts are different they still have something in common: one has a zero byte if and only
if the other has, since a handle is shown as a number.  Without that, one of the programs could fail
to be encoded for a zero byte and the other one not.

Texts are put together in layers — types, constants, operands, instructions — and there is a lemma
for each function of the printer.  Constants may contain constants, and their texts are computed
with a bound for the depth, which is treated like the one of extents.

## Statements

* `agree_constantText`, `agree_operandText`: constants and operands that are alike have the same
  text.
* `agree_actionText`: so has what an instruction does.
* `agree_instText`: **the text of an instruction** is the same if its result is shown by a name, or
  if it has none; otherwise it is another one that is as free of zero bytes as the first.
* `nulFree_instRef_iff`: no handle brings a zero byte into a text.
-/

set_option autoImplicit false

namespace IrStream

/-! ## Texts without zero bytes

The digits of a number are no zero bytes, so a handle may be exchanged for another one. -/

theorem textBytes_append (front back : String) :
    textBytes (front ++ back) = textBytes front ++ textBytes back := by
  simp [textBytes, String.toUTF8, String.toByteArray_append]

theorem nulFree_append_iff {front back : String} :
    NulFree (front ++ back) ↔ NulFree front ∧ NulFree back := by
  simp [NulFree, textBytes_append]

theorem textBytes_eq_flatMap (text : String) :
    textBytes text = text.toList.flatMap String.utf8EncodeChar := by
  rw [textBytes, String.toUTF8, ← String.utf8Encode_toList, List.utf8Encode,
    List.toList_data_toByteArray]

/-- A digit is one byte, and it is not zero.  The texts of different handles differ only in digits.
-/
theorem not_mem_utf8EncodeChar_of_isDigit {c : Char} (digit : c.isDigit = true) :
    0 ∉ String.utf8EncodeChar c := by
  obtain ⟨low, high⟩ : 48 ≤ c.val.toNat ∧ c.val.toNat ≤ 57 := by
    simpa [Char.isDigit, UInt32.le_iff_toNat_le] using digit
  have ascii : String.utf8EncodeChar c = [UInt8.ofNat c.val.toNat] := by
    rw [String.utf8EncodeChar, if_pos (Nat.le_trans high (by decide))]
  rw [ascii, List.mem_singleton]
  intro zero
  have value := congrArg UInt8.toNat zero
  rw [UInt8.toNat_ofNat', Nat.mod_eq_of_lt (by omega), UInt8.toNat_zero] at value
  omega

theorem nulFree_toString (number : Nat) : NulFree (toString number) := by
  rw [NulFree, textBytes_eq_flatMap, List.mem_flatMap]
  rintro ⟨c, mem, zero⟩
  rw [show (toString number).toList = Nat.toDigits 10 number from Nat.toList_repr] at mem
  exact not_mem_utf8EncodeChar_of_isDigit
    (Nat.isDigit_of_mem_toDigits (by decide) (Nat.le_refl 10) mem) zero

namespace Program

variable {m : Pairing}

theorem argRef_eq {arg other : Arg} (alike : arg.Alike m other) : argRef other = argRef arg := by
  rw [argRef, argRef, alike.name, alike.number]

theorem instRef_eq {id id' : InstId} {inst other : Inst} (alike : inst.Alike m other)
    (shown : inst.name.isSome = true ∨ id' = id) : instRef id' other = instRef id inst := by
  rw [instRef, instRef, alike.name]
  cases isNamed : inst.name with
  | some name => rfl
  | none => rw [shown.resolve_left (by simp [isNamed])]

/-- No handle has a zero byte in its text.  A name is the same on both sides, and a number has
digits only. -/
theorem nulFree_instRef_iff {id id' : InstId} {inst other : Inst} (alike : inst.Alike m other) :
    NulFree (instRef id inst) ↔ NulFree (instRef id' other) := by
  rw [instRef, instRef, alike.name]
  cases inst.name with
  | some name => exact .rfl
  | none => simp only [nulFree_append_iff, nulFree_toString]

namespace Alike

variable {small large : Program} (programs : small.Alike m large)
include programs

/-! ## Constants -/

/-- Constants that are alike have the same text, with any depth that is enough for the elements of
the first of them.  Two depths are needed, because the arenas of the programs may differ in size. -/
theorem agree_constantBodyWithin {constant other : Constant} (alike : constant.Alike m other)
    {rank depth more : Nat} (listed : ∀ {type elems}, constant = .aggregate type elems →
      ∀ elem ∈ elems, elem.index < rank)
    (enough : rank < depth) (enough' : rank < more) :
    Agree Eq Eq (small.constantBodyWithin depth constant)
      (large.constantBodyWithin more other) := by
  induction depth generalizing constant other rank more with
  | zero => exact absurd enough (Nat.not_lt_zero rank)
  | succ depth ih =>
    obtain ⟨more, rfl⟩ :=
      Nat.exists_eq_add_one_of_ne_zero (Nat.ne_of_gt (Nat.zero_lt_of_lt enough'))
    cases alike with
    | int bits related =>
      rw [constantBodyWithin, constantBodyWithin]
      refine (programs.types.agree_shape related).bind fun alike => ?_
      cases alike <;> exact .pure rfl
    | float | null | undef => exact .pure rfl
    | @aggregate type other elems others related parts =>
      -- elements come before their aggregate, so both depths are enough for them, too
      have part {elem elem' : ConstId} (related : elem ∈ elems ∧ m.constant elem elem') :
          Agree Eq Eq (do
            let entry ← small.constant elem
            return small.types.text entry.type ++ " " ++ (← small.constantBodyWithin depth entry))
          (do
            let entry ← large.constant elem'
            return large.types.text entry.type ++ " "
              ++ (← large.constantBodyWithin more entry)) := by
        obtain ⟨mem, related⟩ := related
        have below := listed rfl elem mem
        obtain ⟨entry, entry', found, there, alike⟩ := programs.constants.constant related
        rw [Program.constant, Program.constant, found, there]
        have typed := programs.types.text_eq (alike.type (programs.basic (Nat.le_refl 5)))
        have body := ih alike (fun same => programs.constants.layered (same ▸ found))
          (Nat.lt_of_lt_of_le below (Nat.le_of_lt_succ enough))
          (Nat.lt_of_lt_of_le below (Nat.le_of_lt_succ enough'))
        refine body.bind fun same => ?_
        rw [same, typed]
        exact .pure rfl
      have texts := Agree.mapM_eq (List.forall₂_and_left _ _ |>.mpr ⟨fun _ mem => mem, parts⟩) part
      rw [constantBodyWithin, constantBodyWithin]
      refine (programs.types.agree_shape related).bind fun alike => ?_
      cases alike with
      | _ => exact texts.bind fun same => .pure (by rw [same])
    | global related =>
      exact (programs.global related).bind fun alike => .pure (by rw [alike.name])
    | function known =>
      exact (programs.function known).bind fun alike => .pure (by rw [alike.name])

theorem agree_constantBody {constant other : Constant} (alike : constant.Alike m other) :
    Agree Eq Eq (small.constantBody constant) (large.constantBody other) := by
  have size := programs.constants.size_le
  refine programs.agree_constantBodyWithin alike (fun {_ elems} same elem mem => ?_)
    (Nat.lt_succ_self _) (Nat.lt_succ_of_le size)
  subst same
  cases alike with
  | aggregate _ parts =>
    obtain ⟨elem', -, related⟩ := exists_mem_of_forall₂ parts mem
    exact (programs.constants.bounds related).1

theorem agree_constantText {constant other : Constant} (alike : constant.Alike m other) :
    Agree Eq Eq (small.constantText constant) (large.constantText other) :=
  (programs.agree_constantBody alike).bind fun same => .pure (by
    rw [same, programs.types.text_eq (alike.type (programs.basic (Nat.le_refl 5)))])

/-! ## Operands

A label is shown by the name of its block or by its handle, which is the same in both programs. -/

theorem agree_blockRef {id : BlockId} (known : m.block id) :
    Agree Eq Eq (small.blockRef id) (large.blockRef id) := by
  refine (programs.block known).found.bind fun {block other} ⟨alike, found⟩ => ?_
  rw [alike.label, alike.func]
  cases block.label with
  | some label => exact .pure rfl
  | none =>
    refine (programs.function (programs.owner known found)).bind fun alike => ?_
    exact .pure (by rw [alike.blocks])

/-- Operands show a result in the same way in both programs.  It is shown by its name, and by its
handle only if it has none. -/
theorem agree_value {id id' : InstId} (related : m.value id id') :
    Agree Eq (fun inst other => inst.Alike m other ∧ (inst.name.isSome = true ∨ id' = id))
      (small.inst id) (large.inst id') := by
  obtain ⟨related, shown⟩ := programs.value related
  obtain ⟨inst, other, found, there, alike⟩ := programs.inst related
  rw [found, there]
  exact .ok ⟨alike, shown found⟩

/-- By the sort of the operand: constants by their texts, everything else by its name or number.  A
result without a name is the one case in which the texts can differ. -/
theorem agree_operandRef {operand other : Operand} (alike : operand.Alike m other) :
    Agree Eq Eq (small.operandRef operand) (large.operandRef other) := by
  cases alike with
  | const related =>
    exact (programs.agree_constant related).bind fun alike => programs.agree_constantBody alike
  | arg known => exact (programs.arg known).bind fun alike => .pure (argRef_eq alike).symm
  | inst related =>
    exact (programs.agree_value related).bind fun ⟨alike, named⟩ =>
      .pure (instRef_eq alike named).symm
  | block known => exact programs.agree_blockRef known
  | text text => exact .pure rfl

/-- The text of an operand is its type and its reference.  If either is missing, it is missing in
both programs. -/
theorem agree_operandText {operand other : Operand} (alike : operand.Alike m other) :
    Agree Eq Eq (small.operandText operand) (large.operandText other) := by
  cases alike with
  | const related =>
    exact (programs.agree_constant related).bind fun alike => programs.agree_constantText alike
  | arg known =>
    exact (programs.arg known).bind fun alike => .pure (by
      rw [argRef_eq alike, programs.types.text_eq alike.type])
  | inst related =>
    exact (programs.agree_value related).bind fun ⟨alike, named⟩ => .pure (by
      rw [instRef_eq alike named, programs.types.text_eq alike.type])
  | block known => exact (programs.agree_blockRef known).bind fun same => .pure (by rw [same])
  | text text => exact .pure rfl

/-! ## Instructions -/

section

variable {operands others : List Operand} (used : List.Forall₂ (Operand.Alike m) operands others)
include used

theorem agree_operandsText :
    Agree Eq Eq (small.operandsText operands) (large.operandsText others) :=
  (Agree.mapM_eq used programs.agree_operandText).bind fun same => .pure (by rw [same])

theorem agree_headAndOperands (head : String) :
    Agree Eq Eq (small.headAndOperands head operands) (large.headAndOperands head others) :=
  (Agree.mapM_eq used programs.agree_operandText).bind fun same => .pure (by rw [same])

/-- Two operands of one type, which is written once. -/
theorem agree_pairText : Agree Eq Eq (small.pairText operands) (large.pairText others) := by
  have listed := programs.agree_operandsText used
  cases used with
  | nil => exact listed
  | cons left rest =>
    cases rest with
    | nil => exact listed
    | cons right rest =>
      cases rest with
      | cons => exact listed
      | nil =>
        exact (programs.agree_operandText left).bind fun first =>
          (programs.agree_operandRef right).bind fun second => .pure (by rw [first, second])

end

/-- The action of an instruction is spelled from its opcode, its types and its operands, and all of
these have equal texts.  The cases are those of the printer, one for each kind that it spells in its
own way. -/
theorem agree_actionText {inst other : Inst} (alike : inst.Alike m other) :
    Agree Eq Eq (small.actionText inst) (large.actionText other) := by
  obtain ⟨kind, type, operands, name, block⟩ := inst
  obtain ⟨kind', type', operands', name', block'⟩ := other
  obtain ⟨kinds, typed, used, -, -⟩ := alike
  dsimp only at kinds typed used
  have listed := programs.agree_operandsText used
  have pair := programs.agree_pairText used
  have shown : large.types.text type' = small.types.text type := programs.types.text_eq typed
  unfold actionText
  dsimp only
  rw [shown]
  -- the kinds say which texts are put together; all of these are equal by now
  cases kinds with
  | alloca related =>
    dsimp only
    rw [programs.types.text_eq related]
    exact programs.agree_headAndOperands used _
  | getElementPtr related =>
    dsimp only
    rw [programs.types.text_eq related]
    exact programs.agree_headAndOperands used _
  | plain none =>
    cases kind with
    | alloca | getElementPtr => cases none
    | load => exact programs.agree_headAndOperands used _
    | ret =>
      cases used with
      | nil => exact .pure rfl
      | cons => exact listed.bind fun same => .pure (by rw [same])
    | call =>
      have last := optionRel_getLast? used
      have rest := dropLast_of_forall₂ used
      dsimp only
      generalize operands.getLast? = callee?, operands'.getLast? = callee'? at last
      cases last with
      | none => exact .pure rfl
      | some callee =>
        exact (programs.agree_operandRef callee).bind fun first =>
          (programs.agree_operandsText rest).bind fun args => .pure (by rw [first, args])
    | br =>
      have plainly : Agree Eq Eq
          (do return "br" ++ " " ++ (← small.operandsText operands) : Except Dangling String)
          (do return "br" ++ " " ++ (← large.operandsText operands') : Except Dangling String) :=
        listed.bind fun same => .pure (by rw [same])
      cases used with
      | nil => exact .pure rfl
      | cons condition used =>
        cases used with
        | nil => exact plainly
        | cons ifFalse used =>
          cases used with
          | nil => exact plainly
          | cons ifTrue used =>
            cases used with
            | cons => exact plainly
            | nil =>
              -- the operands of a conditional branch are shown in another order than they are
              -- stored in
              have swapped := List.Forall₂.cons condition (.cons ifTrue (.cons ifFalse .nil))
              exact (programs.agree_operandsText swapped).bind fun same => .pure (by rw [same])
    | binary op => exact pair.bind fun same => .pure (by rw [same])
    | compare comparison => exact pair.bind fun same => .pure (by rw [same])
    | _ =>
      cases used with
      | nil => exact .pure rfl
      | cons => exact listed.bind fun same => .pure (by rw [same])

/-- **The text of an instruction** is the same in both programs, if the instruction has a name or no
result, or instructions have the same handles anyway.  Otherwise it has another handle in it, but no
zero byte more or less. -/
theorem agree_instText {id id' : InstId} (related : m.inst id id') {inst : Inst}
    (found : small.inst id = .ok inst) :
    Agree Eq (fun text text' => (NulFree text ↔ NulFree text')
        ∧ (m.Exact ∨ inst.name.isSome = true ∨ small.types.isVoid inst.type = .ok true →
          text = text'))
      (small.instText id) (large.instText id') := by
  rw [instText, instText]
  refine (programs.agree_inst related).found.bind fun {_ other} ⟨alike, again⟩ => ?_
  cases found.symm.trans again
  refine (programs.types.agree_isVoid alike.type).found.bind fun {isVoid _} ⟨same, known⟩ => ?_
  subst same
  refine (programs.agree_actionText alike).bind fun same => ?_
  subst same
  refine .pure ?_
  cases isVoid with
  | true => exact ⟨.rfl, fun _ => rfl⟩
  | false =>
    refine ⟨?_, fun shown => ?_⟩
    · exact nulFree_append_iff.trans ((and_congr_left fun _ =>
        nulFree_append_iff.trans ((and_congr_left fun _ => nulFree_instRef_iff alike).trans
          nulFree_append_iff.symm)).trans nulFree_append_iff.symm)
    · rw [instRef_eq alike]
      rcases shown with exact | named | void
      · exact .inr (exact.inst related)
      · exact .inl named
      · cases known.symm.trans void

end Alike

end Program

end IrStream
