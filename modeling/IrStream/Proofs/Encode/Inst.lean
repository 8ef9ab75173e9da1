import IrStream.Proofs.Encode.Growth
import IrStream.Proofs.Encode.Scope

/-!
# Records of instructions

What the steps of `IrStream.Encode.Inst` write if they succeed: an operand record denotes its
operand, and an instruction record follows the recipe of its instruction.  Each lemma has the same
three parts: the tables only grew, the record denotes what it should in the tables as they are then,
and its numbers and texts fit their fields.

For an operand the three parts are one definition, `Carries`.  It is stated of an operand *source*
rather than of an operand, since a record may also hold a type, an offset or a text that is no
operand of the instruction.

For a recipe it is stated of the whole list of operands.  A recipe is a list of sources, and the
encoder of a recipe is a step that writes a list of records; `Writes` says that the two lists match.
So there is one lemma about records in general (`encodeRecord_spec`), and the recipes differ only in
which sources they have.  A recipe that does not apply falls back to the text of the instruction,
and that is the same lemma once more, with one source.

## Statements

* `encodeOperand_spec`: **the record of an operand denotes it**, wherever the instruction stands.
* `encodeRecord_spec`: a record is made by a recipe if its operands are.
* `encodeAlloca_spec`, `encodePtrAdd_spec`, `encodeComparison_spec`, `encodeUnimplemented_spec`: the
  recipes that do more than keep operands.
* `encodeInst_spec`: **the record of an instruction is made by its recipe.**
-/

set_option autoImplicit false

namespace IrStream

namespace Program

open Encoding EncodeState

/-- A record denotes its source, and its fields hold it.  The first says what it means, and the
second that the bytes can say it. -/
def Carries (program : Program) (word : WordSize) (func : FuncId) (function : Function)
    (here : Location) (tables : EncodeState) (source : OperandSource) (record : OperandRecord) :
    Prop :=
  program.Denotes tables func function here source record ∧ record.Fits word

variable {program : Program} {word : WordSize} {func : FuncId} {function : Function}
  {here : Location} {s t : EncodeState}

/-- What a record denotes it denotes in larger tables, and what fits its fields does not depend on
the tables.  So a record that was written early is right for the finished tables. -/
theorem Carries.mono {tables larger : EncodeState} {source : OperandSource} {record : OperandRecord}
    (advances : Advances program tables larger)
    (h : program.Carries word func function here tables source record) :
    program.Carries word func function here larger source record :=
  ⟨h.1.mono advances.grows, h.2⟩

/-! ## Operands

By the sort of the operand.  A global, a constant and a type are registered while they are written,
so the tables grow; all other operands are written without touching them.  The position that is
written is the one that the table has then, and it is still that one in all later tables. -/

/-- An operand without a location is never written.  This is what makes the cases below end where an
instruction has no location. -/
theorem undefinedValue_fails {α : Type} {scope : FunctionScope} {operand : Operand} {value : α} :
    ¬ Yields (program.undefinedValue scope operand) s value t := by
  simp [undefinedValue]

/-- A constant is registered and its position written.  The position fits its field, or the step
fails. -/
theorem encodeConstant_spec (program : Program) {constant : Constant} {record : OperandRecord}
    (run : Yields (encodeConstant word constant) s record t) :
    Advances program s t ∧ ∃ index, record = .constant index
      ∧ t.constants.position? constant = some index ∧ index ≤ word.maxValue := by
  simp only [encodeConstant, yields_bind_iff, yields_sized_iff, yields_pure_iff] at run
  obtain ⟨_, _, registered, _, _, ⟨rfl, fits, rfl⟩, rfl, rfl⟩ := run
  obtain ⟨advances, position⟩ := advances_registerConstant registered
  exact ⟨advances, _, rfl, position, fits⟩

/-- A type is registered with its parts and its position written.  Its parts come behind it in the
table. -/
theorem encodeTypeOperand_spec {type : TypeId} {record : OperandRecord}
    (run : Yields (program.encodeTypeOperand word type) s record t) :
    Advances program s t ∧ program.Carries word func function here t (.type type) record := by
  simp only [encodeTypeOperand, yields_bind_iff, yields_sized_iff, yields_pure_iff] at run
  obtain ⟨_, _, registered, _, _, ⟨rfl, fits, rfl⟩, rfl, rfl⟩ := run
  obtain ⟨advances, position, -, -⟩ := advances_registerType registered
  exact ⟨advances, .type position, fits⟩

/-- A text is written as it is, if it has a field.  A text with a zero byte could not be read back,
and is refused. -/
theorem encodeText_spec (word : WordSize) {text : String} {record : OperandRecord}
    (run : Yields (encodeText text) s record t) :
    t = s ∧ record = .unimplemented text ∧ record.Fits word := by
  simp only [encodeText, yields_bind_iff, yields_unterminated_iff, yields_pure_iff] at run
  obtain ⟨_, _, ⟨rfl, free, rfl⟩, rfl, rfl⟩ := run
  exact ⟨rfl, rfl, free⟩

/-- **The record of an operand denotes it**, wherever the instruction stands.  There is a case for
each sort of operand, and for the results of instructions one for each way to be out of reach. -/
theorem encodeOperand_spec {operand : Operand} {record : OperandRecord}
    (run : Yields (program.encodeOperand word (program.scopeAt func function here) operand)
      s record t) :
    Advances program s t ∧ program.Carries word func function here t (.operand operand) record := by
  cases operand with
  | const id =>
    simp only [encodeOperand, yields_bind_iff, yields_dangling_iff] at run
    obtain ⟨constant, _, ⟨found, rfl⟩, run⟩ := run
    split at run
    · simp only [yields_bind_iff, yields_sized_iff, yields_pure_iff] at run
      obtain ⟨_, _, registered, _, _, ⟨rfl, fits, rfl⟩, rfl, rfl⟩ := run
      obtain ⟨advances, position⟩ := advances_registerGlobal registered
      exact ⟨advances, .global found position, fits⟩
    · split at run
      · next position =>
        simp only [yields_bind_iff, yields_sized_iff, yields_pure_iff] at run
        obtain ⟨_, _, ⟨rfl, fits, rfl⟩, rfl, rfl⟩ := run
        exact ⟨.refl _, .function found position, fits⟩
      · simp at run
    · next notGlobal notFunction =>
      have plain : ¬ constant.IsAddress := by
        cases constant <;> simp_all [Constant.IsAddress]
      obtain ⟨advances, index, rfl, position, fits⟩ := encodeConstant_spec program run
      exact ⟨advances, .constant found plain position, fits⟩
  | arg id =>
    simp only [encodeOperand, yields_bind_iff, yields_dangling_iff] at run
    obtain ⟨arg, _, ⟨found, rfl⟩, run⟩ := run
    split at run
    · simp [undefinedValue_fails] at run
    · next owner =>
      simp only [yields_bind_iff, yields_sized_iff, yields_pure_iff] at run
      obtain ⟨_, _, ⟨rfl, fits, rfl⟩, rfl, rfl⟩ := run
      exact ⟨.refl _, .arg found (not_not.mp owner), fits⟩
  -- the record is a location, and it was recorded for this very instruction before
  | inst id =>
    simp only [encodeOperand] at run
    split at run
    · exact (undefinedValue_fails run).elim
    · next there known =>
      obtain ⟨located, earlier, hasResult⟩ := find?_locationsBefore known
      simp only [yields_bind_iff, yields_sized_iff, yields_pure_iff] at run
      obtain ⟨_, _, ⟨rfl, blockFits, rfl⟩, _, _, ⟨rfl, instFits, rfl⟩, rfl, rfl⟩ := run
      exact ⟨.refl _, .inst located earlier hasResult, blockFits, instFits⟩
  | block id =>
    simp only [encodeOperand] at run
    split at run
    · next position =>
      simp only [yields_bind_iff, yields_sized_iff, yields_pure_iff] at run
      obtain ⟨_, _, ⟨rfl, fits, rfl⟩, rfl, rfl⟩ := run
      exact ⟨.refl _, .block position, fits⟩
    · simp at run
  | text text =>
    simp only [encodeOperand, yields_bind_iff] at run
    obtain ⟨_, _, logged, _, _, counted, run⟩ := run
    obtain ⟨rfl, rfl, fits⟩ := encodeText_spec word run
    exact ⟨((sameTables_log logged).trans (sameTables_count counted)).advances, .text, fits⟩

/-! ## Recipes

One lemma for each recipe of the encoder.  Each of them also says which recipe the program has for
the instruction, as `Program.recipe?` computes it without the encoder. -/

/-- What a step that writes the operands of a recipe guarantees.  Every recipe has a step like this,
so the record around it is treated once. -/
def Writes (program : Program) (word : WordSize) (func : FuncId) (function : Function)
    (here : Location) (sources : List OperandSource) (step : Encoding (List OperandRecord)) :
    Prop :=
  ∀ {s t records}, Yields step s records t → Advances program s t
    ∧ List.Forall₂ (program.Carries word func function here t) sources records

/-- Operands that are written one by one match the operands of the recipe.  By the lemma for one
operand, carried through the row. -/
theorem writes_operands (operands : List Operand) :
    program.Writes word func function here (operands.map .operand)
      (operands.mapM (program.encodeOperand word (program.scopeAt func function here))) := by
  intro s t records run
  have spec := mapM_spec (Advances program)
    (fun tables operand => program.Carries word func function here tables (.operand operand))
    .refl .trans .mono (fun _ _ => encodeOperand_spec) run
  exact ⟨spec.1, List.forall₂_map_left_iff.mpr spec.2⟩

/-- A record is made by a recipe if its operands are.  The type is registered first, then the count
is checked, and then the operands are written. -/
theorem encodeRecord_spec {type : TypeId} (recipe : Recipe) {count : Nat}
    {operands : Encoding (List OperandRecord)} {record : InstRecord}
    (counted : recipe.sources.length = count)
    (writes : program.Writes word func function here recipe.sources operands)
    (run : Yields (program.encodeRecord word type recipe.opcode count operands) s record t) :
    Advances program s t ∧ program.Follows t func function here type recipe record
      ∧ record.Fits word := by
  simp only [encodeRecord, yields_bind_iff, yields_sized_iff] at run
  obtain ⟨index, a, registered, _, _, ⟨rfl, typeFits, rfl⟩, run⟩ := run
  split at run
  · simp at run
  · next small =>
    simp only [yields_bind_iff, yields_pure_iff] at run
    obtain ⟨records, _, written, rfl, rfl⟩ := run
    obtain ⟨typed, position, -, -⟩ := advances_registerType registered
    obtain ⟨advances, carries⟩ := writes written
    refine ⟨typed.trans advances, ⟨advances.grows.types.position? position, rfl,
      carries.imp fun _ _ => And.left⟩, typeFits, ?_,
      forall_of_forall₂ carries And.right⟩
    rw [← carries.length_eq, counted]
    omega

/-- An instruction that keeps its operands has the recipe that says so.  Most kinds are of this
sort. -/
theorem encodeOperands_spec {type : TypeId} {opcode : Opcode} {operands : List Operand}
    {record : InstRecord}
    (run : Yields (program.encodeOperands word (program.scopeAt func function here) type opcode
      operands) s record t) :
    Advances program s t
      ∧ program.Follows t func function here type (.ofOperands opcode operands) record
      ∧ record.Fits word :=
  encodeRecord_spec _ (by simp [Recipe.ofOperands]) (writes_operands operands) run

/-- An instruction without an opcode is written as its own text, which is the one operand of the
record.  The text is the one that the program shows, with its operands. -/
theorem encodeUnimplemented_spec {id : InstId} {inst : Inst} {record : InstRecord}
    (run : Yields (program.encodeUnimplemented word (program.scopeAt func function here) id inst)
      s record t) :
    Advances program s t ∧ record.Fits word ∧ ∃ recipe, program.escape? id = some recipe
      ∧ program.Follows t func function here inst.type recipe record := by
  simp only [encodeUnimplemented, yields_bind_iff, yields_dangling_iff] at run
  obtain ⟨text, _, ⟨shown, rfl⟩, _, a, logged, _, b, counted, run⟩ := run
  have writes : program.Writes word func function here [.text text]
      (do return [← encodeText text]) := by
    intro s t records run
    simp only [yields_bind_iff, yields_pure_iff] at run
    obtain ⟨_, _, written, rfl, rfl⟩ := run
    obtain ⟨rfl, rfl, fits⟩ := encodeText_spec word written
    exact ⟨.refl _, .cons ⟨.snapshot, fits⟩ .nil⟩
  obtain ⟨advances, follows, fits⟩ := encodeRecord_spec
    ⟨.unimplemented, [.text text]⟩ rfl writes run
  have noted := (sameTables_log logged).trans (sameTables_count counted)
  exact ⟨noted.advances.trans advances, fits, _, by simp [escape?, shown, Except.toOption], follows⟩

/-- A count is the only operand of its allocation, and an integer constant.  Any other allocation is
escaped. -/
theorem allocaCount?_eq_ok {operands : List Operand} {count : Operand}
    (h : program.allocaCount? operands = .ok (some count)) :
    operands = [count] ∧ program.isIntConstant count = .ok true := by
  unfold allocaCount? at h
  split at h
  · simp only [bind_eq_ok_iff, pure_eq_ok_iff] at h
    obtain ⟨isConstant, tested, h⟩ := h
    cases isConstant with
    | false => cases h
    | true =>
      cases h
      exact ⟨rfl, tested⟩
  · cases h

/-- An allocation keeps the type that it allocates and the count. -/
theorem encodeAlloca_spec {id : InstId} {inst : Inst} {allocated : TypeId} {record : InstRecord}
    (run : Yields (program.encodeAlloca word (program.scopeAt func function here) id inst allocated)
      s record t) :
    Advances program s t ∧ record.Fits word ∧ ∃ count, inst.operands = [count]
      ∧ program.isIntConstant count = .ok true
      ∧ program.Follows t func function here inst.type ⟨.alloca, [.type allocated, .operand count]⟩
        record := by
  simp only [encodeAlloca, yields_bind_iff, yields_dangling_iff] at run
  obtain ⟨count?, _, ⟨counted, rfl⟩, run⟩ := run
  cases count? with
  | none => simp at run
  | some count =>
    have writes : program.Writes word func function here [.type allocated, .operand count] (do
        let allocated ← program.encodeTypeOperand word allocated
        return [allocated, ← program.encodeOperand word (program.scopeAt func function here)
          count]) := by
      intro s t records run
      simp only [yields_bind_iff, yields_pure_iff] at run
      obtain ⟨_, a, first, _, b, second, rfl, rfl⟩ := run
      obtain ⟨before, type⟩ := encodeTypeOperand_spec first
      obtain ⟨after, operand⟩ := encodeOperand_spec second
      exact ⟨before.trans after, .cons (type.mono after) (.cons operand .nil)⟩
    obtain ⟨advances, follows, fits⟩ := encodeRecord_spec
      ⟨.alloca, [.type allocated, .operand count]⟩ rfl writes run
    obtain ⟨alone, constant⟩ := allocaCount?_eq_ok counted
    exact ⟨advances, fits, count, alone, constant, follows⟩

/-- The offset is computed from the program alone, so the tables stay as they are.  If the indices
do not fold, the step fails with what is wrong at the first of them. -/
theorem encodeOffset_spec {scope : FunctionScope} {id : InstId} {source : TypeId}
    {indices : List Operand} {offset : BitVec 64}
    (run : Yields (program.encodeOffset scope id source indices) s offset t) :
    t = s ∧ program.pointerOffset source indices = .ok offset := by
  rw [encodeOffset] at run
  split at run
  · next found =>
    obtain ⟨rfl, rfl⟩ := yields_pure_iff.mp run
    exact ⟨rfl, found⟩
  all_goals simp at run

/-- A pointer keeps its base and gets the offset that its indices fold to.  The offset is a constant
of the stream, and is registered like the others. -/
theorem encodePtrAdd_spec {id : InstId} {inst : Inst} {source : TypeId} {base : Operand}
    {indices : List Operand} {record : InstRecord}
    (run : Yields (program.encodePtrAdd word (program.scopeAt func function here) id inst source
      base indices) s record t) :
    Advances program s t ∧ record.Fits word ∧ ∃ offset,
      program.pointerOffset source indices = .ok offset
      ∧ program.Follows t func function here inst.type
        ⟨.ptrAdd, [.operand base, .constant (offsetConstant offset)]⟩ record := by
  simp only [encodePtrAdd, yields_bind_iff] at run
  obtain ⟨offset, _, folded, run⟩ := run
  obtain ⟨rfl, found⟩ := encodeOffset_spec folded
  have writes : program.Writes word func function here
      [.operand base, .constant (offsetConstant offset)] (do
        let base ← program.encodeOperand word (program.scopeAt func function here) base
        return [base, ← encodeConstant word (offsetConstant offset)]) := by
    intro s t records run
    simp only [yields_bind_iff, yields_pure_iff] at run
    obtain ⟨_, a, first, _, b, second, rfl, rfl⟩ := run
    obtain ⟨before, operand⟩ := encodeOperand_spec first
    obtain ⟨after, index, rfl, position, fits⟩ := encodeConstant_spec program second
    exact ⟨before.trans after, .cons (operand.mono after) (.cons ⟨.entry position, fits⟩ .nil)⟩
  obtain ⟨advances, follows, fits⟩ := encodeRecord_spec
    ⟨.ptrAdd, [.operand base, .constant (offsetConstant offset)]⟩ rfl writes run
  exact ⟨advances, fits, offset, found, follows⟩

/-- A comparison keeps its two operands, with the predicate between them.  If the format has no such
predicate, the step fails. -/
theorem encodeComparison_spec {id : InstId} {inst : Inst} {comparison : Comparison}
    {left right : Operand} {record : InstRecord}
    (run : Yields (program.encodeComparison word (program.scopeAt func function here) id inst
      comparison left right) s record t) :
    Advances program s t ∧ record.Fits word ∧ ∃ predicate, comparison = .int predicate
      ∧ program.Follows t func function here inst.type
        ⟨.icmp, [.operand left, .predicate predicate, .operand right]⟩ record := by
  cases comparison with
  | float predicate => simp [encodeComparison, Comparison.wire?] at run
  | int predicate =>
    have writes : program.Writes word func function here
        [.operand left, .predicate predicate, .operand right] (do
          let left ← program.encodeOperand word (program.scopeAt func function here) left
          return [left, .predicate predicate,
            ← program.encodeOperand word (program.scopeAt func function here) right]) := by
      intro s t records run
      simp only [yields_bind_iff, yields_pure_iff] at run
      obtain ⟨_, a, first, _, b, second, rfl, rfl⟩ := run
      obtain ⟨before, first⟩ := encodeOperand_spec first
      obtain ⟨after, second⟩ := encodeOperand_spec second
      exact ⟨before.trans after,
        .cons (first.mono after) (.cons ⟨.predicate, trivial⟩ (.cons second .nil))⟩
    obtain ⟨advances, follows, fits⟩ := encodeRecord_spec
      ⟨.icmp, [.operand left, .predicate predicate, .operand right]⟩ rfl writes run
    exact ⟨advances, fits, predicate, rfl, follows⟩

/-! ## Instructions

The cases are those of `encodeInst`, and each of them has been dealt with under recipes. -/

/-- **The record of an instruction is made by its recipe.**  By the cases of `Program.recipe?`, each
of which is one of the lemmas above. -/
theorem encodeInst_spec {id : InstId} {record : InstRecord}
    (run : Yields (program.encodeInst word (program.scopeAt func function here) id) s record t) :
    Advances program s t ∧ program.DescribesInst t func function here id record
      ∧ record.Fits word := by
  simp only [encodeInst, yields_bind_iff, yields_dangling_iff] at run
  obtain ⟨inst, s, ⟨found, rfl⟩, run⟩ := run
  have kept : ∀ {opcode operands},
      Yields (program.encodeOperands word (program.scopeAt func function here) inst.type opcode
        operands) s record t →
      program.recipe? id inst = some (.ofOperands opcode operands) →
      Advances program s t ∧ program.DescribesInst t func function here id record
        ∧ record.Fits word := by
    intro opcode operands run made
    obtain ⟨advances, follows, fits⟩ := encodeOperands_spec run
    exact ⟨advances, ⟨inst, _, found, made, follows⟩, fits⟩
  have escaped :
      Yields (program.encodeUnimplemented word (program.scopeAt func function here) id inst)
        s record t →
      program.recipe? id inst = program.escape? id →
      Advances program s t ∧ program.DescribesInst t func function here id record
        ∧ record.Fits word := by
    intro run made
    obtain ⟨advances, fits, recipe, shown, follows⟩ := encodeUnimplemented_spec run
    exact ⟨advances, ⟨inst, recipe, found, made.trans shown, follows⟩, fits⟩
  split at run
  · next kind => exact kept run (by simp [recipe?, kind])
  · next kind => exact kept run (by simp [recipe?, kind])
  · next kind => exact kept run (by simp [recipe?, kind])
  · next kind => exact kept run (by simp [recipe?, kind])
  · next op kind => exact kept run (by simp [recipe?, kind])
  · next allocated kind =>
    obtain ⟨advances, fits, count, operands, constant, follows⟩ := encodeAlloca_spec run
    exact ⟨advances, ⟨inst, _, found, by simp [recipe?, kind, operands, constant], follows⟩, fits⟩
  · next kind operands => exact kept run (by simp [recipe?, kind, operands, Recipe.ofOperands])
  · next kind operands => exact kept run (by simp [recipe?, kind, operands])
  · next kind =>
    split at run
    · next callee last => exact kept run (by simp [recipe?, kind, last])
    · next none => exact escaped run (by simp [recipe?, kind, none])
  · next source base indices kind operands =>
    obtain ⟨advances, fits, offset, folded, follows⟩ := encodePtrAdd_spec run
    exact ⟨advances, ⟨inst, _, found, by simp [recipe?, kind, operands, folded], follows⟩, fits⟩
  · next comparison left right kind operands =>
    obtain ⟨advances, fits, predicate, rfl, follows⟩ := encodeComparison_spec run
    exact ⟨advances, ⟨inst, _, found, by simp [recipe?, kind, operands], follows⟩, fits⟩
  · refine escaped run ?_
    rw [recipe?]
    split <;> simp_all

end Program

end IrStream
