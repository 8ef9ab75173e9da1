import IrStream.Proofs.Document.Loading
import IrStream.Proofs.Encode.Basic
import IrStream.Proofs.Encode.Scope

/-!
# Comparisons of documents

A comparison names its predicate, and `icmp` and `fcmp` look it up in the same place, the integer
predicates first.  So what decides how a float comparison is encoded is its predicate alone:

* if no integer predicate has the name, the comparison has no record, and the program is not
  encoded;
* otherwise the record is that of an integer comparison with that predicate.

The names in question are the six of signed comparisons and equality, which no float predicate has,
and the four of `isSome_ofName?_name_iff`.

The statement at the end, `floatComparison_of_toProgram`, goes all the way from the text of an entry
to the record in the stream, so the module is a chain of four links.

* **The entry.**  `Loads.exists_inst` finds the instruction of an entry.  Debug instructions have no
  place in the stream, so the place is not the index in the document but `BlockEntry.position`, the
  number of entries before it that get there.
* **The instruction.**  `LoadsInst.compare` reads the kind, the predicate and the two operands off.
* **Failure.**  `encodeInst_of_float` is the case without a wire predicate: the step of the encoder
  fails, and with it the run.
* **The record.**  `compares_of_describes` is the other case.  It does not look at the encoder at
  all; what a stream says of a program is known from `Stream.Describes`.

The module ends with a document where the second case occurs, so it is not an empty one.
-/

set_option autoImplicit false

namespace IrStream

/-! ## Predicates and their names

`Comparison.ofName?` tries the integer predicates and then those of floats.  The lists share four
names, and for these the answer is the integer predicate, no matter which opcode asked. -/

/-- The unordered orderings are called what the unsigned ones are called. -/
theorem isSome_ofName?_name_iff (predicate : FloatPredicate) :
    (IntPredicate.ofName? predicate.name).isSome ↔ predicate ∈ [.ugt, .uge, .ult, .ule] := by
  cases predicate <;> decide +kernel

namespace Comparison

variable {text : String} {comparison : Comparison}

/-- A comparison that is found by its name is called by that name. -/
theorem name_of_ofName? (h : ofName? text = some comparison) : comparison.name = text := by
  rw [ofName?] at h
  split at h
  · next predicate found =>
    cases h
    have called := List.find?_some found
    exact eq_of_beq called
  · rw [FloatPredicate.ofName?, Option.map_eq_some_iff] at h
    obtain ⟨predicate, found, rfl⟩ := h
    have called := List.find?_some found
    exact eq_of_beq called

/-- What has no wire predicate is called by no integer predicate. -/
theorem wire?_of_ofName? (h : ofName? text = some comparison) :
    comparison.wire? = IntPredicate.ofName? text := by
  rw [ofName?] at h
  split at h
  · next found =>
    cases h
    exact found.symm
  · next missing =>
    rw [Option.map_eq_some_iff] at h
    obtain ⟨predicate, -, rfl⟩ := h
    exact missing.symm

end Comparison

/-! ## Where an entry gets

An index among the entries of a block becomes a position among the records of that block.  The
counting lemma is one about lists; what makes it apply is that a loaded instruction is emitted
exactly if its entry is. -/

/-- The position, among the records of its block, of the instruction that is listed at `index`. -/
def BlockEntry.position (entry : BlockEntry) (index : Nat) : Nat :=
  (entry.insts.take index).countP InstEntry.isEmitted

/-- An element that is kept by a filter stands behind the kept ones before it. -/
theorem getElem?_filter_countP {α : Type} {keep : α → Bool} {list : List α} {index : Nat} {a : α}
    (found : list[index]? = some a) (kept : keep a = true) :
    (list.filter keep)[(list.take index).countP keep]? = some a := by
  induction list generalizing index with
  | nil => cases found
  | cons first rest ih =>
    cases index with
    | zero =>
      cases found
      simp [kept]
    | succ index =>
      have later := ih found
      by_cases emitted : keep first = true
      · simpa [emitted] using later
      · simpa [emitted] using later

namespace Program

variable {program : Program} {document : Document}

/-- Whether an instruction is emitted can be told from its entry. -/
theorem LoadsInst.isEmitted {id : InstId} {entry : InstEntry} (h : program.LoadsInst id entry) :
    program.isEmitted id = entry.isEmitted := by
  obtain ⟨inst, found, -, isKind, -⟩ := h
  rw [Program.isEmitted, found, isKind.isEmitted]

/-- An entry that gets into the stream is the instruction at its location. -/
theorem Loads.exists_inst (loads : program.Loads document) {func block index : Nat}
    {functionEntry : FunctionEntry} {blockEntry : BlockEntry} {entry : InstEntry}
    (inDocument : document.functions[func]? = some functionEntry)
    (inFunction : functionEntry.blocks[block]? = some blockEntry)
    (inBlock : blockEntry.insts[index]? = some entry) (emitted : entry.isEmitted = true) :
    ∃ function id, program.function ⟨func⟩ = .ok function ∧ function.name = functionEntry.name
      ∧ program.instAt? function ⟨block, blockEntry.position index⟩ = some id
      ∧ program.LoadsInst id entry := by
  obtain ⟨funcId, listed, function, found, named, blocks⟩ := exists_left_of_forall₂ loads inDocument
  obtain ⟨blockId, blockListed, content, there, -, insts⟩ :=
    exists_left_of_forall₂ blocks inFunction
  have filtered : List.Forall₂ program.LoadsInst (content.insts.filter program.isEmitted)
      (blockEntry.insts.filter InstEntry.isEmitted) := by
    refine List.rel_filter ?_ insts
    intro id entry loads
    simp [loads.isEmitted]
  obtain ⟨id, atPosition, loadsInst⟩ :=
    exists_left_of_forall₂ filtered (getElem?_filter_countP inBlock emitted)
  cases eq_of_getElem?_functionIds listed
  refine ⟨function, id, found, named, ?_, loadsInst⟩
  simp only [instAt?, body, List.getElem?_map, blockListed, Option.map_some, blockBody, there]
  exact atPosition

/-- A float comparison is a comparison of two operands, and is called what its entry calls it. -/
theorem LoadsInst.compare {id : InstId} {entry : InstEntry} (h : program.LoadsInst id entry)
    (op : entry.op = "fcmp") (binary : entry.args.length = 2) :
    ∃ name inst comparison left right, entry.predicate = some name
      ∧ Comparison.ofName? name = some comparison ∧ program.inst id = .ok inst
      ∧ inst.kind = .compare comparison ∧ inst.operands = [left, right] := by
  obtain ⟨inst, found, -, isKind, length⟩ := h
  obtain ⟨name, comparison, predicate, known, kind⟩ := isKind.compare_of_fcmp op
  have two : inst.operands.length = 2 := by
    rw [length, InstEntry.operandCount, op]
    exact binary
  obtain ⟨left, right, operands⟩ := List.length_eq_two.mp two
  exact ⟨name, inst, comparison, left, right, predicate, known, found, kind, operands⟩

variable {word : WordSize}

/-- The encoder stops at a comparison without a wire predicate. -/
theorem encodeInst_of_float {id : InstId} {inst : Inst} {comparison : Comparison}
    {left right : Operand} {scope : FunctionScope} {text : String}
    (found : program.inst id = .ok inst) (kind : inst.kind = .compare comparison)
    (operands : inst.operands = [left, right]) (unsupported : comparison.wire? = none)
    (shown : program.instText id = .ok text) (state : EncodeState) :
    (program.encodeInst word scope id).run.run state
      = (.error (.unsupportedPredicate scope.name comparison.name text), state) := by
  obtain ⟨_, type, _, name, block⟩ := inst
  cases kind
  cases operands
  rw [encodeInst, found]
  change (program.encodeComparison word scope id _ comparison left right).run.run state = _
  simp only [encodeComparison, unsupported, shown]
  rfl

end Program

/-- The record at a location of a function is an integer comparison. -/
def Stream.Compares (stream : Stream) (func : Nat) (here : Location) (predicate : IntPredicate) :
    Prop :=
  ∃ function record left right, stream.functions[func]? = some function
    ∧ function.instAt? here = some record ∧ record.opcode = .icmp
    ∧ record.operands = [left, .predicate predicate, right]

namespace Program

variable {program : Program} {word : WordSize}

/-- A comparison with a recipe has a wire predicate, and keeps it between its operands. -/
theorem recipe?_of_compare {id : InstId} {inst : Inst} {comparison : Comparison}
    {left right : Operand} {recipe : Recipe} (kind : inst.kind = .compare comparison)
    (operands : inst.operands = [left, right]) (made : program.recipe? id inst = some recipe) :
    ∃ predicate, comparison.wire? = some predicate
      ∧ recipe = ⟨.icmp, [.operand left, .predicate predicate, .operand right]⟩ := by
  simp only [recipe?, kind, operands] at made
  cases comparison with
  | int predicate =>
    cases made
    exact ⟨predicate, rfl, rfl⟩
  | float predicate => cases made

/-- The record of a comparison of two operands is an integer comparison. -/
theorem compares_of_describes {stream : Stream} {tables : EncodeState}
    (describes : stream.Describes program word tables) {func : Nat} {function : Function}
    (found : program.function ⟨func⟩ = .ok function) {here : Location} {id : InstId}
    (located : program.instAt? function here = some id) {inst : Inst}
    (known : program.inst id = .ok inst) {comparison : Comparison} {left right : Operand}
    (kind : inst.kind = .compare comparison) (operands : inst.operands = [left, right]) :
    ∃ predicate, comparison.wire? = some predicate ∧ stream.Compares func here predicate := by
  obtain ⟨owner, listed, described⟩ := exists_right_of_forall₂ describes.functions
    (getElem?_functionIds found)
  obtain ⟨record, located, _, recipe, again, made, follows⟩ := described.exists_record found located
  cases known.symm.trans again
  obtain ⟨predicate, wire, rfl⟩ := recipe?_of_compare kind operands made
  obtain ⟨first, tail, -, others, written⟩ := List.forall₂_cons_left_iff.mp follows.operands
  obtain ⟨middle, behind, denotes, others', rfl⟩ := List.forall₂_cons_left_iff.mp others
  obtain ⟨last, _, -, none, rfl⟩ := List.forall₂_cons_left_iff.mp others'
  cases List.forall₂_nil_left_iff.mp none
  cases denotes
  exact ⟨predicate, wire, owner, record, first, last, listed, located, follows.opcode, written⟩

end Program

/-- **Float comparisons and the stream.**  Take an `fcmp` of two operands anywhere in a document
that loads.

* If its predicate is no integer predicate, the program is not encoded: at the latest, encoding
  stops at this instruction, because of its predicate.
* If the program is encoded, the predicate is an integer predicate, and the record of the
  instruction is an integer comparison with that predicate. -/
theorem floatComparison_of_toProgram {document : Document} {program : Program}
    (loaded : document.toProgram = .ok program) {func block index : Nat}
    {functionEntry : FunctionEntry} {blockEntry : BlockEntry} {entry : InstEntry}
    (inDocument : document.functions[func]? = some functionEntry)
    (inFunction : functionEntry.blocks[block]? = some blockEntry)
    (inBlock : blockEntry.insts[index]? = some entry) (op : entry.op = "fcmp")
    (binary : entry.args.length = 2) (word : WordSize) :
    ∃ name, entry.predicate = some name
      ∧ (IntPredicate.ofName? name = none →
        (∃ error, program.encode word = .error error)
        ∧ ∃ function id, program.function ⟨func⟩ = .ok function
          ∧ program.instAt? function ⟨block, blockEntry.position index⟩ = some id
          ∧ ∀ text state, program.instText id = .ok text →
            (program.encodeInst word
                (program.scopeAt ⟨func⟩ function ⟨block, blockEntry.position index⟩) id).run.run
                state
              = (.error (.unsupportedPredicate functionEntry.name name text), state))
      ∧ ∀ module, program.encode word = .ok module →
        ∃ predicate stream, IntPredicate.ofName? name = some predicate
          ∧ Stream.read? word module.bytes = some stream
          ∧ stream.Compares func ⟨block, blockEntry.position index⟩ predicate := by
  have emitted : entry.isEmitted = true := InstEntry.isEmitted_of_mem (by simp [op])
  obtain ⟨function, id, found, named, located, loads⟩ :=
    (loads_of_toProgram loaded).exists_inst inDocument inFunction inBlock emitted
  obtain ⟨name, inst, comparison, left, right, predicate, called, known, kind, operands⟩ :=
    loads.compare op binary
  -- the name alone decides whether the comparison has a predicate of the format
  have wire := Comparison.wire?_of_ofName? called
  have encoded : ∀ module, program.encode word = .ok module →
      ∃ predicate stream, IntPredicate.ofName? name = some predicate
        ∧ Stream.read? word module.bytes = some stream
        ∧ stream.Compares func ⟨block, blockEntry.position index⟩ predicate := by
    intro module outcome
    obtain ⟨stream, read, describes, -⟩ := describes_of_encode outcome
    obtain ⟨predicate, has, compares⟩ :=
      Program.compares_of_describes describes found located known kind operands
    exact ⟨predicate, stream, wire.symm.trans has, read, compares⟩
  refine ⟨name, predicate, fun unsupported => ⟨?_, function, id, found, located, ?_⟩, encoded⟩
  · cases outcome : program.encode word with
    | error error => exact ⟨error, rfl⟩
    | ok module =>
      obtain ⟨predicate, _, has, -⟩ := encoded module outcome
      rw [unsupported] at has
      cases has
  · intro text state shown
    rw [← named, ← Comparison.name_of_ofName? called]
    exact Program.encodeInst_of_float known kind operands (wire.trans unsupported) shown state

/-- A document in which two arguments are compared by `fcmp ugt`. -/
def Document.unorderedGreater : Document where
  layout := none
  structs := []
  globals := []
  functions := [{
    name := "f"
    params := [⟨some "x", .text "double"⟩, ⟨some "y", .text "double"⟩]
    ret := none
    vararg := false
    blocks := [⟨none, [
      ⟨some "c", "fcmp", none, [.text "%x", .text "%y"], none, none, some "ugt"⟩,
      ⟨none, "ret", none, [], none, none, none⟩]⟩] }]

/-- Unordered or greater becomes greater as unsigned integers. -/
theorem floatComparison_of_unorderedGreater :
    ∃ program module stream, Document.unorderedGreater.toProgram = .ok program
      ∧ program.encode .eight = .ok module ∧ Stream.read? .eight module.bytes = some stream
      ∧ stream.Compares 0 ⟨0, 0⟩ .unsignedGreater := by
  have encodes : Document.unorderedGreater.toProgram.toOption.any
      (fun program => (program.encode .eight).toOption.any fun _ => true) = true := by
    decide +kernel
  obtain ⟨program, loaded, encodes⟩ := exists_of_any_toOption encodes
  obtain ⟨module, outcome, -⟩ := exists_of_any_toOption encodes
  have inDocument : Document.unorderedGreater.functions[0]? = some _ := rfl
  have inBlock : Document.unorderedGreater.functions[0].blocks[0].insts[0]? = some _ := rfl
  obtain ⟨name, named, -, compares⟩ :=
    @floatComparison_of_toProgram _ _ loaded 0 0 0 _ _ _ inDocument rfl inBlock rfl rfl .eight
  obtain ⟨predicate, stream, called, read, compares⟩ := compares module outcome
  cases named
  have unsigned : IntPredicate.ofName? "ugt" = some .unsignedGreater := rfl
  cases unsigned.symm.trans called
  exact ⟨program, module, stream, loaded, outcome, read, compares⟩

end IrStream
