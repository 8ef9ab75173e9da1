import IrStream.Proofs.Pairing.EncodeModule
import IrStream.Proofs.Pairing.Loading

/-!
# Debug instructions of documents

A document may be encoded with its debug instructions or without some of them (`encode_of_strips`).
Either way it is encoded or not, and what is encoded has the same globals, counts and positions:
nothing is left of a debug instruction but the count of skipped instructions.

A debug instruction may bring types and constants of its own into the program, and all instructions
behind it get larger handles.  So the programs of the two documents are the same only up to a
pairing of their handles (`paired_of_strips`), and what is shown here is that encoding looks at
nothing else (`Program.Alike.agree_encode`).

There is one exception.  The text of an instruction shows the instruction's result by its name, or
by its handle if it has none, and handles count debug instructions too.  So the bytes are the same
if whatever is shown as text and has a result also has a name (`Program.NamesShown`).

The proof is put together from two halves that know nothing of each other.

* **Loading** (`Pairing/Loading.lean`).  The two documents are loaded side by side, and a pairing of
  the handles grows with them.  An instruction that was deleted is paired with nothing; everything
  that it brought along stays unpaired on its side.
* **Encoding** (`Pairing/EncodeModule.lean`).  The two programs are encoded side by side, with
  tables that have paired entries at equal places.  The encoder never asks for a handle that is not
  paired, since it skips exactly the instructions that may be missing.

What `NamesShown` asks for can be decided, and the example shows that it cannot be dropped: one
frozen value without a name is enough to move a byte.
-/

set_option autoImplicit false

namespace IrStream

namespace Program

variable {program : Program}

/-- The condition is one on instructions as they stand in the program. -/
theorem namesShown_iff :
    program.NamesShown
      ↔ ∀ inst ∈ program.insts, inst.kind.isDebug = false → program.NamesEscaped inst := by
  constructor
  · intro shown inst mem
    obtain ⟨index, bound, rfl⟩ := Array.mem_iff_getElem.mp mem
    have found : program.inst ⟨index⟩ = .ok program.insts[index] :=
      inst_eq_ok_iff.mpr (Array.getElem?_eq_getElem bound)
    exact shown found
  · intro shown id inst found
    exact shown inst (Array.mem_of_getElem? (inst_eq_ok_iff.mp found))

instance (inst : Inst) : Decidable (program.NamesEscaped inst) :=
  inferInstanceAs (Decidable (_ → _ ∨ _))

instance : Decidable program.NamesShown :=
  decidable_of_iff _ namesShown_iff.symm

end Program

/-- **Debug instructions have no effect on what is encoded.**  Take a document and delete some of
its debug instructions, so that it can still be loaded.  Then both can be encoded, or none of them.
If they are, they have the same globals and the same counts but for skipped instructions, and their
streams differ at most in the texts of instructions.

If instructions that are shown as text and have a result also have a name, the bytes are the
same. -/
theorem encode_of_strips {document other : Document} (strips : document.Strips other)
    {small large : Program} (loaded : document.toProgram = .ok small)
    (loaded' : other.toProgram = .ok large) (word : WordSize) :
    ((∃ module, small.encode word = .ok module) ↔ ∃ module, large.encode word = .ok module)
      ∧ ∀ {module module'}, small.encode word = .ok module → large.encode word = .ok module' →
        module.Alike word module' ∧ (small.NamesShown → module.bytes = module'.bytes) := by
  obtain ⟨m, paired⟩ := paired_of_strips strips loaded loaded'
  have agree := paired.alike.agree_encode word paired.functions.size.symm
    fun id _ => paired.whole.function id
  exact ⟨agree.exists_iff.symm, agree.of_ok⟩

/-- A document in which an argument is frozen, which has no record and is shown as text, and then
returned. -/
def Document.freezing (first : List InstEntry) (name : Option String) : Document where
  layout := none
  structs := []
  globals := []
  functions := [{
    name := "f"
    params := [⟨some "x", .text "i32"⟩]
    ret := some (.text "i32")
    vararg := false
    blocks := [⟨none, first ++ [
      ⟨name, "freeze", some (.text "i32"), [.text "%x"], none, none, none⟩,
      ⟨none, "ret", none, [.text "%x"], none, none, none⟩]⟩] }]

/-- A debug instruction with a constant that nothing else uses. -/
def InstEntry.debugValue : InstEntry :=
  ⟨none, "dbg.value", none, [.text "i64 7", .text "!x"], none, none, none⟩

/-- The bytes are the same if the frozen value has a name. -/
theorem encode_of_strips_freezing :
    ∃ small large module module',
      (Document.freezing [] (some "y")).Strips (.freezing [.debugValue] (some "y"))
        ∧ (Document.freezing [] (some "y")).toProgram = .ok small
        ∧ (Document.freezing [.debugValue] (some "y")).toProgram = .ok large
        ∧ small.encode .eight = .ok module ∧ large.encode .eight = .ok module'
        ∧ module.Alike .eight module' ∧ module.bytes = module'.bytes := by
  have strips : (Document.freezing [] (some "y")).Strips (.freezing [.debugValue] (some "y")) :=
    ⟨rfl, rfl, rfl, .cons ⟨rfl, rfl, rfl, rfl,
      .cons ⟨rfl, .drop (by decide +kernel) (.keep rfl (.keep rfl .nil))⟩ .nil⟩ .nil⟩
  have encodes : (Document.freezing [] (some "y")).toProgram.toOption.any
      (fun small => (small.encode .eight).toOption.any fun _ => decide small.NamesShown)
        = true := by
    decide +kernel
  have loads : (Document.freezing [.debugValue] (some "y")).toProgram.toOption.any
      (fun _ => true) = true := by
    decide +kernel
  obtain ⟨small, loaded, encodes⟩ := exists_of_any_toOption encodes
  obtain ⟨module, outcome, shown⟩ := exists_of_any_toOption encodes
  obtain ⟨large, loaded', -⟩ := exists_of_any_toOption loads
  obtain ⟨same, alike⟩ := encode_of_strips strips loaded loaded' .eight
  obtain ⟨module', outcome'⟩ := same.mp ⟨module, outcome⟩
  obtain ⟨records, bytes⟩ := alike outcome outcome'
  exact ⟨small, large, module, module', strips, loaded, loaded', outcome, outcome', records,
    bytes (of_decide_eq_true shown)⟩

/-- A frozen value without a name is shown by its handle, which the debug instruction moves. -/
example :
    (do (← (Document.freezing [] none).toProgram.toOption).instText ⟨0⟩ |>.toOption)
        = some "%v0 = freeze i32 %x"
      ∧ (do (← (Document.freezing [.debugValue] none).toProgram.toOption).instText ⟨1⟩ |>.toOption)
        = some "%v1 = freeze i32 %x" := by
  decide +kernel

end IrStream
