import IrStream.Proofs.Renaming.Encode

/-!
# Appending to a program

`Program.Appends` says that a program is another one with more entries behind those of each arena.
The larger program has all entries of the other one under the same handles, so the functions that
both have are encoded step by step alike: from empty tables, to the same records, with the same keys
in the tables.  Only then does it go on with its own functions, which have later positions, and
whatever is encoded then only adds to the tables.  That a position is handed out before anything
later is known is what makes the stream of the one begin like the stream of the other
(`prefix_of_encode`).

The types of constants are registered behind those of all functions, so records of constants may
give their types other positions.

The two runs are compared in two stages.

* **While both encode the common functions** they are in step.  Keeping all handles is a renaming
  (`Renaming.refl`), and a program is like one that appends to it, so the simulation of
  `Pairing/EncodeInst.lean` applies.  Related keys are equal here, and so the tables are not only
  alike: they are the same (`Table.Alike.toList_eq`).
* **Behind that** they are not.  The larger program encodes more functions, while the other one is
  done.  From then on all that is used is that tables grow (`EncodeState.Grows`), in each run by
  itself.

What may be compared in the end is what the second stage cannot change: the bytes of the common
functions, and those columns of the later sections in which an entry depends on nothing but the
entry of the table — the payloads of constants and the names of globals.
-/

set_option autoImplicit false

namespace IrStream

open Encoding EncodeState

/-! ## Keeping all handles -/

/-- The same handles again. -/
def Renaming.refl : Renaming := ⟨id, id, id⟩

@[simp] theorem TypeShape.rename_refl (shape : TypeShape) : shape.rename .refl = shape := by
  cases shape <;> simp [rename, Renaming.refl]

@[simp] theorem Constant.rename_refl (constant : Constant) : constant.rename .refl = constant := by
  cases constant <;> simp [rename, Renaming.refl]

@[simp] theorem Operand.rename_refl (operand : Operand) : operand.rename .refl = operand := by
  cases operand <;> rfl

@[simp] theorem Inst.rename_refl (inst : Inst) : inst.rename .refl = inst := by
  obtain ⟨kind, type, operands, name, block⟩ := inst
  have same : kind.rename .refl = kind := by cases kind <;> rfl
  simp only [rename, same, Operand.rename_refl, List.map_id']
  rfl

@[simp] theorem Global.rename_refl (global : Global) : global.rename .refl = global := by
  simp [rename, Renaming.refl]

namespace Program

/-- The second program is the first one with more entries behind those of each arena. -/
structure Appends (program larger : Program) : Prop where
  /-- Sizes are computed for the same target. -/
  layout : larger.layout = program.layout
  /-- An entry keeps its place, and what is new comes behind. -/
  types : program.types.shapes.toList <+: larger.types.shapes.toList
  /-- New constants come behind the old ones. -/
  constants : program.constants.entries.toList <+: larger.constants.entries.toList
  /-- New globals come behind the old ones. -/
  globals : program.globals.toList <+: larger.globals.toList
  /-- New functions come behind the old ones. -/
  functions : program.functions.toList <+: larger.functions.toList
  /-- New blocks come behind the old ones. -/
  blocks : program.blocks.toList <+: larger.blocks.toList
  /-- New instructions come behind the old ones. -/
  insts : program.insts.toList <+: larger.insts.toList
  /-- New arguments come behind the old ones. -/
  args : program.args.toList <+: larger.args.toList

theorem resolve_of_isPrefix {α : Type} {arena larger : Array α} {index : Nat} {dangling : Dangling}
    {entry : α} (begins : arena.toList <+: larger.toList)
    (found : resolve arena index dangling = .ok entry) :
    resolve larger index dangling = .ok entry := by
  obtain ⟨more, extended⟩ := begins
  rw [resolve_eq_ok_iff, ← Array.getElem?_toList] at found ⊢
  have bound := (List.getElem?_eq_some_iff.mp found).1
  rw [← extended, List.getElem?_append_left bound, found]

namespace Appends

variable {program larger : Program} (appends : program.Appends larger)
include appends

/-- A program is embedded in one that continues it, with every handle where it was. -/
theorem embedded : program.Embedded .refl larger where
  typeInj := Function.injective_id.injOn
  constantInj := Function.injective_id.injOn
  globalInj := Function.injective_id.injOn
  basic _ := rfl
  layout := appends.layout
  shape found := by
    rw [TypeShape.rename_refl]
    exact resolve_of_isPrefix appends.types found
  constant found := by
    rw [Constant.rename_refl]
    exact resolve_of_isPrefix appends.constants found
  global found := by
    rw [Global.rename_refl]
    exact resolve_of_isPrefix appends.globals found
  function found := resolve_of_isPrefix appends.functions found
  arg found := resolve_of_isPrefix appends.args found
  block found := resolve_of_isPrefix appends.blocks found
  inst found := by
    rw [Inst.rename_refl]
    exact resolve_of_isPrefix appends.insts found

theorem functionIds_prefix : program.functionIds <+: larger.functionIds := by
  obtain ⟨more, size⟩ := Nat.exists_eq_add_of_le appends.functions.length_le
  rw [Array.length_toList, Array.length_toList] at size
  rw [functionIds, functionIds, size, List.range_add, List.map_append]
  exact List.prefix_append _ _

end Appends

end Program

/-! ## Tables with the same keys -/

/-- Tables that hold the same under the same handles are the same. -/
theorem Table.Alike.toList_eq {α : Type} {R : α → α → Prop} {table other : Table α}
    (alike : table.Alike R other) (same : ∀ {key again}, R key again → again = key) :
    other.toList = table.toList := by
  have equal : List.Forall₂ Eq table.toList other.toList := alike.imp fun _ _ h => (same h).symm
  rw [List.forall₂_eq_eq_eq] at equal
  exact equal.symm

/-- Constants that are paired by keeping all handles are the same. -/
theorem Constant.Alike.eq_of_refl {program : Program} {constant other : Constant}
    (alike : constant.Alike (Renaming.refl.pairing program) other) : other = constant := by
  have each {elems others : List ConstId}
      (parts : List.Forall₂ (Renaming.refl.pairing program).constant elems others) :
      others = elems := by
    have equal : List.Forall₂ Eq elems others := parts.imp fun _ _ same => same.2.symm
    rw [List.forall₂_eq_eq_eq] at equal
    exact equal.symm
  cases alike with
  | int _ typed | float _ typed | null typed | undef typed => rw [typed.2]; rfl
  | aggregate typed parts => rw [typed.2, each parts]; rfl
  | global related => rw [related.2]; rfl
  | function => rfl

namespace EncodeState.Alike

variable {program : Program} {s t : EncodeState} (alike : s.Alike (Renaming.refl.pairing program) t)
include alike

theorem toList_constants : t.constants.toList = s.constants.toList :=
  alike.constants.toList_eq Constant.Alike.eq_of_refl

theorem toList_globals : t.globals.toList = s.globals.toList :=
  alike.globals.toList_eq And.right

end EncodeState.Alike

/-- A step that succeeds does so in one way. -/
theorem Encoding.Yields.unique {α : Type} {step : Encoding α} {s t u : EncodeState} {a b : α}
    (first : Yields step s a t) (second : Yields step s b u) : b = a ∧ u = t := by
  have same : (Except.ok b, u) = (Except.ok a, t) := second.symm.trans first
  simpa using same

/-- Rows that are related to rows of which one begins with the other. -/
theorem prefix_of_forall₂ {α β : Type} {R S : α → β → Prop} {as cs : List α} {bs ds : List β}
    (related : List.Forall₂ R as bs) (related' : List.Forall₂ S cs ds) (begins : as <+: cs)
    (agree : ∀ {a b d}, R a b → S a d → b = d) : bs <+: ds := by
  induction related generalizing cs ds with
  | nil => exact List.nil_prefix
  | cons here _ ih =>
    cases related' with
    | nil => exact absurd (List.prefix_nil.mp begins) (List.cons_ne_nil _ _)
    | cons there others =>
      obtain ⟨rfl, rest⟩ := List.cons_prefix_cons.mp begins
      obtain rfl := agree here there
      exact List.cons_prefix_cons.mpr ⟨rfl, ih others rest⟩

/-! ## Encoding both programs -/

namespace Program

variable {program larger : Program} {word : WordSize} {s t : EncodeState}

/-- The functions that both programs have are encoded to the same records. -/
theorem Appends.agrees_encodeFunctions (appends : program.Appends larger) (built : program.Built) :
    Agrees (Renaming.refl.pairing program)
      (program.functionIds.mapM (program.encodeFunction word))
      (program.functionIds.mapM (larger.encodeFunction word)) Eq := by
  have alike := appends.embedded.alike built
  refine .mapM_eq (S := fun a b => a ∈ program.functionIds ∧ a = b)
    (List.forall₂_same.mpr fun id mem => ⟨mem, rfl⟩) ?_
  rintro id _ ⟨mem, rfl⟩
  exact (alike.agrees_encodeFunction word (lt_size_of_mem_functionIds mem)).imp
    fun same => same.2 (.inl (Renaming.exact_pairing .refl))

/-- The sections behind the functions register no constant and no global. -/
theorem sameKeys_sections {u v : EncodeState} {constants : List ConstantRecord}
    {globals : List GlobalRecord} {types : List TypeRecord} (sound : Sound program s)
    (first : Yields (program.encodeConstants word) s constants t)
    (second : Yields (program.encodeGlobals word) t globals u)
    (third : Yields (program.encodeTypes word) u types v) :
    v.constants = s.constants ∧ v.globals = s.globals := by
  have typesOnly := (encodeConstants_spec first).1
  have same := (encodeGlobals_spec second).1
  have soundThen := same.advances.sound (typesOnly.advances.sound sound)
  have unchanged := same.trans (encodeTypes_spec soundThen.closed third).1
  exact ⟨unchanged.constants.trans typesOnly.constants, unchanged.globals.trans typesOnly.globals⟩

/-- **The functions come first, and the tables only grow from there.** -/
theorem Appends.functions_prefix (appends : program.Appends larger) (built : program.Built)
    {stream stream' : Stream} (run : Yields (program.encodeStream word) .initial stream s)
    (run' : Yields (larger.encodeStream word) .initial stream' t) :
    stream.functions <+: stream'.functions
      ∧ s.constants.Grows t.constants ∧ s.globals.Grows t.globals := by
  simp only [encodeStream, yields_bind_iff, yields_sized_iff, yields_pure_iff] at run run'
  obtain ⟨_, _, ⟨-, -, rfl⟩, functions, a, first, constants, _, second, globals, _, third,
    types, _, fourth, rfl, rfl⟩ := run
  obtain ⟨_, _, ⟨-, -, rfl⟩, functions', b, first', constants', _, second', globals', _, third',
    types', _, fourth', rfl, rfl⟩ := run'
  have sound := (mapM_advances .mono encodeFunction_spec first).1.sound (.initial program)
  have sound' := (mapM_advances .mono encodeFunction_spec first').1.sound (.initial larger)
  obtain ⟨constants, globals⟩ := sameKeys_sections sound second third fourth
  obtain ⟨constants', globals'⟩ := sameKeys_sections sound' second' third' fourth'
  -- the functions of both programs, and then the others
  obtain ⟨more, split⟩ := appends.functionIds_prefix
  rw [← split, List.mapM_append] at first'
  simp only [yields_bind_iff, yields_pure_iff] at first'
  obtain ⟨both, c, common, others, _, rest, rfl, rfl⟩ := first'
  obtain ⟨_, d, again, rfl, alike⟩ :=
    (appends.agrees_encodeFunctions built).yields (.initial _) first
  obtain ⟨rfl, rfl⟩ := common.unique again
  have grows := (mapM_advances .mono encodeFunction_spec rest).1.grows
  refine ⟨List.prefix_append _ _, ?_, ?_⟩
  · rw [constants, constants', Table.Grows, ← alike.toList_constants]
    exact grows.constants
  · rw [globals, globals', Table.Grows, ← alike.toList_globals]
    exact grows.globals

/-- A constant has the same bytes in both programs. -/
theorem Appends.payload_eq (appends : program.Appends larger) {constant : Constant}
    {shape : TypeShape} (found : program.types.shape constant.type = .ok shape) :
    larger.payload constant = program.payload constant := by
  cases constant with
  | int type bits =>
    have found : program.types.shape type = .ok shape := found
    have again : larger.types.shape type = .ok shape := resolve_of_isPrefix appends.types found
    rw [payload, payload, found, again]
  | _ => rfl

end Program

/-! ## Streams -/

/-- The bytes of functions that come first stand behind the count of functions. -/
theorem Stream.Describes.bytes_of_prefix {program : Program} {word : WordSize}
    {tables : EncodeState} {stream : Stream} (describes : stream.Describes program word tables)
    {records : List FunctionRecord} (begins : records <+: stream.functions) :
    ∃ rest, stream.toBytes word = Header.current.toBytes ++ word.sizeField program.functions.size
      ++ records.flatMap (·.toBytes word) ++ rest := by
  have count := describes.functions.length_eq
  rw [Program.functionIds, List.length_map, List.length_range] at count
  obtain ⟨more, split⟩ := begins
  refine ⟨more.flatMap (·.toBytes word)
    ++ word.recordsField (·.toBytes word) stream.constants
    ++ word.recordsField (·.toBytes) stream.globals
    ++ word.recordsField (·.toBytes word) stream.types, ?_⟩
  simp only [toBytes, WordSize.recordsField, describes.header, count, ← split, List.flatMap_append,
    List.append_assoc]

namespace Program.Appends

variable {program larger : Program} {word : WordSize} {s t : EncodeState} {stream stream' : Stream}
  (appends : program.Appends larger) (describes : stream.Describes program word s)
  (describes' : stream'.Describes larger word t)
include appends describes describes'

/-- A longer table has a longer section, whose payloads begin with those of the shorter one. -/
theorem payload_prefix (sound : Sound program s) (grows : s.constants.Grows t.constants) :
    stream.constants.map (·.payload) <+: stream'.constants.map (·.payload) := by
  refine prefix_of_forall₂ (R := fun constant payload =>
      (∃ shape, program.types.shape constant.type = .ok shape)
        ∧ payload = program.payload constant)
    (S := fun constant payload => payload = larger.payload constant)
    (List.forall₂_map_right_iff.mpr (describes.constants.imp fun constant record described => ?_))
    (List.forall₂_map_right_iff.mpr (describes'.constants.imp fun _ _ => And.right)) grows ?_
  · have registered := Table.mem_iff_position?.mpr ⟨_, described.1⟩
    obtain ⟨children, listed, -⟩ := sound.closed _ registered
    obtain ⟨shape, found, -⟩ := Types.children_eq_ok_iff.mp listed
    exact ⟨⟨shape, found⟩, described.2⟩
  · rintro constant _ _ ⟨⟨shape, found⟩, rfl⟩ rfl
    exact (appends.payload_eq found).symm

theorem globals_prefix (grows : s.globals.Grows t.globals) :
    stream.globals <+: stream'.globals := by
  refine prefix_of_forall₂ describes.globals describes'.globals grows ?_
  rintro id _ _ ⟨global, found, rfl⟩ ⟨again, found', rfl⟩
  cases (resolve_of_isPrefix appends.globals found).symm.trans found'
  rfl

end Program.Appends

namespace Program

/-- `addOne` and a function behind it that adds a global to its argument. -/
def addOneAndSeed : Program where
  layout := .standard
  types := ⟨#[.void, .int 1, .int 8, .int 32, .int 64, .ptr 0, .func [.i32] .i32 false,
    .array .i8 3]⟩
  constants := ⟨#[.int .i32 1, .global ⟨0⟩]⟩
  globals := #[⟨"seed", .i32, false, some ⟨0⟩⟩]
  functions := #[⟨"addOne", ⟨6⟩, [⟨0⟩], [⟨0⟩]⟩, ⟨"addSeed", ⟨6⟩, [⟨1⟩], [⟨1⟩]⟩]
  blocks := #[⟨⟨0⟩, none, [⟨0⟩, ⟨1⟩]⟩, ⟨⟨1⟩, none, [⟨2⟩, ⟨3⟩, ⟨4⟩]⟩]
  insts := #[
    ⟨.binary .add, .i32, [.arg ⟨0⟩, .const ⟨0⟩], none, ⟨0⟩⟩,
    ⟨.ret, .void, [.inst ⟨0⟩], none, ⟨0⟩⟩,
    ⟨.load, .i32, [.const ⟨1⟩], none, ⟨1⟩⟩,
    ⟨.binary .add, .i32, [.arg ⟨1⟩, .inst ⟨2⟩], none, ⟨1⟩⟩,
    ⟨.ret, .void, [.inst ⟨3⟩], none, ⟨1⟩⟩]
  args := #[⟨⟨0⟩, 0, .i32, none⟩, ⟨⟨1⟩, 0, .i32, none⟩]

/-- The example has one function more. -/
theorem appends_addOne : addOne.Appends addOneAndSeed where
  layout := rfl
  types := ⟨[.array .i8 3], by decide⟩
  constants := ⟨[.global ⟨0⟩], by decide⟩
  globals := List.nil_prefix
  functions := ⟨[⟨"addSeed", ⟨6⟩, [⟨1⟩], [⟨1⟩]⟩], by decide⟩
  blocks := ⟨[⟨⟨1⟩, none, [⟨2⟩, ⟨3⟩, ⟨4⟩]⟩], by decide⟩
  insts := ⟨[⟨.load, .i32, [.const ⟨1⟩], none, ⟨1⟩⟩,
    ⟨.binary .add, .i32, [.arg ⟨1⟩, .inst ⟨2⟩], none, ⟨1⟩⟩,
    ⟨.ret, .void, [.inst ⟨3⟩], none, ⟨1⟩⟩], by decide⟩
  args := ⟨[⟨⟨1⟩, 0, .i32, none⟩], by decide⟩

end Program

/-- **Appending functions never disturbs what is already encoded.**  If a program and one that
appends to it can both be encoded, the bytes of the functions of the first stand unchanged behind
the count of functions of the second; its table of constants, their bytes and the names of its
globals are what those of the second begin with. -/
theorem prefix_of_encode {program larger : Program} {word : WordSize}
    {module module' : EncodedModule} (built : program.Built) (appends : program.Appends larger)
    (h : program.encode word = .ok module) (h' : larger.encode word = .ok module') :
    ∃ stream stream' rest rest',
      Stream.read? word module.bytes = some stream
      ∧ Stream.read? word module'.bytes = some stream'
      ∧ stream.functions <+: stream'.functions
      ∧ module.bytes = Header.current.toBytes ++ word.sizeField program.functions.size
        ++ stream.functions.flatMap (·.toBytes word) ++ rest
      ∧ module'.bytes = Header.current.toBytes ++ word.sizeField larger.functions.size
        ++ stream.functions.flatMap (·.toBytes word) ++ rest'
      ∧ (program.finalTables word).constants.Grows (larger.finalTables word).constants
      ∧ stream.constants.map (·.payload) <+: stream'.constants.map (·.payload)
      ∧ module.globals <+: module'.globals := by
  obtain ⟨stream, s, encoded, bytes, names, same⟩ := encodeStream_of_encode h
  obtain ⟨stream', t, encoded', bytes', names', same'⟩ := encodeStream_of_encode h'
  obtain ⟨sound, describes, fits⟩ := Program.encodeStream_spec (.initial program) encoded
  obtain ⟨-, describes', fits'⟩ := Program.encodeStream_spec (.initial larger) encoded'
  obtain ⟨functions, constants, globals⟩ := appends.functions_prefix built encoded encoded'
  obtain ⟨rest, here⟩ := describes.bytes_of_prefix (List.prefix_refl stream.functions)
  obtain ⟨rest', there⟩ := describes'.bytes_of_prefix functions
  refine ⟨stream, stream', rest, rest', bytes ▸ Stream.read?_toBytes fits,
    bytes' ▸ Stream.read?_toBytes fits', functions, bytes.trans here, bytes'.trans there, ?_,
    appends.payload_prefix describes describes' sound constants, ?_⟩
  · rw [same.constants, same'.constants]
    exact constants
  · rw [names, names']
    exact (appends.globals_prefix describes describes' globals).map _

/-- A program with one function and the same program with a second function and a global. -/
theorem prefix_of_encode_addOne :
    ∃ module module' stream stream' rest rest',
      Program.addOne.Built ∧ Program.addOne.Appends .addOneAndSeed
      ∧ Program.addOne.encode .eight = .ok module
      ∧ Program.addOneAndSeed.encode .eight = .ok module'
      ∧ Stream.read? .eight module.bytes = some stream
      ∧ Stream.read? .eight module'.bytes = some stream'
      ∧ stream.functions <+: stream'.functions
      ∧ module.bytes = Header.current.toBytes ++ WordSize.eight.sizeField 1
        ++ stream.functions.flatMap (·.toBytes .eight) ++ rest
      ∧ module'.bytes = Header.current.toBytes ++ WordSize.eight.sizeField 2
        ++ stream.functions.flatMap (·.toBytes .eight) ++ rest'
      ∧ (Program.addOne.finalTables .eight).constants.Grows
        (Program.addOneAndSeed.finalTables .eight).constants
      ∧ stream.constants.map (·.payload) <+: stream'.constants.map (·.payload)
      ∧ module.globals <+: module'.globals := by
  have encodes : (Program.addOneAndSeed.encode .eight).toOption.any (fun _ => true) = true := by
    decide +kernel
  obtain ⟨module, outcome⟩ := encode_addOne
  obtain ⟨module', outcome', -⟩ := exists_of_any_toOption encodes
  obtain ⟨stream, stream', rest, rest', found⟩ :=
    prefix_of_encode Program.built_addOne Program.appends_addOne outcome outcome'
  exact ⟨module, module', stream, stream', rest, rest', Program.built_addOne,
    Program.appends_addOne, outcome, outcome', found⟩

end IrStream
