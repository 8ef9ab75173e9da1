import IrStream.Encode.Basic
import IrStream.Proofs.Pairing.EncodeInst

/-!
# Encoding two programs that are alike

The functions, constants, globals and types of programs that are alike are encoded in the same
order, so their positions are the same.  The streams differ at most in the texts of instructions
(`Stream.Alike`), and if no instruction is shown with its handle, they do not differ at all.

There are two conclusions, one for each use of a pairing.  Instructions that one program lacks move
the handles of others, so then only that much is said (`Program.Alike.agree_encode`).  If they keep
their handles, outcome and log are the same to the last bit (`Program.Alike.encodeLogged_eq`).

The sections behind the functions are encoded from the tables, and the tables of the two runs are
alike: as long as each other, with related keys at equal positions.  So a section is a row of steps
over lists that are related one by one, and `Encoding.Agrees.mapM` is the rule for it.

That the *same order* comes out is the point of the proof, although no lemma states it.  Handles are
different, so the arenas are in different orders, but a table is filled in the order in which things
are met, and both runs meet related things at the same time.

## Statements

* `Stream.Alike`, `EncodedModule.Alike`: what streams and modules have in common if texts of
  instructions may differ.
* `agrees_encodeFunction`, `agrees_encodeConstants`, `agrees_encodeGlobals`, `agrees_encodeTypes`:
  the sections, in the order of the stream.
* `agrees_encodeStream`: all of them, from the tables that are empty to those that are counted.
* `agree_encode`, `encodeLogged_eq`: the two conclusions.
-/

set_option autoImplicit false

namespace IrStream

open Encoding

/-- The functions are the same, except for the texts of instructions. -/
structure FunctionRecord.Alike (record other : FunctionRecord) : Prop where
  name : other.name = record.name
  type : other.type = record.type
  blocks : List.Forall₂ (List.Forall₂ InstRecord.Alike) record.blocks other.blocks

/-- The streams are the same, except for the texts of instructions. -/
structure Stream.Alike (stream other : Stream) : Prop where
  /-- The headers are the same. -/
  header : other.header = stream.header
  /-- The functions are the same, except for the texts of instructions. -/
  functions : List.Forall₂ FunctionRecord.Alike stream.functions other.functions
  /-- The constants section is the same. -/
  constants : other.constants = stream.constants
  /-- The globals section is the same. -/
  globals : other.globals = stream.globals
  /-- The types section is the same. -/
  types : other.types = stream.types

/-- What is encoded is the same, except for the texts of instructions and the count of skipped
instructions. -/
structure EncodedModule.Alike (word : WordSize) (module other : EncodedModule) : Prop where
  /-- The bytes are those of streams that are alike. -/
  streams : ∃ stream stream' : Stream, stream.Alike stream' ∧ module.bytes = stream.toBytes word
    ∧ other.bytes = stream'.toBytes word
  /-- The names of the globals are the same, in the same order. -/
  globals : other.globals = module.globals
  /-- The word size is the same. -/
  word : other.word = module.word
  /-- All counts but the one of skipped instructions are the same. -/
  stats : module.stats.SameEmitted other.stats

namespace Program.Alike

variable {m : Pairing} {small large : Program} (programs : small.Alike m large) (word : WordSize)
include programs

/-! ## Functions

A function has the same handle in both programs, and its blocks are encoded one by one. -/

/-- The scope of a function is made of its arguments, blocks and locations, and related functions
have related scopes. -/
theorem agrees_encodeFunction {id : FuncId} (known : m.function id) :
    Agrees m (small.encodeFunction word id) (large.encodeFunction word id)
      fun a b => a.Alike b ∧ (m.Exact ∨ small.NamesShown → a = b) := by
  refine (Agrees.dangling (programs.function known).found).bind
    fun {function other} ⟨alike, found⟩ => ?_
  dsimp only
  rw [alike.name, alike.blocks, Function.isDeclaration, Function.isDeclaration, alike.blocks]
  refine (agrees_unterminated .rfl fun _ => rfl).bind ?_
  rintro _ _ ⟨rfl, rfl⟩
  refine (agrees_registerType programs alike.type).bind fun same => ?_
  cases same
  refine (agrees_sized word _).bind fun {type _} same => ?_
  cases same
  refine (agrees_sized word _).bind fun {count _} same => ?_
  cases same
  refine .get fun before => ?_
  have scopes : (FunctionScope.ofFunction id function).Alike m (.ofFunction id other) :=
    ⟨rfl, alike.name, by simp only [FunctionScope.ofFunction, Function.blockTable, alike.blocks],
      .nil⟩
  refine (programs.agrees_encodeBlocks scopes 0 (programs.listed known found)).bind ?_
  rintro records records' ⟨blocks, equal⟩
  refine (agrees_count (fun _ skipped => ⟨skipped, rfl⟩) fun _ => rfl).bind fun _ => ?_
  refine .get fun after => Agrees.bind (agrees_log fun exact => ?_) fun _ => ?_
  · rw [(before.exact exact).1, (after.exact exact).1]
  · exact .pure ⟨⟨rfl, rfl, blocks⟩, fun shown => by rw [equal shown]⟩

/-! ## Constants

Payloads have no handles in them, so they are equal and not only alike. -/

theorem agree_constantPayload? {constant other : Constant} (alike : constant.Alike m other) :
    Agree Eq Eq (small.constantPayload? constant) (large.constantPayload? other) := by
  cases alike with
  | int bits typed =>
    refine (programs.types.agree_shape typed).bind fun alike => ?_
    cases alike with
    | _ => exact .pure rfl
  | _ => exact .pure rfl

/-- Records of constants are equal: an index of a related type in tables that correspond, and the
same payload. -/
theorem agrees_encodeConstantRecord {constant other : Constant} (alike : constant.Alike m other) :
    Agrees m (small.encodeConstantRecord word constant) (large.encodeConstantRecord word other)
      Eq := by
  refine (Agrees.dangling (programs.agree_constantPayload? alike)).bind fun {payload? _} same => ?_
  cases same
  have record : Agrees m
      (do
        let type ← sized word (← registerType small constant.type)
        let payload := payload?.getD []
        let _ ← sized word payload.length
        return (⟨type, payload⟩ : ConstantRecord))
      (do
        let type ← sized word (← registerType large other.type)
        let payload := payload?.getD []
        let _ ← sized word payload.length
        return (⟨type, payload⟩ : ConstantRecord)) Eq := by
    refine (agrees_registerType programs (alike.type (programs.basic (by decide)))).bind
      fun same => ?_
    cases same
    refine (agrees_sized word _).bind fun same => ?_
    cases same
    exact (agrees_sized word _).bind fun _ => .pure rfl
  dsimp only
  split
  · refine (Agrees.dangling (programs.agree_constantText alike)).bind fun {text _} same => ?_
    cases same
    refine Agrees.bind (agrees_log fun _ => rfl) fun _ => ?_
    exact (agrees_count (fun _ skipped => ⟨skipped, rfl⟩) fun _ => rfl).bind fun _ => record
  · exact record

theorem agrees_encodeConstants :
    Agrees m (small.encodeConstants word) (large.encodeConstants word) Eq := by
  refine .get fun {s t} alike => ?_
  dsimp only
  rw [alike.constants.size_eq]
  exact (agrees_sized word _).bind fun _ =>
    .mapM_eq alike.constants (programs.agrees_encodeConstantRecord word)

/-! ## Globals -/

theorem agrees_encodeGlobalRecord {id other : GlobalId} (related : m.global id other) :
    Agrees m (small.encodeGlobalRecord id) (large.encodeGlobalRecord other) Eq := by
  refine (Agrees.dangling (programs.global related)).bind fun {global other} alike => ?_
  rw [alike.name, alike.threadLocal]
  exact (agrees_unterminated .rfl fun _ => rfl).bind
    fun ⟨first, second⟩ => .pure (by rw [first, second])

theorem agrees_encodeGlobals :
    Agrees m (small.encodeGlobals word) (large.encodeGlobals word) Eq := by
  refine .get fun {s t} alike => ?_
  dsimp only
  rw [alike.globals.size_eq]
  exact (agrees_sized word _).bind fun _ =>
    .mapM_eq alike.globals programs.agrees_encodeGlobalRecord

/-! ## Types

Parts of types are written as positions, which are equal; layouts of related types are equal. -/

theorem agrees_encodeTypeText {id other : TypeId} (related : m.type id other) :
    Agrees m (small.encodeTypeText id) (large.encodeTypeText other) Eq := by
  unfold encodeTypeText
  rw [programs.types.text_eq related]
  refine Agrees.bind (agrees_log fun _ => rfl) fun _ => ?_
  refine (agrees_count (fun _ skipped => ⟨skipped, rfl⟩) fun _ => rfl).bind fun _ => ?_
  exact (agrees_unterminated .rfl fun _ => rfl).bind
    fun ⟨first, second⟩ => .pure (by rw [first, second])

theorem agrees_encodeTypeIndex {id other : TypeId} (related : m.type id other) :
    Agrees m (small.encodeTypeIndex word id) (large.encodeTypeIndex word other) Eq := by
  refine (agrees_registerType programs related).bind fun same => ?_
  cases same
  exact agrees_sized word _

omit programs in
theorem agrees_encodeBitOffset (offset : Nat) :
    Agrees m (encodeBitOffset word offset) (encodeBitOffset word offset) Eq := by
  unfold encodeBitOffset
  split
  · exact .throw_bind fun _ => rfl
  · exact agrees_sized word _

/-- Records of types are equal, as they consist of indices and numbers. -/
theorem agrees_encodeTypeRecord {id other : TypeId} (related : m.type id other) :
    Agrees m (small.encodeTypeRecord word id) (large.encodeTypeRecord word other) Eq := by
  unfold encodeTypeRecord
  rw [programs.types.structLayout?_eq related, programs.types.text_eq related, programs.layout]
  refine (Agrees.dangling (programs.types.agree_shape related)).bind fun alike => ?_
  cases alike with
  | void => exact .pure rfl
  | int bits => exact .pure rfl
  | ptr addrSpace =>
    dsimp only
    split
    · exact .throw_bind fun _ => rfl
    · exact .pure rfl
  | func vararg parameters result =>
    dsimp only
    rw [parameters.length_eq]
    refine (agrees_sized word _).bind fun _ => ?_
    refine (Agrees.mapM_eq parameters (programs.agrees_encodeTypeIndex word)).bind fun same => ?_
    cases same
    exact (programs.agrees_encodeTypeIndex word result).bind fun same => .pure (by rw [same])
  | struct name packed hasBody parts =>
    refine (Agrees.dangling (.refl _)).bind fun {layout? _} same => ?_
    cases same
    cases layout? with
    | none => exact programs.agrees_encodeTypeText related
    | some layout =>
      dsimp only
      rw [parts.length_eq]
      refine (agrees_sized word _).bind fun _ => ?_
      refine (Agrees.mapM_eq parts (programs.agrees_encodeTypeIndex word)).bind fun same => ?_
      cases same
      refine (Agrees.mapM_eq (S := Eq) (List.forall₂_same.mpr fun _ _ => rfl) ?_).bind
        fun same => .pure (by rw [same])
      rintro offset _ rfl
      exact agrees_encodeBitOffset word offset
  | array | float => exact programs.agrees_encodeTypeText related

theorem agrees_encodeTypes :
    Agrees m (small.encodeTypes word) (large.encodeTypes word) Eq := by
  refine .get fun {s t} alike => ?_
  dsimp only
  rw [alike.types.size_eq]
  exact (agrees_sized word _).bind fun _ =>
    .mapM_eq alike.types (programs.agrees_encodeTypeRecord word)

/-! ## Programs -/

section

variable (size : large.functions.size = small.functions.size)
  (known : ∀ id ∈ small.functionIds, m.function id)
include size known

/-- The tables grow while functions are encoded, and the sections are written from the tables that
are left. -/
theorem agrees_encodeStream :
    Agrees m (small.encodeStream word) (large.encodeStream word)
      fun a b => a.Alike b ∧ (m.Exact ∨ small.NamesShown → a = b) := by
  have ids : large.functionIds = small.functionIds := by rw [functionIds, functionIds, size]
  unfold encodeStream
  rw [ids, size]
  refine (agrees_sized word _).bind fun _ => ?_
  have functions : Agrees m (small.functionIds.mapM (small.encodeFunction word))
      (small.functionIds.mapM (large.encodeFunction word))
      (List.Forall₂ fun a b => a.Alike b ∧ (m.Exact ∨ small.NamesShown → a = b)) := by
    refine .mapM (S := fun a b => m.function a ∧ a = b)
      (List.forall₂_same.mpr fun id mem => ⟨known id mem, rfl⟩) ?_
    rintro id _ ⟨here, rfl⟩
    exact programs.agrees_encodeFunction word here
  refine functions.bind fun functions => ?_
  refine (programs.agrees_encodeConstants word).bind fun constants => ?_
  refine (programs.agrees_encodeGlobals word).bind fun globals => ?_
  refine (programs.agrees_encodeTypes word).bind fun types => .pure ⟨?_, fun shown => ?_⟩
  · have alike : List.Forall₂ FunctionRecord.Alike _ _ := functions.imp fun _ _ same => same.1
    exact ⟨rfl, alike, constants.symm, globals.symm, types.symm⟩
  · have equal : List.Forall₂ Eq _ _ := functions.imp fun _ _ same => same.2 shown
    rw [List.forall₂_eq_eq_eq] at equal
    rw [equal, constants, globals, types]

omit programs size known in
/-- Corresponding tables have the same numbers of entries. -/
theorem agrees_countTables :
    Agrees m countTables countTables
      fun stats other => stats.SameEmitted other ∧ (m.Exact → other = stats) := by
  refine .get fun {s t} alike => ?_
  obtain ⟨skipped, counted⟩ := alike.stats
  have same : ({ s.stats with
        types := s.types.size, constants := s.constants.size, globals := s.globals.size
        : EncodeStats }).SameEmitted
      { t.stats with
        types := t.types.size, constants := t.constants.size, globals := t.globals.size } :=
    ⟨skipped, by
      rw [counted, alike.types.size_eq, alike.constants.size_eq, alike.globals.size_eq]⟩
  have equal (exact : m.Exact) : ({ t.stats with
        types := t.types.size, constants := t.constants.size, globals := t.globals.size
        : EncodeStats })
      = { s.stats with
        types := s.types.size, constants := s.constants.size, globals := s.globals.size } := by
    rw [(alike.exact exact).1, alike.types.size_eq, alike.constants.size_eq,
      alike.globals.size_eq]
  refine .set { alike with stats := same, exact := fun exact => ?_ } (.pure ⟨same, equal⟩)
  exact ⟨equal exact, (alike.exact exact).2⟩

/-- Names of globals and counts come from the tables, which correspond; the bytes come from the
stream. -/
theorem agrees_encodeModule :
    Agrees m (small.encodeModule word) (large.encodeModule word)
      fun a b => (a.Alike word b ∧ (small.NamesShown → a.bytes = b.bytes))
        ∧ (m.Exact → b = a) := by
  refine (programs.agrees_encodeStream word size known).bind
    fun {stream stream'} ⟨alike, equal⟩ => ?_
  refine agrees_countTables.bind fun {stats stats'} ⟨counted, same⟩ => ?_
  refine Agrees.bind (agrees_log fun exact => ?_) fun _ => .pure ⟨⟨?_, fun shown => ?_⟩, ?_⟩
  · rw [equal (.inl exact), same exact]
  · exact ⟨⟨stream, stream', alike, rfl, rfl⟩, congrArg (List.map _) alike.globals, rfl, counted⟩
  · exact congrArg (Stream.toBytes word) (equal (.inr shown))
  · intro exact
    rw [equal (.inl exact), same exact]

/-- **Programs that are alike are encoded alike**, or both are not encoded. -/
theorem agree_encode :
    Agree ⊤
      (fun a b => a.Alike word b ∧ (small.NamesShown → a.bytes = b.bytes)) (small.encode word)
      (large.encode word) := by
  have outcomes := programs.agrees_encodeModule word size known (.initial m)
  unfold encode encodeLogged
  generalize (small.encodeModule word).run.run .initial = first,
    (large.encodeModule word).run.run .initial = second at outcomes ⊢
  cases outcomes with
  | ok alike related => exact .ok related.1
  | error => exact .error trivial

/-- **Outcome and log are the same** if instructions keep their handles. -/
theorem encodeLogged_eq (exact : m.Exact) : large.encodeLogged word = small.encodeLogged word := by
  have outcomes := programs.agrees_encodeModule word size known (.initial m)
  unfold encodeLogged
  generalize (small.encodeModule word).run.run .initial = first,
    (large.encodeModule word).run.run .initial = second at outcomes ⊢
  cases outcomes with
  | ok alike related =>
    dsimp only
    rw [related.2 exact, (alike.exact exact).2]
  | error same =>
    dsimp only
    rw [(same exact).1, (same exact).2]

end

end Program.Alike

end IrStream
