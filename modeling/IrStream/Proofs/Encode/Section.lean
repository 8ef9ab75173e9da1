import IrStream.Proofs.Encode.Inst
import IrStream.Proofs.Types.Layout

/-!
# The sections of a stream

Functions first: they fill the tables.  The constants section then registers the types of the
constants and nothing else, so that all of its positions are in tables of final size.  When the
types section begins, the type table has with a type all that the type contains; writing the types
therefore registers nothing, and there are as many records as the count in front of them says
(`encodeTypes_spec`).

A section is written as a count and then a row of records, one for each entry of a table.  The row
is made from the table *as it is when the row begins*.  So for each section there is a question that
is not about its records: may writing them make the table longer?

* Functions are listed by the program, and their list is fixed.
* Constants register types, and never constants, though a global may have brought its initializer
  along before.  `TypesOnly` is the relation between the states around this section.
* Globals register nothing, because a global is registered with its initializer.
* Types register types.  The table is closed, so the ones that a record names are there already.

With that, the four sections are the same proof: one step answers a record that describes its entry
and leaves larger tables, and `Encoding.mapM_advances` does the row.  The last statement,
`encodeStream_spec`, describes the whole stream in the tables that encoding leaves.
-/

set_option autoImplicit false

namespace IrStream

namespace Program

open Encoding EncodeState

variable {program : Program} {word : WordSize} {func : FuncId} {function : Function}
  {s t : EncodeState}

/-! ## Functions

A function is a row of rows.  The locations that instructions refer to are those of the program, so
the records of a block can be described one at a time, each with the scope that it has where it
stands (`encodeInstAt`). -/

/-- The record of an instruction describes it, at its location. -/
theorem encodeInstAt_spec {here : Location} {id : InstId} {record : InstRecord}
    (run : Yields (program.encodeInstAt word func function here id) s record t) :
    Advances program s t ∧ program.DescribesInst t func function here id record
      ∧ record.Fits word := by
  simp only [encodeInstAt, yields_bind_iff, yields_dangling_iff, yields_pure_iff] at run
  obtain ⟨_, _, encoded, _, _, ⟨-, rfl⟩, _, _, ⟨-, rfl⟩, rfl, rfl⟩ := run
  exact encodeInst_spec encoded

/-- The records of a block describe its body from position zero, and there are as many of them as a
word can count. -/
theorem encodeBlockAt_spec {position : Nat} {id : BlockId} {records : List InstRecord}
    (run : Yields (program.encodeBlockAt word func function position id) s records t) :
    Advances program s t
      ∧ program.DescribesInsts t func function position 0 (program.blockBody id) records
      ∧ records.length ≤ word.maxValue ∧ ∀ record ∈ records, record.Fits word := by
  simp only [encodeBlockAt, yields_bind_iff, yields_dangling_iff, yields_sized_iff,
    yields_pure_iff] at run
  obtain ⟨block, _, ⟨found, rfl⟩, insts, s, ⟨emitted, rfl⟩, _, a, skipped, _, _, ⟨rfl, fits, rfl⟩,
    _, b, encoded, _, _, counted, rfl, rfl⟩ := run
  obtain ⟨advances, described, instsFit⟩ := mapM_advances .mono encodeInstAt_spec encoded
  have last : Advances program b t := (sameTables_count counted).advances
  have length := described.length_eq
  rw [List.length_zipIdx] at length
  refine ⟨((sameTables_count skipped).advances.trans advances).trans last, ?_, length ▸ fits,
    instsFit⟩
  rw [DescribesInsts, blockBody_of_emitted found emitted]
  exact described.imp fun _ _ => .mono last.grows

/-- **The record of a function describes it**, block by block. -/
theorem encodeFunction_spec {id : FuncId} {record : FunctionRecord}
    (run : Yields (program.encodeFunction word id) s record t) :
    Advances program s t ∧ program.DescribesFunction t id record ∧ record.Fits word := by
  simp only [encodeFunction, yields_bind_iff, yields_dangling_iff, yields_unterminated_iff,
    yields_sized_iff, yields_get_iff, yields_pure_iff] at run
  obtain ⟨function, _, ⟨found, rfl⟩, _, s, ⟨rfl, nameFits, rfl⟩, _, a, registered, _, _,
    ⟨rfl, typeFits, rfl⟩, _, _, ⟨rfl, countFits, rfl⟩, _, _, ⟨rfl, rfl⟩, blocks, b, encoded, _, c,
    counted, _, _, ⟨rfl, rfl⟩, _, _, logged, rfl, rfl⟩ := run
  obtain ⟨typed, position, -, -⟩ := advances_registerType registered
  rw [encodeBlocks_ofFunction] at encoded
  obtain ⟨advances, described, blocksFit⟩ := mapM_advances .mono encodeBlockAt_spec encoded
  have last : Advances program b t :=
    ((sameTables_count counted).trans (sameTables_log logged)).advances
  have length := described.length_eq
  rw [List.length_zipIdx] at length
  refine ⟨(typed.trans advances).trans last, ⟨function, found, rfl, ?_, ?_⟩, ?_⟩
  · exact (advances.trans last).grows.types.position? position
  · rw [body, List.zipIdx_map, List.forall₂_map_left_iff]
    exact described.imp fun _ _ => .mono last.grows
  · exact ⟨nameFits, typeFits, length ▸ countFits, fun block mem => (blocksFit block mem).1,
      fun block mem => (blocksFit block mem).2⟩

/-! ## Constants

The tables of constants and globals are finished when this section begins.  Only the types of the
constants may still be new, and registering them is what every record of the section does first. -/

/-- What writing constants makes of the state: types may be new, nothing else is. -/
structure TypesOnly (program : Program) (s t : EncodeState) : Prop where
  advances : Advances program s t
  constants : t.constants = s.constants
  globals : t.globals = s.globals

/-- A state is left as it is. -/
theorem TypesOnly.refl (s : EncodeState) : program.TypesOnly s s :=
  ⟨.refl s, rfl, rfl⟩

/-- Steps that add types only, one after the other. -/
theorem TypesOnly.trans {u : EncodeState} (first : program.TypesOnly s t)
    (second : program.TypesOnly t u) : program.TypesOnly s u :=
  ⟨first.advances.trans second.advances, second.constants.trans first.constants,
    second.globals.trans first.globals⟩

/-- A step that leaves the tables alone adds no types either. -/
theorem TypesOnly.of_sameTables (same : s.SameTables t) : program.TypesOnly s t :=
  ⟨same.advances, same.constants, same.globals⟩

/-- The payload in the record is the payload of the constant; a constant without one has an empty
payload. -/
theorem constantPayload?_eq_ok {constant : Constant} {payload? : Option (List UInt8)}
    (h : program.constantPayload? constant = .ok payload?) :
    payload?.getD [] = program.payload constant := by
  unfold constantPayload? at h
  split at h
  · next type bits =>
    simp only [intPayload?, bind_eq_ok_iff] at h
    obtain ⟨shape, found, h⟩ := h
    rw [payload, found]
    split at h
    · cases h
      rfl
    · next notInt =>
      cases h
      split
      · next same =>
        cases same
        exact absurd rfl (notInt _)
      · rfl
  · next notInt =>
    cases h
    unfold payload
    split
    · exact absurd rfl (notInt _ _)
    · rfl

/-- The record of a constant is its type and its payload. -/
theorem encodeConstantRecord_spec {constant : Constant} {record : ConstantRecord}
    (run : Yields (program.encodeConstantRecord word constant) s record t) :
    program.TypesOnly s t ∧ program.DescribesConstant t constant record ∧ record.Fits word := by
  rw [encodeConstantRecord] at run
  simp only [yields_bind_iff, yields_dangling_iff] at run
  obtain ⟨payload?, _, ⟨found, rfl⟩, run⟩ := run
  have written : ∀ {a}, Yields (do
      let type ← sized word (← registerType program constant.type)
      let _ ← sized word (payload?.getD []).length
      return (⟨type, payload?.getD []⟩ : ConstantRecord)) a record t →
      program.TypesOnly a t ∧ program.DescribesConstant t constant record ∧ record.Fits word := by
    intro a run
    simp only [yields_bind_iff, yields_sized_iff, yields_pure_iff] at run
    obtain ⟨_, _, registered, _, _, ⟨rfl, typeFits, rfl⟩, _, _, ⟨rfl, countFits, rfl⟩, rfl, rfl⟩ :=
      run
    obtain ⟨advances, position, constants, globals⟩ := advances_registerType registered
    exact ⟨⟨advances, constants, globals⟩, ⟨position, constantPayload?_eq_ok found⟩,
      typeFits, countFits⟩
  split at run
  · rw [yields_bind_iff] at run
    obtain ⟨text, _, shown, run⟩ := run
    obtain ⟨-, rfl⟩ := yields_dangling_iff.mp shown
    rw [yields_bind_iff] at run
    obtain ⟨_, _, logged, run⟩ := run
    rw [yields_bind_iff] at run
    obtain ⟨_, _, counted, run⟩ := run
    obtain ⟨typesOnly, described, fits⟩ := written run
    have noted := (sameTables_log logged).trans (sameTables_count counted)
    exact ⟨(TypesOnly.of_sameTables noted).trans typesOnly, described, fits⟩
  · exact written run

/-- **The constants section.**  It registers the types of the constants. -/
theorem encodeConstants_spec {records : List ConstantRecord}
    (run : Yields (program.encodeConstants word) s records t) :
    program.TypesOnly s t
      ∧ List.Forall₂ (program.DescribesConstant t) t.constants.toList records
      ∧ records.length ≤ word.maxValue ∧ ∀ record ∈ records, record.Fits word := by
  simp only [encodeConstants, yields_bind_iff, yields_get_iff, yields_sized_iff] at run
  obtain ⟨_, _, ⟨rfl, rfl⟩, _, _, ⟨rfl, fits, rfl⟩, run⟩ := run
  obtain ⟨typesOnly, all⟩ := mapM_spec program.TypesOnly
    (fun tables constant record =>
      program.DescribesConstant tables constant record ∧ record.Fits word)
    .refl .trans (fun typesOnly h => ⟨h.1.mono typesOnly.advances.grows, h.2⟩)
    (fun _ _ => encodeConstantRecord_spec) run
  have length := all.length_eq
  rw [Table.length_toList] at length
  rw [typesOnly.constants]
  exact ⟨typesOnly, all.imp fun _ _ => And.left, length ▸ fits, forall_of_forall₂ all And.right⟩

/-! ## Globals

The name of a global is no part of its record.  It comes with the bytes. -/

/-- The record of a global is its name and whether it is local to a thread. -/
theorem encodeGlobalRecord_spec {id : GlobalId} {record : GlobalRecord}
    (run : Yields (program.encodeGlobalRecord id) s record t) :
    s.SameTables t ∧ program.DescribesGlobal id record ∧ record.Fits := by
  simp only [encodeGlobalRecord, yields_bind_iff, yields_dangling_iff, yields_unterminated_iff,
    yields_pure_iff] at run
  obtain ⟨global, _, ⟨found, rfl⟩, _, _, ⟨rfl, free, rfl⟩, rfl, rfl⟩ := run
  exact ⟨.refl _, ⟨global, found, rfl⟩, free⟩

/-- **The globals section.** -/
theorem encodeGlobals_spec {records : List GlobalRecord}
    (run : Yields (program.encodeGlobals word) s records t) :
    s.SameTables t ∧ List.Forall₂ program.DescribesGlobal t.globals.toList records
      ∧ records.length ≤ word.maxValue ∧ ∀ record ∈ records, record.Fits := by
  simp only [encodeGlobals, yields_bind_iff, yields_get_iff, yields_sized_iff] at run
  obtain ⟨_, _, ⟨rfl, rfl⟩, _, _, ⟨rfl, fits, rfl⟩, run⟩ := run
  obtain ⟨same, all⟩ := mapM_spec SameTables
    (fun _ id record => program.DescribesGlobal id record ∧ record.Fits)
    .refl .trans (fun _ h => h) (fun _ _ => encodeGlobalRecord_spec) run
  have length := all.length_eq
  rw [Table.length_toList] at length
  rw [same.globals]
  exact ⟨same, all.imp fun _ _ => And.left, length ▸ fits, forall_of_forall₂ all And.right⟩

/-! ## Types

A record of this section holds nothing but positions of types, or a text.  The positions are looked
up in a table that is closed under parts, so no step changes the tables, and the lemmas say so with
`SameTables`. -/

/-- A type without a record of its own is written as its text. -/
theorem encodeTypeText_spec {id : TypeId} {record : TypeRecord}
    (run : Yields (program.encodeTypeText id) s record t) :
    s.SameTables t ∧ record = .unimplemented (program.types.text id) ∧ record.Fits word := by
  simp only [encodeTypeText, yields_bind_iff, yields_unterminated_iff, yields_pure_iff] at run
  obtain ⟨_, _, logged, _, _, counted, _, _, ⟨rfl, free, rfl⟩, rfl, rfl⟩ := run
  exact ⟨(sameTables_log logged).trans (sameTables_count counted), rfl, free⟩

/-- A type that is in the table is looked up and not registered. -/
theorem encodeTypeIndex_spec {id : TypeId} {index : Nat} (known : id ∈ s.types)
    (run : Yields (program.encodeTypeIndex word id) s index t) :
    s.SameTables t ∧ t.types.position? id = some index ∧ index ≤ word.maxValue := by
  simp only [encodeTypeIndex, yields_bind_iff, yields_sized_iff] at run
  obtain ⟨_, _, registered, rfl, fits, rfl⟩ := run
  obtain ⟨same, position⟩ := sameTables_registerType known registered
  exact ⟨same, position, fits⟩

/-- The positions of types in a row, all of them in the table. -/
theorem encodeTypeIndices_spec {ids : List TypeId} {indices : List Nat}
    (known : ∀ id ∈ ids, id ∈ s.types)
    (run : Yields (ids.mapM (program.encodeTypeIndex word)) s indices t) :
    s.SameTables t ∧ DescribesTypes t ids indices ∧ ∀ index ∈ indices, index ≤ word.maxValue := by
  obtain ⟨same, all⟩ := mapM_spec SameTables
    (fun tables id index => tables.types.position? id = some index ∧ index ≤ word.maxValue)
    .refl .trans (fun same h => ⟨same.types ▸ h.1, h.2⟩)
    (fun mem same => encodeTypeIndex_spec (same.types ▸ known _ mem)) run
  exact ⟨same, all.imp fun _ _ => And.left, forall_of_forall₂ all And.right⟩

/-- A byte offset is written in bits, if that many can be counted. -/
theorem encodeBitOffset_spec {offset bits : Nat}
    (run : Yields (encodeBitOffset word offset) s bits t) :
    t = s ∧ bits = offset * 8 ∧ bits ≤ word.maxValue := by
  rw [encodeBitOffset] at run
  split at run
  · simp at run
  · obtain ⟨rfl, fits, rfl⟩ := yields_sized_iff.mp run
    exact ⟨rfl, rfl, fits⟩

/-- Offsets are written in bits, and registering is not needed for them. -/
theorem encodeBitOffsets_spec {offsets bits : List Nat}
    (run : Yields (offsets.mapM (encodeBitOffset word)) s bits t) :
    t = s ∧ bits = offsets.map (· * 8) ∧ ∀ bit ∈ bits, bit ≤ word.maxValue := by
  obtain ⟨same, all⟩ := mapM_spec (fun a b => b = a)
    (fun _ offset bits => bits = offset * 8 ∧ bits ≤ word.maxValue)
    (fun _ => rfl) (fun h₁ h₂ => h₂.trans h₁) (fun _ h => h) (fun _ _ => encodeBitOffset_spec) run
  refine ⟨same, ?_, forall_of_forall₂ all And.right⟩
  have scaled : List.Forall₂ Eq (offsets.map (· * 8)) bits :=
    List.forall₂_map_left_iff.mpr (all.imp fun _ _ h => h.1.symm)
  rw [List.forall₂_eq_eq_eq] at scaled
  exact scaled.symm

/-- The record of a type whose parts are all in the table. -/
theorem encodeTypeRecord_spec {id : TypeId} {record : TypeRecord}
    (parts : program.types.ChildrenIn s.types id)
    (run : Yields (program.encodeTypeRecord word id) s record t) :
    s.SameTables t ∧ program.DescribesType t word id record ∧ record.Fits word := by
  rw [encodeTypeRecord] at run
  simp only [yields_bind_iff, yields_dangling_iff] at run
  obtain ⟨shape, _, ⟨found, rfl⟩, run⟩ := run
  obtain ⟨children, listed, known⟩ := parts
  obtain ⟨_, again, rfl⟩ := Types.children_eq_ok_iff.mp listed
  cases found.symm.trans again
  cases shape with
  | void =>
    obtain ⟨rfl, rfl⟩ := yields_pure_iff.mp run
    exact ⟨.refl _, .void found, trivial⟩
  | int bits =>
    obtain ⟨rfl, rfl⟩ := yields_pure_iff.mp run
    exact ⟨.refl _, .int found, trivial⟩
  | ptr addrSpace =>
    simp only at run
    split at run
    · simp at run
    · next width =>
      obtain ⟨rfl, rfl⟩ := yields_pure_iff.mp run
      exact ⟨.refl _, .ptr found (not_not.mp width), trivial⟩
  | float kind =>
    obtain ⟨same, rfl, fits⟩ := encodeTypeText_spec run
    exact ⟨same, .float found, fits⟩
  | array elem length =>
    obtain ⟨same, rfl, fits⟩ := encodeTypeText_spec run
    exact ⟨same, .array found, fits⟩
  | func params ret vararg =>
    simp only [yields_bind_iff, yields_sized_iff, yields_pure_iff] at run
    obtain ⟨_, _, ⟨rfl, countFits, rfl⟩, positions, a, first, index, _, second, rfl, rfl⟩ := run
    obtain ⟨before, parameters, positionsFit⟩ := encodeTypeIndices_spec
      (fun id mem => known id (List.mem_cons_of_mem _ mem)) first
    obtain ⟨after, result, indexFits⟩ := encodeTypeIndex_spec
      (before.types ▸ known ret List.mem_cons_self) second
    exact ⟨before.trans after, .func found (parameters.mono after.grows) result,
      parameters.length_eq ▸ countFits, positionsFit, indexFits⟩
  -- a struct without a layout is shown as text, any other one has as many offsets as fields
  | struct shape =>
    simp only [yields_bind_iff, yields_dangling_iff] at run
    obtain ⟨layout?, _, ⟨laidOut, rfl⟩, run⟩ := run
    cases layout? with
    | none =>
      obtain ⟨same, rfl, fits⟩ := encodeTypeText_spec run
      exact ⟨same, .bodiless found laidOut, fits⟩
    | some layout =>
      simp only [yields_bind_iff, yields_sized_iff, yields_pure_iff] at run
      obtain ⟨_, _, ⟨rfl, countFits, rfl⟩, positions, a, first, bits, _, second, rfl, rfl⟩ := run
      obtain ⟨same, fields, positionsFit⟩ := encodeTypeIndices_spec known first
      obtain ⟨rfl, rfl, bitsFit⟩ := encodeBitOffsets_spec second
      have paired := Types.length_offsets_of_structLayout? found laidOut
      refine ⟨same, .struct found laidOut fields, fields.length_eq ▸ countFits, positionsFit, ?_,
        bitsFit⟩
      rw [List.length_map, paired]
      exact fields.length_eq

/-- **The types section.**  In a table that is closed under parts it registers nothing. -/
theorem encodeTypes_spec {records : List TypeRecord} (closed : program.types.Closed s.types)
    (run : Yields (program.encodeTypes word) s records t) :
    s.SameTables t ∧ List.Forall₂ (program.DescribesType t word) t.types.toList records
      ∧ records.length ≤ word.maxValue ∧ ∀ record ∈ records, record.Fits word := by
  simp only [encodeTypes, yields_bind_iff, yields_get_iff, yields_sized_iff] at run
  obtain ⟨_, _, ⟨rfl, rfl⟩, _, _, ⟨rfl, fits, rfl⟩, run⟩ := run
  obtain ⟨same, all⟩ := mapM_spec SameTables
    (fun tables id record => program.DescribesType tables word id record ∧ record.Fits word)
    .refl .trans (fun same h => ⟨h.1.mono same.grows, h.2⟩)
    (fun mem same => encodeTypeRecord_spec (same.types ▸ closed _ mem)) run
  have length := all.length_eq
  rw [Table.length_toList] at length
  rw [same.types]
  exact ⟨same, all.imp fun _ _ => And.left, length ▸ fits, forall_of_forall₂ all And.right⟩

/-! ## The whole stream

The four sections in a row.  What was described in earlier tables is still described in the ones
that encoding leaves, because tables only grow. -/

/-- **The stream describes the program**, in the tables that encoding leaves. -/
theorem encodeStream_spec {stream : Stream} (sound : Sound program s)
    (run : Yields (program.encodeStream word) s stream t) :
    Sound program t ∧ stream.Describes program word t ∧ stream.Fits word := by
  simp only [encodeStream, yields_bind_iff, yields_sized_iff, yields_pure_iff] at run
  obtain ⟨_, _, ⟨rfl, countFits, rfl⟩, functions, a, first, constants, b, second, globals, c, third,
    types, _, fourth, rfl, rfl⟩ := run
  obtain ⟨advances, functions, functionsFit⟩ := mapM_advances .mono encodeFunction_spec first
  obtain ⟨typesOnly, constants, constantCount, constantsFit⟩ := encodeConstants_spec second
  obtain ⟨same, globals, globalCount, globalsFit⟩ := encodeGlobals_spec third
  have soundThen : Sound program c :=
    same.advances.sound (typesOnly.advances.sound (advances.sound sound))
  obtain ⟨same', types, typeCount, typesFit⟩ := encodeTypes_spec soundThen.closed fourth
  have unchanged := same.trans same'
  have length := functions.length_eq
  rw [functionIds, List.length_map, List.length_range] at length
  refine ⟨same'.advances.sound soundThen, ⟨rfl, ?_, ?_, ?_, types⟩, ?_⟩
  · exact functions.imp fun _ _ => .mono (typesOnly.advances.grows.trans unchanged.grows)
  · rw [unchanged.constants]
    exact constants.imp fun _ _ => .mono unchanged.grows
  · rw [same'.globals]
    exact globals
  · exact ⟨length ▸ countFits, functionsFit, constantCount, constantsFit, globalCount, globalsFit,
      typeCount, typesFit⟩

end Program

end IrStream
