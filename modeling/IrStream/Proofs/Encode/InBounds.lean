import IrStream.Proofs.Encode.Offset

/-!
# Paths that stay in bounds

A path into an object selects existing fields and existing elements (`Program.InBounds`).  Whatever
it reaches is a part of the object, at a place that depends only on the numbers along the path
(`Program.Part`): a part ends inside the object (`Part.inside`), and the parts at two paths are
apart unless one path goes on from the other (`Part.apart`).

Main statement: the offset of such a path is computed without wrapping around, and the bytes at it
are those of a part (`inBounds_offset`).

`Part` is the definition that carries the geometry.  It is inductive on the path, with a constructor
for the whole object, one for a field and one for an element, and each of the last two puts the
place of a smaller part behind the offset of the field or of the element.  So the two facts about
places are inductions on it:

* the field ends inside its struct and the part inside the field, which is `Part.inside`;
* for two paths that differ somewhere, the first difference is between two fields or two elements,
  which do not overlap, and what comes behind stays inside of them, which is `Part.apart`.

Both are facts about layouts with natural numbers.  That the encoder computes these numbers in 64
bits and gets the same is a consequence: an offset inside an object is below the size of the object,
and sizes are below two to the 64.
-/

set_option autoImplicit false

namespace IrStream

namespace Program

/-- The indices select existing fields and elements, by the numbers of the path. -/
inductive InBounds (program : Program) : TypeId → List Operand → List Nat → TypeId → Prop
  /-- No index: the path ends at the type. -/
  | nil (type : TypeId) : InBounds program type [] [] type
  /-- The number is the one of a field. -/
  | field {type field reached : TypeId} {shape : StructShape} {index : Operand}
      {rest : List Operand} {number : Nat} {path : List Nat}
      (found : program.types.shape type = .ok (.struct shape))
      (there : shape.fields[number]? = some field) (reads : Reads program index number)
      (later : InBounds program field rest path reached) :
      InBounds program type (index :: rest) (number :: path) reached
  /-- The number is below the length of the array. -/
  | element {type elem reached : TypeId} {length : UInt64} {index : Operand}
      {rest : List Operand} {number : Nat} {path : List Nat}
      (found : program.types.shape type = .ok (.array elem length))
      (below : number < length.toNat) (reads : Reads program index number)
      (later : InBounds program elem rest path reached) :
      InBounds program type (index :: rest) (number :: path) reached

/-- At the end of the path lie `size` bytes of the object, `offset` bytes from its start. -/
inductive Part (program : Program) : TypeId → List Nat → (offset size : Nat) → Prop
  /-- The empty path is the object, all of it. -/
  | whole {type : TypeId} {size : Nat}
      (sized : program.types.allocSize? program.layout type = .ok (some size)) :
      Part program type [] 0 size
  /-- A field begins at its offset in the layout of the struct. -/
  | field {type field : TypeId} {shape : StructShape} {layout : StructLayout} {number start : Nat}
      {path : List Nat} {offset size : Nat}
      (found : program.types.shape type = .ok (.struct shape))
      (laid : program.types.structLayout? program.layout type = .ok (some layout))
      (there : shape.fields[number]? = some field) (starts : layout.offsets[number]? = some start)
      (later : Part program field path offset size) :
      Part program type (number :: path) (start + offset) size
  /-- Elements lie one behind the other, with nothing between them. -/
  | element {type elem : TypeId} {length : UInt64} {number one : Nat} {path : List Nat}
      {offset size : Nat} (found : program.types.shape type = .ok (.array elem length))
      (sized : program.types.allocSize? program.layout elem = .ok (some one))
      (below : number < length.toNat) (later : Part program elem path offset size) :
      Part program type (number :: path) (number * one + offset) size

variable {program : Program}

/-! ## Where parts lie

No offset is computed in this section; only layouts are looked at. -/

theorem add_one_mul_le {number count : Nat} (one : Nat) (below : number < count) :
    number * one + one ≤ count * one := by
  rw [← Nat.succ_mul]
  exact Nat.mul_le_mul_right one below

/-- **A part ends inside the object.** -/
theorem Part.inside {type : TypeId} {path : List Nat} {offset size : Nat}
    (part : Part program type path offset size) {total : Nat}
    (sized : program.types.allocSize? program.layout type = .ok (some total)) :
    offset + size ≤ total := by
  induction part generalizing total with
  | whole same =>
    cases same.symm.trans sized
    exact Nat.le_of_eq (Nat.zero_add _)
  | field found laid there starts later ih =>
    obtain ⟨layout, same, rfl⟩ := Types.exists_structLayout? found sized
    cases laid.symm.trans same
    obtain ⟨room, known, inside, -⟩ := Types.field_of_structLayout? found laid there starts
    have := ih known
    omega
  | @element _ _ _ _ one _ _ _ found known below later ih =>
    obtain ⟨_, same, rfl⟩ := Types.exists_allocSize?_elem found sized
    cases known.symm.trans same
    have room := ih known
    have := add_one_mul_le one below
    rw [Nat.mul_comm one]
    omega

/-- **Parts are apart** unless the path of one goes on from that of the other.  Where the paths
part, one of them takes an earlier field or element, and stays inside of it. -/
theorem Part.apart {type : TypeId} {path other : List Nat} {offset size start room : Nat}
    (part : Part program type path offset size) (second : Part program type other start room)
    (front : ¬ path <+: other) (back : ¬ other <+: path) :
    offset + size ≤ start ∨ start + room ≤ offset := by
  induction part generalizing other start room with
  | whole => exact absurd List.nil_prefix front
  | @field _ _ _ _ number _ path _ _ found laid there starts later ih =>
    cases second with
    | whole => exact absurd List.nil_prefix back
    | @field _ _ _ _ next _ rest _ _ again laidAgain otherThere otherStarts otherLater =>
      cases found.symm.trans again
      cases laid.symm.trans laidAgain
      obtain ⟨space, known, -, before⟩ := Types.field_of_structLayout? found laid there starts
      obtain ⟨gap, otherKnown, -, otherBefore⟩ :=
        Types.field_of_structLayout? found laid otherThere otherStarts
      have inside := later.inside known
      have otherInside := otherLater.inside otherKnown
      -- different fields lie behind each other; in the same field the rest of the paths is apart
      rcases Nat.lt_trichotomy number next with less | rfl | less
      · have := before next _ less otherStarts
        omega
      · cases there.symm.trans otherThere
        cases starts.symm.trans otherStarts
        rw [List.prefix_cons_inj] at front back
        have := ih otherLater front back
        omega
      · have := otherBefore number _ less starts
        omega
    | element again => cases found.symm.trans again
  | @element _ _ _ number one path _ _ found known below later ih =>
    cases second with
    | whole => exact absurd List.nil_prefix back
    | field again => cases found.symm.trans again
    | @element _ _ _ next _ rest _ _ again otherKnown otherBelow otherLater =>
      cases found.symm.trans again
      cases known.symm.trans otherKnown
      have inside := later.inside known
      have otherInside := otherLater.inside known
      -- and so with elements, which are as far from each other as their numbers say
      rcases Nat.lt_trichotomy number next with less | rfl | less
      · have := add_one_mul_le one less
        omega
      · rw [List.prefix_cons_inj] at front back
        have := ih otherLater front back
        omega
      · have := add_one_mul_le one less
        omega

/-! ## Where paths lead -/

/-- A path in bounds leads to a part. -/
theorem InBounds.part {type reached : TypeId} {indices : List Operand} {path : List Nat}
    (inBounds : InBounds program type indices path reached) {total : Nat}
    (sized : program.types.allocSize? program.layout type = .ok (some total)) (position : Nat) :
    ∃ offset size : Nat, Part program type path offset size
      ∧ Addresses program (position + 1) type indices offset reached
      ∧ program.types.allocSize? program.layout reached = .ok (some size) := by
  induction inBounds generalizing total position with
  | nil type => exact ⟨0, total, .whole sized, .nil _ _, sized⟩
  | @field type field _ shape _ _ number path found there reads _ ih =>
    obtain ⟨layout, laid, -⟩ := Types.exists_structLayout? found sized
    have bound : number < layout.offsets.length := by
      rw [Types.length_offsets_of_structLayout? found laid]
      exact (List.getElem?_eq_some_iff.mp there).1
    have starts : layout.offsets[number]? = some layout.offsets[number] :=
      List.getElem?_eq_getElem bound
    obtain ⟨room, known, -⟩ := Types.field_of_structLayout? found laid there starts
    obtain ⟨offset, size, part, addresses, reachedSize⟩ := ih known (position + 1)
    refine ⟨layout.offsets[number] + offset, size, .field found laid there starts part, ?_,
      reachedSize⟩
    rw [Int.natCast_add]
    exact .cons reads (.field found laid there starts) addresses
  | @element type elem _ length _ _ number path found below reads _ ih =>
    obtain ⟨one, known, -⟩ := Types.exists_allocSize?_elem found sized
    obtain ⟨offset, size, part, addresses, reachedSize⟩ := ih known (position + 1)
    refine ⟨number * one + offset, size, .element found known below part, ?_, reachedSize⟩
    rw [Int.natCast_add, Int.natCast_mul]
    exact .cons reads (.element found known) addresses

/-- Behind a first index of zero, the offset of a path in bounds is the place of a part. -/
theorem InBounds.pointerOffset_eq {source reached : TypeId} {zero : Operand}
    {indices : List Operand} {path : List Nat} {total : Nat}
    (sized : program.types.allocSize? program.layout source = .ok (some total))
    (reads : Reads program zero 0) (inBounds : InBounds program source indices path reached) :
    ∃ (offset : BitVec 64) (size : Nat),
      program.pointerOffset source (zero :: indices) = .ok offset
        ∧ program.types.allocSize? program.layout reached = .ok (some size)
        ∧ Addresses program 0 source (zero :: indices) offset.toNat reached
        ∧ Part program source path offset.toNat size := by
  obtain ⟨offset, size, part, addresses, reachedSize⟩ := inBounds.part sized 0
  have whole := Addresses.cons reads (.object sized) addresses
  rw [Int.zero_mul, Int.zero_add] at whole
  have fits : offset < 2 ^ 64 := by
    have inside := part.inside sized
    have limit : total < 2 ^ 64 := Types.size_lt_sizeLimit sized
    omega
  have exact : (BitVec.ofInt 64 offset).toNat = offset := by
    rw [BitVec.ofInt_natCast, BitVec.toNat_ofNat, Nat.mod_eq_of_lt fits]
  refine ⟨BitVec.ofInt 64 offset, size, ?_, reachedSize, exact.symm ▸ whole, exact.symm ▸ part⟩
  exact pointerOffset_eq_ok_iff.mpr ⟨offset, reached, whole, rfl⟩

/-- **Paths in bounds stay inside the object and do not alias.**  Behind a first index of zero,
existing fields and existing elements have an offset.  It is the exact address, without wrapping
around, and what is reached there ends inside the object.  What is reached at two paths, neither of
which goes on from the other, has no byte in common. -/
theorem inBounds_offset {source reached : TypeId} {zero : Operand} {indices : List Operand}
    {path : List Nat} {total : Nat}
    (sized : program.types.allocSize? program.layout source = .ok (some total))
    (reads : Reads program zero 0) (inBounds : InBounds program source indices path reached) :
    ∃ (offset : BitVec 64) (size : Nat),
      program.pointerOffset source (zero :: indices) = .ok offset
        ∧ program.types.allocSize? program.layout reached = .ok (some size)
        ∧ Addresses program 0 source (zero :: indices) offset.toNat reached
        ∧ offset.toNat + size ≤ total
        ∧ ∀ otherZero otherIndices otherPath otherReached, Reads program otherZero 0 →
          InBounds program source otherIndices otherPath otherReached →
          ¬ path <+: otherPath → ¬ otherPath <+: path → ∀ (start : BitVec 64) (room : Nat),
          program.pointerOffset source (otherZero :: otherIndices) = .ok start →
          program.types.allocSize? program.layout otherReached = .ok (some room) →
          offset.toNat + size ≤ start.toNat ∨ start.toNat + room ≤ offset.toNat := by
  obtain ⟨offset, size, answer, reachedSize, addresses, part⟩ :=
    inBounds.pointerOffset_eq sized reads
  refine ⟨offset, size, answer, reachedSize, addresses, part.inside sized, ?_⟩
  intro otherZero otherIndices otherPath otherReached otherReads otherInBounds front back start room
    otherAnswer otherSize
  obtain ⟨_, _, sameAnswer, sameSize, -, second⟩ := otherInBounds.pointerOffset_eq sized otherReads
  cases otherAnswer.symm.trans sameAnswer
  cases otherSize.symm.trans sameSize
  exact part.apart second front back

/-- The last element of the array in the struct: it starts at eight, and twelve is the size of
everything. -/
theorem inBounds_offset_nested :
    nested.types.allocSize? nested.layout ⟨7⟩ = .ok (some 12)
      ∧ Reads nested (.const ⟨0⟩) 0
      ∧ InBounds nested ⟨7⟩ [.const ⟨1⟩, .const ⟨1⟩] [1, 1] .i32
      ∧ ∃ (offset : BitVec 64) (size : Nat),
        nested.pointerOffset ⟨7⟩ [.const ⟨0⟩, .const ⟨1⟩, .const ⟨1⟩] = .ok offset
          ∧ nested.types.allocSize? nested.layout .i32 = .ok (some size)
          ∧ offset.toNat + size ≤ 12 := by
  have sized : nested.types.allocSize? nested.layout ⟨7⟩ = .ok (some 12) := rfl
  have zero : Reads nested (.const ⟨0⟩) 0 :=
    @Reads.signed _ ⟨0⟩ .i32 0 32 rfl rfl (by decide) (by decide)
  have one : Reads nested (.const ⟨1⟩) (1 : Nat) :=
    @Reads.signed _ ⟨1⟩ .i32 1 32 rfl rfl (by decide) (by decide)
  have inBounds : InBounds nested ⟨7⟩ [.const ⟨1⟩, .const ⟨1⟩] [1, 1] .i32 :=
    .field rfl rfl one (.element rfl (by decide) one (.nil _))
  obtain ⟨offset, size, answer, reached, -, inside, -⟩ := inBounds_offset sized zero inBounds
  exact ⟨sized, zero, inBounds, offset, size, answer, reached, inside⟩

end Program

end IrStream
