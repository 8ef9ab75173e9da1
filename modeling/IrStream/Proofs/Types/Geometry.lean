import IrStream.Proofs.Types.Room

/-!
# The geometry of layouts

Sizes are multiples of alignments, and fields lie one behind the other at multiples of theirs
(`Types.Tiles`).  What is said of a struct is read off its exact layout (`laid_of_structLayout?`):
there the offsets are `Placed`, each of them rounded up from where the field before it ends.

The alignment of a struct is the largest one of its fields, which need not be a multiple of the
others.  If all pointers have a power of two as their size, every alignment is a power of two
(`isPowerOfTwo_of_extentWithin`), and of two powers of two the smaller one divides the larger one.
Then each step of a path through unpacked structs and arrays (`Types.Descends`) adds a multiple of
the alignment that is reached in the end.

The module is about layouts as they are in the end, and nothing is computed in it.  The exact layout
(`Types/Room.lean`) says of each offset that it is the least multiple of something behind something;
from that one reads off that it is a multiple, that it is behind, and that no whole unit fits in the
gap.  For the statements about alignments that is all there is to do.

What needs a hypothesis is divisibility between *different* alignments.  A struct with fields of
alignments four and six has alignment six and puts its first field at zero, which is fine, and an
array of such structs puts it at six as well.  Alignments of integers and floating-point types are
powers of two, but that of a pointer is its size, which the target description is free to choose.
`DataLayout.PowersOfTwo` asks for powers of two there, and excludes the case.
-/

set_option autoImplicit false

namespace IrStream

/-- Where the fields begin, and behind them where the struct ends.  So the end of the struct can be
treated as if a field of no size began there. -/
def StructLayout.bounds (layout : StructLayout) : List Nat :=
  layout.offsets ++ [layout.size]

namespace Types

/-- The fields of a struct lie one behind the other in its layout. -/
structure Tiles (types : Types) (target : DataLayout) (shape : StructShape)
    (layout : StructLayout) : Prop where
  /-- Every field has an offset. -/
  offsets : layout.offsets.length = shape.fields.length
  /-- Nothing lies before the first field. -/
  first : layout.bounds[0]? = some 0
  /-- A field ends before the next one begins, and the last one before the struct ends.  Nothing
  lies between them in a packed struct. -/
  ends : ∀ {number : Nat} {field : TypeId} {start next : Nat},
    shape.fields[number]? = some field → layout.bounds[number]? = some start →
    layout.bounds[number + 1]? = some next →
    ∃ size, types.allocSize? target field = .ok (some size) ∧ start + size ≤ next
      ∧ (shape.packed = true → start + size = next)
  /-- The size is a multiple of the alignment. -/
  multiple : layout.align ∣ layout.size
  /-- A field begins at a multiple of its alignment. -/
  aligned : shape.packed = false → ∀ {number : Nat} {field : TypeId} {start : Nat},
    shape.fields[number]? = some field → layout.offsets[number]? = some start →
    ∃ align, types.abiAlign? target field = .ok (some align) ∧ max align 1 ∣ start

/-- The alignment of an unpacked struct is a multiple of the alignment of each of its fields.  A
packed struct has the alignment one, whatever its fields are. -/
def AlignsFields (types : Types) (target : DataLayout) (shape : StructShape)
    (layout : StructLayout) : Prop :=
  shape.packed = false → ∀ field ∈ shape.fields,
    ∃ align, types.abiAlign? target field = .ok (some align) ∧ align ∣ layout.align

/-- Fields of unpacked structs and elements of arrays lead from a type to another that lies `bytes`
bytes on.  They are an integer, since an index may be negative. -/
inductive Descends (types : Types) (target : DataLayout) : TypeId → Int → TypeId → Prop
  /-- A type leads to itself. -/
  | here (id : TypeId) : Descends types target id 0 id
  /-- A field begins at its offset, and leads on from there. -/
  | field {id part reached : TypeId} {shape : StructShape} {layout : StructLayout}
      {number start : Nat} {bytes : Int} (found : types.shape id = .ok (.struct shape))
      (unpacked : shape.packed = false)
      (laid : types.structLayout? target id = .ok (some layout))
      (there : shape.fields[number]? = some part) (starts : layout.offsets[number]? = some start)
      (later : Descends types target part bytes reached) :
      Descends types target id (start + bytes) reached
  /-- An element begins at a multiple of its size, which may be negative. -/
  | element {id part reached : TypeId} {length : UInt64} {one : Nat} {bytes : Int} (index : Int)
      (found : types.shape id = .ok (.array part length))
      (sized : types.allocSize? target part = .ok (some one))
      (later : Descends types target part bytes reached) :
      Descends types target id (index * one + bytes) reached

end Types

/-! ## Offsets that are placed

Placing rounds up, so what was placed is a multiple of its alignment. -/

theorem IsRoundedUp.dvd {value align result : Nat} (rounded : IsRoundedUp value align result) :
    max align 1 ∣ result :=
  rounded.1.1

theorem IsRoundedUp.eq_of_one {value result : Nat} (rounded : IsRoundedUp value 1 result) :
    result = value := by
  rw [isRoundedUp_iff.mp rounded, roundUp, if_pos (Nat.le_refl 1)]

theorem roundUp_zero (align : Nat) : roundUp 0 align = 0 := by
  rw [roundUp]
  split
  · rfl
  · next large => rw [Nat.div_eq_of_lt (by omega), Nat.zero_mul]

namespace Placed

variable {packed : Bool} {stop last size : Nat} {rooms : List Room} {offsets : List Nat}

/-- Behind `stop` bytes comes the first of the fields or the end of the struct.  In a packed struct
there is no gap in front of it. -/
theorem exists_next (placed : Placed packed stop rooms offsets last) (ends : last ≤ size) :
    ∃ next, (offsets ++ [size])[0]? = some next ∧ stop ≤ next
      ∧ (packed = true → size = last → next = stop) := by
  cases placed with
  | nil => exact ⟨size, rfl, ends, fun _ same => same⟩
  | @cons _ start _ room rest offsets rounded =>
    refine ⟨start, rfl, rounded.1.2, fun isPacked _ => ?_⟩
    rw [Room.alignIn, if_pos isPacked] at rounded
    exact rounded.eq_of_one

/-- Nothing lies before the first field, or before the end of a struct without fields.  A struct
without fields has size zero, since zero rounded up is zero. -/
theorem first {align : Nat} (placed : Placed packed 0 rooms offsets last)
    (rounded : IsRoundedUp last align size) : (offsets ++ [size])[0]? = some 0 := by
  cases placed with
  | nil => rw [isRoundedUp_iff.mp rounded, roundUp_zero]; rfl
  | cons start => rw [isRoundedUp_iff.mp start, roundUp_zero]; rfl

/-- Each field ends before what comes next.  In a packed struct it ends exactly there. -/
theorem ends (placed : Placed packed stop rooms offsets last) (ends : last ≤ size)
    {number start next : Nat} {room : Room} (there : rooms[number]? = some room)
    (starts : (offsets ++ [size])[number]? = some start)
    (behind : (offsets ++ [size])[number + 1]? = some next) :
    start + room.size ≤ next ∧ (packed = true → size = last → start + room.size = next) := by
  induction placed generalizing number with
  | nil => cases there
  | cons rounded rest ih =>
    cases number with
    | succ number => exact ih ends there starts behind
    | zero =>
      cases there
      cases starts
      obtain ⟨first, same, le, tight⟩ := rest.exists_next ends
      cases same.symm.trans behind
      exact ⟨le, fun isPacked atEnd => (tight isPacked atEnd).symm⟩

/-- A field that is placed starts at a multiple of its alignment. -/
theorem dvd (placed : Placed packed stop rooms offsets last) {number start : Nat} {room : Room}
    (there : rooms[number]? = some room) (starts : offsets[number]? = some start) :
    max (room.alignIn packed) 1 ∣ start := by
  induction placed generalizing number with
  | nil => cases there
  | cons rounded rest ih =>
    cases number with
    | succ number => exact ih there starts
    | zero =>
      cases there
      cases starts
      exact rounded.dvd

end Placed

theorem le_foldl_max {values : List Nat} {least : Nat} :
    least ≤ values.foldl max least ∧ ∀ value ∈ values, value ≤ values.foldl max least := by
  induction values generalizing least with
  | nil => exact ⟨Nat.le_refl _, fun _ mem => nomatch mem⟩
  | cons value rest ih =>
    obtain ⟨below, all⟩ := @ih (max least value)
    refine ⟨Nat.le_trans (Nat.le_max_left ..) below, List.forall_mem_cons.mpr ⟨?_, all⟩⟩
    exact Nat.le_trans (Nat.le_max_right ..) below

/-- The fields of a packed struct are not aligned.  It is the reason why a packed struct has no
padding at its end either. -/
theorem largestAlign_packed (rooms : List Room) : largestAlign true rooms = 1 := by
  have unaligned : rooms.map (·.alignIn true) = List.replicate rooms.length 1 :=
    List.map_eq_replicate_iff.mpr fun _ _ => rfl
  rw [largestAlign, unaligned]
  induction rooms.length with
  | zero => rfl
  | succ count ih => exact ih

/-- The size of a struct is rounded up in the end.  The alignment may be zero if a pointer has no
size, and then everything is a multiple of one. -/
theorem dvd_of_placeFields {packed : Bool} {offset align : Nat} {fields : List Extent}
    {layout : StructLayout} (placed : placeFields packed offset align fields = .ok layout) :
    max layout.align 1 ∣ layout.size := by
  induction fields generalizing offset align layout with
  | nil =>
    rw [(placeFields_nil_eq_ok_iff.mp placed).2]
    exact (isRoundedUp_roundUp offset align).dvd
  | cons field rest ih =>
    obtain ⟨_, _, _, _, others, -, -, -, -, more, rfl⟩ := placeFields_cons_eq_ok_iff.mp placed
    show max others.align 1 ∣ others.size
    exact ih more

/-! ## Powers of two

Of two powers of two the smaller one divides the larger.  This is the only fact about them that is
used, and it turns a comparison of alignments into divisibility. -/

theorem isPowerOfTwo_max {first second : Nat} (one : first.isPowerOfTwo)
    (two : second.isPowerOfTwo) : (max first second).isPowerOfTwo := by
  rcases Nat.le_total first second with le | le
  · rwa [Nat.max_eq_right le]
  · rwa [Nat.max_eq_left le]

theorem dvd_of_isPowerOfTwo {small large : Nat} (one : small.isPowerOfTwo)
    (two : large.isPowerOfTwo) (le : small ≤ large) : small ∣ large := by
  obtain ⟨low, rfl⟩ := one
  obtain ⟨high, rfl⟩ := two
  exact Nat.pow_dvd_pow 2 ((Nat.pow_le_pow_iff_right (by decide)).mp le)

/-- A struct takes the largest alignment of its fields, so if theirs are powers of two, this is one
as well.  The largest of two powers of two is one of them. -/
theorem isPowerOfTwo_of_placeFields {packed : Bool} {offset align : Nat} {fields : List Extent}
    {layout : StructLayout} (start : align.isPowerOfTwo)
    (each : ∀ field ∈ fields, ∀ {align}, field.align = .ok align → align.isPowerOfTwo)
    (placed : placeFields packed offset align fields = .ok layout) :
    layout.align.isPowerOfTwo := by
  induction fields generalizing offset align layout with
  | nil =>
    rw [(placeFields_nil_eq_ok_iff.mp placed).2]
    exact start
  | cons field rest ih =>
    obtain ⟨first, others⟩ := List.forall_mem_cons.mp each
    obtain ⟨_, _, _, _, behind, aligned, -, -, -, more, rfl⟩ :=
      placeFields_cons_eq_ok_iff.mp placed
    show behind.align.isPowerOfTwo
    refine ih (isPowerOfTwo_max start ?_) others more
    split at aligned
    · exact ⟨0, (Except.ok.inj aligned).symm⟩
    · exact first aligned

/-- Integers are aligned to one, two, four, eight or sixteen bytes. -/
theorem isPowerOfTwo_intAlign (bytes : Nat) : (intAlign bytes).isPowerOfTwo := by
  rw [intAlign]
  split
  · exact ⟨0, rfl⟩
  split
  · exact ⟨1, rfl⟩
  split
  · exact ⟨2, rfl⟩
  split
  · exact ⟨3, rfl⟩
  · exact ⟨4, rfl⟩

theorem isPowerOfTwo_align (kind : FloatKind) : kind.align.isPowerOfTwo := by
  cases kind with
  | half => exact ⟨1, rfl⟩
  | single => exact ⟨2, rfl⟩
  | double => exact ⟨3, rfl⟩
  | extended | quad => exact ⟨4, rfl⟩

/-- Pointers have a power of two as their size in every address space.  The sizes are read from a
document, so they may be any numbers. -/
def DataLayout.PowersOfTwo (target : DataLayout) : Prop :=
  ∀ addrSpace, (target.pointerBytes addrSpace).toNat.isPowerOfTwo

namespace Types

variable {types : Types} {target : DataLayout} {id : TypeId}

theorem isPowerOfTwo_of_layoutWith {extent : TypeId → Extent} {shape : StructShape}
    {layout : StructLayout} (each : ∀ field ∈ shape.fields, ∀ {align},
      (extent field).align = .ok align → align.isPowerOfTwo)
    (laid : layoutWith extent shape = .ok layout) : layout.align.isPowerOfTwo := by
  refine isPowerOfTwo_of_placeFields ⟨0, rfl⟩ (fun field mem _ known => ?_)
    (layoutWith_eq_ok_iff.mp laid).2
  obtain ⟨part, listed, rfl⟩ := List.mem_map.mp mem
  exact each part listed known

/-- **Every alignment is a power of two** if the pointer sizes are.  By induction on the depth; a
struct and an array take theirs from what is in them. -/
theorem isPowerOfTwo_of_extentWithin (pointers : target.PowersOfTwo) {depth align : Nat}
    (aligned : (types.extentWithin target depth id).align = .ok align) : align.isPowerOfTwo := by
  induction depth generalizing id align with
  | zero => cases aligned
  | succ depth ih =>
    cases found : types.shape id with
    | error handle =>
      rw [extentWithin, found] at aligned
      cases aligned
    | ok shape =>
      cases shape with
      | void | func =>
        rw [extentWithin, found] at aligned
        cases aligned
      | int bits =>
        rw [extentWithin, found] at aligned
        cases Except.ok.inj aligned
        exact isPowerOfTwo_intAlign _
      | ptr addrSpace =>
        rw [extentWithin, found] at aligned
        cases Except.ok.inj aligned
        exact pointers addrSpace
      | float kind =>
        rw [extentWithin, found] at aligned
        cases Except.ok.inj aligned
        exact isPowerOfTwo_align kind
      | array elem length =>
        rw [extentWithin_array found] at aligned
        exact ih aligned
      | struct shape =>
        rw [extentWithin_struct found] at aligned
        cases laid : layoutWith (types.extentWithin target depth) shape with
        | error reason => simp [Extent.ofLayout, laid, Except.map] at aligned
        | ok layout =>
          rw [laid] at aligned
          cases Except.ok.inj aligned
          exact isPowerOfTwo_of_layoutWith (fun _ _ _ known => ih known) laid

/-! ## Alignments and sizes -/

theorem abiAlign?_eq_some_iff {align : Nat} :
    types.abiAlign? target id = .ok (some align) ↔
      (types.extent target id).align = .ok align := by
  rw [abiAlign?]
  constructor
  · exact orNone_eq_some
  · intro h
    rw [h, orNone]

/-- What is known of a type whose extent is that of a room.  The two queries are the two halves of
the extent. -/
theorem known_of_extent {room : Room} (same : types.extent target id = room.extent) :
    types.abiAlign? target id = .ok (some room.align)
      ∧ types.allocSize? target id = .ok (some room.size) :=
  ⟨abiAlign?_eq_some_iff.mpr (by rw [same]; rfl), allocSize?_eq_some_iff.mpr (by rw [same]; rfl)⟩

/-- A type that has a size has an alignment, too.  The other way round it may fail: an array can be
too large to have a size. -/
theorem exists_abiAlign? {size : Nat} (sized : types.allocSize? target id = .ok (some size)) :
    ∃ align, types.abiAlign? target id = .ok (some align) := by
  obtain ⟨align, aligned⟩ := exists_align_of_size (allocSize?_eq_some_iff.mp sized)
  exact ⟨align, abiAlign?_eq_some_iff.mpr aligned⟩

/-- **Sizes are multiples of alignments.**  An array is a row of elements whose sizes are multiples
already. -/
theorem dvd_of_extentWithin {depth align size : Nat}
    (aligned : (types.extentWithin target depth id).align = .ok align)
    (sized : (types.extentWithin target depth id).size = .ok size) : max align 1 ∣ size := by
  induction depth generalizing id align size with
  | zero => cases sized
  | succ depth ih =>
    cases found : types.shape id with
    | error handle =>
      rw [extentWithin, found] at sized
      cases sized
    | ok shape =>
      -- scalars and structs are rounded up to their alignment, arrays repeat what is
      cases shape with
      | void | func =>
        rw [extentWithin, found] at sized
        cases sized
      | int | ptr | float =>
        rw [extentWithin, found] at aligned sized
        cases Except.ok.inj aligned
        exact (rounded_of_scalar sized).1.dvd
      | array elem length =>
        rw [extentWithin_array found] at aligned sized
        simp only [Extent.times, bind_eq_ok_iff, checkedSize_eq_ok_iff] at aligned sized
        obtain ⟨one, known, -, rfl⟩ := sized
        exact Nat.dvd_mul_right_of_dvd (ih aligned known) _
      | struct shape =>
        rw [extentWithin_struct found] at aligned sized
        cases laid : layoutWith (types.extentWithin target depth) shape with
        | error reason => simp [Extent.ofLayout, laid, Except.map] at sized
        | ok layout =>
          rw [laid] at aligned sized
          cases Except.ok.inj aligned
          cases Except.ok.inj sized
          exact dvd_of_placeFields (layoutWith_eq_ok_iff.mp laid).2

/-! ## Structs -/

/-- The layout of a struct is the exact one for what is known of its fields.  Nothing is rounded
beyond what the fields need, and no sum is cut off. -/
theorem laid_of_structLayout? {shape : StructShape} {layout : StructLayout}
    (found : types.shape id = .ok (.struct shape))
    (laid : types.structLayout? target id = .ok (some layout)) :
    Laid (fun field room => types.extent target field = room.extent) shape layout := by
  rw [structLayout?_struct found] at laid
  have placed := orNone_eq_some laid
  refine laid_of_layoutWith (fun field mem => ?_) placed
  obtain ⟨size, sized⟩ := exists_size_of_placeFields (layoutWith_eq_ok_iff.mp placed).2 _
    (List.mem_map_of_mem mem)
  obtain ⟨align, same, -, -⟩ := takes_of_size sized
  exact ⟨⟨align, size⟩, same, same⟩

/-- **The fields of a struct tile it.**  Each of the parts is one of the lemmas on placed offsets.
-/
theorem tiles_of_structLayout? {shape : StructShape} {layout : StructLayout}
    (found : types.shape id = .ok (.struct shape))
    (laid : types.structLayout? target id = .ok (some layout)) :
    types.Tiles target shape layout := by
  have offsets := length_offsets_of_structLayout? found laid
  cases laid_of_structLayout? found laid with
  | @mk name ids packed rooms offsets last size fields placed rounded =>
    have positive : 1 ≤ largestAlign packed rooms := le_foldl_max.1
    exact {
      offsets := offsets
      first := placed.first rounded
      ends := fun {number field start next} there starts behind => by
        obtain ⟨room, listed, same⟩ := exists_right_of_forall₂ fields there
        obtain ⟨le, tight⟩ := placed.ends rounded.1.2 listed starts behind
        refine ⟨room.size, (known_of_extent same).2, le, fun isPacked => tight isPacked ?_⟩
        cases isPacked
        rw [largestAlign_packed] at rounded
        exact rounded.eq_of_one
      multiple := Nat.max_eq_left positive ▸ rounded.dvd
      aligned := fun unpacked {number field start} there starts => by
        obtain ⟨room, listed, same⟩ := exists_right_of_forall₂ fields there
        have divides := placed.dvd listed starts
        cases unpacked
        exact ⟨room.align, (known_of_extent same).1, divides⟩ }

/-- The alignment of a struct is that of its layout. -/
theorem abiAlign?_struct {shape : StructShape} {layout : StructLayout} {align : Nat}
    (found : types.shape id = .ok (.struct shape))
    (laid : types.structLayout? target id = .ok (some layout))
    (aligned : types.abiAlign? target id = .ok (some align)) : align = layout.align := by
  have known := (extentWithin_refines _ id).align (abiAlign?_eq_some_iff.mp aligned)
  rw [structLayout?_struct found] at laid
  have placed : layoutWith (types.extentWithin target (types.size + 1)) shape = .ok layout :=
    orNone_eq_some laid
  rw [extentWithin_struct found, placed] at known
  exact (Except.ok.inj known).symm

/-- The alignment of an array is that of its elements. -/
theorem abiAlign?_array {elem : TypeId} {length : UInt64} {align : Nat}
    (found : types.shape id = .ok (.array elem length))
    (aligned : types.abiAlign? target id = .ok (some align)) :
    types.abiAlign? target elem = .ok (some align) := by
  rw [abiAlign?_eq_some_iff, extent, extentWithin_array found] at aligned
  exact abiAlign?_eq_some_iff.mpr ((extentWithin_refines _ elem).align aligned)

/-! ## Paths

A path adds up offsets, each of which is a multiple of some alignment.  The alignment that counts is
the one at the end of the path, and it divides all of those on the way. -/

/-- Alignments are powers of two if the pointer sizes are. -/
theorem isPowerOfTwo_of_abiAlign? (pointers : target.PowersOfTwo) {align : Nat}
    (aligned : types.abiAlign? target id = .ok (some align)) : align.isPowerOfTwo :=
  isPowerOfTwo_of_extentWithin pointers (abiAlign?_eq_some_iff.mp aligned)

/-- **The alignment of a struct is a multiple of that of its fields**, if the pointer sizes are
powers of two. -/
theorem alignsFields_of_structLayout? (pointers : target.PowersOfTwo) {shape : StructShape}
    {layout : StructLayout} (found : types.shape id = .ok (.struct shape))
    (laid : types.structLayout? target id = .ok (some layout)) :
    types.AlignsFields target shape layout := by
  cases laid_of_structLayout? found laid with
  | @mk name ids packed rooms offsets last size fields placed rounded =>
    rintro unpacked field mem
    cases unpacked
    obtain ⟨number, there⟩ := List.mem_iff_getElem?.mp mem
    obtain ⟨room, listed, same⟩ := exists_right_of_forall₂ fields there
    have known := (known_of_extent same).1
    have largest : room.align ≤ largestAlign false rooms :=
      le_foldl_max.2 _ (List.mem_map.mpr ⟨room, List.mem_of_getElem? listed, rfl⟩)
    rw [structLayout?_struct found] at laid
    exact ⟨room.align, known, dvd_of_isPowerOfTwo (isPowerOfTwo_of_abiAlign? pointers known)
      (isPowerOfTwo_of_layoutWith (fun _ _ _ part => isPowerOfTwo_of_extentWithin pointers part)
        (orNone_eq_some laid)) largest⟩

/-- Sizes are multiples of alignments. -/
theorem dvd_allocSize? {align size : Nat}
    (aligned : types.abiAlign? target id = .ok (some align))
    (sized : types.allocSize? target id = .ok (some size)) : max align 1 ∣ size :=
  dvd_of_extentWithin (abiAlign?_eq_some_iff.mp aligned) (allocSize?_eq_some_iff.mp sized)

/-- No more bytes are stored than there are between elements.  Integers and floating-point numbers
may have fewer, and what is left is padding. -/
theorem exists_storeSize?_le {size : Nat}
    (sized : types.allocSize? target id = .ok (some size)) :
    ∃ stored, types.storeSize? target id = .ok (some stored) ∧ stored ≤ size := by
  have known := allocSize?_eq_some_iff.mp sized
  rw [extent, extentWithin] at known
  rw [storeSize?]
  cases found : types.shape id with
  | error handle =>
    rw [found] at known
    cases known
  | ok shape =>
    rw [found] at known
    cases shape with
    | int | ptr | float => exact ⟨_, rfl, (rounded_of_scalar known).1.1.2⟩
    | void | func | struct | array => exact ⟨size, sized, Nat.le_refl size⟩

namespace Descends

variable {bytes : Int} {reached : TypeId}

/-- An alignment is a multiple of that of any type reached.  It is the larger of two powers of two,
so comparing them is enough. -/
theorem dvd_align (pointers : target.PowersOfTwo)
    (descends : types.Descends target id bytes reached) {outer inner : Nat}
    (outerAlign : types.abiAlign? target id = .ok (some outer))
    (innerAlign : types.abiAlign? target reached = .ok (some inner)) : inner ∣ outer := by
  induction descends generalizing outer with
  | here =>
    cases outerAlign.symm.trans innerAlign
    exact Nat.dvd_refl _
  | field found unpacked laid there starts _ ih =>
    obtain ⟨part, aligned, divides⟩ := alignsFields_of_structLayout? pointers found laid unpacked _
      (List.mem_of_getElem? there)
    rw [abiAlign?_struct found laid outerAlign]
    exact Nat.dvd_trans (ih aligned innerAlign) divides
  | element _ found _ _ ih => exact ih (abiAlign?_array found outerAlign) innerAlign

/-- **A path leads to a multiple of the alignment** of the type that is reached.  By induction on
the path: the offset of a field is a multiple of its alignment, and that is one of any alignment
further in. -/
theorem dvd_bytes (pointers : target.PowersOfTwo)
    (descends : types.Descends target id bytes reached) {align : Nat}
    (aligned : types.abiAlign? target reached = .ok (some align)) : (align : Int) ∣ bytes := by
  induction descends with
  | here => exact Int.dvd_zero _
  | @field _ _ _ _ _ _ start _ found unpacked laid there starts later ih =>
    obtain ⟨part, known, divides⟩ :=
      (tiles_of_structLayout? found laid).aligned unpacked there starts
    rw [max_eq_left (Nat.pos_of_isPowerOfTwo (isPowerOfTwo_of_abiAlign? pointers known))] at divides
    have offset := Nat.dvd_trans (later.dvd_align pointers known aligned) divides
    exact Int.dvd_add (Int.natCast_dvd_natCast.mpr offset) (ih aligned)
  | @element _ _ _ _ one _ index _ sized later ih =>
    obtain ⟨part, known⟩ := exists_abiAlign? sized
    have divides := dvd_allocSize? known sized
    rw [max_eq_left (Nat.pos_of_isPowerOfTwo (isPowerOfTwo_of_abiAlign? pointers known))] at divides
    have stride := Nat.dvd_trans (later.dvd_align pointers known aligned) divides
    exact Int.dvd_add (Int.dvd_mul_of_dvd_right (Int.natCast_dvd_natCast.mpr stride)) (ih aligned)

end Descends

end Types

open IrStream.Types

/-- **The geometry of layouts.**  Sizes are multiples of alignments and never less than what is
stored, and fields tile their struct.  If the pointer sizes are powers of two, structs are aligned
for all their fields, and paths lead to where the reached type is aligned. -/
theorem layout_geometry (types : Types) (target : DataLayout) :
    (∀ {id : TypeId} {align size : Nat}, types.abiAlign? target id = .ok (some align) →
      types.allocSize? target id = .ok (some size) →
      max align 1 ∣ size
        ∧ ∃ stored, types.storeSize? target id = .ok (some stored) ∧ stored ≤ size)
    ∧ (∀ {id : TypeId} {layout : StructLayout},
      types.structLayout? target id = .ok (some layout) →
      ∃ shape, types.shape id = .ok (.struct shape) ∧ types.Tiles target shape layout
        ∧ (target.PowersOfTwo → types.AlignsFields target shape layout))
    ∧ (target.PowersOfTwo → ∀ {id reached : TypeId} {bytes : Int} {align : Nat},
      types.Descends target id bytes reached → types.abiAlign? target reached = .ok (some align) →
      (align : Int) ∣ bytes) := by
  refine ⟨fun aligned sized => ⟨dvd_allocSize? aligned sized, exists_storeSize?_le sized⟩,
    fun {id layout} laid => ?_, fun pointers _ _ _ _ descends aligned =>
      descends.dvd_bytes pointers aligned⟩
  obtain ⟨shape, found⟩ := exists_struct_of_structLayout? laid
  exact ⟨shape, found, tiles_of_structLayout? found laid,
    fun pointers => alignsFields_of_structLayout? pointers found laid⟩

/-- The second field of the third element lies 56 bytes on, and the array has an alignment although
it is too large to have a size. -/
theorem layout_geometry_padded :
    8 ∣ 16 ∧ DataLayout.standard.PowersOfTwo
    ∧ padded.allocSize? .standard ⟨7⟩ = .ok none
    ∧ padded.Descends .standard ⟨7⟩ 56 .i64 ∧ (8 : Int) ∣ 56 := by
  have powers : DataLayout.standard.PowersOfTwo := fun _ => ⟨3, rfl⟩
  have aligned : padded.abiAlign? .standard ⟨6⟩ = .ok (some 8) := by decide +kernel
  have sized : padded.allocSize? .standard ⟨6⟩ = .ok (some 16) := by decide +kernel
  have array : padded.shape ⟨7⟩ = .ok (.array ⟨6⟩ 0x1000000000000000) := by decide +kernel
  have struct : padded.shape ⟨6⟩ = .ok (.struct ⟨none, [.i8, .i64], false, true⟩) := by
    decide +kernel
  have laid : padded.structLayout? .standard ⟨6⟩ = .ok (some ⟨16, 8, [0, 8]⟩) := by decide +kernel
  have second : padded.Descends .standard ⟨6⟩ ((8 : Nat) + 0) .i64 :=
    @Descends.field _ _ _ _ _ _ _ 1 8 _ struct rfl laid rfl rfl (.here _)
  have path : padded.Descends .standard ⟨7⟩ (3 * (16 : Nat) + ((8 : Nat) + 0)) .i64 :=
    .element 3 array sized second
  have geometry := layout_geometry padded .standard
  exact ⟨(geometry.1 aligned sized).1, powers, by decide +kernel, path,
    geometry.2.2 powers path (by decide +kernel)⟩

end IrStream
