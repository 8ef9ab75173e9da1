import IrStream.Proofs.Types.Acyclic
import IrStream.Proofs.Types.Depth
import Mathlib.Order.Bounds.Basic

/-!
# Exact layouts

What memory a type takes, in numbers without a limit: `Types.Takes` says it of a type, `Laid` of a
struct, and both only state what is asked for.  A rounded size is the least multiple of the
alignment (`IsRoundedUp`), a field lies at the least such place behind the field before it
(`Placed`).

The calculation in 64 bits agrees with that (`layout_exact`).  It gives up only where there is
no exact size, or where that of some part does not fit; on the way to a size that fits, every
intermediate result fits too.

## What is asked for

The definitions at the beginning are the specification, and they are meant to be read without
knowing how a layout is computed.  A *room* is an alignment and a size.  A scalar takes the room of
its bytes, rounded up; an array takes as many times the room of its elements; a struct takes what
its layout says, and a layout puts each field at the least place where it may be.  There is no bound
on the numbers, and nothing is said about in which order anything is found out.

They are relations, so it has to be shown that they define something: that a type takes at most one
room (`Complete.takes_unique`), and that it takes one unless there is something unsized in its
storage (`Complete.exists_takes`).  Both are inductions on how many types a type contains.

## What is computed

The calculation gives up at the first number that does not fit, and it is not obvious that it never
gives up too early.  A size is rounded up at the end, and offsets are rounded up on the way; if one
of these were too large although the size is not, the answer would be missing without need.  It
cannot happen, because everything on the way to a size is at most the size.  What may well happen is
that a part of a type is too large and the type is small: an array of no elements has size zero,
whatever its elements are.  That is why `Fits` asks of everything in the storage of a type that it
fits.
-/

set_option autoImplicit false

namespace IrStream

/-! ## What is asked for

Each of these says what a number has to be, and none says how to find it. -/

/-- The least multiple of `align` that is not below `value`; an alignment of zero counts as one. -/
def IsRoundedUp (value align result : Nat) : Prop :=
  IsLeast {multiple | max align 1 ∣ multiple ∧ value ≤ multiple} result

/-- Memory for a value, in bytes. -/
structure Room where
  align : Nat
  size : Nat

/-- The alignment of a field in a struct that may be packed. -/
def Room.alignIn (packed : Bool) (room : Room) : Nat :=
  if packed then 1 else room.align

/-- Fields that take `rooms` are placed at `offsets` behind `stop` bytes; the last one ends at
`last`. -/
inductive Placed (packed : Bool) : (stop : Nat) → (rooms : List Room) → (offsets : List Nat) →
    (last : Nat) → Prop
  /-- Behind the last field nothing is left to place. -/
  | nil (stop : Nat) : Placed packed stop [] [] stop
  /-- A field begins at the least place that its alignment allows, and the others behind it. -/
  | cons {stop start last : Nat} {room : Room} {rooms : List Room} {offsets : List Nat}
      (rounded : IsRoundedUp stop (room.alignIn packed) start)
      (rest : Placed packed (start + room.size) rooms offsets last) :
      Placed packed stop (room :: rooms) (start :: offsets) last

/-- The largest alignment of a field, and one at least. -/
def largestAlign (packed : Bool) (rooms : List Room) : Nat :=
  (rooms.map (·.alignIn packed)).foldl max 1

/-- Where the fields of a struct lie whose types take the rooms that `takes` says. -/
inductive Laid (takes : TypeId → Room → Prop) : StructShape → StructLayout → Prop
  /-- The fields are placed in order, and the end is rounded up to the alignment of the struct. -/
  | mk {name : Option String} {ids : List TypeId} {packed : Bool} {rooms : List Room}
      {offsets : List Nat} {last size : Nat} (fields : List.Forall₂ takes ids rooms)
      (placed : Placed packed 0 rooms offsets last)
      (rounded : IsRoundedUp last (largestAlign packed rooms) size) :
      Laid takes ⟨name, ids, packed, true⟩ ⟨size, largestAlign packed rooms, offsets⟩

namespace Types

/-- The room that values of a type take, one behind the other. -/
inductive Takes (types : Types) (target : DataLayout) : TypeId → Room → Prop
  /-- An integer takes the bytes that hold its bits, rounded up to their alignment. -/
  | int {id : TypeId} {bits : UInt32} {size : Nat} (found : types.shape id = .ok (.int bits))
      (rounded : IsRoundedUp (intBytes bits) (intAlign (intBytes bits)) size) :
      Takes types target id ⟨intAlign (intBytes bits), size⟩
  /-- A pointer takes as many bytes as its address space says, which are its alignment as well. -/
  | ptr {id : TypeId} {addrSpace : UInt32} {size : Nat}
      (found : types.shape id = .ok (.ptr addrSpace))
      (rounded : IsRoundedUp (target.pointerBytes addrSpace).toNat
        (target.pointerBytes addrSpace).toNat size) :
      Takes types target id ⟨(target.pointerBytes addrSpace).toNat, size⟩
  /-- A floating-point number takes the bytes of its format. -/
  | float {id : TypeId} {kind : FloatKind} {size : Nat} (found : types.shape id = .ok (.float kind))
      (rounded : IsRoundedUp kind.bytes kind.align size) : Takes types target id ⟨kind.align, size⟩
  /-- A struct takes the room in which its fields are laid out. -/
  | struct {id : TypeId} {shape : StructShape} {layout : StructLayout}
      (found : types.shape id = .ok (.struct shape))
      (laid : Laid (Takes types target) shape layout) :
      Takes types target id ⟨layout.align, layout.size⟩
  /-- An array takes its elements, one directly behind the other. -/
  | array {id elem : TypeId} {length : UInt64} {room : Room}
      (found : types.shape id = .ok (.array elem length)) (elem : Takes types target elem room) :
      Takes types target id ⟨room.align, length.toNat * room.size⟩

/-- Values of the type are not stored, or it is not known how. -/
def IsUnsized (types : Types) (id : TypeId) : Prop :=
  types.shape id = .ok .void ∨ (∃ params ret vararg, types.shape id = .ok (.func params ret vararg))
    ∨ ∃ shape, types.shape id = .ok (.struct shape) ∧ shape.hasBody = false

end Types

/-! ## Rounding

The specification asks for a least multiple, and the calculation divides.  They agree for every
alignment, also for zero, where both leave the value as it is. -/

/-- Rounding up finds the least multiple that is not below the value. -/
theorem isRoundedUp_roundUp (value align : Nat) :
    IsRoundedUp value align (roundUp value align) := by
  rw [roundUp]
  split
  · next small =>
    rw [IsRoundedUp, Nat.max_eq_right small]
    exact ⟨⟨Nat.one_dvd value, Nat.le_refl value⟩, fun _ h => h.2⟩
  · next large =>
    have positive : 0 < align := by omega
    rw [IsRoundedUp, Nat.max_eq_left (by omega)]
    refine ⟨⟨Nat.dvd_mul_left align _, ?_⟩, ?_⟩
    · have rounded := le_roundUp value align
      rwa [roundUp, if_neg large] at rounded
    · rintro _ ⟨⟨count, rfl⟩, le⟩
      -- the quotient of the sum is the ceiling of the quotient
      rw [Nat.mul_comm align count]
      refine Nat.mul_le_mul_right align (Nat.le_of_lt_succ ?_)
      rw [Nat.div_lt_iff_lt_mul positive, Nat.succ_mul, Nat.mul_comm count align]
      omega

/-- There is one least multiple. -/
theorem isRoundedUp_iff {value align result : Nat} :
    IsRoundedUp value align result ↔ result = roundUp value align := by
  constructor
  · exact fun h => h.unique (isRoundedUp_roundUp value align)
  · rintro rfl
    exact isRoundedUp_roundUp value align

/-! ## Placing fields

For fields whose rooms are known, the loop over them finds the places that are asked for.  The only
way to fail is a number that does not fit, and the largest of all numbers is the size of the struct,
which comes last; so one condition on the end decides. -/

/-- What is computed of a type that takes a room. -/
def Room.extent (room : Room) : Extent :=
  ⟨.ok room.align, .ok room.size⟩

section

variable {packed : Bool} {stop last : Nat} {rooms : List Room} {offsets : List Nat}

/-- Fields are placed behind what is there. -/
theorem Placed.le (placed : Placed packed stop rooms offsets last) : stop ≤ last := by
  induction placed with
  | nil => exact Nat.le_refl _
  | cons rounded _ ih => exact le_trans rounded.1.2 (le_trans (Nat.le_add_right _ _) ih)

/-- There is one least place for each field, so there is one way to place them all. -/
theorem Placed.unique {offsets' : List Nat} {last' : Nat}
    (placed : Placed packed stop rooms offsets last)
    (placed' : Placed packed stop rooms offsets' last') : offsets' = offsets ∧ last' = last := by
  induction placed generalizing offsets' last' with
  | nil =>
    cases placed'
    exact ⟨rfl, rfl⟩
  | cons rounded _ ih =>
    cases placed' with
    | cons rounded' rest' =>
      cases rounded.unique rounded'
      obtain ⟨rfl, rfl⟩ := ih rest'
      exact ⟨rfl, rfl⟩

/-- Fields can always be placed, in numbers without a limit. -/
theorem exists_placed (packed : Bool) (stop : Nat) (rooms : List Room) :
    ∃ offsets last, Placed packed stop rooms offsets last := by
  induction rooms generalizing stop with
  | nil => exact ⟨[], stop, .nil stop⟩
  | cons room rest ih =>
    obtain ⟨offsets, last, placed⟩ := ih (roundUp stop (room.alignIn packed) + room.size)
    exact ⟨_, last, .cons (isRoundedUp_roundUp _ _) placed⟩

/-- **Fields are placed exactly** if the end of the struct fits, and not at all otherwise. -/
theorem placeFields_extent_eq_ok_iff {align : Nat} {layout : StructLayout} :
    placeFields packed stop align (rooms.map Room.extent) = .ok layout ↔
      ∃ last, Placed packed stop rooms layout.offsets last
        ∧ layout.align = (rooms.map (·.alignIn packed)).foldl max align
        ∧ IsRoundedUp last layout.align layout.size ∧ layout.size < sizeLimit := by
  induction rooms generalizing stop align layout with
  | nil =>
    rw [List.map_nil, placeFields_nil_eq_ok_iff]
    constructor
    · rintro ⟨fits, rfl⟩
      exact ⟨stop, .nil stop, rfl, isRoundedUp_roundUp _ _, fits⟩
    · obtain ⟨size, align', offsets⟩ := layout
      rintro ⟨last, placed, aligned, rounded, fits⟩
      cases placed
      dsimp only at aligned rounded fits
      rw [List.map_nil, List.foldl_nil] at aligned
      rw [isRoundedUp_iff] at rounded
      subst aligned rounded
      exact ⟨fits, rfl⟩
  -- the offset of the first field is chosen alone; everything else is about the rest
  | cons room rest ih =>
    have fieldAlign {value : Nat} : (if packed then .ok 1 else room.extent.align) = .ok value
        ↔ value = room.alignIn packed := by
      cases packed <;> exact ⟨fun h => (Except.ok.inj h).symm, fun h => by rw [h]; rfl⟩
    rw [List.map_cons, placeFields_cons_eq_ok_iff]
    simp only [fieldAlign, checkedSize_eq_ok_iff, ih]
    constructor
    · rintro ⟨_, start, size, _, others, rfl, ⟨-, rfl⟩, sized, ⟨-, rfl⟩,
        ⟨last, placed, aligned, rounded, fits⟩, rfl⟩
      cases Except.ok.inj sized
      exact ⟨last, .cons (isRoundedUp_roundUp _ _) placed, aligned, rounded, fits⟩
    · obtain ⟨size, align', offsets⟩ := layout
      rintro ⟨last, placed, aligned, rounded, fits⟩
      cases placed with
      | cons first placed =>
        cases isRoundedUp_iff.mp first
        -- whatever comes before the end is not above it
        have below := placed.le
        have ends : last ≤ size := rounded.1.2
        dsimp only at fits aligned rounded
        exact ⟨_, _, _, _, ⟨size, align', _⟩, rfl, ⟨by omega, rfl⟩, rfl, ⟨by omega, rfl⟩,
          ⟨last, placed, aligned, rounded, fits⟩, rfl⟩

end

/-- Fields that are placed have a size. -/
theorem exists_size_of_placeFields {packed : Bool} {offset align : Nat} {fields : List Extent}
    {layout : StructLayout} (placed : placeFields packed offset align fields = .ok layout) :
    ∀ field ∈ fields, ∃ size, field.size = .ok size := by
  induction fields generalizing offset align layout with
  | nil => simp
  | cons field rest ih =>
    obtain ⟨_, _, size, _, _, -, -, sized, -, placed, -⟩ := placeFields_cons_eq_ok_iff.mp placed
    exact List.forall_mem_cons.mpr ⟨⟨size, sized⟩, ih placed⟩

section

variable {takes : TypeId → Room → Prop} {extent : TypeId → Extent} {shape : StructShape}
  {layout : StructLayout}

/-- A struct is laid out exactly if all its fields are known to take the rooms they should. -/
theorem laid_of_layoutWith (each : ∀ field ∈ shape.fields, ∃ room : Room,
      extent field = room.extent ∧ takes field room)
    (found : Types.layoutWith extent shape = .ok layout) : Laid takes shape layout := by
  obtain ⟨body, placed⟩ := Types.layoutWith_eq_ok_iff.mp found
  obtain ⟨name, fields, packed, hasBody⟩ := shape
  have known : ∃ rooms : List Room, fields.map extent = rooms.map Room.extent
      ∧ List.Forall₂ takes fields rooms := by
    clear found placed body
    induction fields with
    | nil => exact ⟨[], rfl, .nil⟩
    | cons field rest ih =>
      obtain ⟨⟨room, same, taken⟩, others⟩ := List.forall_mem_cons.mp each
      obtain ⟨rooms, sames, takens⟩ := ih others
      exact ⟨room :: rooms, congrArg₂ List.cons same sames, .cons taken takens⟩
  obtain ⟨rooms, same, taken⟩ := known
  dsimp only at placed body
  rw [same, placeFields_extent_eq_ok_iff] at placed
  obtain ⟨last, placed, aligned, rounded, -⟩ := placed
  obtain ⟨size, align, offsets⟩ := layout
  dsimp only at placed aligned rounded
  subst aligned body
  exact .mk taken placed rounded

/-- A layout that fits is found. -/
theorem layoutWith_of_laid (each : ∀ field ∈ shape.fields, ∀ room : Room, takes field room →
      extent field = room.extent) (laid : Laid takes shape layout)
    (fits : layout.size < sizeLimit) : Types.layoutWith extent shape = .ok layout := by
  cases laid with
  | @mk name ids packed rooms offsets last size fields placed rounded =>
    have same : ids.map extent = rooms.map Room.extent := by
      clear placed rounded fits
      induction fields with
      | nil => rfl
      | cons taken _ ih =>
        obtain ⟨first, rest⟩ := List.forall_mem_cons.mp each
        exact congrArg₂ List.cons (first _ taken) (ih rest)
    refine Types.layoutWith_eq_ok_iff.mpr ⟨rfl, ?_⟩
    dsimp only
    rw [same]
    exact placeFields_extent_eq_ok_iff.mpr ⟨last, placed, rfl, rounded, fits⟩

end

/-- A scalar that fits is computed to take its room. -/
theorem scalar_eq {bytes align size : Nat} (rounded : IsRoundedUp bytes align size)
    (fits : size < sizeLimit) : Extent.scalar bytes align = Room.extent ⟨align, size⟩ := by
  cases isRoundedUp_iff.mp rounded
  rw [Extent.scalar, checkedSize_eq_ok_iff.mpr ⟨fits, rfl⟩]
  rfl

/-- A scalar with a size takes the room of its bytes. -/
theorem rounded_of_scalar {bytes align size : Nat}
    (sized : (Extent.scalar bytes align).size = .ok size) :
    IsRoundedUp bytes align size ∧ Extent.scalar bytes align = Room.extent ⟨align, size⟩ := by
  obtain ⟨fits, rfl⟩ := checkedSize_eq_ok_iff.mp sized
  exact ⟨isRoundedUp_roundUp _ _, scalar_eq (isRoundedUp_roundUp _ _) fits⟩

namespace Types

variable {types : Types} {target : DataLayout} {id : TypeId}

/-! ## Exact layouts are unique

Rooms are asked for by a relation that is defined along the shape of a type.  Arenas of programs are
acyclic, so there is an induction on how deep a type contains others, and it shows both that there
is no second room and that there is a first one. -/

/-- Related lists of rooms are equal if each type takes one room at most. -/
theorem rooms_unique {takes : TypeId → Room → Prop} {ids : List TypeId} {rooms rooms' : List Room}
    (unique : ∀ id ∈ ids, ∀ room room', takes id room → takes id room' → room' = room)
    (fields : List.Forall₂ takes ids rooms) (fields' : List.Forall₂ takes ids rooms') :
    rooms' = rooms := by
  induction fields generalizing rooms' with
  | nil =>
    cases fields'
    rfl
  | cons taken _ ih =>
    cases fields' with
    | cons taken' others =>
      obtain ⟨first, rest⟩ := List.forall_mem_cons.mp unique
      rw [first _ _ taken taken', ih rest others]

/-- If fields take one room each, a struct is laid out in one way. -/
theorem laid_unique {takes : TypeId → Room → Prop} {shape : StructShape}
    {layout layout' : StructLayout}
    (unique : ∀ id ∈ shape.fields, ∀ room room', takes id room → takes id room' → room' = room)
    (laid : Laid takes shape layout) (laid' : Laid takes shape layout') : layout' = layout := by
  cases laid with
  | mk fields placed rounded =>
    cases laid' with
    | mk fields' placed' rounded' =>
      cases rooms_unique unique fields fields'
      obtain ⟨rfl, rfl⟩ := placed.unique placed'
      cases rounded.unique rounded'
      rfl

/-- **A type takes one room**, if any. -/
theorem Complete.takes_unique (complete : types.Complete) (acyclic : types.Acyclic)
    {room room' : Room} (taken : types.Takes target id room)
    (taken' : types.Takes target id room') : room' = room := by
  induction bound : types.height id using Nat.strong_induction_on generalizing id room room' with
  | _ height ih =>
    subst bound
    have part {child : TypeId} (holds : types.Holds id child) (room room' : Room)
        (taken : types.Takes target child room) (taken' : types.Takes target child room') :
        room' = room :=
      ih _ (acyclic.height_lt complete holds) taken taken' rfl
    -- the shape is the same in both, so both are the same case
    cases taken with
    | int found rounded =>
      cases taken' with
      | int found' rounded' =>
        cases found.symm.trans found'
        rw [rounded.unique rounded']
      | ptr found' | float found' | struct found' | array found' => cases found.symm.trans found'
    | ptr found rounded =>
      cases taken' with
      | ptr found' rounded' =>
        cases found.symm.trans found'
        rw [rounded.unique rounded']
      | int found' | float found' | struct found' | array found' => cases found.symm.trans found'
    | float found rounded =>
      cases taken' with
      | float found' rounded' =>
        cases found.symm.trans found'
        rw [rounded.unique rounded']
      | int found' | ptr found' | struct found' | array found' => cases found.symm.trans found'
    | struct found laid =>
      cases taken' with
      | struct found' laid' =>
        cases found.symm.trans found'
        rw [laid_unique (fun child mem => part ⟨_, found, mem⟩) laid laid']
      | int found' | ptr found' | float found' | array found' => cases found.symm.trans found'
    | array found elem =>
      cases taken' with
      | array found' elem' =>
        cases found.symm.trans found'
        rw [part ⟨_, found, List.mem_cons_self⟩ _ _ elem elem']
      | int found' | ptr found' | float found' | struct found' => cases found.symm.trans found'

/-- **A type takes a room** if nothing in its storage is unsized. -/
theorem Complete.exists_takes (complete : types.Complete) (acyclic : types.Acyclic)
    (has : types.Has id) (sized : ∀ part, types.Contains id part → ¬ types.IsUnsized part) :
    ∃ room, types.Takes target id room := by
  induction bound : types.height id using Nat.strong_induction_on generalizing id with
  | _ height ih =>
    subst bound
    have part {child : TypeId} (holds : types.Holds id child) :
        ∃ room, types.Takes target child room :=
      ih _ (acyclic.height_lt complete holds) (complete.has_of_holds holds)
        (fun part contains => sized part (.head holds contains)) rfl
    obtain ⟨shape, found⟩ := has.exists_shape
    have here := sized id .refl
    cases shape with
    | void => exact absurd (.inl found) here
    | func params ret vararg => exact absurd (.inr (.inl ⟨_, _, _, found⟩)) here
    | int bits => exact ⟨_, .int found (isRoundedUp_roundUp _ _)⟩
    | ptr addrSpace => exact ⟨_, .ptr found (isRoundedUp_roundUp _ _)⟩
    | float kind => exact ⟨_, .float found (isRoundedUp_roundUp _ _)⟩
    | array elem length =>
      obtain ⟨room, taken⟩ := part ⟨_, found, List.mem_cons_self⟩
      exact ⟨_, .array found taken⟩
    | struct shape =>
      obtain ⟨name, fields, packed, hasBody⟩ := shape
      cases hasBody with
      | false => exact absurd (.inr (.inr ⟨_, found, rfl⟩)) here
      | true =>
        -- fields are given their rooms first, and then they are placed
        have each : ∀ fields' ⊆ fields,
            ∃ rooms, List.Forall₂ (types.Takes target) fields' rooms := by
          intro fields' listed
          induction fields' with
          | nil => exact ⟨[], .nil⟩
          | cons child rest more =>
            obtain ⟨mem, listed⟩ := List.cons_subset.mp listed
            obtain ⟨room, taken⟩ := part ⟨_, found, mem⟩
            obtain ⟨rooms, others⟩ := more listed
            exact ⟨room :: rooms, .cons taken others⟩
        obtain ⟨rooms, known⟩ := each fields (List.Subset.refl _)
        obtain ⟨offsets, last, placed⟩ := exists_placed packed 0 rooms
        exact ⟨_, .struct found (.mk known placed (isRoundedUp_roundUp _ _))⟩

/-! ## What is computed

One direction goes from a number that was computed to the room that is asked for, and follows the
calculation.  The other direction goes from a room that fits to the number, and follows the storage
of the type. -/

/-- Everything in the storage of the type takes a room of a size that fits in 64 bits. -/
def Fits (types : Types) (target : DataLayout) (id : TypeId) : Prop :=
  ∀ part, types.Contains id part → ∃ room, types.Takes target part room ∧ room.size < sizeLimit

/-- A type fits if it takes a room that does, and so do its parts. -/
theorem fits_iff : types.Fits target id ↔
    (∃ room, types.Takes target id room ∧ room.size < sizeLimit)
      ∧ ∀ part, types.Holds id part → types.Fits target part := by
  constructor
  · exact fun fits =>
      ⟨fits id .refl, fun part holds inner contains => fits inner (.head holds contains)⟩
  · rintro ⟨here, below⟩ inner contains
    rcases contains_iff.mp contains with rfl | ⟨part, holds, contains⟩
    · exact here
    · exact below part holds inner contains

/-- A type without parts fits if it takes a room that does. -/
theorem fits_of_leaf {shape : TypeShape} (found : types.shape id = .ok shape)
    (leaf : shape.stored = []) {room : Room} (taken : types.Takes target id room)
    (fits : room.size < sizeLimit) : types.Fits target id := by
  refine fits_iff.mpr ⟨⟨room, taken, fits⟩, fun part holds => ?_⟩
  rw [holds_iff_of_shape found, leaf] at holds
  cases holds

/-- What is computed for the type is a room of that size, which the type takes, and everything in
its storage fits. -/
def Measured (types : Types) (target : DataLayout) (depth : Nat) (id : TypeId) (size : Nat) :
    Prop :=
  ∃ align, types.extentWithin target depth id = Room.extent ⟨align, size⟩
    ∧ types.Takes target id ⟨align, size⟩ ∧ types.Fits target id

/-- The size of a scalar is right, and it has no parts. -/
theorem measured_of_scalar {shape : TypeShape} {depth bytes align size : Nat}
    (found : types.shape id = .ok shape) (leaf : shape.stored = [])
    (scalar : types.extentWithin target depth id = .scalar bytes align)
    (takes : IsRoundedUp bytes align size → types.Takes target id ⟨align, size⟩)
    (sized : (types.extentWithin target depth id).size = .ok size) :
    types.Measured target depth id size := by
  have fits := size_lt_of_extentWithin sized
  rw [scalar] at sized
  obtain ⟨rounded, same⟩ := rounded_of_scalar sized
  exact ⟨align, scalar.trans same, takes rounded, fits_of_leaf found leaf (takes rounded) fits⟩

/-- The size of an array is a product, so its factors are bounded by it unless the other one is
zero. -/
theorem measured_of_array {elem : TypeId} {length : UInt64} {depth size : Nat}
    (found : types.shape id = .ok (.array elem length))
    (measured : ∀ {one}, (types.extentWithin target depth elem).size = .ok one →
      types.Measured target depth elem one)
    (sized : (types.extentWithin target (depth + 1) id).size = .ok size) :
    types.Measured target (depth + 1) id size := by
  have fits := size_lt_of_extentWithin sized
  rw [extentWithin_array found] at sized
  simp only [Extent.times, bind_eq_ok_iff, checkedSize_eq_ok_iff] at sized
  obtain ⟨one, known, small, rfl⟩ := sized
  obtain ⟨align, same, taken, below⟩ := measured known
  have here : types.Takes target id ⟨align, one * length.toNat⟩ :=
    Nat.mul_comm one length.toNat ▸ .array found taken
  refine ⟨align, ?_, here, fits_iff.mpr ⟨⟨_, here, fits⟩, fun part holds => ?_⟩⟩
  · rw [extentWithin_array found, same, Extent.times, Room.extent]
    exact congrArg (Extent.mk _) (checkedSize_eq_ok_iff.mpr ⟨small, rfl⟩)
  · rw [holds_iff_of_shape found] at holds
    exact List.mem_singleton.mp holds ▸ below

/-- Every offset of a struct and the end of every field are at most its size, so none of them is
lost to an overflow that the size does not have. -/
theorem measured_of_struct {shape : StructShape} {depth size : Nat}
    (found : types.shape id = .ok (.struct shape))
    (measured : ∀ field ∈ shape.fields, ∀ {one},
      (types.extentWithin target depth field).size = .ok one →
      types.Measured target depth field one)
    (sized : (types.extentWithin target (depth + 1) id).size = .ok size) :
    types.Measured target (depth + 1) id size := by
  have fits := size_lt_of_extentWithin sized
  rw [extentWithin_struct found] at sized
  cases laid : layoutWith (types.extentWithin target depth) shape with
  | error reason => simp [Extent.ofLayout, laid, Except.map] at sized
  | ok layout =>
    rw [laid] at sized
    cases Except.ok.inj sized
    have each : ∀ field ∈ shape.fields, ∃ room : Room,
        types.extentWithin target depth field = room.extent
          ∧ types.Takes target field room ∧ types.Fits target field := by
      intro field mem
      obtain ⟨one, known⟩ := exists_size_of_placeFields (layoutWith_eq_ok_iff.mp laid).2 _
        (List.mem_map_of_mem mem)
      obtain ⟨align, same, taken, below⟩ := measured field mem known
      exact ⟨_, same, taken, below⟩
    have here : types.Takes target id ⟨layout.align, layout.size⟩ := by
      refine .struct found (laid_of_layoutWith (fun field mem => ?_) laid)
      obtain ⟨room, same, taken, -⟩ := each field mem
      exact ⟨room, same, taken⟩
    refine ⟨layout.align, ?_, here, fits_iff.mpr ⟨⟨_, here, fits⟩, fun part holds => ?_⟩⟩
    · rw [extentWithin_struct found, laid]
      rfl
    · rw [holds_iff_of_shape found] at holds
      obtain ⟨-, -, -, below⟩ := each part holds
      exact below

/-- **A size that is computed is right**: the type takes that room, and so do all parts in its
storage. -/
theorem takes_of_size {depth size : Nat}
    (sized : (types.extentWithin target depth id).size = .ok size) :
    types.Measured target depth id size := by
  induction depth generalizing id size with
  | zero => cases sized
  | succ depth ih =>
    cases found : types.shape id with
    | error handle =>
      rw [extentWithin, found] at sized
      cases sized
    | ok shape =>
      cases shape with
      | void | func =>
        rw [extentWithin, found] at sized
        cases sized
      | int bits =>
        exact measured_of_scalar found rfl (by rw [extentWithin, found]) (.int found) sized
      | ptr addrSpace =>
        exact measured_of_scalar found rfl (by rw [extentWithin, found]) (.ptr found) sized
      | float kind =>
        exact measured_of_scalar found rfl (by rw [extentWithin, found]) (.float found) sized
      | array elem length => exact measured_of_array found ih sized
      | struct shape => exact measured_of_struct found (fun _ _ => ih) sized

/-- **A room that fits is computed**, with more layers than there are below the type. -/
theorem Complete.extentWithin_eq (complete : types.Complete) (acyclic : types.Acyclic)
    {depth : Nat} (enough : types.height id < depth) (fits : types.Fits target id) {room : Room}
    (taken : types.Takes target id room) : types.extentWithin target depth id = room.extent := by
  induction depth generalizing id room with
  | zero => omega
  | succ depth ih =>
    obtain ⟨room', taken', small⟩ := fits id .refl
    cases complete.takes_unique acyclic taken taken'
    have part {child : TypeId} (holds : types.Holds id child) (room : Room)
        (taken : types.Takes target child room) :
        types.extentWithin target depth child = room.extent := by
      have := acyclic.height_lt complete holds
      exact ih (by omega) ((fits_iff.mp fits).2 child holds) taken
    cases taken with
    | int found rounded | ptr found rounded | float found rounded =>
      rw [extentWithin, found]
      exact scalar_eq rounded small
    | array found elem =>
      rw [extentWithin_array found, part ⟨_, found, List.mem_cons_self⟩ _ elem]
      refine congrArg (Extent.mk _) ?_
      rw [Nat.mul_comm] at small ⊢
      exact checkedSize_eq_ok_iff.mpr ⟨small, rfl⟩
    | struct found laid =>
      rw [extentWithin_struct found,
        layoutWith_of_laid (fun field mem => part ⟨_, found, mem⟩) laid small]
      rfl

/-! ## The calculation in 64 bits

The main statement says when an answer is missing, and *missing* is the opposite of *found*.  So
with the two directions above all is said: an answer is found if the type fits, and otherwise there
is something in its storage that is in the way. -/

/-- Something in the storage of the type is unsized or does not fit in 64 bits. -/
def Obstructed (types : Types) (target : DataLayout) (id : TypeId) : Prop :=
  ∃ part, types.Contains id part
    ∧ (types.IsUnsized part ∨ ∃ room, types.Takes target part room ∧ UInt64.size ≤ room.size)

/-- What takes a room is not unsized. -/
theorem Takes.not_isUnsized {room : Room} (taken : types.Takes target id room) :
    ¬ types.IsUnsized id := by
  rintro (found | ⟨params, ret, vararg, found⟩ | ⟨shape, found, hidden⟩)
  · cases taken <;> cases found.symm.trans ‹_›
  · cases taken <;> cases found.symm.trans ‹_›
  · cases taken with
    | struct found' laid =>
      cases found.symm.trans found'
      cases laid
      cases hidden
    | int found' | ptr found' | float found' | array found' => cases found.symm.trans found'

/-- A type fits unless there is a reason against it. -/
theorem Complete.fits_iff_not_obstructed (complete : types.Complete) (acyclic : types.Acyclic)
    (has : types.Has id) : types.Fits target id ↔ ¬ types.Obstructed target id := by
  have limit : sizeLimit = UInt64.size := rfl
  constructor
  · rintro fits ⟨part, contains, reason⟩
    obtain ⟨room, taken, small⟩ := fits part contains
    rcases reason with unsized | ⟨room', taken', large⟩
    · exact taken.not_isUnsized unsized
    · cases complete.takes_unique acyclic taken taken'
      omega
  · intro free part contains
    have sized (inner : TypeId) (more : types.Contains part inner) : ¬ types.IsUnsized inner :=
      fun unsized => free ⟨inner, contains.trans more, .inl unsized⟩
    obtain ⟨room, taken⟩ :=
      complete.exists_takes acyclic (complete.has_of_contains has contains) sized
    refine ⟨room, taken, ?_⟩
    have small : ¬ UInt64.size ≤ room.size :=
      fun large => free ⟨part, contains, .inr ⟨room, taken, large⟩⟩
    omega

variable {shape : StructShape}

/-- A type has a size if it fits. -/
theorem Complete.allocSize?_of_fits (complete : types.Complete) (acyclic : types.Acyclic)
    (fits : types.Fits target id) :
    ∃ room, types.Takes target id room ∧ types.allocSize? target id = .ok (some room.size) := by
  obtain ⟨room, taken, -⟩ := fits id .refl
  have below := types.height_le id
  refine ⟨room, taken, allocSize?_eq_some_iff.mpr ?_⟩
  rw [extent, complete.extentWithin_eq acyclic (Nat.lt_succ_of_le below) fits taken]
  rfl

/-- What has a size fits. -/
theorem fits_of_allocSize? {size : Nat} (sized : types.allocSize? target id = .ok (some size)) :
    types.Fits target id :=
  have ⟨_, _, _, fits⟩ := takes_of_size (allocSize?_eq_some_iff.mp sized)
  fits

/-- A struct has a layout if it fits. -/
theorem Complete.structLayout?_of_fits (complete : types.Complete) (acyclic : types.Acyclic)
    (found : types.shape id = .ok (.struct shape)) (fits : types.Fits target id) :
    ∃ layout, Laid (types.Takes target) shape layout
      ∧ types.structLayout? target id = .ok (some layout) := by
  obtain ⟨room, taken, small⟩ := fits id .refl
  cases taken with
  | int found' | ptr found' | float found' | array found' => cases found.symm.trans found'
  | struct found' laid =>
    cases found.symm.trans found'
    refine ⟨_, laid, ?_⟩
    rw [structLayout?_struct found]
    refine congrArg orNone (layoutWith_of_laid (fun field mem room taken => ?_) laid small)
    have below := types.height_le field
    exact complete.extentWithin_eq acyclic (Nat.lt_succ_of_le below)
      ((fits_iff.mp fits).2 field ⟨_, found, mem⟩) taken

/-- A struct with a layout fits. -/
theorem fits_of_structLayout? {layout : StructLayout}
    (found : types.shape id = .ok (.struct shape))
    (laid : types.structLayout? target id = .ok (some layout)) : types.Fits target id := by
  rw [structLayout?_struct found] at laid
  have sized : (types.extentWithin target (types.size + 2) id).size = .ok layout.size := by
    rw [extentWithin_struct found]
    exact congrArg (Except.map _) (orNone_eq_some laid)
  obtain ⟨-, -, -, fits⟩ := takes_of_size sized
  exact fits

/-- An answer is missing exactly if the other one is not found. -/
theorem eq_none_iff_of_some {α : Type} {answer : Except Dangling (Option α)} {P : Prop}
    (answered : ∃ value?, answer = .ok value?) (sound : ∀ value, answer = .ok (some value) → P)
    (complete : P → ∃ value, answer = .ok (some value)) : answer = .ok none ↔ ¬ P := by
  obtain ⟨value?, rfl⟩ := answered
  cases value? with
  | none =>
    refine iff_of_true rfl fun holds => ?_
    obtain ⟨value, same⟩ := complete holds
    cases same
  | some value => exact iff_of_false (by simp) (not_not_intro (sound value rfl))

/-- An arena with a padded struct, and with an array of so many of them that its size is one byte
too large for 64 bits. -/
def padded : Types :=
  ((Types.initial.intern (.struct ⟨none, [.i8, .i64], false, true⟩)).2.intern
    (.array ⟨6⟩ 0x1000000000000000)).2

/-- The arena is made by operations. -/
theorem built_padded : padded.Built :=
  (Built.initial.step (.intern _ (by decide +kernel))).step (.intern _ (by decide +kernel))

end Types

open IrStream.Types

/-- **Sizes and offsets are those of exact arithmetic**, as long as everything in the storage of a
type fits in 64 bits; otherwise there is no answer.  `Takes` and `Laid` count in unbounded numbers,
and determine room and offsets; `Obstructed` says what stands in the way: a part in the storage that
has no size, or whose size does not fit. -/
theorem layout_exact (types : Types) (target : DataLayout) (id : TypeId) (built : types.Built)
    (has : types.Has id) :
    (∀ room room', types.Takes target id room → types.Takes target id room' → room' = room)
    ∧ (types.allocSize? target id = .ok none ↔ types.Obstructed target id)
    ∧ (¬ types.Obstructed target id →
        ∃ room, types.Takes target id room ∧ types.allocSize? target id = .ok (some room.size))
    ∧ ∀ shape, types.shape id = .ok (.struct shape) →
        (∀ layout layout', Laid (types.Takes target) shape layout →
          Laid (types.Takes target) shape layout' → layout' = layout)
        ∧ (types.structLayout? target id = .ok none ↔ types.Obstructed target id)
        ∧ (¬ types.Obstructed target id → ∃ layout, Laid (types.Takes target) shape layout
          ∧ types.structLayout? target id = .ok (some layout)) := by
  have complete := built.complete
  have acyclic := built.acyclic
  have fits : types.Fits target id ↔ ¬ types.Obstructed target id :=
    complete.fits_iff_not_obstructed acyclic has
  have unique {id : TypeId} (room room' : Room) (taken : types.Takes target id room)
      (taken' : types.Takes target id room') : room' = room :=
    complete.takes_unique acyclic taken taken'
  refine ⟨unique, ?_, fun free => complete.allocSize?_of_fits acyclic (fits.mpr free), ?_⟩
  · rw [eq_none_iff_of_some (complete.allocSize?_eq_ok has) (fun _ => fits_of_allocSize?)
      fun h => ?_, fits, not_not]
    obtain ⟨room, -, sized⟩ := complete.allocSize?_of_fits acyclic h
    exact ⟨room.size, sized⟩
  · intro shape found
    refine ⟨fun _ _ => laid_unique fun _ _ => unique, ?_,
      fun free => complete.structLayout?_of_fits acyclic found (fits.mpr free)⟩
    rw [eq_none_iff_of_some (complete.structLayout?_eq_ok has)
      (fun _ => fits_of_structLayout? found) fun h => ?_, fits, not_not]
    obtain ⟨layout, -, laid⟩ := complete.structLayout?_of_fits acyclic found h
    exact ⟨layout, laid⟩

/-- A byte in front of a long integer is padded to sixteen bytes, and an array of these that is
longer than any memory has no layout. -/
theorem layout_exact_padded :
    padded.Obstructed .standard ⟨7⟩
    ∧ (∃ room, padded.Takes .standard ⟨6⟩ room ∧ room.size = 16)
    ∧ ∃ layout, Laid (padded.Takes .standard) ⟨none, [.i8, .i64], false, true⟩ layout
      ∧ layout.offsets = [0, 8] := by
  have large := layout_exact padded .standard ⟨7⟩ built_padded (by decide +kernel)
  have small := layout_exact padded .standard ⟨6⟩ built_padded (by decide +kernel)
  have sized : padded.allocSize? .standard ⟨6⟩ = .ok (some 16) := by decide +kernel
  have placed : padded.structLayout? .standard ⟨6⟩ = .ok (some ⟨16, 8, [0, 8]⟩) := by
    decide +kernel
  have free : ¬ padded.Obstructed .standard ⟨6⟩ := by
    rw [← small.2.1, sized]
    simp
  refine ⟨large.2.1.mp (by decide +kernel), ?_, ?_⟩
  · obtain ⟨room, taken, same⟩ := small.2.2.1 free
    exact ⟨room, taken, Option.some.inj (Except.ok.inj (same.symm.trans sized))⟩
  · obtain ⟨layout, laid, same⟩ :=
      (small.2.2.2 ⟨none, [.i8, .i64], false, true⟩ (by decide +kernel)).2.2 free
    cases same.symm.trans placed
    exact ⟨_, laid, rfl⟩

end IrStream
