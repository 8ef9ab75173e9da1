import IrStream.Proofs.Program.Complete
import IrStream.Proofs.Types.Layout

/-!
# The memory of a type and of its parts

* In an arena that is complete every query for a layout is answered (`Complete.allocSize?_eq_ok`,
  `Complete.structLayout?_eq_ok`).
* Layouts are computed down to as many layers as there are types.  A size that is found with some
  layers is found with more of them (`extentWithin_refines`), so the size of a struct is that of
  its layout (`exists_structLayout?`) and the size of an array is that of its elements
  (`exists_allocSize?_elem`).
* Struct fields lie behind each other, and all of them inside the struct (`field_of_structLayout?`).

An extent has an alignment and a size, and either may be missing: because there is none, because it
does not fit in 64 bits, or because a handle dangles.  The three are different answers, and callers
treat them differently, so each lemma says of which it speaks.  `Resolved` excludes the last one
once and for all.  What is then missing is missing because of the type.

`Refines` compares two answers to the same question, of which the second one knows more.  It is what
more layers give, and all of the calculation is monotone in it: a struct whose fields are known
better is known better.  So a size that was found with few layers is the size, and the questions
about structs and arrays can be taken apart into questions about their parts, although these are
asked with one layer less.
-/

set_option autoImplicit false

namespace IrStream

/-! ## Layouts without dangling handles

An answer that is missing for a handle outside its arena would be an error, and one that is missing
for any other reason is `none`.  So where the first is excluded, a query for a layout succeeds with
an optional answer (`Resolved.orNone_eq`). -/

/-- A layout that is missing is not missing for a handle outside its arena. -/
def NoLayout.Resolved {α : Type} (answer : Except NoLayout α) : Prop :=
  ∀ handle, answer ≠ .error (.dangling handle)

namespace NoLayout

variable {α β : Type}

/-- An answer is not missing. -/
theorem Resolved.ok (value : α) : Resolved (.ok value) := fun _ h => nomatch h

/-- A calculation in steps is resolved if its steps are. -/
theorem Resolved.bind {answer : Except NoLayout α} {next : α → Except NoLayout β}
    (first : Resolved answer) (second : ∀ a, Resolved (next a)) : Resolved (answer >>= next) := by
  intro handle h
  rcases bind_eq_error_iff.mp h with h | ⟨a, -, h⟩
  · exact first handle h
  · exact second a handle h

/-- A size that is too large is missing for that reason. -/
theorem resolved_checkedSize (size : Nat) : Resolved (checkedSize size) := by
  rw [checkedSize]
  split
  · exact .ok size
  · exact fun _ h => nomatch h

/-- What is made of an answer is missing where the answer is. -/
theorem Resolved.map {answer : Except NoLayout α} (h : Resolved answer) (f : α → β) :
    Resolved (answer.map f) := by
  cases answer with
  | ok value => exact .ok _
  | error reason =>
    intro handle same
    cases same
    exact h handle rfl

/-- A resolved answer becomes an optional one. -/
theorem Resolved.orNone_eq {answer : Except NoLayout α} (h : Resolved answer) :
    Types.orNone answer = .ok answer.toOption := by
  cases answer with
  | ok value => rfl
  | error reason =>
    cases reason with
    | dangling handle => exact absurd rfl (h handle)
    | _ => rfl

end NoLayout

open NoLayout

namespace Extent

/-- Neither question about the extent fails for a handle outside its arena. -/
structure Resolved (extent : Extent) : Prop where
  align : NoLayout.Resolved extent.align
  size : NoLayout.Resolved extent.size

/-- What the first extent knows, the second one knows as well. -/
structure Refines (first second : Extent) : Prop where
  align : ∀ {align}, first.align = .ok align → second.align = .ok align
  size : ∀ {size}, first.size = .ok size → second.size = .ok size

/-- An extent knows what it knows. -/
theorem Refines.refl (extent : Extent) : extent.Refines extent := ⟨id, id⟩

/-- Numbers and pointers have both, an alignment and a size. -/
theorem resolved_scalar (bytes align : Nat) : (scalar bytes align).Resolved :=
  ⟨.ok align, resolved_checkedSize _⟩

/-- What has no layout has none by its nature. -/
theorem resolved_unsized : (missing .unsized).Resolved :=
  ⟨fun _ h => (nomatch h), fun _ h => (nomatch h)⟩

/-- An array is resolved if its element is. -/
theorem Resolved.times {elem : Extent} (h : elem.Resolved) (length : Nat) :
    (elem.times length).Resolved :=
  ⟨h.align, h.size.bind fun _ => resolved_checkedSize _⟩

/-- An array is known better if its element is. -/
theorem Refines.times {first second : Extent} (h : first.Refines second) (length : Nat) :
    (first.times length).Refines (second.times length) := by
  refine ⟨h.align, fun {size} found => ?_⟩
  simp only [Extent.times, bind_eq_ok_iff] at found ⊢
  obtain ⟨elem, known, found⟩ := found
  exact ⟨elem, h.size known, found⟩

end Extent

/-- Placing fields asks nothing of the arena but what the fields take. -/
theorem resolved_placeFields {packed : Bool} {fields : List Extent}
    (resolved : ∀ field ∈ fields, field.Resolved) (offset align : Nat) :
    Resolved (placeFields packed offset align fields) := by
  induction fields generalizing offset align with
  | nil => exact (resolved_checkedSize _).bind fun _ => .ok _
  | cons field rest ih =>
    have known := resolved field List.mem_cons_self
    have more := ih fun other mem => resolved other (List.mem_cons_of_mem _ mem)
    have placed (fieldAlign : Nat) := (resolved_checkedSize (roundUp offset fieldAlign)).bind
      fun start => known.size.bind fun size => (resolved_checkedSize (start + size)).bind
        fun stop => (more stop (max align fieldAlign)).bind
          fun layout => .ok { layout with offsets := start :: layout.offsets }
    rw [placeFields]
    split
    · exact placed 1
    · exact known.align.bind placed

/-- Fields of which more is known are placed the same. -/
theorem placeFields_refines {packed : Bool} {ids : List TypeId} {first second : TypeId → Extent}
    (refines : ∀ id, (first id).Refines (second id)) {offset align : Nat} {layout : StructLayout}
    (placed : placeFields packed offset align (ids.map first) = .ok layout) :
    placeFields packed offset align (ids.map second) = .ok layout := by
  induction ids generalizing offset align layout with
  | nil => exact placed
  | cons id rest ih =>
    rw [List.map_cons, placeFields_cons_eq_ok_iff] at placed ⊢
    obtain ⟨fieldAlign, start, size, stop, others, aligned, started, sized, rest⟩ := placed
    obtain ⟨stopped, placed, same⟩ := rest
    refine ⟨fieldAlign, start, size, stop, others, ?_, started, (refines id).size sized, stopped,
      ih placed, same⟩
    split at aligned
    · next isPacked => rwa [if_pos isPacked]
    · next isPacked => rw [if_neg isPacked]; exact (refines id).align aligned

/-! ## The places of fields

Fields are placed from left to right.  A run of the placement begins at some offset behind the
fields that are there already, and what it answers lies behind that offset; that is the induction
hypothesis, and everything about the order of fields follows from it. -/

/-- A size passes the check if it is below the limit, and is not changed by it. -/
theorem checkedSize_eq_ok_iff {size value : Nat} :
    checkedSize size = .ok value ↔ size < sizeLimit ∧ value = size := by
  rw [checkedSize]
  split
  · next fits => exact ⟨fun h => ⟨fits, (Except.ok.inj h).symm⟩, fun h => by rw [h.2]⟩
  · next fits => exact ⟨fun h => (nomatch h), fun h => absurd h.1 fits⟩

/-- Rounding up never goes down. -/
theorem le_roundUp (value align : Nat) : value ≤ roundUp value align := by
  rw [roundUp]
  split
  · exact Nat.le_refl value
  · next large =>
    have split := Nat.div_add_mod (value + align - 1) align
    have bound := Nat.mod_lt (value + align - 1) (show 0 < align by omega)
    rw [Nat.mul_comm] at split
    omega

/-- Behind the last field the struct is rounded up to its alignment, and that has to be below the
limit. -/
theorem placeFields_nil_eq_ok_iff {packed : Bool} {offset align : Nat} {layout : StructLayout} :
    placeFields packed offset align [] = .ok layout ↔
      roundUp offset align < sizeLimit ∧ layout = ⟨roundUp offset align, align, []⟩ := by
  simp only [placeFields, bind_eq_ok_iff, pure_eq_ok_iff, checkedSize_eq_ok_iff]
  constructor
  · rintro ⟨_, ⟨fits, rfl⟩, same⟩
    exact ⟨fits, same⟩
  · rintro ⟨fits, same⟩
    exact ⟨_, ⟨fits, rfl⟩, same⟩

section

variable {packed : Bool} {offset align : Nat} {layout : StructLayout} {fields : List Extent}

/-- Fields are placed behind what is there already, and the struct ends behind them. -/
theorem bounds_of_placeFields (placed : placeFields packed offset align fields = .ok layout) :
    offset ≤ layout.size ∧ layout.size < sizeLimit ∧ ∀ start ∈ layout.offsets, offset ≤ start := by
  induction fields generalizing offset align layout with
  | nil =>
    obtain ⟨fits, rfl⟩ := placeFields_nil_eq_ok_iff.mp placed
    exact ⟨le_roundUp offset align, fits, fun _ mem => (nomatch mem)⟩
  | cons field rest ih =>
    obtain ⟨fieldAlign, start, size, stop, others, -, started, -, stopped, placed, rfl⟩ :=
      placeFields_cons_eq_ok_iff.mp placed
    obtain ⟨-, rfl⟩ := checkedSize_eq_ok_iff.mp started
    obtain ⟨-, rfl⟩ := checkedSize_eq_ok_iff.mp stopped
    obtain ⟨below, fits, later⟩ := ih placed
    have first : offset ≤ roundUp offset fieldAlign := le_roundUp offset fieldAlign
    refine ⟨by dsimp only; omega, fits, fun other mem => ?_⟩
    rcases List.mem_cons.mp mem with rfl | mem
    · exact first
    · have := later other mem
      omega

/-- **Fields do not overlap.**  A field ends inside the struct, and before any later one starts. -/
theorem field_of_placeFields (placed : placeFields packed offset align fields = .ok layout)
    {number start : Nat} {field : Extent} (found : fields[number]? = some field)
    (starts : layout.offsets[number]? = some start) :
    ∃ size, field.size = .ok size ∧ start + size ≤ layout.size
      ∧ ∀ later other, number < later → layout.offsets[later]? = some other →
        start + size ≤ other := by
  induction fields generalizing offset align layout number with
  | nil => cases found
  | cons first rest ih =>
    obtain ⟨fieldAlign, place, size, stop, others, -, -, sized, stopped, more, rfl⟩ :=
      placeFields_cons_eq_ok_iff.mp placed
    cases number with
    | zero =>
      cases found
      cases starts
      obtain ⟨-, rfl⟩ := checkedSize_eq_ok_iff.mp stopped
      obtain ⟨below, -, behind⟩ := bounds_of_placeFields more
      refine ⟨size, sized, below, fun later other positive there => ?_⟩
      obtain ⟨later, rfl⟩ := Nat.exists_eq_succ_of_ne_zero (Nat.ne_of_gt positive)
      exact behind other (List.mem_of_getElem? there)
    | succ number =>
      obtain ⟨size, sized, inside, before⟩ := ih more found starts
      refine ⟨size, sized, inside, fun later other less there => ?_⟩
      obtain ⟨later, rfl⟩ := Nat.exists_eq_succ_of_ne_zero (Nat.ne_of_gt (Nat.zero_lt_of_lt less))
      exact before later other (Nat.lt_of_succ_lt_succ less) there

end

/-! ## Types

The extent of a type with a number of layers is made of the extents of its parts with one layer
less.  So what holds of placing fields carries over to types by induction on the layers. -/

namespace Types

variable {types : Types} {target : DataLayout} {id : TypeId}

/-- A struct is laid out if it has a body and its fields can be placed. -/
theorem layoutWith_eq_ok_iff {extent : TypeId → Extent} {shape : StructShape}
    {layout : StructLayout} : layoutWith extent shape = .ok layout ↔
      shape.hasBody = true
        ∧ placeFields shape.packed 0 1 (shape.fields.map extent) = .ok layout := by
  rw [layoutWith]
  split
  · next body => simp [body]
  · next body => simp [body]

/-- A struct is resolved if its fields are. -/
theorem resolved_layoutWith {extent : TypeId → Extent} {shape : StructShape}
    (resolved : ∀ field ∈ shape.fields, (extent field).Resolved) :
    Resolved (layoutWith extent shape) := by
  rw [layoutWith]
  split
  · refine resolved_placeFields (fun field mem => ?_) 0 1
    obtain ⟨id, listed, rfl⟩ := List.mem_map.mp mem
    exact resolved id listed
  · rintro handle ⟨⟩

/-- By induction on the number of layers: the parts of a type are in the arena if the type is. -/
theorem Complete.resolved_extentWithin (complete : types.Complete) (depth : Nat)
    (has : types.Has id) :
    (types.extentWithin target depth id).Resolved := by
  induction depth generalizing id with
  | zero => exact Extent.resolved_unsized
  | succ depth ih =>
    obtain ⟨shape, found⟩ := has.exists_shape
    have parts := complete found
    simp only [extentWithin, found]
    cases shape with
    | void | func => exact Extent.resolved_unsized
    | int | ptr | float => exact Extent.resolved_scalar _ _
    | struct shape =>
      have laid := resolved_layoutWith fun field mem => ih (parts field mem)
      exact ⟨laid.map _, laid.map _⟩
    | array elem length => exact (ih (parts elem List.mem_cons_self)).times length.toNat

/-- A complete arena answers how large a type is. -/
theorem Complete.allocSize?_eq_ok (complete : types.Complete) (has : types.Has id) :
    ∃ size?, types.allocSize? target id = .ok size? :=
  ⟨_, (complete.resolved_extentWithin _ has).size.orNone_eq⟩

/-- A complete arena answers how a type is aligned. -/
theorem Complete.abiAlign?_eq_ok (complete : types.Complete) (has : types.Has id) :
    ∃ align?, types.abiAlign? target id = .ok align? :=
  ⟨_, (complete.resolved_extentWithin _ has).align.orNone_eq⟩

/-- A complete arena answers how much of a type is stored. -/
theorem Complete.storeSize?_eq_ok (complete : types.Complete) (has : types.Has id) :
    ∃ size?, types.storeSize? target id = .ok size? := by
  obtain ⟨shape, found⟩ := has.exists_shape
  rw [storeSize?, found]
  cases shape with
  | int | ptr | float => exact ⟨_, rfl⟩
  | _ => exact complete.allocSize?_eq_ok has

/-- A complete arena answers how a struct is laid out. -/
theorem Complete.structLayout?_eq_ok (complete : types.Complete) (has : types.Has id) :
    ∃ layout?, types.structLayout? target id = .ok layout? := by
  obtain ⟨shape, found⟩ := has.exists_shape
  cases shape with
  | struct shape =>
    rw [structLayout?_struct found]
    exact ⟨_, (resolved_layoutWith fun field mem =>
      complete.resolved_extentWithin _ (complete found field mem)).orNone_eq⟩
  | _ => exact ⟨none, structLayout?_of_ne found (by simp)⟩

/-! ### More layers

With no layers left nothing is known.  With one more, whatever was known still is, and no answer is
replaced by another one. -/

/-- If more is known of the parts of a type, more is known of the type. -/
theorem extentWithin_succ_refines {depth more : Nat}
    (refines : ∀ id,
      (types.extentWithin target depth id).Refines (types.extentWithin target more id))
    (id : TypeId) : (types.extentWithin target (depth + 1) id).Refines
      (types.extentWithin target (more + 1) id) := by
  rw [extentWithin, extentWithin]
  cases types.shape id with
  | error handle => exact .refl _
  | ok shape =>
    cases shape with
    | struct shape =>
      have known {layout} (h : layoutWith (types.extentWithin target depth) shape = .ok layout) :
          layoutWith (types.extentWithin target more) shape = .ok layout := by
        obtain ⟨body, placed⟩ := layoutWith_eq_ok_iff.mp h
        exact layoutWith_eq_ok_iff.mpr ⟨body, placeFields_refines refines placed⟩
      constructor
      all_goals
        intro value found
        cases laid : layoutWith (types.extentWithin target depth) shape with
        | error reason => simp [Extent.ofLayout, laid, Except.map] at found
        | ok layout => simpa [Extent.ofLayout, laid, known laid, Except.map] using found
    | array elem length => exact (refines elem).times length.toNat
    | _ => exact .refl _

/-- One layer more is one layer better. -/
theorem extentWithin_refines (depth : Nat) (id : TypeId) :
    (types.extentWithin target depth id).Refines (types.extentWithin target (depth + 1) id) := by
  induction depth generalizing id with
  | zero => exact ⟨fun h => (nomatch h), fun h => (nomatch h)⟩
  | succ depth ih => exact extentWithin_succ_refines ih id

/-- A size is answered exactly where the extent has it. -/
theorem allocSize?_eq_some_iff {size : Nat} :
    types.allocSize? target id = .ok (some size) ↔ (types.extent target id).size = .ok size := by
  rw [allocSize?]
  constructor
  · exact orNone_eq_some
  · intro h
    rw [h, orNone]

/-- The size of a struct is that of its layout. -/
theorem exists_structLayout? {shape : StructShape} {size : Nat}
    (found : types.shape id = .ok (.struct shape))
    (sized : types.allocSize? target id = .ok (some size)) :
    ∃ layout, types.structLayout? target id = .ok (some layout) ∧ layout.size = size := by
  rw [allocSize?_eq_some_iff, extent, extentWithin, found] at sized
  cases laid : layoutWith (types.extentWithin target types.size) shape with
  | error reason => simp [Extent.ofLayout, laid, Except.map] at sized
  | ok layout =>
    obtain ⟨body, placed⟩ := layoutWith_eq_ok_iff.mp laid
    have more : layoutWith (types.extent target) shape = .ok layout :=
      layoutWith_eq_ok_iff.mpr ⟨body, placeFields_refines (extentWithin_refines _) placed⟩
    refine ⟨layout, ?_, ?_⟩
    · rw [structLayout?_struct found]
      exact congrArg orNone more
    · simpa [Extent.ofLayout, laid, Except.map] using sized

/-- The size of an array is that of all its elements. -/
theorem exists_allocSize?_elem {elem : TypeId} {length : UInt64} {size : Nat}
    (found : types.shape id = .ok (.array elem length))
    (sized : types.allocSize? target id = .ok (some size)) :
    ∃ one, types.allocSize? target elem = .ok (some one) ∧ one * length.toNat = size := by
  rw [allocSize?_eq_some_iff, extent, extentWithin, found] at sized
  simp only [Extent.times, bind_eq_ok_iff, checkedSize_eq_ok_iff] at sized
  obtain ⟨one, known, -, total⟩ := sized
  exact ⟨one, allocSize?_eq_some_iff.mpr ((extentWithin_refines _ elem).size known), total.symm⟩

/-- A size that is answered has passed the checks for overflow on its way. -/
theorem size_lt_of_extentWithin {depth : Nat} {size : Nat}
    (sized : (types.extentWithin target depth id).size = .ok size) : size < sizeLimit := by
  cases depth with
  | zero => cases sized
  | succ depth =>
    rw [extentWithin] at sized
    split at sized
    · cases sized
    · cases sized
    · exact (checkedSize_eq_ok_iff.mp sized).2 ▸ (checkedSize_eq_ok_iff.mp sized).1
    · exact (checkedSize_eq_ok_iff.mp sized).2 ▸ (checkedSize_eq_ok_iff.mp sized).1
    · exact (checkedSize_eq_ok_iff.mp sized).2 ▸ (checkedSize_eq_ok_iff.mp sized).1
    · cases sized
    · next shape _ =>
      cases laid : layoutWith (types.extentWithin target depth) shape with
      | error reason => simp [Extent.ofLayout, laid, Except.map] at sized
      | ok layout =>
        have total : layout.size = size := by simpa [Extent.ofLayout, laid, Except.map] using sized
        exact total ▸ (bounds_of_placeFields (layoutWith_eq_ok_iff.mp laid).2).2.1
    · simp only [Extent.times, bind_eq_ok_iff, checkedSize_eq_ok_iff] at sized
      obtain ⟨one, -, fits, total⟩ := sized
      exact total ▸ fits

/-- Sizes are below the limit. -/
theorem size_lt_sizeLimit {size : Nat} (sized : types.allocSize? target id = .ok (some size)) :
    size < sizeLimit :=
  size_lt_of_extentWithin (allocSize?_eq_some_iff.mp sized)

/-! ### Fields

Fields of a struct with a layout, for callers that know nothing of how it was computed. -/

/-- **A field of a struct with a layout has a size**, ends inside the struct and before any later
field starts. -/
theorem field_of_structLayout? {shape : StructShape} {layout : StructLayout} {number start : Nat}
    {field : TypeId} (found : types.shape id = .ok (.struct shape))
    (laid : types.structLayout? target id = .ok (some layout))
    (there : shape.fields[number]? = some field) (starts : layout.offsets[number]? = some start) :
    ∃ size, types.allocSize? target field = .ok (some size) ∧ start + size ≤ layout.size
      ∧ ∀ later other, number < later → layout.offsets[later]? = some other →
        start + size ≤ other := by
  rw [structLayout?_struct found] at laid
  obtain ⟨-, placed⟩ := layoutWith_eq_ok_iff.mp (orNone_eq_some laid)
  have mapped : (shape.fields.map (types.extent target))[number]?
      = some (types.extent target field) := by
    rw [List.getElem?_map, there, Option.map_some]
  obtain ⟨size, sized, inside, before⟩ := field_of_placeFields placed mapped starts
  exact ⟨size, allocSize?_eq_some_iff.mpr sized, inside, before⟩

end Types

end IrStream
