import IrStream.Proofs.Program.Lookup
import IrStream.Types.Layout

/-!
# Struct layouts

A layout that `placeFields` answers has one offset for each field.

This is what the stream needs to know of layouts.  A record of a struct has the types of the fields
and their offsets in two lists behind *one* count, so a reader takes as many offsets as fields.  How
large the offsets are, and that fields do not overlap, is of no concern to it; that is the subject
of `Types/Extent.lean` and `Types/Geometry.lean`.

The proof is an induction on the fields.  `placeFields` conses an offset for each field that it
places and gives up at the first one that it cannot, so a list of another length is never answered.
`structLayout?` only adds the look-up of the shape to that, and types that are no structs have no
layout at all.

* `length_offsets_of_placeFields`: fields that are placed have as many offsets.
* `exists_struct_of_structLayout?`: what is laid out is a struct.
* `length_offsets_of_structLayout?`: both of these for a type of an arena.
-/

set_option autoImplicit false

namespace IrStream

variable {packed : Bool} {offset align : Nat} {layout : StructLayout}

/-- A field is aligned and placed, and the others are placed behind it; none of the numbers on the
way may overflow. -/
theorem placeFields_cons_eq_ok_iff {field : Extent} {rest : List Extent} :
    placeFields packed offset align (field :: rest) = .ok layout ↔
      ∃ fieldAlign start size stop others,
        (if packed then .ok 1 else field.align) = .ok fieldAlign
          ∧ checkedSize (roundUp offset fieldAlign) = .ok start
          ∧ field.size = .ok size
          ∧ checkedSize (start + size) = .ok stop
          ∧ placeFields packed stop (max align fieldAlign) rest = .ok others
          ∧ layout = { others with offsets := start :: others.offsets } := by
  rw [placeFields]
  cases packed <;> simp

/-- Each round answers one offset. -/
theorem length_offsets_of_placeFields {fields : List Extent}
    (h : placeFields packed offset align fields = .ok layout) :
    layout.offsets.length = fields.length := by
  induction fields generalizing offset align layout with
  | nil =>
    simp only [placeFields, bind_eq_ok_iff, pure_eq_ok_iff] at h
    obtain ⟨size, -, rfl⟩ := h
    rfl
  | cons field rest ih =>
    obtain ⟨_, _, _, _, others, -, -, -, -, placed, rfl⟩ := placeFields_cons_eq_ok_iff.mp h
    rw [List.length_cons, List.length_cons, ih placed]

namespace Types

theorem orNone_eq_some {α : Type} {answer : Except NoLayout α} {value : α}
    (h : orNone answer = .ok (some value)) : answer = .ok value := by
  unfold orNone at h
  split at h <;> simp_all

/-- A struct is laid out by its fields. -/
theorem structLayout?_struct {types : Types} {target : DataLayout} {id : TypeId}
    {shape : StructShape} (found : types.shape id = .ok (.struct shape)) :
    types.structLayout? target id = orNone (layoutWith (types.extent target) shape) := by
  rw [structLayout?, found]
  rfl

/-- Nothing else is laid out as a struct. -/
theorem structLayout?_of_ne {types : Types} {target : DataLayout} {id : TypeId}
    {shape : TypeShape} (found : types.shape id = .ok shape)
    (other : ∀ body, shape ≠ .struct body) : types.structLayout? target id = .ok none := by
  rw [structLayout?, found]
  cases shape with
  | struct body => exact absurd rfl (other body)
  | _ => rfl

/-- Only structs have fields to lay out. -/
theorem exists_struct_of_structLayout? {types : Types} {target : DataLayout} {id : TypeId}
    {layout : StructLayout} (laid : types.structLayout? target id = .ok (some layout)) :
    ∃ shape, types.shape id = .ok (.struct shape) := by
  rw [structLayout?] at laid
  obtain ⟨shape, found, laid⟩ := bind_eq_ok_iff.mp laid
  split at laid
  · next body => exact ⟨body, found⟩
  · cases laid

/-- **One offset for each field.** -/
theorem length_offsets_of_structLayout? {types : Types} {target : DataLayout} {id : TypeId}
    {shape : StructShape} {layout : StructLayout} (found : types.shape id = .ok (.struct shape))
    (h : types.structLayout? target id = .ok (some layout)) :
    layout.offsets.length = shape.fields.length := by
  rw [structLayout?_struct found] at h
  have placed : layoutWith (types.extent target) shape = .ok layout := orNone_eq_some h
  rw [layoutWith] at placed
  split at placed
  · rw [length_offsets_of_placeFields placed, List.length_map]
  · cases placed

end Types

end IrStream
