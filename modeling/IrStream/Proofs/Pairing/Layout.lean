import IrStream.Encode.Offset
import IrStream.Proofs.Pairing.Lookup
import IrStream.Proofs.Types.Depth

/-!
# Layouts in two type arenas

Related types have the same extent if both are computed with as many layers
(`Types.Embeds.extentWithin_eq`).  The second arena may be larger, so its extents are computed with
more layers, but those tell nothing new of a type that the first arena has.  So related types have
the same sizes and struct layouts.

So related indices add the same offset in programs that are alike, or they have the same fault
(`Program.Alike.agree_pointerOffset`).  Faults are the same up to the type that an index does not
address, which has its other handle in the second program.

Extents are computed by a recursion with a bound for its depth, and the bound is the size of the
arena.  With two arenas there are two bounds, which is the only difficulty here.  It is overcome by
cutting the comparison in two: first both arenas with the *same* bound, by induction on it, where
the recursions go in step; then one arena with two bounds, where more layers refine the answer and a
complete arena leaves nothing to refine.

## Statements

* `Complete.orNone_size`, `Complete.orNone_layoutWith`: in a complete arena, more layers than there
  are types make no difference to any answer.
* `Types.Embeds.allocSize?_eq`, `Types.Embeds.structLayout?_eq`: related types have the same size
  and the same layout.
* `agree_partOffset`, `agree_pathOffset`: one index, and a path of them.
* `agree_pointerOffset`: **related indices add the same offset**, or have the same fault.
-/

set_option autoImplicit false

namespace IrStream

open NoLayout

namespace Types

/-! ## More layers than types

A bound that is larger than needed gives the same answers, including the answer that there is none.
-/

theorem toOption_eq_of_refines {α : Type} {answer answer' : Except NoLayout α}
    (first : ∀ {a}, answer = .ok a → answer' = .ok a)
    (second : ∀ {a}, answer' = .ok a → answer = .ok a) : answer'.toOption = answer.toOption := by
  cases answer with
  | ok a => rw [first rfl]
  | error reason =>
    cases answer' with
    | ok a => cases second rfl
    | error reason => rfl

variable {types : Types} {target : DataLayout} {more : Nat}

section

variable (complete : types.Complete) (enough : types.size + 1 ≤ more)
include complete enough

/-- A size computed with more layers is the same answer. -/
theorem Complete.orNone_size {id : TypeId} (has : types.Has id) :
    orNone (types.extentWithin target more id).size = types.allocSize? target id := by
  rw [allocSize?, extent, (complete.resolved_extentWithin more has).size.orNone_eq,
    (complete.resolved_extentWithin _ has).size.orNone_eq]
  exact congrArg Except.ok (toOption_eq_of_refines (extentWithin_mono enough id).size
    (extentWithin_stable (Nat.le_succ _) enough id).size)

/-- A struct laid out with more layers is laid out the same. -/
theorem Complete.orNone_layoutWith {id : TypeId} {shape : StructShape}
    (found : types.shape id = .ok (.struct shape)) :
    orNone (layoutWith (types.extentWithin target more) shape)
      = orNone (layoutWith (types.extent target) shape) := by
  have resolved (depth : Nat) : Resolved (layoutWith (types.extentWithin target depth) shape) :=
    resolved_layoutWith fun field mem =>
      complete.resolved_extentWithin depth (complete found field mem)
  have refines {depth depth' : Nat} (known : ∀ id, (types.extentWithin target depth id).Refines
        (types.extentWithin target depth' id)) {layout : StructLayout}
      (laid : layoutWith (types.extentWithin target depth) shape = .ok layout) :
      layoutWith (types.extentWithin target depth') shape = .ok layout := by
    obtain ⟨body, placed⟩ := layoutWith_eq_ok_iff.mp laid
    exact layoutWith_eq_ok_iff.mpr ⟨body, placeFields_refines known placed⟩
  have whole : types.extent target = types.extentWithin target (types.size + 1) := rfl
  rw [whole, (resolved more).orNone_eq, (resolved _).orNone_eq]
  exact congrArg Except.ok (toOption_eq_of_refines (refines (extentWithin_mono enough))
    (refines (extentWithin_stable (Nat.le_succ _) enough)))

end

namespace Embeds

variable {R : TypeId → TypeId → Prop} {small large : Types} (embeds : small.Embeds R large)
  {target : DataLayout}
include embeds

/-- Related types have the same extent with as many layers. -/
theorem extentWithin_eq (depth : Nat) {id other : TypeId} (related : R id other) :
    large.extentWithin target depth other = small.extentWithin target depth id := by
  induction depth generalizing id other with
  | zero => rfl
  | succ depth ih =>
    obtain ⟨shape, shape', found, there, alike⟩ := embeds.shape related
    rw [extentWithin, extentWithin, found, there]
    cases alike with
    | void | int | ptr | float | func => rfl
    | struct name packed hasBody fields =>
      dsimp only [layoutWith]
      rw [map_eq_of_forall₂ fields ih]
    | array length elem =>
      dsimp only
      rw [ih elem]

theorem allocSize?_eq {id other : TypeId} (related : R id other) :
    large.allocSize? target other = small.allocSize? target id := by
  rw [allocSize?, extent, embeds.extentWithin_eq _ related]
  exact embeds.complete.orNone_size (Nat.succ_le_succ embeds.size_le) (embeds.has related).1

/-- Related structs have related fields, so they are laid out the same. -/
theorem structLayout?_eq {id other : TypeId} (related : R id other) :
    large.structLayout? target other = small.structLayout? target id := by
  obtain ⟨shape, shape', found, there, alike⟩ := embeds.shape related
  cases alike with
  | @struct fields others name packed hasBody parts =>
    have same : layoutWith (large.extent target) ⟨name, others, packed, hasBody⟩
        = layoutWith (small.extentWithin target (large.size + 1))
          ⟨name, fields, packed, hasBody⟩ := by
      have parts : others.map (large.extent target)
          = fields.map (small.extentWithin target (large.size + 1)) :=
        map_eq_of_forall₂ parts (embeds.extentWithin_eq _)
      dsimp only [layoutWith]
      rw [parts]
    rw [structLayout?_struct found, structLayout?_struct there, same]
    exact embeds.complete.orNone_layoutWith (Nat.succ_le_succ embeds.size_le) found
  | _ => rw [structLayout?_of_ne found (by simp), structLayout?_of_ne there (by simp)]

end Embeds

end Types

/-! ## Pointer offsets -/

/-- The faults are the same up to handles of types. -/
inductive OffsetFault.Alike (R : TypeId → TypeId → Prop) : OffsetFault → OffsetFault → Prop
  | nonConstant : Alike R .nonConstant .nonConstant
  | invalid (index : Nat) {type other : TypeId} (related : R type other) :
      Alike R (.invalid index type) (.invalid index other)
  | dangling (handle : Dangling) : Alike R (.dangling handle) (.dangling handle)

/-- A look-up whose answers agree is still one if it is part of computing an offset. -/
theorem Agree.toOffset {α β : Type} {R : TypeId → TypeId → Prop} {Q : α → β → Prop}
    {answer : Except Dangling α} {answer' : Except Dangling β} (agree : Agree Eq Q answer answer') :
    Agree (OffsetFault.Alike R) Q (answer.mapError .dangling) (answer'.mapError .dangling) :=
  agree.mapError fun same => same ▸ .dangling _

namespace Program.Alike

open OffsetFault

variable {m : Pairing} {small large : Program} (programs : small.Alike m large)
include programs

/-- An index that is a constant has the same bits in both programs. -/
theorem agree_indexValue {index other : Operand} (used : index.Alike m other) :
    Agree (OffsetFault.Alike m.type) Eq (small.indexValue index) (large.indexValue other) := by
  cases used with
  | const related =>
    refine (programs.agree_constant related).toOffset.bind fun {constant _} same => ?_
    cases same with
    | int bits typed =>
      refine (programs.types.agree_shape typed).toOffset.bind fun same => ?_
      cases same with
      | int => exact .pure rfl
      | _ => exact .error .nonConstant
    | _ => exact .error .nonConstant
  | _ => exact .error .nonConstant

theorem agree_scaledOffset (position : Nat) {reached reached' type other : TypeId}
    (stepped : m.type reached reached') (related : m.type type other) (value : BitVec 64) :
    Agree (OffsetFault.Alike m.type) Eq (small.scaledOffset position reached type value)
      (large.scaledOffset position reached' other value) := by
  rw [scaledOffset, scaledOffset, programs.layout, programs.types.allocSize?_eq related]
  refine (Agree.refl _).toOffset.bind fun {size? _} same => ?_
  cases same
  cases size? with
  | some size => exact .pure rfl
  | none => exact .error (.invalid position stepped)

/-- The same part of related types is selected. -/
theorem agree_partOffset (position : Nat) {type other : TypeId} (related : m.type type other)
    (value : BitVec 64) :
    Agree (OffsetFault.Alike m.type) (fun a b => a.1 = b.1 ∧ m.type a.2 b.2)
      (small.partOffset position type value) (large.partOffset position other value) := by
  rw [partOffset, partOffset, programs.layout, programs.types.structLayout?_eq related]
  refine (programs.types.agree_shape related).toOffset.bind fun same => ?_
  cases same with
  | @struct fields others name packed hasBody parts =>
    dsimp only
    split
    · exact .error (.invalid position related)
    · have selected := optionRel_getElem? parts value.toNat
      generalize fields[value.toNat]? = field?, others[value.toNat]? = field'? at selected
      cases selected with
      | none => exact .error (.invalid position related)
      | some field =>
        refine (Agree.refl _).toOffset.bind fun same => ?_
        cases same
        split
        · exact .pure ⟨rfl, field⟩
        · exact .error (.invalid position related)
  | array length elem =>
    exact (programs.agree_scaledOffset position related elem value).bind
      fun same => .pure ⟨same, elem⟩
  | _ => exact .error (.invalid position related)

/-- Index by index; the parts that are reached are related again. -/
theorem agree_pathOffset {indices others : List Operand}
    (used : List.Forall₂ (Operand.Alike m) indices others) (position : Nat) {type other : TypeId}
    (related : m.type type other) :
    Agree (OffsetFault.Alike m.type) Eq (small.pathOffset position type indices)
      (large.pathOffset position other others) := by
  induction used generalizing position type other with
  | nil => exact .pure rfl
  | cons here _ ih =>
    rw [pathOffset, pathOffset]
    refine (programs.agree_indexValue here).bind fun same => ?_
    subst same
    refine (programs.agree_partOffset position related _).bind fun ⟨same, part⟩ => ?_
    exact (ih (position + 1) part).bind fun rest => .pure (by rw [same, rest])

/-- **Related indices add the same offset**, or have the same fault. -/
theorem agree_pointerOffset {indices others : List Operand}
    (used : List.Forall₂ (Operand.Alike m) indices others) {source other : TypeId}
    (related : m.type source other) :
    Agree (OffsetFault.Alike m.type) Eq (small.pointerOffset source indices)
      (large.pointerOffset other others) := by
  cases used with
  | nil => exact .pure rfl
  | cons here rest =>
    rw [pointerOffset, pointerOffset]
    refine (programs.agree_indexValue here).bind fun same => ?_
    subst same
    refine (programs.agree_scaledOffset 0 related related _).bind fun same => ?_
    exact (programs.agree_pathOffset rest 1 related).bind fun others => .pure (by rw [same, others])

end Program.Alike

end IrStream
