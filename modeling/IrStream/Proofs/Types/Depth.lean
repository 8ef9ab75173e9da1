import IrStream.Proofs.Types.Extent
import Mathlib.Data.Fintype.Card

/-!
# How many layers a layout needs

An extent is computed down to some number of layers of structs and arrays.  More layers than there
are types tell nothing new (`extentWithin_stable`), whether or not types contain themselves: with
each further layer that tells something, one more type gets its alignment, and there are no more
types than that.

That is a counting argument and not an induction on types.  A struct that contains itself has layers
without end, so nothing goes down; but it never gets an alignment either, however many layers are
looked at.  So consider the set of types that have an alignment with a given number of layers.  It
grows with the number, and it is a set of at most as many elements as there are types.  If it does
not grow once, it never grows again, because what one more layer tells depends on what the layers
below it tell (`refines_of_aligned`).  So it has stopped growing by the time there are as many
layers as types.

Alignments are what is counted because sizes would not do: a type may have an alignment and no size,
and gets the size that it has at the same time as the alignment, if ever (`size_of_align`).

## Statements

* `exists_stable_of_subset`: sets of positions that only grow have stopped growing after as many
  steps as there are positions.
* `refines_of_aligned`: if one more layer gives no type its alignment, it tells nothing.
* `extentWithin_stable`: **as many layers as there are types are enough.**
* `extentWithin_mono`: and with fewer layers nothing else is told, only less.
-/

set_option autoImplicit false

namespace IrStream

/-- Sets of positions that only grow are the same twice in a row, at the latest when they have had
the chance to grow once for each position. -/
theorem exists_stable_of_subset {count : Nat} {sets : Nat → Finset (Fin count)}
    (grows : ∀ step, sets step ⊆ sets (step + 1)) :
    ∃ step ≤ count, sets (step + 1) ⊆ sets step := by
  by_contra changes
  push Not at changes
  have large : ∀ step ≤ count + 1, step ≤ (sets step).card := by
    intro step bound
    induction step with
    | zero => exact Nat.zero_le _
    | succ step ih =>
      have more := Finset.card_lt_card ⟨grows step, changes step (by omega)⟩
      have := ih (by omega)
      omega
  have most := Finset.card_le_univ (sets (count + 1))
  rw [Fintype.card_fin] at most
  exact absurd (large (count + 1) (Nat.le_refl _)) (by omega)

theorem Extent.Refines.trans {first second third : Extent} (one : first.Refines second)
    (two : second.Refines third) : first.Refines third :=
  ⟨fun found => two.align (one.align found), fun found => two.size (one.size found)⟩

namespace Types

variable {types : Types} {target : DataLayout}

/-! ## Alignment and size -/

/-- A struct has its alignment and its size from one layout. -/
theorem extentWithin_struct {depth : Nat} {id : TypeId} {shape : StructShape}
    (found : types.shape id = .ok (.struct shape)) :
    types.extentWithin target (depth + 1) id
      = .ofLayout (layoutWith (types.extentWithin target depth) shape) := by
  rw [extentWithin, found]

theorem extentWithin_array {depth : Nat} {id elem : TypeId} {length : UInt64}
    (found : types.shape id = .ok (.array elem length)) :
    types.extentWithin target (depth + 1) id
      = (types.extentWithin target depth elem).times length.toNat := by
  rw [extentWithin, found]

/-- A type with a size has an alignment. -/
theorem exists_align_of_size {depth size : Nat} {id : TypeId}
    (sized : (types.extentWithin target depth id).size = .ok size) :
    ∃ align, (types.extentWithin target depth id).align = .ok align := by
  induction depth generalizing id size with
  | zero => cases sized
  | succ depth ih =>
    cases found : types.shape id with
    | error handle =>
      rw [extentWithin, found] at sized
      cases sized
    | ok shape =>
      cases shape with
      | struct shape =>
        rw [extentWithin_struct found] at sized ⊢
        cases laid : layoutWith (types.extentWithin target depth) shape with
        | error reason => simp [Extent.ofLayout, laid, Except.map] at sized
        | ok layout => exact ⟨layout.align, rfl⟩
      | array elem length =>
        rw [extentWithin_array found] at sized ⊢
        simp only [Extent.times, bind_eq_ok_iff] at sized
        obtain ⟨one, known, -⟩ := sized
        exact ih known
      | int | ptr | float =>
        rw [extentWithin, found]
        exact ⟨_, rfl⟩
      | void | func =>
        rw [extentWithin, found] at sized
        cases sized

/-- One more layer tells the size of no type that has its alignment already. -/
theorem size_of_align {depth align size : Nat} {id : TypeId}
    (aligned : (types.extentWithin target depth id).align = .ok align)
    (sized : (types.extentWithin target (depth + 1) id).size = .ok size) :
    (types.extentWithin target depth id).size = .ok size := by
  induction depth generalizing id align size with
  | zero => cases aligned
  | succ depth ih =>
    cases found : types.shape id with
    | error handle =>
      rw [extentWithin, found] at aligned
      cases aligned
    | ok shape =>
      -- a struct has both answers from one layout, and an array has the alignment of its elements
      cases shape with
      | struct shape =>
        rw [extentWithin_struct found] at aligned
        cases laid : layoutWith (types.extentWithin target depth) shape with
        | error reason => simp [Extent.ofLayout, laid, Except.map] at aligned
        | ok layout =>
          have known : (types.extentWithin target (depth + 1) id).size = .ok layout.size := by
            rw [extentWithin_struct found, laid]
            rfl
          cases ((extentWithin_refines (depth + 1) id).size known).symm.trans sized
          exact known
      | array elem length =>
        rw [extentWithin_array found] at aligned sized ⊢
        simp only [Extent.times, bind_eq_ok_iff] at sized ⊢
        obtain ⟨one, known, total⟩ := sized
        exact ⟨one, ih aligned known, total⟩
      | int | ptr | float =>
        rw [extentWithin, found] at sized ⊢
        exact sized
      | void | func =>
        rw [extentWithin, found] at sized
        cases sized

/-! ## Enough layers -/

variable (types) (target) in
/-- Types that have an alignment with so many layers. -/
noncomputable def aligned (depth : Nat) : Finset (Fin types.size) := by
  classical exact Finset.univ.filter fun index =>
    ∃ align, (types.extentWithin target depth ⟨index⟩).align = .ok align

theorem mem_aligned {depth : Nat} {index : Fin types.size} :
    index ∈ types.aligned target depth ↔
      ∃ align, (types.extentWithin target depth ⟨index⟩).align = .ok align := by
  classical
  rw [aligned, Finset.mem_filter]
  exact and_iff_right (Finset.mem_univ index)

/-- If no further type gets its alignment from one more layer, that layer tells nothing. -/
theorem refines_of_aligned {depth : Nat}
    (stable : types.aligned target (depth + 1) ⊆ types.aligned target depth) (id : TypeId) :
    (types.extentWithin target (depth + 1) id).Refines (types.extentWithin target depth id) := by
  -- the sets hold positions, so a type that is found has to be shown to have one
  have before {align : Nat} (found : (types.extentWithin target (depth + 1) id).align = .ok align) :
      (types.extentWithin target depth id).align = .ok align := by
    have has : id.index < types.size := by
      cases shape : types.shape id with
      | error handle =>
        rw [extentWithin, shape] at found
        cases found
      | ok shape => exact index_lt_of_shape ‹_›
    obtain ⟨align', known⟩ :=
      mem_aligned.mp (@stable ⟨id.index, has⟩ (mem_aligned.mpr ⟨align, found⟩))
    cases ((extentWithin_refines depth id).align known).symm.trans found
    exact known
  refine ⟨before, fun {size} sized => ?_⟩
  obtain ⟨align, found⟩ := exists_align_of_size sized
  exact size_of_align (before found) sized

/-- **As many layers as there are types are enough.** -/
theorem extentWithin_stable {depth more : Nat} (enough : types.size ≤ depth) (le : depth ≤ more)
    (id : TypeId) :
    (types.extentWithin target more id).Refines (types.extentWithin target depth id) := by
  have grows (step : Nat) : types.aligned target step ⊆ types.aligned target (step + 1) := by
    intro index mem
    obtain ⟨align, found⟩ := mem_aligned.mp mem
    exact mem_aligned.mpr ⟨align, (extentWithin_refines step _).align found⟩
  obtain ⟨first, bound, stable⟩ := exists_stable_of_subset grows
  -- once a layer tells nothing, the next one is computed from the same as that layer
  have later : ∀ step ≥ first, ∀ id, (types.extentWithin target (step + 1) id).Refines
      (types.extentWithin target step id) := by
    intro step behind
    induction step, behind using Nat.le_induction with
    | base => exact refines_of_aligned stable
    | succ step _ ih => exact extentWithin_succ_refines ih
  induction more, le using Nat.le_induction with
  | base => exact .refl _
  | succ more behind ih => exact (later more (by omega) id).trans ih

theorem extentWithin_mono {depth more : Nat} (le : depth ≤ more) (id : TypeId) :
    (types.extentWithin target depth id).Refines (types.extentWithin target more id) := by
  induction more, le using Nat.le_induction with
  | base => exact .refl _
  | succ more _ ih => exact ih.trans (extentWithin_refines more id)

end Types

end IrStream
