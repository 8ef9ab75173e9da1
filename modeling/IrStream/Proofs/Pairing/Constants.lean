import IrStream.Proofs.Pairing.Basic

/-!
# Constant arenas that say the same

`Constants.Paired` relates two constant arenas by the relation between constants of a pairing, in
the same way as `Types.Paired` relates type arenas.  Only the second arena may have constants of its
own, and no arena has a constant twice, so interning constants that are alike answers handles that
can be related (`Paired.intern`).

There are two relations, a weaker one for programs that are finished and a stronger one for programs
that are being built.

* `Constants.Embeds` — each constant of the first arena has a related one in the second, and related
  ones are alike.  It is all that looking up needs.
* `Constants.Paired` — that, and no arena has a constant twice.  It is what interning needs: the two
  arenas are searched for constants that are alike, and if one of them is found and the other is
  not, the answers are related all the same.

Interning may find a constant in both arenas, in one, or in none.  In the first case uniqueness says
that what was found is related already; in the other cases the new handle is related to nothing yet,
so the pair can be added.

## Statements

* `Canonical.intern`, `Canonical.intern_of_constant`: no constant is there twice, and one that is
  there is found.
* `Paired.intern`: **interning constants that are alike.**
* `Paired.of_intern`: a constant that only the second arena gets.  This is how constants of
  instructions that the first program lacks are dealt with.
-/

set_option autoImplicit false

namespace IrStream

namespace Constants

/-- No two handles stand for the same constant. -/
def Canonical (constants : Constants) : Prop :=
  ∀ ⦃id other constant⦄, constants.constant id = .ok constant →
    constants.constant other = .ok constant → id = other

/-- The elements of an aggregate were there before it. -/
def Layered (constants : Constants) : Prop :=
  ∀ ⦃id type elems⦄, constants.constant id = .ok (.aggregate type elems) →
    ∀ elem ∈ elems, elem.index < id.index

/-- The second arena has all constants of the first one, under handles that are related to
theirs. -/
structure Embeds (m : Pairing) (small large : Constants) : Prop where
  /-- Related constants are alike. -/
  constant : ∀ {id other}, m.constant id other → ∃ first second, small.constant id = .ok first
    ∧ large.constant other = .ok second ∧ first.Alike m second
  /-- No constant is related to two of the second arena. -/
  right : Relator.RightUnique m.constant
  /-- No constant is related to two of the first arena. -/
  left : Relator.LeftUnique m.constant
  /-- Only the second arena may have constants of its own. -/
  total : ∀ {id}, id.index < small.size → ∃ other, m.constant id other
  /-- Recursions over the first arena go down. -/
  layered : small.Layered

/-- The arenas say the same of related constants, and none of them has a constant twice. -/
structure Paired (m : Pairing) (small large : Constants) : Prop extends small.Embeds m large where
  /-- In the first arena, interning finds what is there. -/
  canonical : small.Canonical
  /-- In the second arena, interning finds what is there. -/
  canonicalLarge : large.Canonical

variable {constants small large : Constants} {constant other : Constant} {m larger : Pairing}

theorem constant_eq_ok_iff {id : ConstId} :
    constants.constant id = .ok constant ↔ constants.entries[id.index]? = some constant :=
  resolve_eq_ok_iff

theorem lt_size_of_constant {id : ConstId} (found : constants.constant id = .ok constant) :
    id.index < constants.size :=
  (Array.getElem?_eq_some_iff.mp (constant_eq_ok_iff.mp found)).1

/-! ### What interning answers -/

theorem constant_intern : (constants.intern constant).2.constant (constants.intern constant).1
    = .ok constant := by
  rw [intern]
  split
  · next id found =>
    simp only [find?, Option.map_eq_some_iff, Array.findIdx?_eq_some_iff_getElem] at found
    obtain ⟨index, ⟨bound, same, -⟩, rfl⟩ := found
    rw [constant_eq_ok_iff, Array.getElem?_eq_getElem bound, beq_iff_eq.mp same]
  · exact resolve_push_self rfl

theorem constant_intern_of_constant {id : ConstId} (found : constants.constant id = .ok other)
    (constant : Constant) : (constants.intern constant).2.constant id = .ok other := by
  rw [intern]
  split
  · exact found
  · exact constant_eq_ok_iff.mpr (getElem?_push_of_some (constant_eq_ok_iff.mp found))

/-- What is stored after interning was stored before, or it is the new constant at the end. -/
theorem constant_of_constant_intern {id : ConstId}
    (found : (constants.intern constant).2.constant id = .ok other) :
    constants.constant id = .ok other ∨ (constants.find? constant = none
      ∧ id = (constants.intern constant).1 ∧ id.index = constants.size ∧ other = constant) := by
  rw [intern] at found ⊢
  split at found
  · exact .inl found
  · next none =>
    rcases getElem?_push_eq_some (constant_eq_ok_iff.mp found) with ⟨last, rfl⟩ | old
    · exact .inr ⟨none, ConstId.ext last, last, rfl⟩
    · exact .inl (constant_eq_ok_iff.mpr old)

theorem constant_ne_of_find? {id : ConstId} (fresh : constants.find? constant = none) :
    constants.constant id ≠ .ok constant := by
  intro found
  rw [find?, Option.map_eq_none_iff, Array.findIdx?_eq_none_iff] at fresh
  simpa using fresh constant (Array.mem_of_getElem? (constant_eq_ok_iff.mp found))

theorem canonical_empty : Constants.empty.Canonical := by
  intro id other constant found
  exact absurd (lt_size_of_constant found) (Nat.not_lt_zero _)

/-- A constant that is stored is found again. -/
theorem Canonical.intern_of_constant (canonical : constants.Canonical) {id : ConstId}
    (found : constants.constant id = .ok constant) :
    constants.intern constant = (id, constants) := by
  have there := @constant_intern constants constant
  rw [intern] at there ⊢
  split at there
  · exact Prod.ext (canonical there found) rfl
  · next fresh => exact absurd found (constant_ne_of_find? fresh)

theorem Canonical.intern (canonical : constants.Canonical) (constant : Constant) :
    (constants.intern constant).2.Canonical := by
  intro id other entry found again
  rcases constant_of_constant_intern found with old | ⟨new, -, here, rfl⟩
  · rcases constant_of_constant_intern again with old' | ⟨new, -, -, rfl⟩
    · exact canonical old old'
    · exact absurd old (constant_ne_of_find? new)
  · rcases constant_of_constant_intern again with old | ⟨-, -, there, -⟩
    · exact absurd old (constant_ne_of_find? new)
    · exact ConstId.ext (here.trans there.symm)

/-! ### Related constants -/

namespace Embeds

variable (embeds : small.Embeds m large)
include embeds

theorem bounds {id other : ConstId} (related : m.constant id other) :
    id.index < small.size ∧ other.index < large.size := by
  obtain ⟨first, second, found, there, -⟩ := embeds.constant related
  exact ⟨lt_size_of_constant found, lt_size_of_constant there⟩

theorem size_le : small.size ≤ large.size := by
  refine le_of_leftUnique (R := fun index other => m.constant ⟨index⟩ ⟨other⟩)
    (fun index bound => ?_) ?_
  · obtain ⟨other, related⟩ := @total _ _ _ embeds ⟨index⟩ bound
    exact ⟨other.index, (embeds.bounds related).2, related⟩
  · intro index again other related related'
    exact congrArg ConstId.index (embeds.left related related')

end Embeds

namespace Paired

/-- Arenas without constants are paired if no constants are related. -/
theorem empty (unrelated : ∀ id other, ¬ m.constant id other) :
    Constants.empty.Paired m Constants.empty := by
  have none {id : ConstId} {constant : Constant} : Constants.empty.constant id ≠ .ok constant := by
    simp [Constants.constant_eq_ok_iff, Constants.empty]
  exact {
    constant := fun related => (unrelated _ _ related).elim
    right := fun _ _ _ related => (unrelated _ _ related).elim
    left := fun _ _ _ related => (unrelated _ _ related).elim
    total := fun bound => (Nat.not_lt_zero _ bound).elim
    layered := fun _ _ _ found => (none found).elim
    canonical := fun _ _ _ found => (none found).elim
    canonicalLarge := fun _ _ _ found => (none found).elim }

/-- More related types or globals make no difference to constants that are related already. -/
theorem mono (paired : small.Paired m large) (le : m.Le larger)
    (same : larger.constant = m.constant) : small.Paired larger large where
  constant related := by
    rw [same] at related
    obtain ⟨first, second, found, there, alike⟩ := paired.constant related
    exact ⟨first, second, found, there, alike.mono le⟩
  right := same ▸ paired.right
  left := same ▸ paired.left
  total bound := same ▸ paired.total bound
  layered := paired.layered
  canonical := paired.canonical
  canonicalLarge := paired.canonicalLarge

/-- The second arena may get one more constant. -/
theorem of_intern (paired : small.Paired m large) (constant : Constant) :
    small.Paired m (large.intern constant).2 := {
  paired with
  constant := fun related => by
    obtain ⟨first, second, found, there, alike⟩ := paired.constant related
    exact ⟨first, second, found, constant_intern_of_constant there _, alike⟩
  canonicalLarge := paired.canonicalLarge.intern constant }

/-- **Interning constants that are alike.**  Each of the answers is new or was related to the other
one already. -/
theorem intern (paired : small.Paired m large) (types : Relator.BiUnique m.type)
    (globals : Relator.BiUnique m.global) (alike : constant.Alike m other) :
    (small.intern constant).2.Paired
      { m with constant := WithPair m.constant (small.intern constant).1 (large.intern other).1 }
      (large.intern other).2 := by
  have canonical := paired.canonical.intern constant
  have canonicalLarge := paired.canonicalLarge.intern other
  have le : m.Le { m with
      constant := WithPair m.constant (small.intern constant).1 (large.intern other).1 } :=
    ⟨id, .old, id, id, id, id, id, id, id⟩
  exact {
    constant := fun related => by
      rcases related with related | ⟨rfl, rfl⟩
      · obtain ⟨first, second, found, there, alike⟩ := paired.constant related
        exact ⟨first, second, constant_intern_of_constant found _,
          constant_intern_of_constant there _, alike.mono le⟩
      · exact ⟨constant, other, constant_intern, constant_intern, alike.mono le⟩
    -- what is related to an answer already is alike, so it is the other answer
    right := WithPair.rightUnique paired.right fun second related => by
      obtain ⟨first, _, found, there, again⟩ := paired.constant related
      cases (constant_intern_of_constant found constant).symm.trans constant_intern
      cases alike.right_unique types.2 paired.right globals.2 again
      exact canonicalLarge (constant_intern_of_constant there _) constant_intern
    left := WithPair.leftUnique paired.left fun first related => by
      obtain ⟨_, second, found, there, again⟩ := paired.constant related
      cases (constant_intern_of_constant there other).symm.trans constant_intern
      cases alike.left_unique types.1 paired.left globals.1 again
      exact canonical (constant_intern_of_constant found _) constant_intern
    total := fun {id} bound => by
      have found : (small.intern constant).2.constant id = .ok _ :=
        constant_eq_ok_iff.mpr (Array.getElem?_eq_getElem bound)
      rcases constant_of_constant_intern found with old | ⟨-, rfl, -⟩
      · obtain ⟨second, related⟩ := paired.total (lt_size_of_constant old)
        exact ⟨second, .old related⟩
      · exact ⟨_, .new⟩
    -- elements of a new aggregate are related to elements, so they have been interned
    layered := fun id type elems found elem mem => by
      rcases constant_of_constant_intern found with old | ⟨-, -, last, rfl⟩
      · exact paired.layered old elem mem
      · cases alike with
        | aggregate _ parts =>
          obtain ⟨second, -, related⟩ := exists_mem_of_forall₂ parts mem
          exact Nat.lt_of_lt_of_eq (paired.bounds related).1 last.symm
    canonical := canonical
    canonicalLarge := canonicalLarge }

end Paired

end Constants

end IrStream
