import IrStream.Proofs.Types.Acyclic

/-!
# What the type arena keeps to

`Types.Regular` collects what stays true of an arena whatever is done with it: handles inside it
stand for types of it, a shape without a name is stored once and behind its parts, a name is stored
once, and the handles that are written down as constants mean what they say.  Each of the operations
of `Types.Step` keeps to it (`Types.Built.regular`), and so does reading a type
(`Types.Regular.interns`).

The clauses have been met before, each where it was first needed (`Complete`, `Canonical`,
`Layered`).  They are put together here because most proofs about texts need all of them, and
because an induction over operations is easier to go through once.  What is *not* among them is that
types do not contain themselves.  That is about bodies, and it is an invariant of its own
(`Types/Acyclic.lean`).

Being regular is weaker than being built, and the weaker form is what a proof can hand on: reading a
text goes through arenas that no operation of the interface has left behind, and all of them are
regular.

## Statements

* `NamesUnique.intern`: a name is stored once.
* `Regular.intern`, `Regular.interns`, `Regular.setStructBody`: the operations.
* `Built.regular`: **the arenas of programs are regular.**
* `shape_of_named?`: a name that is known is that of a struct.
-/

set_option autoImplicit false

namespace IrStream

namespace Types

/-- A name stands for every struct that has it. -/
def NamesUnique (types : Types) : Prop :=
  ∀ ⦃id shape name⦄, types.shape id = .ok shape → shape.structName? = some name →
    types.named? name = some id

/-- The type arena as its operations leave it. -/
structure Regular (types : Types) : Prop where
  /-- Types are made of types of the arena. -/
  complete : types.Complete
  /-- Types without a name are stored behind their parts. -/
  layered : types.Layered
  /-- No shape without a name is stored twice. -/
  canonical : types.Canonical
  /-- No name is stored twice. -/
  names : types.NamesUnique
  /-- The types that every arena begins with keep their handles. -/
  basic : ∀ {id shape}, Types.initial.shape id = .ok shape → types.shape id = .ok shape

variable {types after : Types} {id : TypeId} {shape : TypeShape} {name : String}

/-! ## Names

A name is looked up by searching for it, so the first one found is the only one. -/

theorem shape_of_named? (found : types.named? name = some id) :
    ∃ shape, types.shape id = .ok shape ∧ shape.structName? = some name := by
  simp only [named?, Option.map_eq_some_iff, Array.findIdx?_eq_some_iff_getElem] at found
  obtain ⟨index, ⟨bound, same, -⟩, rfl⟩ := found
  exact ⟨_, shape_eq_ok_iff.mpr (Array.getElem?_eq_getElem bound), beq_iff_eq.mp same⟩

theorem unnamed_of_initial (found : Types.initial.shape id = .ok shape) :
    shape.structName? = none := by
  have unnamed : ∀ shape ∈ Types.initial.shapes, shape.structName? = none := by decide
  exact unnamed shape (Array.mem_of_getElem? (shape_eq_ok_iff.mp found))

/-- Interning a shape makes no second struct of a name: a struct with that name is found and
answered. -/
theorem NamesUnique.intern (names : types.NamesUnique) (shape : TypeShape) :
    (types.intern shape).2.NamesUnique := by
  intro id entry name found named
  cases unnamed : shape.structName? with
  | none =>
    rw [named?_intern unnamed]
    rcases shape_of_shape_intern found with old | ⟨-, -, -, rfl⟩
    · exact names old named
    · cases unnamed.symm.trans named
  | some taken =>
    rw [Types.intern, find?, unnamed] at found ⊢
    dsimp only at found ⊢
    split at found
    · exact names found named
    · next fresh =>
      rw [named?_push]
      rcases shape_of_shape_push found with ⟨rfl, rfl⟩ | old
      · cases unnamed.symm.trans named
        rw [fresh, unnamed, if_pos rfl]
        rfl
      · rw [names old named]
        rfl

/-! ## Operations -/

namespace Regular

theorem initial : Types.initial.Regular where
  complete := .initial
  layered := Paired.initial.layered
  canonical := Paired.canonical_initial
  names _ _ _ found named := nomatch (unnamed_of_initial found).symm.trans named
  basic := id

theorem intern (regular : types.Regular) (parts : ∀ child ∈ shape.children, types.Has child) :
    (types.intern shape).2.Regular where
  complete := regular.complete.intern shape parts
  layered := regular.layered.intern parts
  canonical := regular.canonical.intern shape
  names := regular.names.intern shape
  basic found := shape_intern_of_shape (regular.basic found) shape

/-- **Reading types** leaves an arena regular. -/
theorem interns (regular : types.Regular) (interns : types.Interns after) : after.Regular := by
  induction interns with
  | refl => exact regular
  | intern before shape unnamed parts ih => exact ih.intern parts

/-- A body whose fields are in the arena leaves it regular; they need not come before the struct. -/
theorem setStructBody (regular : types.Regular) {fields : List TypeId} {packed : Bool}
    (parts : ∀ field ∈ fields, types.Has field)
    (run : types.setStructBody id fields packed = .ok after) : after.Regular := by
  have complete := regular.complete.setStructBody parts run
  obtain ⟨shape, name, found, named, rfl⟩ := setStructBody_eq_ok run
  exact {
    complete := complete
    layered := fun other entry here unnamed => by
      rcases shape_of_shape_set found here with ⟨-, rfl⟩ | here
      · cases unnamed
      · exact regular.layered here unnamed
    canonical := regular.canonical.set found rfl
    names := fun other entry taken here again => by
      rw [named?_set found (by exact named.symm)]
      rcases shape_of_shape_set found here with ⟨rfl, rfl⟩ | here
      · cases again
        exact regular.names found named
      · exact regular.names here again
    basic := fun {other entry} there => by
      have apart : other ≠ id := by
        rintro rfl
        cases (regular.basic there).symm.trans found
        cases (unnamed_of_initial there).symm.trans named
      exact (resolve_set_of_ne fun same => apart (TypeId.ext same)).trans (regular.basic there) }

theorem has_ptr (regular : types.Regular) : types.Has .ptr :=
  has_of_shape (regular.basic (show Types.initial.shape .ptr = .ok (.ptr 0) from rfl))

theorem step (regular : types.Regular) (step : Step types after) : after.Regular := by
  cases step with
  | intern shape parts => exact regular.intern parts
  | setStructBody parts run => exact regular.setStructBody parts run
  | readText text => exact regular.interns (readText_interns regular.has_ptr text)

end Regular

/-- **The arenas of programs are regular.** -/
theorem Built.regular (built : types.Built) : types.Regular := by
  induction built with
  | initial => exact .initial
  | step built step ih => exact ih.step step

end Types

end IrStream
