import IrStream.Proofs.Pairing.Basic
import IrStream.Proofs.Program.Complete
import IrStream.Types.Text

/-!
# Type arenas that say the same

`Types.Paired` relates two type arenas by a relation between their handles.  Related types have
shapes that are alike, and every type of the first arena has a type of the second to it.  What makes
this last while types are interned is that an arena has no shape twice (`Types.Canonical`): if
shapes that are alike are interned in both arenas, the answers can be related without spoiling that
a type is related to one other at most (`Paired.intern`).

The second arena may get more types than the first at any time (`Paired.of_interns`).

`Types.Embeds` is the part that is true of finished arenas as well, and all that texts, layouts and
registering need.  From it comes, for instance, that related types have the same text
(`Embeds.text_eq`), although texts are computed with a bound for the depth that is larger in the
larger arena.

What an operation does to one arena is first said of a single arena, as equations for look-ups
behind it, and these lemmas are what the proofs about two arenas use.  There are three operations.

* Interning a shape without a name (`intern`).  It may find the shape in both arenas, in one or in
  none, and in each case the two answers are related or can be.
* Declaring a struct (`declareStruct`).  Both arenas have the name or none has, because structs of
  that name are related.
* Giving a struct its body (`setStructBody`).  The struct keeps its handle, and a shape with a name
  is never found by interning, so nothing else changes.
-/

set_option autoImplicit false

namespace IrStream

namespace Types

/-- No two handles stand for the same shape, if it has no name. -/
def Canonical (types : Types) : Prop :=
  ∀ ⦃id other shape⦄, types.shape id = .ok shape → types.shape other = .ok shape →
    shape.structName? = none → id = other

/-- What a type without a name contains was there before it. -/
def Layered (types : Types) : Prop :=
  ∀ ⦃id shape⦄, types.shape id = .ok shape → shape.structName? = none →
    ∀ child ∈ shape.children, child.index < id.index

/-- The second arena has all types of the first one, under handles that are related to theirs. -/
structure Embeds (R : TypeId → TypeId → Prop) (small large : Types) : Prop where
  /-- Related types have alike shapes. -/
  shape : ∀ {id other}, R id other → ∃ first second, small.shape id = .ok first
    ∧ large.shape other = .ok second ∧ first.Alike R second
  /-- No type is related to two of the second arena. -/
  right : Relator.RightUnique R
  /-- No type is related to two of the first arena. -/
  left : Relator.LeftUnique R
  /-- Only the second arena may have types of its own. -/
  total : ∀ {id}, small.Has id → ∃ other, R id other
  /-- Recursions over the first arena go down. -/
  layered : small.Layered

/-- The arenas say the same of related types, and none of them has a shape twice. -/
structure Paired (R : TypeId → TypeId → Prop) (small large : Types) : Prop
    extends small.Embeds R large where
  /-- A name of a struct stands for related structs, or for none in either arena. -/
  named : ∀ name, Option.Rel R (small.named? name) (large.named? name)
  /-- Both arenas begin with the same types. -/
  basic : ∀ {id : TypeId}, id.index ≤ 5 → R id id
  /-- In the first arena, interning finds what is there. -/
  canonical : small.Canonical
  /-- In the second arena, interning finds what is there. -/
  canonicalLarge : large.Canonical

variable {types small large : Types} {R : TypeId → TypeId → Prop} {shape other : TypeShape}

/-! ## What interning answers

In one arena.  Interning a shape without a name answers a handle of that shape, and changes nothing
but that the handle may be new.  An arena that has no shape twice keeps this property, because
interning looks before it appends. -/

/-- What is found by its shape has it. -/
theorem shape_of_find? {id : TypeId} (unnamed : shape.structName? = none)
    (found : types.find? shape = some id) : types.shape id = .ok shape := by
  rw [find?, unnamed] at found
  simp only [Option.map_eq_some_iff, Array.findIdx?_eq_some_iff_getElem] at found
  obtain ⟨index, ⟨bound, same, -⟩, rfl⟩ := found
  rw [shape_eq_ok_iff, Array.getElem?_eq_getElem bound, beq_iff_eq.mp same]

/-- Interning answers a handle of the shape. -/
theorem shape_intern (unnamed : shape.structName? = none) :
    (types.intern shape).2.shape (types.intern shape).1 = .ok shape := by
  rw [Types.intern]
  split
  · next id found => exact shape_of_find? unnamed found
  · exact resolve_push_self rfl

/-- Interning changes no entry that is there. -/
theorem shape_intern_of_shape {id : TypeId} (found : types.shape id = .ok other)
    (shape : TypeShape) :
    (types.intern shape).2.shape id = .ok other := by
  rw [Types.intern]
  split
  · exact found
  · exact shape_eq_ok_iff.mpr (getElem?_push_of_some (shape_eq_ok_iff.mp found))

/-- Interning changes no shape. -/
theorem Interns.shape_eq {after : Types} (interns : types.Interns after) {id : TypeId}
    (found : types.shape id = .ok shape) : after.shape id = .ok shape := by
  induction interns with
  | refl => exact found
  | intern before entry unnamed parts ih => exact shape_intern_of_shape ih entry

/-- Interning adds nothing but the shape. -/
theorem shape_of_shape_intern {id : TypeId} (found : (types.intern shape).2.shape id = .ok other) :
    types.shape id = .ok other ∨ (types.find? shape = none ∧ id = (types.intern shape).1
      ∧ id.index = types.size ∧ other = shape) := by
  rw [Types.intern] at found ⊢
  split at found
  · exact .inl found
  · next none =>
    rcases getElem?_push_eq_some (shape_eq_ok_iff.mp found) with ⟨last, rfl⟩ | old
    · exact .inr ⟨none, TypeId.ext last, last, rfl⟩
    · exact .inl (shape_eq_ok_iff.mpr old)

/-- A shape without a name declares none. -/
theorem named?_intern (unnamed : shape.structName? = none) (name : String) :
    (types.intern shape).2.named? name = types.named? name := by
  rw [Types.intern]
  split
  · rfl
  · simp [named?, Array.findIdx?_push, unnamed]

/-- Where a shape is not found no type has it. -/
theorem shape_ne_of_find? {id : TypeId} (unnamed : shape.structName? = none)
    (fresh : types.find? shape = none) : types.shape id ≠ .ok shape := by
  intro found
  rw [find?, unnamed, Option.map_eq_none_iff, Array.findIdx?_eq_none_iff] at fresh
  simpa using fresh shape (Array.mem_of_getElem? (shape_eq_ok_iff.mp found))

/-- A shape that is stored is found again. -/
theorem Canonical.intern_of_shape (canonical : types.Canonical) {id : TypeId}
    (found : types.shape id = .ok shape) (unnamed : shape.structName? = none) :
    types.intern shape = (id, types) := by
  rw [Types.intern]
  split
  · next first known => rw [canonical (shape_of_find? unnamed known) found unnamed]
  · next fresh => exact absurd found (shape_ne_of_find? unnamed fresh)

/-- Interning looks before it appends. -/
theorem Canonical.intern (canonical : types.Canonical) (shape : TypeShape) :
    (types.intern shape).2.Canonical := by
  intro id other entry found again unnamed
  rcases shape_of_shape_intern found with old | ⟨new, -, here, rfl⟩
  · rcases shape_of_shape_intern again with old' | ⟨new, -, -, rfl⟩
    · exact canonical old old' unnamed
    · exact absurd old (shape_ne_of_find? unnamed new)
  · rcases shape_of_shape_intern again with old | ⟨-, -, there, -⟩
    · exact absurd old (shape_ne_of_find? unnamed new)
    · exact TypeId.ext (here.trans there.symm)

/-- What is interned stands behind its parts. -/
theorem Layered.intern (layered : types.Layered)
    (parts : ∀ child ∈ shape.children, types.Has child) :
    (types.intern shape).2.Layered := by
  intro id entry found unnamed child mem
  rcases shape_of_shape_intern found with old | ⟨-, -, last, rfl⟩
  · exact layered old unnamed child mem
  · exact Nat.lt_of_lt_of_eq (parts child mem) last.symm

/-! ## Related types

What follows for two arenas.  The relation need not be a function in either direction; all that is
asked is that what is related has shapes that are alike, part by part, and that nothing is related
to two types at once. -/

namespace Embeds

variable (embeds : small.Embeds R large)
include embeds

/-- Related types are in their arenas. -/
theorem has {id other : TypeId} (related : R id other) : small.Has id ∧ large.Has other := by
  obtain ⟨first, second, found, there, -⟩ := embeds.shape related
  exact ⟨has_of_shape found, has_of_shape there⟩

/-- Whatever is below a type of the first arena is in the first arena. -/
theorem complete : small.Complete := by
  intro id entry found child mem
  obtain ⟨other, related⟩ := embeds.total (has_of_shape found)
  obtain ⟨first, second, again, -, alike⟩ := embeds.shape related
  cases found.symm.trans again
  obtain ⟨part, -, related⟩ := exists_mem_of_forall₂ alike.children mem
  exact (embeds.has related).1

/-- The second arena is not smaller, since different types have different partners. -/
theorem size_le : small.size ≤ large.size := by
  refine le_of_leftUnique (R := fun index other => R ⟨index⟩ ⟨other⟩) (fun index bound => ?_) ?_
  · obtain ⟨other, related⟩ := @total _ _ _ embeds ⟨index⟩ bound
    exact ⟨other.index, (embeds.has related).2, related⟩
  · intro index again other related related'
    exact congrArg TypeId.index (embeds.left related related')

/-- Related types have the same text, with any depth that is enough for the first of them. -/
theorem textWithin_eq {id other : TypeId} (related : R id other)
    {depth more : Nat} (enough : id.index < depth) (enough' : id.index < more) :
    large.textWithin more other = small.textWithin depth id := by
  induction depth generalizing id other more with
  | zero => omega
  | succ depth ih =>
    obtain ⟨more, rfl⟩ :=
      Nat.exists_eq_add_one_of_ne_zero (Nat.ne_of_gt (Nat.zero_lt_of_lt enough'))
    obtain ⟨shape, shape', found, there, alike⟩ := embeds.shape related
    have known : small.shape? id = some shape := shape_eq_ok_iff.mp found
    have known' : large.shape? other = some shape' := shape_eq_ok_iff.mp there
    -- what a type is spelled with comes before it in both arenas, which is why both bounds are
    -- enough
    have part {child child' : TypeId} (unnamed : shape.structName? = none)
        (listed : child ∈ shape.children) (related : R child child') :
        large.textWithin more child' = small.textWithin depth child := by
      have below := embeds.layered found unnamed child listed
      exact ih related (by omega) (by omega)
    have parts {list list' : List TypeId} (unnamed : shape.structName? = none)
        (listed : ∀ child ∈ list, child ∈ shape.children) (related : List.Forall₂ R list list') :
        list'.map (large.textWithin more) = list.map (small.textWithin depth) := by
      induction related with
      | nil => rfl
      | cons here _ ih =>
        rw [List.map_cons, List.map_cons, part unnamed (listed _ List.mem_cons_self) here,
          ih fun child mem => listed child (List.mem_cons_of_mem _ mem)]
    rw [textWithin, textWithin, known, known']
    cases alike with
    | void | int | ptr | float => rfl
    | func vararg params ret =>
      dsimp only
      rw [part rfl List.mem_cons_self ret,
        parts rfl (fun child mem => List.mem_cons_of_mem _ mem) params]
    | struct name packed hasBody fields =>
      cases name with
      | some name => rfl
      | none =>
        exact congrArg (structText · packed) (parts rfl (fun child mem => mem) fields)
    | array length elem =>
      dsimp only
      rw [part rfl List.mem_cons_self elem]

/-- **Related types have the same text.** -/
theorem text_eq {id other : TypeId} (related : R id other) :
    large.text other = small.text id := by
  have bound : id.index < small.size := (embeds.has related).1
  have le := embeds.size_le
  exact embeds.textWithin_eq related (by omega) (by omega)

end Embeds

namespace Paired

/-- Related types keep their shapes while both arenas grow. -/
theorem alike_of_shape (paired : small.Paired R large) {id other : TypeId} (related : R id other)
    {first second : TypeShape} (found : small.shape id = .ok first)
    (there : large.shape other = .ok second) : first.Alike R second := by
  obtain ⟨_, _, again, again', alike⟩ := paired.shape related
  cases found.symm.trans again
  cases there.symm.trans again'
  exact alike

/-- The second arena may get one more type. -/
theorem of_intern (paired : small.Paired R large) (unnamed : shape.structName? = none) :
    small.Paired R (large.intern shape).2 := {
  paired with
  shape := fun related => by
    obtain ⟨first, second, found, there, alike⟩ := paired.shape related
    exact ⟨first, second, found, shape_intern_of_shape there _, alike⟩
  named := fun name => by
    rw [named?_intern unnamed]
    exact paired.named name
  canonicalLarge := paired.canonicalLarge.intern shape }

/-- The second arena may get more types. -/
theorem of_interns {after : Types} (paired : small.Paired R large) (interns : large.Interns after) :
    small.Paired R after := by
  induction interns with
  | refl => exact paired
  | intern before shape unnamed parts ih => exact ih.of_intern unnamed

/-- **Interning shapes that are alike.**  Each of the answers is new or was related to the other one
already, for no arena has a shape twice. -/
theorem intern (paired : small.Paired R large) (alike : shape.Alike R other)
    (unnamed : shape.structName? = none) :
    (small.intern shape).2.Paired (WithPair R (small.intern shape).1 (large.intern other).1)
      (large.intern other).2 := by
  have unnamed' : other.structName? = none := alike.structName?_eq.trans unnamed
  have answer : (small.intern shape).2.shape (small.intern shape).1 = .ok shape :=
    shape_intern unnamed
  have answer' : (large.intern other).2.shape (large.intern other).1 = .ok other :=
    shape_intern unnamed'
  have canonical := paired.canonical.intern shape
  have canonicalLarge := paired.canonicalLarge.intern other
  refine {
    shape := fun related => ?_
    right := WithPair.rightUnique paired.right fun second related => ?_
    left := WithPair.leftUnique paired.left fun first related => ?_
    total := fun has => ?_
    layered := paired.layered.intern fun child mem => ?_
    named := fun name => ?_
    basic := fun small => .old (paired.basic small)
    canonical := canonical
    canonicalLarge := canonicalLarge }
  · rcases related with related | ⟨rfl, rfl⟩
    · obtain ⟨first, second, found, there, alike⟩ := paired.shape related
      exact ⟨first, second, shape_intern_of_shape found _, shape_intern_of_shape there _,
        alike.imp .old⟩
    · exact ⟨shape, other, answer, answer', alike.imp .old⟩
  -- what is related to an answer already has a shape alike, so it is the other answer
  · obtain ⟨first, shape', found, there, again⟩ := paired.shape related
    cases (shape_intern_of_shape found shape).symm.trans answer
    cases alike.right_unique paired.right again
    exact canonicalLarge (shape_intern_of_shape there _) answer' unnamed'
  · obtain ⟨shape', second, found, there, again⟩ := paired.shape related
    cases (shape_intern_of_shape there other).symm.trans answer'
    cases alike.flip.right_unique paired.left.flip again.flip
    exact canonical (shape_intern_of_shape found _) answer unnamed
  · obtain ⟨entry, found⟩ := has.exists_shape
    rcases shape_of_shape_intern found with old | ⟨-, rfl, -⟩
    · obtain ⟨second, related⟩ := paired.total (has_of_shape old)
      exact ⟨second, .old related⟩
    · exact ⟨_, .new⟩
  · obtain ⟨second, -, related⟩ := exists_mem_of_forall₂ alike.children mem
    exact (paired.toEmbeds.has related).1
  · rw [named?_intern unnamed, named?_intern unnamed']
    exact optionRel_imp (paired.named name) .old

end Paired

/-! ## Named structs

A named struct is found by its name and not by its shape, so it may be changed without spoiling that
shapes are unique.  The first lemmas are about an arena with an entry more, or with an entry
replaced, and the last two put them together for two arenas. -/

/-- A name is found among the old entries, or it is that of the new one. -/
theorem named?_push {name : String} :
    (⟨types.shapes.push shape⟩ : Types).named? name
      = (types.named? name).or
        (if shape.structName? = some name then some ⟨types.size⟩ else none) := by
  rw [named?, named?, Array.findIdx?_push, Option.map_or]
  congr 1
  by_cases same : shape.structName? = some name <;> simp [same, size]

/-- A new entry leaves the others where they are. -/
theorem shape_push_of_shape {id : TypeId} (found : types.shape id = .ok other) :
    Types.shape ⟨types.shapes.push shape⟩ id = .ok other :=
  shape_eq_ok_iff.mpr (getElem?_push_of_some (shape_eq_ok_iff.mp found))

/-- What has a shape behind a push is the new entry or had it before. -/
theorem shape_of_shape_push {id : TypeId}
    (found : Types.shape ⟨types.shapes.push shape⟩ id = .ok other) :
    (id = ⟨types.size⟩ ∧ other = shape) ∨ types.shape id = .ok other := by
  rcases getElem?_push_eq_some (shape_eq_ok_iff.mp found) with ⟨last, rfl⟩ | known
  · exact .inl ⟨TypeId.ext last, rfl⟩
  · exact .inr (shape_eq_ok_iff.mpr known)

/-- A shape with a name may be appended. -/
theorem Canonical.push (canonical : types.Canonical) {name : String}
    (named : shape.structName? = some name) : Canonical ⟨types.shapes.push shape⟩ := by
  intro id other entry found again unnamed
  rcases shape_of_shape_push found with ⟨-, rfl⟩ | found
  · exact nomatch unnamed.symm.trans named
  · rcases shape_of_shape_push again with ⟨-, rfl⟩ | again
    · exact nomatch unnamed.symm.trans named
    · exact canonical found again unnamed

/-- What has a shape after a replacement is the entry that was replaced, or had it before. -/
theorem shape_of_shape_set {id index : TypeId} {before : TypeShape}
    (known : types.shape index = .ok before)
    (found : Types.shape ⟨types.shapes.setIfInBounds index.index shape⟩ id = .ok other) :
    (id = index ∧ other = shape) ∨ types.shape id = .ok other := by
  rcases getElem?_set_eq_some (shape_eq_ok_iff.mp known) (shape_eq_ok_iff.mp found) with
    ⟨same, rfl⟩ | ⟨-, old⟩
  · exact .inl ⟨TypeId.ext same, rfl⟩
  · exact .inr (shape_eq_ok_iff.mpr old)

/-- A shape may be replaced by one with a name. -/
theorem Canonical.set (canonical : types.Canonical) {index : TypeId} {before : TypeShape}
    (known : types.shape index = .ok before) {name : String}
    (named : shape.structName? = some name) :
    Canonical ⟨types.shapes.setIfInBounds index.index shape⟩ := by
  intro id other entry found again unnamed
  rcases shape_of_shape_set known found with ⟨-, rfl⟩ | found
  · exact nomatch unnamed.symm.trans named
  · rcases shape_of_shape_set known again with ⟨-, rfl⟩ | again
    · exact nomatch unnamed.symm.trans named
    · exact canonical found again unnamed

/-- A struct that is declared already is answered as it is. -/
theorem declareStruct_of_some {name : String} {id : TypeId} (found : types.named? name = some id) :
    types.declareStruct name = (id, types) := by
  rw [declareStruct, intern, find?]
  simp only [TypeShape.structName?, found]

/-- A struct with a new name is appended, without a body. -/
theorem declareStruct_of_none {name : String} (found : types.named? name = none) :
    types.declareStruct name
      = (⟨types.size⟩, ⟨types.shapes.push (.struct ⟨some name, [], false, false⟩)⟩) := by
  rw [declareStruct, intern, find?]
  simp only [TypeShape.structName?, found]

/-- A name stands for the same handle as before if only the body of a struct changes. -/
theorem named?_set {id : TypeId} (found : types.shape id = .ok shape)
    (same : other.structName? = shape.structName?) (name : String) :
    (⟨types.shapes.setIfInBounds id.index other⟩ : Types).named? name = types.named? name := by
  have names : (types.shapes.setIfInBounds id.index other).map TypeShape.structName?
      = types.shapes.map TypeShape.structName? := by
    rw [Array.map_setIfInBounds, same]
    refine Array.ext_getElem? fun index => ?_
    by_cases here : id.index = index
    · subst here
      rw [shape_eq_ok_iff] at found
      obtain ⟨bound, entry⟩ := Array.getElem?_eq_some_iff.mp found
      simp [bound, entry]
    · rw [Array.getElem?_setIfInBounds_ne here]
  have by_name (shapes : Array TypeShape) : shapes.findIdx? (·.structName? == some name)
      = (shapes.map TypeShape.structName?).findIdx? (· == some name) := by
    rw [Array.findIdx?_map]
    rfl
  rw [named?, named?, by_name, by_name, names]

/-- A body that is accepted replaces the entry of its struct and keeps its name. -/
theorem setStructBody_eq_ok {id : TypeId} {fields : List TypeId} {packed : Bool} {after : Types}
    (run : types.setStructBody id fields packed = .ok after) :
    ∃ shape name, types.shape id = .ok shape ∧ shape.structName? = some name
      ∧ after
        = ⟨types.shapes.setIfInBounds id.index (.struct ⟨some name, fields, packed, true⟩)⟩ := by
  simp only [setStructBody, bind_eq_ok_iff, dangling_eq_ok_iff] at run
  obtain ⟨shape, found, run⟩ := run
  split at run
  · simp at run
  · next name named =>
    simp only [bind_eq_ok_iff, pure_eq_ok_iff] at run
    obtain ⟨-, -, rfl⟩ := run
    exact ⟨shape, name, found, named, rfl⟩

namespace Paired

/-- **Declaring a struct** in both arenas. -/
theorem declareStruct (paired : small.Paired R large) (name : String) :
    (small.declareStruct name).2.Paired
      (WithPair R (small.declareStruct name).1 (large.declareStruct name).1)
      (large.declareStruct name).2 := by
  have known := paired.named name
  generalize here : small.named? name = first, there : large.named? name = second at known
  cases known with
  | some related =>
    rw [declareStruct_of_some here, declareStruct_of_some there]
    dsimp only
    rwa [withPair_eq related]
  | none =>
    rw [declareStruct_of_none here, declareStruct_of_none there]
    dsimp only
    exact {
      shape := fun related => by
        rcases related with related | ⟨rfl, rfl⟩
        · obtain ⟨first, second, found, there, alike⟩ := paired.shape related
          exact ⟨first, second, shape_push_of_shape found, shape_push_of_shape there,
            alike.imp .old⟩
        · exact ⟨_, _, resolve_push_self rfl, resolve_push_self rfl, .struct _ _ _ .nil⟩
      right := WithPair.rightUnique paired.right fun other related =>
        (Nat.lt_irrefl _ (paired.toEmbeds.has related).1).elim
      left := WithPair.leftUnique paired.left fun id related =>
        (Nat.lt_irrefl _ (paired.toEmbeds.has related).2).elim
      total := fun has => by
        obtain ⟨shape, found⟩ := has.exists_shape
        rcases shape_of_shape_push found with ⟨rfl, -⟩ | found
        · exact ⟨_, .new⟩
        · obtain ⟨other, related⟩ := paired.total (has_of_shape found)
          exact ⟨other, .old related⟩
      named := fun other => by
        rw [named?_push, named?_push]
        have before := optionRel_imp (paired.named other) (WithPair.old (a := ⟨small.size⟩)
          (b := ⟨large.size⟩))
        generalize small.named? other = first, large.named? other = second at before
        -- a name that neither arena has is now the declared one in both or still in none
        cases before with
        | some related => exact .some related
        | none =>
          split
          · exact .some .new
          · exact .none
      basic := fun small => .old (paired.basic small)
      layered := fun id shape found unnamed => by
        rcases shape_of_shape_push found with ⟨-, rfl⟩ | found
        · cases unnamed
        · exact paired.layered found unnamed
      canonical := paired.canonical.push rfl
      canonicalLarge := paired.canonicalLarge.push rfl }

/-- **Giving a struct its body** in both arenas. -/
theorem setStructBody (paired : small.Paired R large) {id other : TypeId} (related : R id other)
    {fields others : List TypeId} (parts : List.Forall₂ R fields others) {packed : Bool}
    {after afterLarge : Types} (run : small.setStructBody id fields packed = .ok after)
    (runLarge : large.setStructBody other others packed = .ok afterLarge) :
    after.Paired R afterLarge := by
  obtain ⟨shape, name, found, named, rfl⟩ := setStructBody_eq_ok run
  obtain ⟨shape', name', there, named', rfl⟩ := setStructBody_eq_ok runLarge
  have alike := paired.alike_of_shape related found there
  cases named'.symm.trans (alike.structName?_eq.trans named)
  exact {
    paired with
    shape := fun {first second} here => by
      by_cases same : first = id
      · subst same
        cases paired.right related here
        exact ⟨_, _, resolve_set_self found, resolve_set_self there, .struct _ _ _ parts⟩
      · have apart : second ≠ other := fun same' => same (paired.left (same' ▸ here) related)
        obtain ⟨shape, shape', found, there, alike⟩ := paired.shape here
        refine ⟨shape, shape', ?_, ?_, alike⟩
        · exact (resolve_set_of_ne fun index => same (TypeId.ext index)).trans found
        · exact (resolve_set_of_ne fun index => apart (TypeId.ext index)).trans there
    total := fun has => paired.total (by simpa [Has, size] using has)
    named := fun other => by
      rw [named?_set found (by exact named.symm), named?_set there (by exact named'.symm)]
      exact paired.named other
    layered := fun other shape here unnamed => by
      rcases shape_of_shape_set found here with ⟨-, rfl⟩ | here
      · cases unnamed
      · exact paired.layered here unnamed
    canonical := paired.canonical.set found rfl
    canonicalLarge := paired.canonicalLarge.set there rfl }

/-! ## The arenas that programs begin with

Six types that are the same in every arena. -/

/-- A shape without parts is alike to itself. -/
theorem alike_of_leaf (leaf : shape.children = []) : shape.Alike R shape := by
  cases shape with
  | void => exact .void
  | int bits => exact .int bits
  | ptr addrSpace => exact .ptr addrSpace
  | float kind => exact .float kind
  | func | array => cases leaf
  | struct shape =>
    obtain ⟨name, fields, packed, hasBody⟩ := shape
    cases leaf
    exact .struct name packed hasBody .nil

/-- The types that an arena begins with are different. -/
theorem canonical_initial : Types.initial.Canonical := by
  have distinct : Types.initial.shapes.toList.Nodup := by decide
  intro id other shape found again _
  rw [shape_eq_ok_iff, Array.getElem?_eq_some_iff] at found again
  obtain ⟨bound, found⟩ := found
  obtain ⟨bound', again⟩ := again
  exact TypeId.ext ((List.Nodup.getElem_inj_iff distinct).mp (found.trans again.symm))

/-- Arenas begin with the same types, each of which is related to itself. -/
theorem initial :
    Types.initial.Paired (fun id other => id = other ∧ id.index ≤ 5) Types.initial := by
  have leaves : ∀ shape ∈ Types.initial.shapes, shape.children = [] ∧ shape.structName? = none := by
    decide
  have leaf {id : TypeId} {shape : TypeShape} (found : Types.initial.shape id = .ok shape) :=
    leaves shape (Array.mem_of_getElem? (shape_eq_ok_iff.mp found))
  exact {
    shape := by
      rintro id _ ⟨rfl, small⟩
      obtain ⟨shape, found⟩ := @Has.exists_shape .initial id (Nat.lt_succ_of_le small)
      exact ⟨shape, shape, found, found, alike_of_leaf (leaf found).1⟩
    right := by
      rintro id _ _ ⟨rfl, -⟩ ⟨rfl, -⟩
      rfl
    left := by
      rintro id _ _ ⟨rfl, -⟩ ⟨rfl, -⟩
      rfl
    total := fun {id} has => ⟨id, rfl, Nat.le_of_lt_succ has⟩
    named := fun name => by
      have none : Types.initial.named? name = none := by
        rw [named?, Option.map_eq_none_iff, Array.findIdx?_eq_none_iff]
        intro shape mem
        simp [(leaves shape mem).2]
      rw [none]
      exact .none
    basic := fun small => ⟨rfl, small⟩
    layered := fun id shape found _ child mem => by
      rw [(leaf found).1] at mem
      cases mem
    canonical := canonical_initial
    canonicalLarge := canonical_initial }

end Paired

end Types

end IrStream
