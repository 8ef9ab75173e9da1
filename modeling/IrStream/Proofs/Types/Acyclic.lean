import IrStream.Proofs.Pairing.Types
import Mathlib.Data.Fintype.Card
import Mathlib.Logic.Relation

/-!
# Containment by value

A type *holds* the types of its fields or elements, and it *contains* whatever can be reached that
way, itself included.  Named structs are declared before they have a body and may get another one,
so nothing about the order of handles keeps a type from containing itself; the test in
`Types.setStructBody` does.

* That test looks a bounded number of layers down.  In an arena without cycles the types below a
  type are fewer with each layer (`Types.Acyclic.height_lt`), so the bound cuts nothing off and the
  test is exact (`Types.Complete.containsWithin_eq`).
* Giving a struct a body replaces what one type holds.  `irreflexive_iff_of_replaced` says when that
  closes a cycle: the struct has to be contained in one of the new fields already
  (`Types.Acyclic.withBody_iff`).
* `Types.Built.acyclic` is the invariant, `Types.Complete.setStructBody_eq` the answer of
  `Types.setStructBody` in terms of it.

The three points lean on each other.  The test is only known to be exact in an arena without cycles,
and an arena only stays without cycles because the test is exact.  So the invariant is what is
proved by induction, and in each step the test is used on the arena *before* the body is given.

The graph has handles for vertices, and all that is needed of it is what happens when the edges that
leave one vertex are exchanged for others.  That is a statement about relations, proved at the
beginning for any type: a path in the new graph either avoids the edges that were exchanged, or can
be cut where it leaves the vertex for the last time.
-/

set_option autoImplicit false

namespace IrStream

open Relation (ReflTransGen TransGen)

/-! ## Replacing the steps from one place

Two relations that differ in the steps from one place only.  Nothing here is about types. -/

section

variable {α : Type} {old new : α → α → Prop} {here : α}

/-- A path that ends at a place need not take steps from there.  It can be cut where it first gets
there. -/
theorem reflTransGen_of_replaced (same : ∀ {a b}, a ≠ here → old a b → new a b) {a : α}
    (path : ReflTransGen old a here) : ReflTransGen new a here := by
  induction path using ReflTransGen.head_induction_on with
  | refl => exact .refl
  | @head a b step _ ih =>
    by_cases at_here : a = here
    · rw [at_here]
    · exact .head (same at_here step) ih

/-- A path takes a step from a place or none.  In the second case it gets to the place, steps on by
a new step and then goes where it goes. -/
theorem transGen_of_replaced (same : ∀ {a b}, a ≠ here → new a b → old a b) {a b : α}
    (path : TransGen new a b) :
    TransGen old a b
      ∨ ReflTransGen new a here ∧ ∃ part, new here part ∧ ReflTransGen new part b := by
  induction path using TransGen.head_induction_on with
  | @single a step =>
    by_cases at_here : a = here
    · exact .inr ⟨at_here ▸ .refl, b, at_here ▸ step, .refl⟩
    · exact .inl (.single (same at_here step))
  | @head a c step rest ih =>
    by_cases at_here : a = here
    · exact .inr ⟨at_here ▸ .refl, c, at_here ▸ step, rest.to_reflTransGen⟩
    · rcases ih with path | ⟨reaches, later⟩
      · exact .inl (.head (same at_here step) path)
      · exact .inr ⟨.head step reaches, later⟩

/-- **Other steps from one place** close a cycle exactly if one of them leads to where the place
could be reached from before.  Setting a body is that: the struct gets new parts and everything else
keeps its own. -/
theorem irreflexive_iff_of_replaced (acyclic : ∀ a, ¬ TransGen old a a)
    (same : ∀ {a b}, a ≠ here → (new a b ↔ old a b)) :
    (∀ a, ¬ TransGen new a a) ↔ ∀ part, new here part → ¬ ReflTransGen old part here := by
  constructor
  · intro irreflexive part step path
    exact irreflexive here (.head' step (reflTransGen_of_replaced (fun h => (same h).mpr) path))
  · intro apart a cycle
    rcases transGen_of_replaced (fun h => (same h).mp) cycle with path | ⟨reaches, part, step, path⟩
    · exact acyclic a path
    · exact apart part step
        (reflTransGen_of_replaced (fun h => (same h).mp) (path.trans reaches))

end

/-! ## Parts that are stored

A pointer does not hold what it points to, and a function type holds nothing. -/

namespace TypeShape

/-- Types of which a value has values in its storage.  A pointer and a function store nothing of
what they mention. -/
def stored : TypeShape → List TypeId
  | struct shape => shape.fields
  | array elem _ => [elem]
  | _ => []

theorem stored_subset (shape : TypeShape) : shape.stored ⊆ shape.children := by
  cases shape with
  | struct | array => exact List.Subset.refl _
  | _ => exact List.nil_subset _

/-- A type of which a struct can have a field, unless it contains the struct.  A struct without a
body is one, since it may get one. -/
def Storable : TypeShape → Prop
  | void => False
  | func .. => False
  | _ => True

end TypeShape

namespace Types

/-- A value of type `outer` has a value of type `inner` as a field or an element. -/
def Holds (types : Types) (outer inner : TypeId) : Prop :=
  ∃ shape, types.shape outer = .ok shape ∧ inner ∈ shape.stored

/-- A value of type `outer` has a value of type `inner` in its storage, at any depth. -/
def Contains (types : Types) : TypeId → TypeId → Prop :=
  ReflTransGen types.Holds

/-- No type contains itself but as a whole.  A cycle would be a value that holds itself, and have no
size. -/
def Acyclic (types : Types) : Prop :=
  ∀ id, ¬ TransGen types.Holds id id

/-- The arena in which the struct `id`, called `name`, has that body.  It is what setting a body
answers if no field is refused. -/
def withBody (types : Types) (id : TypeId) (name : String) (fields : List TypeId) (packed : Bool) :
    Types :=
  ⟨types.shapes.setIfInBounds id.index (.struct ⟨some name, fields, packed, true⟩)⟩

variable {types after : Types} {id outer inner : TypeId} {shape : TypeShape}

theorem holds_iff_of_shape (found : types.shape outer = .ok shape) :
    types.Holds outer inner ↔ inner ∈ shape.stored := by
  constructor
  · rintro ⟨_, again, mem⟩
    cases found.symm.trans again
    exact mem
  · exact fun mem => ⟨shape, found, mem⟩

theorem Holds.has (holds : types.Holds outer inner) : types.Has outer :=
  have ⟨_, found, _⟩ := holds
  has_of_shape found

theorem Complete.has_of_holds (complete : types.Complete) (holds : types.Holds outer inner) :
    types.Has inner :=
  have ⟨shape, found, mem⟩ := holds
  complete found inner (shape.stored_subset mem)

theorem Complete.has_of_contains (complete : types.Complete) (has : types.Has outer)
    (contains : types.Contains outer inner) : types.Has inner := by
  cases contains with
  | refl => exact has
  | tail _ last => exact complete.has_of_holds last

/-! ## How far down containment goes

The number of types that a type contains is less for each of its parts. -/

/-- Positions of the types that a type contains, the type itself left out. -/
noncomputable def below (types : Types) (id : TypeId) : Finset (Fin types.size) := by
  classical exact Finset.univ.filter fun index => TransGen types.Holds id ⟨index⟩

theorem mem_below {index : Fin types.size} :
    index ∈ types.below id ↔ TransGen types.Holds id ⟨index⟩ := by
  classical
  rw [below, Finset.mem_filter]
  exact and_iff_right (Finset.mem_univ index)

/-- How many types a type contains, the type itself left out. -/
noncomputable def height (types : Types) (id : TypeId) : Nat :=
  (types.below id).card

theorem height_le (types : Types) (id : TypeId) : types.height id ≤ types.size := by
  have most := Finset.card_le_univ (types.below id)
  rwa [Fintype.card_fin] at most

/-- **Parts contain fewer types** than what they are part of.  What a part contains, the whole
contains as well, and the part itself besides. -/
theorem Acyclic.height_lt (acyclic : types.Acyclic) (complete : types.Complete)
    (holds : types.Holds outer inner) : types.height inner < types.height outer := by
  have has : inner.index < types.size := complete.has_of_holds holds
  refine Finset.card_lt_card ((Finset.ssubset_iff_of_subset fun index mem => ?_).mpr
    ⟨⟨inner.index, has⟩, ?_, ?_⟩)
  · exact mem_below.mpr (.head holds (mem_below.mp mem))
  · exact mem_below.mpr (.single holds)
  · exact fun mem => acyclic inner (mem_below.mp mem)

/-! ## The test for containment -/

end Types

/-- A test of a list answers if the test of each of its entries does. -/
theorem exists_anyM_eq_ok {ε α : Type} {test : α → Except ε Bool} {P : α → Prop} {list : List α}
    (each : ∀ a ∈ list, ∃ answer, test a = .ok answer ∧ (answer = true ↔ P a)) :
    ∃ answer, list.anyM test = .ok answer ∧ (answer = true ↔ ∃ a ∈ list, P a) := by
  induction list with
  | nil => exact ⟨false, rfl, by simp⟩
  | cons a rest ih =>
    obtain ⟨first, tested, holds⟩ := each a List.mem_cons_self
    cases first with
    | true =>
      refine ⟨true, bind_eq_ok_iff.mpr ⟨true, tested, rfl⟩, iff_of_true rfl ?_⟩
      exact ⟨a, List.mem_cons_self, holds.mp rfl⟩
    | false =>
      obtain ⟨answer, others, any⟩ := ih fun other mem => each other (List.mem_cons_of_mem a mem)
      have never : ¬ P a := fun h => nomatch holds.mpr h
      refine ⟨answer, bind_eq_ok_iff.mpr ⟨false, tested, others⟩, ?_⟩
      rw [any, List.exists_mem_cons_iff, or_iff_right never]

namespace Types

variable {types after : Types} {id outer inner : TypeId} {shape : TypeShape}

/-- A type contains itself, and what one of its parts contains. -/
theorem contains_iff : types.Contains outer inner ↔
    outer = inner ∨ ∃ part, types.Holds outer part ∧ types.Contains part inner := by
  rw [Contains, ReflTransGen.cases_head_iff]

/-- The test for containment is exact, as long as it looks as far down as there is something.  By
induction on the depth, which the height bounds. -/
theorem Complete.containsWithin_eq (complete : types.Complete) (acyclic : types.Acyclic)
    (inner : TypeId) {depth : Nat} (has : types.Has outer) (enough : types.height outer ≤ depth) :
    ∃ answer, types.containsWithin inner depth outer = .ok answer
      ∧ (answer = true ↔ types.Contains outer inner) := by
  induction depth generalizing outer with
  | zero =>
    rw [containsWithin]
    split
    · next same => exact ⟨true, rfl, iff_of_true rfl (same ▸ .refl)⟩
    · next other =>
      refine ⟨false, rfl, iff_of_false Bool.false_ne_true fun contains => ?_⟩
      rcases contains_iff.mp contains with same | ⟨part, holds, -⟩
      · exact other same
      · exact absurd (acyclic.height_lt complete holds) (by omega)
  | succ depth ih =>
    rw [containsWithin]
    split
    · next same => exact ⟨true, rfl, iff_of_true rfl (same ▸ .refl)⟩
    · next other =>
      obtain ⟨shape, found⟩ := has.exists_shape
      have below : ∀ part ∈ shape.stored, ∃ answer,
          types.containsWithin inner depth part = .ok answer
            ∧ (answer = true ↔ types.Contains part inner) := by
        intro part mem
        have holds : types.Holds outer part := ⟨shape, found, mem⟩
        have := acyclic.height_lt complete holds
        exact ih (complete.has_of_holds holds) (by omega)
      -- another type is only contained through one of the parts
      have contains : types.Contains outer inner ↔
          ∃ part ∈ shape.stored, types.Contains part inner := by
        rw [contains_iff, or_iff_right other]
        simp only [holds_iff_of_shape found]
      rw [contains]
      simp only [found]
      cases shape with
      | struct shape => exact exists_anyM_eq_ok below
      | array elem length =>
        obtain ⟨answer, tested, holds⟩ := below elem List.mem_cons_self
        exact ⟨answer, tested, by rw [holds]; simp [TypeShape.stored]⟩
      | _ => exact ⟨false, rfl, by simp [TypeShape.stored]⟩

/-- **The test for containment is exact.**  The depth it is started with is the size of the arena,
and that is never too small. -/
theorem Complete.containsByValue_eq (complete : types.Complete) (acyclic : types.Acyclic)
    (has : types.Has outer) (inner : TypeId) :
    ∃ answer, types.containsByValue outer inner = .ok answer
      ∧ (answer = true ↔ types.Contains outer inner) :=
  complete.containsWithin_eq acyclic inner has (types.height_le outer)

/-! ## Giving a struct its body -/

theorem shape_withBody_self {name : String} {fields : List TypeId} {packed : Bool}
    (found : types.shape id = .ok shape) :
    (types.withBody id name fields packed).shape id
      = .ok (.struct ⟨some name, fields, packed, true⟩) :=
  resolve_set_self found

theorem shape_withBody_of_ne {name : String} {fields : List TypeId} {packed : Bool}
    {other : TypeId} (apart : other ≠ id) :
    (types.withBody id name fields packed).shape other = types.shape other :=
  resolve_set_of_ne fun same => apart (TypeId.ext same)

/-- **A body closes a cycle** exactly if one of its fields contains the struct already.  The arena
before has no cycle, so a cycle afterwards goes through the struct. -/
theorem Acyclic.withBody_iff (acyclic : types.Acyclic) (found : types.shape id = .ok shape)
    {name : String} {fields : List TypeId} {packed : Bool} :
    (types.withBody id name fields packed).Acyclic ↔
      ∀ field ∈ fields, ¬ types.Contains field id := by
  have same {a b : TypeId} (apart : a ≠ id) :
      (types.withBody id name fields packed).Holds a b ↔ types.Holds a b := by
    rw [Holds, Holds, shape_withBody_of_ne apart]
  refine (irreflexive_iff_of_replaced acyclic same).trans (forall_congr' fun field => ?_)
  rw [holds_iff_of_shape (shape_withBody_self found)]
  rfl

/-- Whether a field may stand in a body is a question of containment alone, if it can be stored.
The order of the checks makes no difference then, since the other ones are passed. -/
theorem Complete.checkField_eq (complete : types.Complete) (acyclic : types.Acyclic)
    {field : TypeId} (found : types.shape field = .ok shape) (storable : shape.Storable)
    (id : TypeId) (name : String) :
    (types.Contains field id ∧ types.checkField id name field = .error (.recursiveStruct name))
      ∨ (¬ types.Contains field id ∧ types.checkField id name field = .ok ()) := by
  obtain ⟨answer, tested, contains⟩ :=
    complete.containsByValue_eq acyclic (has_of_shape found) id
  have checks : types.checkField id name field
      = if answer then .error (.recursiveStruct name) else .ok () := by
    rw [checkField, found, tested]
    cases shape with
    | void | func => cases storable
    | _ => cases answer <;> rfl
  rw [checks, ← contains]
  cases answer with
  | true => exact .inl ⟨rfl, rfl⟩
  | false => exact .inr ⟨Bool.false_ne_true, rfl⟩

/-- Fields are checked in a row, and all fail for the same cause.  The error does not name the
field, so it does not matter which of them is first. -/
theorem Complete.forM_checkField_eq (complete : types.Complete) (acyclic : types.Acyclic)
    {fields : List TypeId}
    (storable : ∀ field ∈ fields, ∃ shape, types.shape field = .ok shape ∧ shape.Storable)
    (id : TypeId) (name : String) :
    ((∃ field ∈ fields, types.Contains field id)
        ∧ fields.forM (types.checkField id name) = .error (.recursiveStruct name))
      ∨ ((∀ field ∈ fields, ¬ types.Contains field id)
        ∧ fields.forM (types.checkField id name) = .ok ()) := by
  induction fields with
  | nil => exact .inr ⟨by simp, rfl⟩
  | cons field rest ih =>
    obtain ⟨shape, found, stored⟩ := storable field List.mem_cons_self
    rw [List.forM_eq_forM, List.forM_cons]
    rcases complete.checkField_eq acyclic found stored id name with
      ⟨contains, checked⟩ | ⟨apart, checked⟩
    · rw [checked]
      exact .inl ⟨⟨field, List.mem_cons_self, contains⟩, rfl⟩
    · rw [checked]
      rcases ih fun other mem => storable other (List.mem_cons_of_mem field mem) with
        ⟨⟨other, mem, contains⟩, others⟩ | ⟨others, checked⟩
      · exact .inl ⟨⟨other, List.mem_cons_of_mem field mem, contains⟩, others⟩
      · exact .inr ⟨by simpa [apart] using others, checked⟩

/-- The body of a named struct is set if every field passes its check.  Other types are refused
before any field is looked at. -/
theorem setStructBody_of_named {name : String} {fields : List TypeId} {packed : Bool}
    (found : types.shape id = .ok shape) (named : shape.structName? = some name) :
    types.setStructBody id fields packed = (do
      fields.forM (types.checkField id name)
      return types.withBody id name fields packed) := by
  rw [Types.setStructBody, found]
  cases shape with
  | struct body =>
    obtain ⟨name', fields', packed', hasBody⟩ := body
    cases named
    rfl
  | void | int | ptr | float | func | array => cases named

/-- **A body is refused for recursion** exactly if it closes a cycle, and if its fields can be
stored it is refused for nothing else. -/
theorem Complete.setStructBody_eq (complete : types.Complete) (acyclic : types.Acyclic)
    {name : String} {fields : List TypeId} (found : types.shape id = .ok shape)
    (named : shape.structName? = some name)
    (storable : ∀ field ∈ fields, ∃ shape, types.shape field = .ok shape ∧ shape.Storable)
    (packed : Bool) :
    (¬ (types.withBody id name fields packed).Acyclic
        ∧ types.setStructBody id fields packed = .error (.recursiveStruct name))
      ∨ ((types.withBody id name fields packed).Acyclic
        ∧ types.setStructBody id fields packed = .ok (types.withBody id name fields packed)) := by
  rw [setStructBody_of_named found named, acyclic.withBody_iff found]
  rcases complete.forM_checkField_eq acyclic storable id name with
    ⟨⟨field, mem, contains⟩, checked⟩ | ⟨apart, checked⟩
  · rw [checked]
    exact .inl ⟨fun apart => apart field mem contains, rfl⟩
  · rw [checked]
    exact .inr ⟨apart, rfl⟩

/-! ## The invariant

Interning adds a type that nothing holds, and a body is set only if it passes the test.  So no
operation makes a cycle, and the test can rely on there being none. -/

theorem Acyclic.initial : Types.initial.Acyclic := by
  have leaves : ∀ shape ∈ Types.initial.shapes, shape.stored = [] := by decide
  intro id cycle
  obtain ⟨part, ⟨shape, found, mem⟩, -⟩ := TransGen.head'_iff.mp cycle
  rw [leaves shape (Array.mem_of_getElem? (shape_eq_ok_iff.mp found))] at mem
  cases mem

/-- A new type holds others, and nothing holds it.  So a cycle would have been there before. -/
theorem Acyclic.intern (acyclic : types.Acyclic) (complete : types.Complete)
    (parts : ∀ child ∈ shape.children, types.Has child) : (types.intern shape).2.Acyclic := by
  rw [Types.intern]
  split
  · exact acyclic
  · have same {a b : TypeId} (apart : a ≠ ⟨types.size⟩) :
        Holds ⟨types.shapes.push shape⟩ a b ↔ types.Holds a b := by
      constructor
      · rintro ⟨entry, found, mem⟩
        rcases shape_of_shape_push found with ⟨last, -⟩ | found
        · exact absurd last apart
        · exact ⟨entry, found, mem⟩
      · rintro ⟨entry, found, mem⟩
        exact ⟨entry, shape_push_of_shape found, mem⟩
    refine (irreflexive_iff_of_replaced acyclic same).mpr fun part holds contains => ?_
    obtain ⟨entry, found, mem⟩ := holds
    have last : Types.shape ⟨types.shapes.push shape⟩ ⟨types.size⟩ = .ok shape :=
      resolve_push_self rfl
    cases found.symm.trans last
    have has := complete.has_of_contains (parts part (shape.stored_subset mem)) contains
    exact Nat.lt_irrefl _ has

theorem Interns.acyclic (acyclic : types.Acyclic) (complete : types.Complete)
    (interns : types.Interns after) : after.Acyclic := by
  induction interns with
  | refl => exact acyclic
  | intern before shape unnamed parts ih => exact ih.intern (before.complete complete) parts

/-- The fields of a body that was accepted can be stored.  The check of a field says so before it
looks for the struct. -/
theorem storable_of_setStructBody {fields : List TypeId} {packed : Bool}
    (run : types.setStructBody id fields packed = .ok after) :
    ∀ field ∈ fields, ∃ shape, types.shape field = .ok shape ∧ shape.Storable := by
  simp only [setStructBody, bind_eq_ok_iff, dangling_eq_ok_iff] at run
  obtain ⟨shape, -, run⟩ := run
  split at run
  · simp at run
  · next name _ =>
    simp only [bind_eq_ok_iff, pure_eq_ok_iff] at run
    obtain ⟨_, checked, -⟩ := run
    clear * - checked
    induction fields with
    | nil => simp
    | cons field rest ih =>
      rw [List.forM_eq_forM, List.forM_cons, bind_eq_ok_iff] at checked
      obtain ⟨_, first, others⟩ := checked
      refine List.forall_mem_cons.mpr ⟨?_, ih others⟩
      simp only [checkField, bind_eq_ok_iff, dangling_eq_ok_iff] at first
      obtain ⟨shape, found, first⟩ := first
      refine ⟨shape, found, ?_⟩
      cases shape with
      | void | func => cases first
      | _ => trivial

/-- Only setting a body can close a cycle, and that is checked. -/
theorem Step.acyclic (ptr : types.Has .ptr) (complete : types.Complete) (acyclic : types.Acyclic)
    (step : Step types after) : after.Acyclic := by
  cases step with
  | intern shape parts => exact acyclic.intern complete parts
  | setStructBody parts run =>
    obtain ⟨shape, name, found, named, rfl⟩ := setStructBody_eq_ok run
    rcases complete.setStructBody_eq acyclic found named (storable_of_setStructBody run) _ with
      ⟨-, refused⟩ | ⟨kept, -⟩
    · cases refused.symm.trans run
    · exact kept
  | readText text => exact (readText_interns ptr text).acyclic acyclic complete

theorem Built.complete (built : types.Built) : types.Complete := by
  induction built with
  | initial => exact .initial
  | step built step ih => exact step.complete built.has_ptr ih

/-- **No type contains itself**, whatever bodies structs have been given.  By induction on how the
arena was built. -/
theorem Built.acyclic (built : types.Built) : types.Acyclic := by
  induction built with
  | initial => exact .initial
  | step built step ih => exact step.acyclic built.has_ptr built.complete ih

end Types

end IrStream
