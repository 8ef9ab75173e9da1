import IrStream.Proofs.Types.Regular

/-!
# Types without handles

A `TypeTerm` is a type written out, down to the named structs, for which only the name stands.
`Types.term` is the term of a handle.  It says what the text of a type says, and nothing of the
arena that has the type: interning more types or giving structs other bodies leaves the terms of all
handles alone (`Types.Complete.term_of_extends`).

Containment by value is containment in terms, and from the name of a struct on to the terms of its
fields (`Types.Regular.exists_holds_of_contains`, `Types.Regular.contains_of_holds`).

A term is a tree, while an arena is a graph: the names of structs are where the graph is cut open.
So a struct that contains a pointer to itself has a finite term, as every other type has.  What is
lost is what a name stands for, and that is the point.  Terms are equal where types are written the
same, no matter what bodies their structs have been given by now.

`termWithin` is computed like texts and extents, with a bound for the depth.  Between named structs
handles go down, so the bound is never met, and behind `Layered.term_of_shape` it does not occur any
more: the term of a type is made of the terms of its parts.

## Statements

* `Layered.term_of_shape`: **the term of a type** is made of the terms of its parts.
* `Complete.term_of_extends`: **terms stay** whatever is done with the arena.
* `term_of_named?`: the term of a declared struct is its name.
* `contains_of_holds`, `exists_holds_of_contains`: containment, read off terms.
-/

set_option autoImplicit false

namespace IrStream

open Relation (ReflTransGen)

/-- A type written out. -/
inductive TypeTerm where
  | void
  | int (bits : UInt32)
  | ptr (addrSpace : UInt32)
  | float (kind : FloatKind)
  /-- A function type; the mark of vararg functions is no parameter. -/
  | func (params : List TypeTerm) (ret : TypeTerm) (vararg : Bool)
  /-- A struct without a name. -/
  | struct (fields : List TypeTerm) (packed : Bool)
  /-- An array of some length. -/
  | array (elem : TypeTerm) (length : UInt64)
  /-- A named struct, whatever its body is. -/
  | named (name : String)

/-- A value of the term has a value of the named struct in its storage, and there is no other named
struct around that one. -/
inductive TypeTerm.Holds : TypeTerm → String → Prop
  /-- A named struct holds itself. -/
  | named (name : String) : Holds (.named name) name
  /-- A struct without a name holds what its fields hold. -/
  | field {fields : List TypeTerm} {packed : Bool} {field : TypeTerm} {name : String}
      (mem : field ∈ fields) (holds : Holds field name) : Holds (.struct fields packed) name
  /-- An array holds what its elements hold. -/
  | elem {elem : TypeTerm} {length : UInt64} {name : String} (holds : Holds elem name) :
      Holds (.array elem length) name

/-- A term of which a struct can have a field. -/
def TypeTerm.Storable : TypeTerm → Prop
  | void => False
  | func .. => False
  | _ => True

/-- The term of a shape, from the terms of its parts. -/
def TypeShape.termWith (term : TypeId → TypeTerm) : TypeShape → TypeTerm
  | void => .void
  | int bits => .int bits
  | ptr addrSpace => .ptr addrSpace
  | float kind => .float kind
  | func params ret vararg => .func (params.map term) (term ret) vararg
  | struct shape =>
    match shape.name with
    | some name => .named name
    | none => .struct (shape.fields.map term) shape.packed
  | array elem length => .array (term elem) length

namespace TypeShape

variable {shape later : TypeShape} {first second : TypeId → TypeTerm}

/-- The parts of a named struct do not matter. -/
theorem termWith_congr
    (same : shape.structName? = none → ∀ child ∈ shape.children, first child = second child) :
    shape.termWith first = shape.termWith second := by
  cases shape with
  | void | int | ptr | float => rfl
  | func params ret vararg =>
    have parts := same rfl
    have listed : params.map first = params.map second :=
      List.map_congr_left fun child mem => parts child (List.mem_cons_of_mem ret mem)
    rw [termWith, termWith, listed, parts ret List.mem_cons_self]
  | struct shape =>
    obtain ⟨name, fields, packed, hasBody⟩ := shape
    cases name with
    | some name => rfl
    | none => exact congrArg (TypeTerm.struct · packed) (List.map_congr_left (same rfl))
  | array elem length =>
    rw [termWith, termWith, same rfl elem List.mem_cons_self]

theorem termWith_of_named {name : String} (named : shape.structName? = some name) :
    shape.termWith first = .named name := by
  cases shape with
  | struct shape =>
    have named : shape.name = some name := named
    rw [termWith, named]
  | _ => cases named

theorem storable_termWith_iff : (shape.termWith first).Storable ↔ shape.Storable := by
  cases shape with
  | struct shape =>
    obtain ⟨name, fields, packed, hasBody⟩ := shape
    cases name <;> exact Iff.rfl
  | _ => exact Iff.rfl

theorem Becomes.termWith_eq (becomes : shape.Becomes later) :
    later.termWith first = shape.termWith first := by
  rcases becomes with rfl | ⟨name, before, after⟩
  · rfl
  · rw [termWith_of_named before, termWith_of_named after]

end TypeShape

namespace Types

/-- Term of a type with at most `depth` layers of unnamed types. -/
def termWithin (types : Types) : (depth : Nat) → TypeId → TypeTerm
  | 0, _ => .void
  | depth + 1, id =>
    match types.shape? id with
    | none => .void
    | some shape => shape.termWith (types.termWithin depth)

/-- Term of a type, `void` for a handle outside the arena.  Unnamed types are stored behind their
parts, so there are no more layers of them than there are handles up to this one. -/
def term (types : Types) (id : TypeId) : TypeTerm :=
  types.termWithin (id.index + 1) id

variable {types after : Types} {id handle : TypeId} {shape : TypeShape} {name : String}

/-- What is computed for a type from its shape, and for its parts only where it has no name, is not
changed by more layers than there are handles up to the type. -/
theorem Layered.within_eq {α : Type} (layered : types.Layered)
    {combine : (TypeId → α) → TypeShape → α} {within : Nat → TypeId → α}
    (congr : ∀ {shape : TypeShape} {first second : TypeId → α},
      (shape.structName? = none → ∀ child ∈ shape.children, first child = second child) →
        combine first shape = combine second shape)
    (step : ∀ {id : TypeId} {shape : TypeShape}, types.shape id = .ok shape →
      ∀ depth, within (depth + 1) id = combine (within depth) shape)
    {depth more : Nat} (has : types.Has id) (enough : id.index < depth)
    (enough' : id.index < more) : within depth id = within more id := by
  induction depth generalizing id more with
  | zero => omega
  | succ depth ih =>
    obtain ⟨more, rfl⟩ := Nat.exists_eq_add_one_of_ne_zero (Nat.ne_zero_of_lt enough')
    obtain ⟨shape, found⟩ := has.exists_shape
    rw [step found, step found]
    refine congr fun unnamed child mem => ?_
    have below := layered found unnamed child mem
    exact ih (Nat.lt_trans below has) (by omega) (by omega)

theorem termWithin_succ_of_shape (found : types.shape id = .ok shape) (depth : Nat) :
    types.termWithin (depth + 1) id = shape.termWith (types.termWithin depth) := by
  have known : types.shape? id = some shape := shape_eq_ok_iff.mp found
  rw [termWithin, known]

/-- **The term of a type** is made of the terms of its parts. -/
theorem Layered.term_of_shape (layered : types.Layered) (found : types.shape id = .ok shape) :
    types.term id = shape.termWith types.term := by
  rw [term, termWithin_succ_of_shape found]
  refine TypeShape.termWith_congr fun unnamed child mem => ?_
  have below := layered found unnamed child mem
  exact layered.within_eq TypeShape.termWith_congr termWithin_succ_of_shape
    (Nat.lt_trans below (has_of_shape found)) below (Nat.lt_succ_self _)

/-- **Terms stay** whatever is done with the arena. -/
theorem Complete.term_of_extends (complete : types.Complete) (kept : types.Extends after)
    (has : types.Has id) : after.term id = types.term id := by
  have stays : ∀ depth id, types.Has id →
      after.termWithin depth id = types.termWithin depth id := by
    intro depth
    induction depth with
    | zero => exact fun _ _ => rfl
    | succ depth ih =>
      intro id has
      obtain ⟨shape, found⟩ := has.exists_shape
      obtain ⟨later, found', becomes⟩ := kept id shape found
      rw [termWithin_succ_of_shape found, termWithin_succ_of_shape found', becomes.termWith_eq]
      exact TypeShape.termWith_congr fun _ child mem => ih child (complete found child mem)
  exact stays _ id has

/-! ## Containment in terms

A path in the storage of a type passes through named structs.  Between two of them it runs inside
one term. -/

namespace Regular

/-- The term of a declared struct is its name. -/
theorem term_of_named? (regular : types.Regular) (found : types.named? name = some id) :
    types.term id = .named name := by
  obtain ⟨shape, there, named⟩ := shape_of_named? found
  rw [regular.layered.term_of_shape there, TypeShape.termWith_of_named named]

/-- A struct in the term of a type is declared, and contained in the type. -/
theorem contains_of_holds (regular : types.Regular) (has : types.Has id)
    (holds : (types.term id).Holds name) :
    ∃ handle, types.named? name = some handle ∧ types.Contains id handle := by
  -- the parts of an unnamed type have smaller handles, and at a named one the term ends
  induction bound : id.index using Nat.strong_induction_on generalizing id with
  | _ index ih =>
    subst bound
    obtain ⟨shape, there⟩ := has.exists_shape
    have part {child : TypeId} (unnamed : shape.structName? = none) (mem : child ∈ shape.stored)
        (holds : (types.term child).Holds name) :
        ∃ handle, types.named? name = some handle ∧ types.Contains id handle := by
      have listed := shape.stored_subset mem
      obtain ⟨handle, found, contains⟩ :=
        ih child.index (regular.layered there unnamed child listed)
        (regular.complete there child listed) holds rfl
      exact ⟨handle, found, .head ⟨shape, there, mem⟩ contains⟩
    rw [regular.layered.term_of_shape there] at holds
    cases shape with
    | void | int | ptr | float | func => cases holds
    | array elem length =>
      cases holds with
      | elem holds => exact part rfl List.mem_cons_self holds
    | struct shape =>
      obtain ⟨name?, fields, packed, hasBody⟩ := shape
      cases name? with
      | some own =>
        cases holds
        exact ⟨id, regular.names there rfl, .refl⟩
      | none =>
        cases holds with
        | field mem holds =>
          obtain ⟨field, listed, rfl⟩ := List.mem_map.mp mem
          exact part rfl listed holds

/-- Containment goes through the term of the type to a struct, and on from struct to struct through
the terms of their fields. -/
theorem exists_holds_of_contains (regular : types.Regular) (edge : String → String → Prop)
    (edges : ∀ {outer shape field first second}, types.shape outer = .ok (.struct shape) →
      shape.name = some first → field ∈ shape.fields → (types.term field).Holds second →
      edge first second)
    (contains : types.Contains id handle) (found : types.named? name = some handle) :
    ∃ first, (types.term id).Holds first ∧ ReflTransGen edge first name := by
  induction contains using ReflTransGen.head_induction_on with
  | refl =>
    refine ⟨name, ?_, .refl⟩
    rw [regular.term_of_named? found]
    exact .named name
  | @head outer part step _ ih =>
    obtain ⟨shape, there, mem⟩ := step
    obtain ⟨first, holds, path⟩ := ih
    rw [regular.layered.term_of_shape there]
    cases shape with
    | void | int | ptr | float | func => cases mem
    | array elem length =>
      cases List.mem_singleton.mp mem
      exact ⟨first, .elem holds, path⟩
    | struct shape =>
      obtain ⟨name?, fields, packed, hasBody⟩ := shape
      cases name? with
      | some own => exact ⟨own, .named own, .head (edges there rfl mem holds) path⟩
      | none => exact ⟨first, .field (List.mem_map_of_mem mem) holds, path⟩

end Regular

end Types

end IrStream
