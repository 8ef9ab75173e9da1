import IrStream.Proofs.Types.Spelling
import IrStream.Types.Text

/-!
# Legible types

The arenas that the constructors of types make (`Types.Constructed`), the types of them whose text
mentions nothing that no text can spell (`Types.Legible`), and the text of a type from the texts of
its parts (`Types.Layered.text_of_shape`).

Not every type can be written so that it can be read again.  A struct may have been given a name
with a space in it, or one that is empty; an integer type may have no bits.  Both can be made by
operations and shown as text, and the text is no type, or it is another one.  `Legible` excludes
exactly these, and only where the text shows them: what is *inside* a named struct does not matter,
as its text is its name.

The second restriction is on the arena.  Interning accepts any shape, also an unnamed struct without
fields that are known, which has no text of its own.  The constructors of types never make one
(`Types.LiteralsKnown`), so this is asked of the arena and not of the type.

## Statements

* `Constructed.literalsKnown`: constructors give every unnamed struct its fields.
* `Layered.text_of_shape`: **the text of a type** from the texts of its parts.  It is computed with
  a bound for the depth, and this equation has none, so texts can be taken apart without counting.
* `Regular.legible_of_readable`: a type that some text spells is legible.  So legibility is no
  restriction on types that come out of documents.
* `Legible.part`: what a legible type is spelled with is legible, which is what an induction on
  types needs.
-/

set_option autoImplicit false

namespace IrStream

open Relation (ReflTransGen)

/-! ## Arenas of the constructors

A smaller set of operations than `Types.Step`, in which each shape is made by the constructor for
it. -/

namespace Types

/-- The arenas that the constructors of types make, with handles that they gave out. -/
inductive Constructed : Types → Prop
  /-- The six types that every arena begins with. -/
  | initial : Constructed .initial
  /-- An integer type of any width. -/
  | int {types : Types} (before : Constructed types) (bits : UInt32) :
      Constructed (types.int bits).2
  /-- A pointer into any address space. -/
  | ptr {types : Types} (before : Constructed types) (addrSpace : UInt32) :
      Constructed (types.ptr addrSpace).2
  /-- A floating-point type. -/
  | float {types : Types} (before : Constructed types) (kind : FloatKind) :
      Constructed (types.float kind).2
  /-- A function type of types that are in the arena. -/
  | func {types : Types} (before : Constructed types) {params : List TypeId} {ret : TypeId}
      (hasParams : ∀ param ∈ params, types.Has param) (hasRet : types.Has ret) (vararg : Bool) :
      Constructed (types.func params ret vararg).2
  /-- An array of a type that is in the arena. -/
  | array {types : Types} (before : Constructed types) {elem : TypeId} (hasElem : types.Has elem)
      (length : UInt64) : Constructed (types.array elem length).2
  /-- A struct without a name, of types that are in the arena. -/
  | literalStruct {types : Types} (before : Constructed types) {fields : List TypeId}
      (hasFields : ∀ field ∈ fields, types.Has field) (packed : Bool) :
      Constructed (types.literalStruct fields packed).2
  /-- A named struct, without a body if it is new. -/
  | declareStruct {types : Types} (before : Constructed types) (name : String) :
      Constructed (types.declareStruct name).2
  /-- A named struct gets a body that is accepted. -/
  | setStructBody {types after : Types} (before : Constructed types) {id : TypeId}
      {fields : List TypeId} {packed : Bool} (hasFields : ∀ field ∈ fields, types.Has field)
      (run : types.setStructBody id fields packed = .ok after) : Constructed after
  /-- Any text is read, whether or not it is a type. -/
  | readText {types : Types} (before : Constructed types) (text : List Char) :
      Constructed (types.readText text).1

/-- A struct without a name has its fields. -/
def LiteralsKnown (types : Types) : Prop :=
  ∀ ⦃id shape⦄, types.shape id = .ok shape → shape.structName? = none → shape.IsLiteral

variable {types after : Types} {id : TypeId} {shape : TypeShape}

/-- Constructors are operations that are called with shapes of certain forms. -/
theorem Constructed.built (constructed : types.Constructed) : types.Built := by
  induction constructed with
  | initial => exact .initial
  | int _ bits ih => exact ih.step (.intern (.int bits) fun _ mem => nomatch mem)
  | ptr _ addrSpace ih => exact ih.step (.intern (.ptr addrSpace) fun _ mem => nomatch mem)
  | float _ kind ih => exact ih.step (.intern (.float kind) fun _ mem => nomatch mem)
  | func _ hasParams hasRet vararg ih =>
    exact ih.step (.intern (.func _ _ vararg) (List.forall_mem_cons.mpr ⟨hasRet, hasParams⟩))
  | array _ hasElem length ih =>
    exact ih.step (.intern (.array _ length) (List.forall_mem_singleton.mpr hasElem))
  | literalStruct _ hasFields packed ih =>
    exact ih.step (.intern (.struct ⟨none, _, packed, true⟩) hasFields)
  | declareStruct _ name ih =>
    exact ih.step (.intern (.struct ⟨some name, [], false, false⟩) fun _ mem => nomatch mem)
  | setStructBody _ hasFields run ih => exact ih.step (.setStructBody hasFields run)
  | readText _ text ih => exact ih.step (.readText _ text)

theorem LiteralsKnown.intern (known : types.LiteralsKnown)
    (literal : shape.structName? = none → shape.IsLiteral) :
    (types.intern shape).2.LiteralsKnown := by
  intro id entry found unnamed
  rcases shape_of_shape_intern found with old | ⟨-, -, -, rfl⟩
  · exact known old unnamed
  · exact literal unnamed

theorem LiteralsKnown.writes (known : types.LiteralsKnown) (writes : types.Writes after) :
    after.LiteralsKnown := by
  induction writes with
  | refl => exact known
  | intern before shape literal parts ih => exact ih.intern fun _ => literal

theorem LiteralsKnown.setStructBody (known : types.LiteralsKnown) {fields : List TypeId}
    {packed : Bool} (run : types.setStructBody id fields packed = .ok after) :
    after.LiteralsKnown := by
  obtain ⟨shape, name, there, named, rfl⟩ := setStructBody_eq_ok run
  intro id entry found unnamed
  rcases shape_of_shape_set there found with ⟨-, rfl⟩ | found
  · cases unnamed
  · exact known found unnamed

theorem initial_literalsKnown : Types.initial.LiteralsKnown := by
  intro id shape found unnamed
  have leaves : ∀ shape ∈ Types.initial.shapes, ∀ body, shape ≠ .struct body := by
    simp [Types.initial]
  have leaf := leaves shape (Array.mem_of_getElem? (shape_eq_ok_iff.mp found))
  cases shape with
  | struct body => exact absurd rfl (leaf body)
  | _ => trivial

/-- Constructors make no struct without a name and without fields. -/
theorem Constructed.literalsKnown (constructed : types.Constructed) : types.LiteralsKnown := by
  induction constructed with
  | initial => exact initial_literalsKnown
  | int _ bits ih => exact ih.intern fun _ => trivial
  | ptr _ addrSpace ih => exact ih.intern fun _ => trivial
  | float _ kind ih => exact ih.intern fun _ => trivial
  | func _ _ _ vararg ih => exact ih.intern fun _ => trivial
  | array _ _ length ih => exact ih.intern fun _ => trivial
  | literalStruct _ _ packed ih => exact ih.intern fun _ => ⟨rfl, rfl⟩
  | declareStruct _ name ih => exact ih.intern fun unnamed => nomatch unnamed
  | setStructBody _ _ run ih => exact ih.setStructBody run
  | readText before text ih => exact ih.writes (before.built.regular.readText_writes text)

/-! ## What a text mentions -/

/-- The text of `outer` has the text of `part` in it. -/
def Mentions (types : Types) : TypeId → TypeId → Prop :=
  ReflTransGen fun outer part =>
    ∃ shape, types.shape outer = .ok shape ∧ shape.structName? = none ∧ part ∈ shape.children

/-- The text of the type mentions no integer of no bits, and of named structs only those whose names
are words. -/
def Legible (types : Types) (id : TypeId) : Prop :=
  ∀ part shape, types.Mentions id part → types.shape part = .ok shape →
    shape ≠ .int 0 ∧ ∀ name, shape.structName? = some name → IsWord name.toList

theorem Legible.part (legible : types.Legible id) (found : types.shape id = .ok shape)
    (unnamed : shape.structName? = none) {child : TypeId} (mem : child ∈ shape.children) :
    types.Legible child :=
  fun part shape mentions there =>
    legible part shape (.head ⟨_, found, unnamed, mem⟩ mentions) there

/-- What is spelled by a text can be written legibly. -/
theorem Regular.legible_of_readable (regular : types.Regular)
    (readable : (types.term id).Readable) : types.Legible id := by
  intro part shape mentions there
  have spelled : (types.term part).Readable := by
    clear there
    induction mentions with
    | refl => exact readable
    | tail _ step ih =>
      obtain ⟨shape, found, unnamed, mem⟩ := step
      rw [regular.layered.term_of_shape found] at ih
      cases shape with
      | void | int | ptr | float => cases mem
      | func params ret vararg =>
        cases ih with
        | func spelled returned =>
          rcases List.mem_cons.mp mem with rfl | mem
          · exact returned
          · exact spelled _ (List.mem_map_of_mem mem)
      | array elem length =>
        cases ih with
        | array spelled => exact List.mem_singleton.mp mem ▸ spelled
      | struct body =>
        obtain ⟨name, fields, packed, hasBody⟩ := body
        cases unnamed
        cases ih with
        | struct spelled => exact spelled _ (List.mem_map_of_mem mem)
  rw [regular.layered.term_of_shape there] at spelled
  constructor
  · rintro rfl
    cases spelled with
    | int positive => exact positive rfl
  · intro name named
    rw [TypeShape.termWith_of_named named] at spelled
    cases spelled with
    | named word => exact word

/-! ## The text of a shape

One layer of the text, so that inductions need not look at the depth. -/

end Types

/-- The text of a shape, from the texts of its parts. -/
def TypeShape.textWith (text : TypeId → String) : TypeShape → String
  | void => "void"
  | int bits => "i" ++ toString bits.toNat
  | ptr addrSpace =>
    if addrSpace = 0 then "ptr" else "ptr addrspace(" ++ toString addrSpace.toNat ++ ")"
  | float kind => kind.name
  | func params ret vararg =>
    text ret ++ " (" ++ Types.paramsText (params.map text) vararg ++ ")"
  | struct shape =>
    match shape.name with
    | some name => "%" ++ name
    | none => Types.structText (shape.fields.map text) shape.packed
  | array elem length => "[" ++ toString length.toNat ++ " x " ++ text elem ++ "]"

namespace Types

variable {types after : Types} {id : TypeId} {shape : TypeShape}

/-- The text of a shape is made of the texts of its children; a struct with a name is spelled by its
name alone. -/
theorem textWith_congr {first second : TypeId → String}
    (same : shape.structName? = none → ∀ child ∈ shape.children, first child = second child) :
    shape.textWith first = shape.textWith second := by
  cases shape with
  | void | int | ptr | float => rfl
  | func params ret vararg =>
    have parts := same rfl
    have listed : params.map first = params.map second :=
      List.map_congr_left fun child mem => parts child (List.mem_cons_of_mem ret mem)
    rw [TypeShape.textWith, TypeShape.textWith, listed, parts ret List.mem_cons_self]
  | struct shape =>
    obtain ⟨name, fields, packed, hasBody⟩ := shape
    cases name with
    | some name => rfl
    | none => exact congrArg (structText · packed) (List.map_congr_left (same rfl))
  | array elem length =>
    rw [TypeShape.textWith, TypeShape.textWith, same rfl elem List.mem_cons_self]

theorem textWithin_succ_of_shape (found : types.shape id = .ok shape) (depth : Nat) :
    types.textWithin (depth + 1) id = shape.textWith (types.textWithin depth) := by
  have known : types.shape? id = some shape := shape_eq_ok_iff.mp found
  rw [textWithin, known]
  cases shape <;> rfl

/-- **The text of a type** is made of the texts of its parts. -/
theorem Layered.text_of_shape (layered : types.Layered) (found : types.shape id = .ok shape) :
    types.text id = shape.textWith types.text := by
  rw [text, textWithin_succ_of_shape found]
  refine textWith_congr fun unnamed child mem => ?_
  have below := layered found unnamed child mem
  have has : id.index < types.size := has_of_shape found
  exact layered.within_eq textWith_congr textWithin_succ_of_shape
    (Nat.lt_trans below has) (by omega) (by omega)

end Types

end IrStream
