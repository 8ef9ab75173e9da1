import IrStream.Proofs.Program.Lookup
import IrStream.Types.Reading

/-!
# The type arena as it is built

`Types.Step` is one public operation on the arena: interning a shape, giving a struct a body, or
reading a type from text.  Whoever calls it passes handles that the arena gave out.

* Reading a text does nothing but intern shapes whose parts are in the arena (`readText_interns`).
  `TypeReader.Ensures` is what that is proved with: a step of reading, run on an arena, only
  interns, and what it answers has a property in the arena it leaves.
* `Types.Extends` is what remains of an arena: every type keeps its shape, except that a named
  struct may get another body (`Step.extends`).

The arena is the part of a program that most things depend on and that is changed in the most
places: by operations, by reading texts, by loading, and by encoding, which registers types but
changes none.  There are four relations between an arena and a later one.

* `Interns` — shapes without a name were added, after their parts.  Texts do that.
* `Step` — one operation, which interns, or declares a struct, or replaces a body.
* `Built` — from the arena that every program begins with, by operations.
* `Extends` — what all of these have in common, and all that most proofs about later arenas ask for.

A text that turns out to be no type leaves behind what was read of it.  So reading is an operation
whether or not it succeeds, and `readText_interns` says so.
-/

set_option autoImplicit false

namespace IrStream

namespace Types

/-- A handle that the arena gave out. -/
def Has (types : Types) (id : TypeId) : Prop :=
  id.index < types.size
  deriving Decidable

/-- The arena with some shapes without a name interned, of which all parts are in the arena. -/
inductive Interns : Types → Types → Prop
  | refl (types : Types) : Interns types types
  | intern {types after : Types} (before : Interns types after) (shape : TypeShape)
      (unnamed : shape.structName? = none) (parts : ∀ child ∈ shape.children, after.Has child) :
      Interns types (after.intern shape).2

/-- A public operation on the arena. -/
inductive Step : Types → Types → Prop
  /-- A shape is interned, of parts that are in the arena. -/
  | intern {types : Types} (shape : TypeShape) (parts : ∀ child ∈ shape.children, types.Has child) :
      Step types (types.intern shape).2
  /-- A struct gets a body that is accepted. -/
  | setStructBody {types after : Types} {id : TypeId} {fields : List TypeId} {packed : Bool}
      (parts : ∀ field ∈ fields, types.Has field)
      (run : types.setStructBody id fields packed = .ok after) : Step types after
  /-- A text is read, whether or not it is a type. -/
  | readText (types : Types) (text : List Char) : Step types (types.readText text).1

/-- The arenas of programs. -/
inductive Built : Types → Prop
  /-- The arena that every program begins with. -/
  | initial : Built .initial
  /-- One operation more. -/
  | step {types after : Types} (built : Built types) (step : Step types after) : Built after

variable {types middle after : Types}

/-- What interns in two goes interns. -/
theorem Interns.trans (first : types.Interns middle) (second : middle.Interns after) :
    types.Interns after := by
  induction second with
  | refl => exact first
  | intern before shape unnamed parts ih => exact .intern ih shape unnamed parts

/-! ## What interning keeps

Interning appends or does nothing, so the arena never shrinks and a handle that was given out stays
one.  What a search finds is such a handle, and so is what interning answers. -/

/-- Interning never removes a type. -/
theorem size_le_intern (shape : TypeShape) : types.size ≤ (types.intern shape).2.size := by
  rw [Types.intern]
  split
  · exact Nat.le_refl _
  · simp [size]

theorem Interns.size_le (interns : types.Interns after) : types.size ≤ after.size := by
  induction interns with
  | refl => exact Nat.le_refl _
  | intern before shape unnamed parts ih => exact Nat.le_trans ih (size_le_intern shape)

theorem Has.mono (interns : types.Interns after) {id : TypeId} (h : types.Has id) :
    after.Has id :=
  Nat.lt_of_lt_of_le h interns.size_le

/-- What has a shape is in the arena. -/
theorem has_of_shape {id : TypeId} {shape : TypeShape} (h : types.shape id = .ok shape) :
    types.Has id :=
  index_lt_of_shape h

/-- What a name stands for is in the arena. -/
theorem has_named? {name : String} {id : TypeId} (h : types.named? name = some id) :
    types.Has id := by
  simp only [named?, Option.map_eq_some_iff, Array.findIdx?_eq_some_iff_getElem] at h
  obtain ⟨index, ⟨bound, -⟩, rfl⟩ := h
  exact bound

/-- What is found by its shape is in the arena. -/
theorem has_find? {shape : TypeShape} {id : TypeId} (h : types.find? shape = some id) :
    types.Has id := by
  rw [find?] at h
  split at h
  · exact has_named? h
  · simp only [Option.map_eq_some_iff, Array.findIdx?_eq_some_iff_getElem] at h
    obtain ⟨index, ⟨bound, -⟩, rfl⟩ := h
    exact bound

/-- What interning answers is in the arena that it leaves, be it new or found. -/
theorem has_intern (shape : TypeShape) :
    (types.intern shape).2.Has (types.intern shape).1 := by
  rw [Types.intern]
  split
  · next known => exact has_find? known
  · simp [Has, size]

end Types

/-! ## Reading types only interns

The rules of the judgment, for the readers from which all others are made.  What is ensured of an
answer is ensured in the arena that the step leaves, so it can be used by the next step as it is. -/

namespace TypeReader

variable {α β : Type} {types : Types}

/-- On the arena `types` the step only interns, and what it answers has the property `P` in the
arena it leaves. -/
def Ensures (types : Types) (step : TypeReader Types α) (P : Types → α → Prop) : Prop :=
  ∀ text, types.Interns (step types text).1
    ∧ ∀ value rest, (step types text).2 = some (value, rest) → P (step types text).1 value

/-- An answer that takes no text has to have the property where the step begins. -/
theorem Ensures.pure {P : Types → α → Prop} {value : α} (h : P types value) :
    Ensures types (Pure.pure value) P := fun text =>
  ⟨.refl _, by rintro _ _ ⟨⟩; exact h⟩

/-- The second reader starts in the arena that the first one leaves, and it may use what is ensured
there. -/
theorem Ensures.bind {step : TypeReader Types α} {next : α → TypeReader Types β}
    {P : Types → α → Prop} {Q : Types → β → Prop} (first : Ensures types step P)
    (second : ∀ {after a}, types.Interns after → P after a → Ensures after (next a) Q) :
    Ensures types (step >>= next) Q := by
  intro text
  obtain ⟨interns, property⟩ := first text
  cases outcome : step types text with
  | mk after answer =>
    rw [outcome] at interns property
    cases answer with
    | none =>
      simp only [Bind.bind, outcome]
      exact ⟨interns, by rintro _ _ ⟨⟩⟩
    | some taken =>
      obtain ⟨a, rest⟩ := taken
      simp only [Bind.bind, outcome]
      obtain ⟨more, answers⟩ := second interns (property a rest rfl) rest
      exact ⟨interns.trans more, answers⟩

theorem ensures_fail {P : Types → α → Prop} : Ensures types fail P := fun _ =>
  ⟨.refl _, by rintro _ _ ⟨⟩⟩

theorem ensures_require {answer : Option α} {P : Types → α → Prop}
    (h : ∀ value, answer = some value → P types value) : Ensures types (require answer) P := by
  cases answer with
  | none => exact ensures_fail
  | some value => exact .pure (h value rfl)

/-- A step that takes text and leaves the arena alone. -/
theorem ensures_of_same {step : TypeReader Types α} (same : ∀ text, (step types text).1 = types) :
    Ensures types step fun after _ => after = types := fun text =>
  ⟨by rw [same]; exact .refl _, fun _ _ _ => same text⟩

/-- A shape whose parts are there can be interned. -/
theorem ensures_interning (shape : TypeShape) (unnamed : shape.structName? = none)
    (parts : ∀ child ∈ shape.children, types.Has child) :
    Ensures types (interning shape) Types.Has := fun _ =>
  ⟨.intern (.refl _) shape unnamed parts, by rintro _ _ ⟨⟩; exact Types.has_intern shape⟩

/-- A name that is read stands for a struct that was declared before. -/
theorem ensures_declared (name : String) : Ensures types (declared name) Types.Has := by
  intro text
  refine ⟨.refl _, fun id rest answered => ?_⟩
  obtain ⟨_, known, same⟩ := Option.map_eq_some_iff.mp answered
  cases same
  exact Types.has_named? known

/-! ### Words

Taking a token or a word away does not touch the arena at all.  That is stated as an equation rather
than as a relation, so that the steps behind run on the very arena they began with. -/

theorem ensures_take? (token : String) :
    Ensures types (take? token) fun after _ => after = types := by
  refine ensures_of_same fun text => ?_
  rw [take?]
  split <;> rfl

/-- An alternative that begins with a token. -/
theorem ensures_ifTake {token : String} {yes no : TypeReader Types α} {P : Types → α → Prop}
    (takes : Ensures types yes P) (passes : Ensures types no P) :
    Ensures types (do if ← take? token then yes else no) P := by
  refine (ensures_take? token).bind ?_
  rintro _ taken - rfl
  cases taken with
  | true => exact takes
  | false => exact passes

theorem ensures_expect (token : String) :
    Ensures types (expect token) fun after _ => after = types := by
  refine (ensures_take? token).bind ?_
  rintro after taken - rfl
  cases taken with
  | false => exact ensures_fail
  | true => exact .pure rfl

theorem ensures_word : Ensures types word fun after _ => after = types :=
  ensures_of_same fun _ => rfl

theorem ensures_number (limit : Nat) :
    Ensures types (number limit) fun after _ => after = types := by
  refine ensures_word.bind ?_
  rintro after digits - rfl
  exact ensures_require fun _ _ => rfl

/-! ### Types

The parts of a shape have been read when the shape is interned, so they are in the arena, each since
the step that read it.  All that the reader relies on beyond that is the type of pointers, which is
answered without being looked up. -/

variable {item : TypeReader Types TypeId}

/-- By induction on the number of turns that are left; each turn adds one item, which is in the
arena when it is added. -/
theorem ensures_listItems (reads : ∀ types, types.Has .ptr → Ensures types item Types.Has)
    {close : String} {turns : Nat} {items : List TypeId} {vararg : Bool} (ptr : types.Has .ptr)
    (known : ∀ id ∈ items, types.Has id) :
    Ensures types (listItems item close turns items vararg) fun after answer =>
      ∀ id ∈ answer.1, after.Has id := by
  induction turns generalizing types items vararg with
  | zero => exact ensures_fail
  | succ turns ih =>
    -- behind an item the list ends or goes on, and the induction hypothesis is for the second case
    have rest : ∀ {types items vararg}, types.Has .ptr → (∀ id ∈ items, types.Has id) →
        Ensures types (do
          if ← take? close then
            return (items, vararg)
          expect ","
          listItems item close turns items vararg) fun after answer =>
            ∀ id ∈ answer.1, after.Has id := by
      intro types items vararg ptr known
      refine (ensures_take? close).bind ?_
      rintro _ closed - rfl
      cases closed with
      | true => exact .pure known
      | false =>
        refine (ensures_expect ",").bind ?_
        rintro _ _ - rfl
        exact ih ptr known
    rw [listItems]
    refine (ensures_take? "...").bind ?_
    rintro _ dots - rfl
    cases dots with
    | true => exact rest ptr known
    | false =>
      refine (reads _ ptr).bind fun {after id} interns has =>
        rest (ptr.mono interns) fun other mem => ?_
      rcases List.mem_append.mp mem with mem | mem
      · exact (known other mem).mono interns
      · rwa [List.mem_singleton.mp mem]

/-- The items of a list are in the arena that reading the list leaves. -/
theorem ensures_list (reads : ∀ types, types.Has .ptr → Ensures types item Types.Has)
    (ptr : types.Has .ptr) (close : String) :
    Ensures types (list item close) fun after answer => ∀ id ∈ answer.1, after.Has id := by
  refine (ensures_take? close).bind ?_
  rintro _ closed - rfl
  cases closed with
  | true => exact .pure (by simp)
  | false => exact fun text => ensures_listItems reads ptr (by simp) text

theorem ensures_ofWord (word : List Char) : Ensures types (ofWord word) Types.Has := by
  unfold ofWord
  split
  · exact ensures_interning (.float _) rfl (by simp [TypeShape.children])
  · split
    · refine (ensures_require (P := fun after _ => after = types) fun _ _ => rfl).bind ?_
      rintro _ bits - rfl
      exact ensures_interning (.int _) rfl (by simp [TypeShape.children])
    · exact ensures_fail

/-- A struct is interned behind its fields. -/
theorem ensures_literalStruct
    (reads : ∀ types, types.Has .ptr → Ensures types item Types.Has) (ptr : types.Has .ptr)
    (close : String) (packed : Bool) :
    Ensures types (do
      let (fields, _) ← list item close
      interning (.struct ⟨none, fields, packed, true⟩)) Types.Has := by
  refine (ensures_list reads ptr close).bind fun {after fields} _ known => ?_
  exact ensures_interning (.struct ⟨none, fields.1, packed, true⟩) rfl known

/-- The element has been read, so the arena has it, and the array is interned behind it. -/
theorem ensures_array (reads : ∀ types, types.Has .ptr → Ensures types item Types.Has)
    (ptr : types.Has .ptr) :
    Ensures types (do
      let length ← number UInt64.size
      if (← word) != ['x'] then
        fail
      let elem ← item
      expect "]"
      interning (.array elem (UInt64.ofNat length))) Types.Has := by
  refine (ensures_number _).bind ?_
  rintro _ length - rfl
  refine ensures_word.bind ?_
  rintro after cross - rfl
  dsimp only
  split
  · exact (ensures_fail (P := fun _ _ => False)).bind fun {_ _} _ never => never.elim
  · refine (reads _ ptr).bind fun {after elem} _ known => ?_
    refine (ensures_expect "]").bind ?_
    rintro _ _ - rfl
    exact ensures_interning (.array elem _) rfl (by simpa [TypeShape.children] using known)

/-- A pointer has no parts, so it can be interned whatever the arena has. -/
theorem ensures_addrSpace :
    Ensures types (do
      let space ← number UInt64.size
      let space ← require (if space < UInt32.size then some space else none)
      expect ")"
      interning (.ptr (UInt32.ofNat space))) Types.Has := by
  refine (ensures_number _).bind ?_
  rintro after space - rfl
  refine (ensures_require (P := fun later _ => later = after) fun _ _ => rfl).bind ?_
  rintro _ space - rfl
  refine (ensures_expect ")").bind ?_
  rintro _ _ - rfl
  exact ensures_interning (.ptr _) rfl (by simp [TypeShape.children])

/-- By the alternatives, in the order in which the reader tries them. -/
theorem ensures_base (reads : ∀ types, types.Has .ptr → Ensures types item Types.Has)
    (ptr : types.Has .ptr) : Ensures types (base item) Types.Has := by
  rw [base]
  refine ensures_ifTake (ensures_literalStruct reads ptr _ _) ?_
  refine ensures_ifTake (ensures_literalStruct reads ptr _ _) ?_
  refine ensures_ifTake (ensures_array reads ptr) (ensures_ifTake ?_ ?_)
  · refine ensures_word.bind ?_
    rintro after name - rfl
    exact ensures_declared _
  · refine ensures_word.bind ?_
    rintro after name - rfl
    split
    · exact .pure (Nat.lt_of_le_of_lt (Nat.zero_le 5) ptr)
    · split
      · exact ensures_ifTake ensures_addrSpace (.pure ptr)
      · exact ensures_ofWord name

/-- Behind each list there is a new function type, which is the result type of the next one. -/
theorem ensures_parameterLists (reads : ∀ types, types.Has .ptr → Ensures types item Types.Has)
    {turns : Nat} {ret : TypeId} (ptr : types.Has .ptr) (known : types.Has ret) :
    Ensures types (parameterLists item turns ret) Types.Has := by
  induction turns generalizing types ret with
  | zero => exact ensures_fail
  | succ turns ih =>
    rw [parameterLists]
    refine (ensures_take? _).bind ?_
    rintro _ opened - rfl
    cases opened with
    | false => exact .pure known
    | true =>
      refine (ensures_list reads ptr _).bind fun {after params} interns has => ?_
      refine (ensures_interning (.func params.1 ret params.2) rfl ?_).bind
        fun {_ _} more known => ih ((ptr.mono interns).mono more) known
      intro child mem
      rcases List.mem_cons.mp mem with rfl | mem
      · exact known.mono interns
      · exact has child mem

/-- By induction on the depth; the reader for parts has one less. -/
theorem ensures_typeWithin {depth : Nat} (ptr : types.Has .ptr) :
    Ensures types (typeWithin depth) Types.Has := by
  induction depth generalizing types with
  | zero => exact ensures_fail
  | succ depth ih =>
    have reads : ∀ types : Types, types.Has .ptr → Ensures types (typeWithin depth) Types.Has :=
      fun _ ptr => ih ptr
    refine (ensures_base reads ptr).bind fun {after ret} interns known text => ?_
    exact ensures_parameterLists reads (ptr.mono interns) known text

end TypeReader

namespace Types

variable {types after : Types}

/-- **Reading a type only interns**, whether the text is a type or not. -/
theorem readText_interns (ptr : types.Has .ptr) (text : List Char) :
    types.Interns (types.readText text).1 := by
  have interns : types.Interns (TypeReader.typeWithin (text.length + 1) types text).1 :=
    (TypeReader.ensures_typeWithin ptr text).1
  simp only [readText, TypeArena.readText, TypeArena.read]
  split
  · next taken => rwa [taken] at interns
  · next taken => rwa [taken] at interns

/-- The type that a text spells is in the arena afterwards. -/
theorem has_of_readText (ptr : types.Has .ptr) {text : List Char} {id : TypeId}
    (spelled : (types.readText text).2 = .ok id) : (types.readText text).1.Has id := by
  have answers := (@TypeReader.ensures_typeWithin types (text.length + 1) ptr text).2
  simp only [readText, TypeArena.readText, TypeArena.read] at spelled ⊢
  split at spelled
  · next known =>
    split at known
    · next taken =>
      rw [taken] at answers
      dsimp only at known
      split at known
      · cases known
        cases spelled
        exact answers _ _ rfl
      · cases known
    · cases known
  · cases spelled

/-! ## What an operation keeps

The one thing that ever changes in an arena is the body of a named struct.  So a relation that lets
a named struct become any struct with the same name covers all operations, and it is reflexive and
transitive, as what holds of whole runs has to be. -/

end Types

/-- What may become of a shape: only a named struct changes, and it keeps its name. -/
def TypeShape.Becomes (before after : TypeShape) : Prop :=
  after = before ∨ ∃ name, before.structName? = some name ∧ after.structName? = some name

theorem TypeShape.Becomes.trans {first second third : TypeShape} (one : first.Becomes second)
    (two : second.Becomes third) : first.Becomes third := by
  rcases one with rfl | ⟨name, before, named⟩
  · exact two
  · rcases two with rfl | ⟨other, again, after⟩
    · exact .inr ⟨name, before, named⟩
    · cases named.symm.trans again
      exact .inr ⟨name, before, after⟩

namespace Types

variable {types middle after : Types}

/-- Every type of the arena is still there, with what may have become of its shape. -/
def Extends (types after : Types) : Prop :=
  ∀ id shape, types.shape id = .ok shape →
    ∃ later, after.shape id = .ok later ∧ shape.Becomes later

theorem Extends.refl (types : Types) : types.Extends types := fun _ _ h => ⟨_, h, .inl rfl⟩

theorem Extends.trans (first : types.Extends middle) (second : middle.Extends after) :
    types.Extends after := by
  intro id shape h
  obtain ⟨between, found, one⟩ := first id shape h
  obtain ⟨later, found, two⟩ := second id between found
  exact ⟨later, found, one.trans two⟩

/-- A handle that was given out stays one. -/
theorem Extends.has (kept : types.Extends after) {id : TypeId} (h : types.Has id) :
    after.Has id := by
  obtain ⟨later, found, -⟩ := kept id _ (shape_eq_ok_iff.mpr (Array.getElem?_eq_getElem h))
  exact has_of_shape found

/-- A type without a name keeps its shape. -/
theorem Extends.shape_of_unnamed (kept : types.Extends after) {id : TypeId} {shape : TypeShape}
    (found : types.shape id = .ok shape) (unnamed : shape.structName? = none) :
    after.shape id = .ok shape := by
  obtain ⟨later, there, rfl | ⟨name, named, -⟩⟩ := kept id shape found
  · exact there
  · cases unnamed.symm.trans named

/-- Whether a type is void never changes. -/
theorem Extends.isVoid (kept : types.Extends after) {id : TypeId} {isVoid : Bool}
    (found : types.isVoid id = .ok isVoid) : after.isVoid id = .ok isVoid := by
  simp only [Types.isVoid, bind_eq_ok_iff, pure_eq_ok_iff] at found ⊢
  obtain ⟨shape, there, rfl⟩ := found
  obtain ⟨later, found, becomes⟩ := kept id shape there
  refine ⟨later, found, ?_⟩
  rcases becomes with rfl | ⟨name, before, behind⟩
  · rfl
  · cases shape <;> cases later <;> first | rfl | cases before | cases behind

/-- What is appended changes nothing in front of it. -/
theorem extends_intern (shape : TypeShape) : types.Extends (types.intern shape).2 := by
  intro id before h
  refine ⟨before, ?_, .inl rfl⟩
  rw [Types.intern]
  split
  · exact h
  · have bound : id.index < types.shapes.size := has_of_shape h
    rw [shape_eq_ok_iff] at h ⊢
    rwa [Array.getElem?_push, if_neg (Nat.ne_of_lt bound)]

theorem Interns.extends (interns : types.Interns after) : types.Extends after := by
  induction interns with
  | refl => exact .refl _
  | intern before shape unnamed parts ih => exact ih.trans (extends_intern shape)

/-- Setting a body changes one shape, from a struct without a body to one that has it. -/
theorem extends_setStructBody {id : TypeId} {fields : List TypeId} {packed : Bool}
    (run : types.setStructBody id fields packed = .ok after) : types.Extends after := by
  simp only [setStructBody, bind_eq_ok_iff, dangling_eq_ok_iff] at run
  obtain ⟨shape, found, run⟩ := run
  split at run
  · simp at run
  · next name named =>
    simp only [bind_eq_ok_iff, pure_eq_ok_iff] at run
    obtain ⟨-, -, rfl⟩ := run
    intro other before h
    rw [shape_eq_ok_iff] at found h
    -- the shape that is replaced keeps its name, every other one is where it was
    by_cases same : other.index = id.index
    · rw [same] at h
      cases found.symm.trans h
      refine ⟨.struct ⟨some name, fields, packed, true⟩, ?_, .inr ⟨name, named, rfl⟩⟩
      have bound := (Array.getElem?_eq_some_iff.mp found).1
      rw [shape_eq_ok_iff, same, Array.getElem?_setIfInBounds_self, if_pos bound]
    · refine ⟨before, ?_, .inl rfl⟩
      rwa [shape_eq_ok_iff, Array.getElem?_setIfInBounds_ne (Ne.symm same)]

/-- **An operation keeps every type**, up to the bodies of named structs. -/
theorem Step.extends (ptr : types.Has .ptr) (step : Step types after) : types.Extends after := by
  cases step with
  | intern shape parts => exact extends_intern shape
  | setStructBody parts run => exact extends_setStructBody run
  | readText text => exact (readText_interns ptr text).extends

/-- The types of the initial arena are in every arena. -/
theorem Built.has_ptr (built : Built types) : types.Has .ptr := by
  induction built with
  | initial => exact (by decide : 5 < Types.initial.size)
  | step built step ih => exact (step.extends ih).has ih

end Types

end IrStream
