import IrStream.Proofs.Types.Term
import IrStream.Proofs.Types.Words

/-!
# What a text spells

Whether a text is a type, and which one, depends on the names that are declared and on nothing else
of the arena it is read into: in two arenas with the same names (`Types.Twins`) a text is a type or
is none, and the types have the same term (`Types.Twins.readText`).

`TypeReader.Alongside` is the judgment on two runs that this is proved with.  Both only intern, they
succeed on the same texts, and then they leave the same text and answers that are related.

Terms that are spelled by a text are *readable*: they have no integers of no bits, and the names in
them are words.

The judgment is the strongest of those on runs of the reader, and the only one that speaks of
failure: a step that is taken in one arena and not in the other would lead to two different texts,
and nothing could be said of what comes behind.  There is one place where an arena is asked
something that another arena might answer differently, and that is the look-up of a name
(`spells_named`).  Interning always succeeds, whatever is in the arena.

Handles that are answered are related by `SameTerm`.  As with all such relations, it has to survive
what is interned later, on both sides; `SameTerm.mono` says that it does, because terms never
change.

## Statements

* `Twins.intern`: **interning shapes with the same term** answers handles with that term.
* `spells_base`, `spells_parameterLists`, `spells_typeWithin`: the grammar, one lemma for each of
  its productions.
* `Regular.readText_writes`: reading a text interns nothing but literals.
* `Twins.readText`: **a text spells the same term** in all arenas with the same names, or none in
  any of them.
-/

set_option autoImplicit false

namespace IrStream

/-! ## Terms and arenas

A term is what a type is without the arena it is in.  Not every term can be written: there is no
text for an integer without bits, and a name that is not a word would not be read back as one piece.
-/

/-- Terms that a text can spell. -/
inductive TypeTerm.Readable : TypeTerm → Prop
  | void : Readable .void
  /-- An integer of width zero is not accepted. -/
  | int {bits : UInt32} (positive : bits ≠ 0) : Readable (.int bits)
  | ptr (addrSpace : UInt32) : Readable (.ptr addrSpace)
  | float (kind : FloatKind) : Readable (.float kind)
  /-- A vararg mark stands behind the last parameter, or alone. -/
  | func {params : List TypeTerm} {ret : TypeTerm} {vararg : Bool}
      (spelled : ∀ param ∈ params, Readable param) (returned : Readable ret) :
      Readable (.func params ret vararg)
  /-- The body of a literal struct, packed or not. -/
  | struct {fields : List TypeTerm} {packed : Bool} (spelled : ∀ field ∈ fields, Readable field) :
      Readable (.struct fields packed)
  | array {elem : TypeTerm} {length : UInt64} (spelled : Readable elem) :
      Readable (.array elem length)
  /-- A name is read up to the first character that cannot be in a word. -/
  | named {name : String} (word : IsWord name.toList) : Readable (.named name)

/-- A shape that a text can stand for by itself: it has no name, and a struct has its fields. -/
def TypeShape.IsLiteral : TypeShape → Prop
  | struct shape => shape.name = none ∧ shape.hasBody = true
  | _ => True

/-- What a text can stand for by itself has no name. -/
theorem TypeShape.IsLiteral.unnamed {shape : TypeShape} (literal : shape.IsLiteral) :
    shape.structName? = none := by
  cases shape with
  | struct shape => exact literal.1
  | _ => rfl

namespace Types

/-- The arena with some literal shapes interned, of which all parts are in the arena. -/
inductive Writes : Types → Types → Prop
  | refl (types : Types) : Writes types types
  | intern {types after : Types} (before : Writes types after) (shape : TypeShape)
      (literal : shape.IsLiteral) (parts : ∀ child ∈ shape.children, after.Has child) :
      Writes types (after.intern shape).2

/-- Arenas with the same names. -/
structure Twins (left right : Types) : Prop where
  /-- The first arena is regular. -/
  regular : left.Regular
  /-- The second arena is regular. -/
  regular' : right.Regular
  /-- The same structs are declared in both. -/
  names : ∀ name, (left.named? name).isSome = (right.named? name).isSome

/-- Handles of two arenas that have the same term, which a text can spell. -/
structure SameTerm (left right : Types) (id other : TypeId) : Prop where
  /-- The first handle is in its arena. -/
  has : left.Has id
  /-- The second handle is in its arena. -/
  has' : right.Has other
  /-- Written out, they are the same type. -/
  same : right.term other = left.term id
  /-- That type can be spelled. -/
  readable : (left.term id).Readable

variable {left right left' right' : Types} {id other : TypeId}

/-- What was written in two goes was written. -/
theorem Writes.trans {middle after : Types} (first : left.Writes middle)
    (second : middle.Writes after) : left.Writes after := by
  induction second with
  | refl => exact first
  | intern before shape literal parts ih => exact .intern ih shape literal parts

/-- Writing literals interns shapes without names. -/
theorem Writes.interns (writes : left.Writes left') : left.Interns left' := by
  induction writes with
  | refl => exact .refl _
  | intern before shape literal parts ih => exact .intern ih shape literal.unnamed parts

/-- Interning shapes without names declares no name. -/
theorem Interns.named?_eq (interns : left.Interns left') (name : String) :
    left'.named? name = left.named? name := by
  induction interns with
  | refl => rfl
  | intern before shape unnamed parts ih => rw [named?_intern unnamed, ih]

/-- A regular arena has the same names as itself, so what is proved of two runs holds of two runs in
one arena. -/
theorem Regular.twins (regular : left.Regular) : left.Twins left :=
  ⟨regular, regular, fun _ => rfl⟩

/-- Arenas with the same names go on having them, as long as only shapes without names are interned.
-/
theorem Twins.mono (twins : left.Twins right) (interns : left.Interns left')
    (interns' : right.Interns right') : left'.Twins right' where
  regular := twins.regular.interns interns
  regular' := twins.regular'.interns interns'
  names name := by rw [interns.named?_eq, interns'.named?_eq, twins.names]

/-- Handles with the same term keep it, whatever is interned behind them on either side. -/
theorem SameTerm.mono (same : SameTerm left right id other) (twins : left.Twins right)
    (interns : left.Interns left') (interns' : right.Interns right') :
    SameTerm left' right' id other := by
  have here := twins.regular.complete.term_of_extends interns.extends same.has
  have there := twins.regular'.complete.term_of_extends interns'.extends same.has'
  refine ⟨same.has.mono interns, same.has'.mono interns', ?_, ?_⟩
  · rw [here, there, same.same]
  · rw [here]
    exact same.readable

/-- The same for handles in rows. -/
theorem SameTerm.all_mono {ids others : List TypeId}
    (same : List.Forall₂ (SameTerm left right) ids others) (twins : left.Twins right)
    (interns : left.Interns left') (interns' : right.Interns right') :
    List.Forall₂ (SameTerm left' right') ids others :=
  same.imp fun _ _ h => h.mono twins interns interns'

/-- What is to be known of handles in rows to use them as parts. -/
theorem SameTerm.all {ids others : List TypeId}
    (same : List.Forall₂ (SameTerm left right) ids others) :
    (∀ id ∈ ids, left.Has id) ∧ (∀ other ∈ others, right.Has other)
      ∧ others.map right.term = ids.map left.term
      ∧ ∀ term ∈ ids.map left.term, term.Readable := by
  induction same with
  | nil => simp
  | cons here _ ih =>
    obtain ⟨has, has', terms, readable⟩ := ih
    exact ⟨List.forall_mem_cons.mpr ⟨here.has, has⟩, List.forall_mem_cons.mpr ⟨here.has', has'⟩,
      congrArg₂ List.cons here.same terms, List.forall_mem_cons.mpr ⟨here.readable, readable⟩⟩

/-- **Interning shapes with the same term** answers handles with that term. -/
theorem Twins.intern (twins : left.Twins right) {shape shape' : TypeShape}
    (unnamed : shape.structName? = none) (unnamed' : shape'.structName? = none)
    (parts : ∀ child ∈ shape.children, left.Has child)
    (parts' : ∀ child ∈ shape'.children, right.Has child)
    (same : shape'.termWith right.term = shape.termWith left.term)
    (readable : (shape.termWith left.term).Readable) :
    SameTerm (left.intern shape).2 (right.intern shape').2 (left.intern shape).1
      (right.intern shape').1 := by
  -- the term of what is interned is made of the terms of its parts, and those are as before
  have term {types : Types} {shape : TypeShape} (regular : types.Regular)
      (unnamed : shape.structName? = none) (parts : ∀ child ∈ shape.children, types.Has child) :
      (types.intern shape).2.term (types.intern shape).1 = shape.termWith types.term := by
    rw [(regular.intern parts).layered.term_of_shape (shape_intern unnamed)]
    exact TypeShape.termWith_congr fun _ child mem =>
      regular.complete.term_of_extends (extends_intern shape) (parts child mem)
  refine ⟨has_intern shape, has_intern shape', ?_, ?_⟩
  · rw [term twins.regular unnamed parts, term twins.regular' unnamed' parts', same]
  · rwa [term twins.regular unnamed parts]

end Types

namespace TypeReader

open IrStream.Types

variable {α β γ δ : Type} {left right : Types}

/-! ## Two runs

The rules for putting steps in a row.  A row of steps is taken apart in both runs at once, so what
has to be known of the arenas in between comes with the step before. -/

/-- Run on the same text, both steps only intern literals, and either both fail or both succeed.
Then they leave the same text, and their answers have the property `P` in the arenas they leave. -/
def Alongside (left right : Types) (step : TypeReader Types α) (step' : TypeReader Types β)
    (P : Types → Types → α → β → Prop) : Prop :=
  ∀ text, left.Writes (step left text).1 ∧ right.Writes (step' right text).1
    ∧ Option.Rel (fun taken taken' => taken'.2 = taken.2
        ∧ P (step left text).1 (step' right text).1 taken.1 taken'.1)
      (step left text).2 (step' right text).2

namespace Alongside

variable {P Q : Types → Types → α → β → Prop}
  {step : TypeReader Types α} {step' : TypeReader Types β}

/-- An answer that has the property is enough where no text is taken. -/
theorem pure {a : α} {b : β} (h : P left right a b) :
    Alongside left right (Pure.pure a) (Pure.pure b) P := fun _ =>
  ⟨.refl _, .refl _, .some ⟨rfl, h⟩⟩

/-- Two steps that fail on every text go alongside, whatever is asked of their answers. -/
theorem fail : Alongside left right TypeReader.fail TypeReader.fail P := fun _ =>
  ⟨.refl _, .refl _, .none⟩

/-- Readers that go alongside can be put in a row: the arenas that the first ones leave have been
written alike. -/
theorem bind {next : α → TypeReader Types γ} {next' : β → TypeReader Types δ}
    {Q : Types → Types → γ → δ → Prop} (first : Alongside left right step step' P)
    (second : ∀ {left' right' a b}, left.Writes left' → right.Writes right' → P left' right' a b →
      Alongside left' right' (next a) (next' b) Q) :
    Alongside left right (step >>= next) (step' >>= next') Q := by
  intro text
  obtain ⟨writes, writes', both⟩ := first text
  cases run : step left text with
  | mk left' answer =>
    cases run' : step' right text with
    | mk right' answer' =>
      rw [run, run'] at both
      rw [run] at writes
      rw [run'] at writes'
      cases both with
      | none =>
        simp only [Bind.bind, run, run']
        exact ⟨writes, writes', .none⟩
      | @some taken taken' holds =>
        obtain ⟨a, rest⟩ := taken
        obtain ⟨b, rest'⟩ := taken'
        obtain ⟨same, holds⟩ := holds
        dsimp only at same holds
        subst same
        simp only [Bind.bind, run, run']
        obtain ⟨more, more', both⟩ := second writes writes' holds rest'
        exact ⟨writes.trans more, writes'.trans more', both⟩

/-- A step that takes text and leaves the arena alone does the same in both arenas. -/
theorem of_same {step : TypeReader Types α} {P : α → Prop}
    (same : ∀ types text, (step types text).1 = types)
    (blind : ∀ types others text, (step types text).2 = (step others text).2)
    (holds : ∀ types text a rest, (step types text).2 = some (a, rest) → P a) :
    Alongside left right step step fun left' right' a b =>
      left' = left ∧ right' = right ∧ b = a ∧ P a := by
  intro text
  rw [same left text, same right text, blind right left text]
  refine ⟨.refl _, .refl _, ?_⟩
  cases answer : (step left text).2 with
  | none => exact .none
  | some taken => exact .some ⟨rfl, rfl, rfl, rfl, holds left text taken.1 taken.2 answer⟩

end Alongside

/-- A value that both readers require is there for both or for none. -/
theorem alongside_require {answer : Option α} {P : Types → Types → α → α → Prop}
    (h : ∀ value, answer = some value → P left right value value) :
    Alongside left right (require answer) (require answer) P := by
  cases answer with
  | none => exact .fail
  | some value => exact .pure (h value rfl)

/-- A reader that answers handles with the same term. -/
def Spells (left right : Types) (step step' : TypeReader Types TypeId) : Prop :=
  Alongside left right step step' SameTerm

/-- A reader that spells in whatever arenas it is used. -/
def SpellsAlways (item : TypeReader Types TypeId) : Prop :=
  ∀ {left right : Types}, left.Twins right → Spells left right item item

/-- Interning literals that have the same term spells that term. -/
theorem spells_interning (twins : left.Twins right) (shape shape' : TypeShape)
    (literal : shape.IsLiteral) (literal' : shape'.IsLiteral)
    (parts : ∀ child ∈ shape.children, left.Has child)
    (parts' : ∀ child ∈ shape'.children, right.Has child)
    (same : shape'.termWith right.term = shape.termWith left.term)
    (readable : (shape.termWith left.term).Readable) :
    Spells left right (interning shape) (interning shape') := fun _ =>
  ⟨.intern (.refl _) shape literal parts, .intern (.refl _) shape' literal' parts',
    .some ⟨rfl, twins.intern literal.unnamed literal'.unnamed parts parts' same readable⟩⟩

/-- Interning a shape without parts. -/
theorem spells_leaf (twins : left.Twins right) (shape : TypeShape)
    (literal : shape.IsLiteral) (leaf : shape.children = [])
    (readable : (shape.termWith left.term).Readable) :
    Spells left right (interning shape) (interning shape) := by
  have parts {types : Types} : ∀ child ∈ shape.children, types.Has child := by simp [leaf]
  exact spells_interning twins shape shape literal literal parts parts
    (TypeShape.termWith_congr fun _ child mem => by simp [leaf] at mem) readable

/-- A type that every arena begins with. -/
theorem spells_basic (twins : left.Twins right) (shape : TypeShape) {id : TypeId}
    (found : Types.initial.shape id = .ok shape) (leaf : shape.children = [])
    (readable : (shape.termWith left.term).Readable) :
    Spells left right (pure id) (pure id) := by
  have here := twins.regular.basic found
  have there := twins.regular'.basic found
  refine .pure ⟨has_of_shape here, has_of_shape there, ?_, ?_⟩
  · rw [twins.regular.layered.term_of_shape here, twins.regular'.layered.term_of_shape there]
    exact TypeShape.termWith_congr fun _ child mem => by simp [leaf] at mem
  · rwa [twins.regular.layered.term_of_shape here]

/-! ## Words

What only takes characters away is the same step in every arena.  So it leaves both arenas as they
are, and that is said with equations, which the rules for what comes behind put in at once. -/

/-- A token is there in both runs or in none. -/
theorem alongside_take? (token : String) :
    Alongside left right (take? token) (take? token) fun left' right' a b =>
      left' = left ∧ right' = right ∧ b = a ∧ True := by
  refine .of_same (fun types text => ?_) (fun types others text => ?_) fun _ _ _ _ _ => trivial
  · rw [take?]
    split <;> rfl
  · rw [take?, take?]
    split <;> rfl

/-- A token that is missing makes both runs fail. -/
theorem alongside_expect (token : String) :
    Alongside left right (expect token) (expect token) fun left' right' _ _ =>
      left' = left ∧ right' = right := by
  refine (alongside_take? token).bind ?_
  rintro _ _ _ taken - - ⟨rfl, rfl, rfl, -⟩
  cases taken with
  | false => exact .fail
  | true => exact .pure ⟨rfl, rfl⟩

/-- Both runs take the same word. -/
theorem alongside_word :
    Alongside left right word word fun left' right' a b =>
      left' = left ∧ right' = right ∧ b = a ∧ IsWord a := by
  refine .of_same (fun _ _ => rfl) (fun _ _ _ => rfl) ?_
  rintro _ text a rest ⟨⟩
  exact isWord_takeWhile _

/-- Both runs take the same number. -/
theorem alongside_number (limit : Nat) :
    Alongside left right (number limit) (number limit) fun left' right' a b =>
      left' = left ∧ right' = right ∧ b = a := by
  refine alongside_word.bind ?_
  rintro _ _ _ digits - - ⟨rfl, rfl, rfl, -⟩
  exact alongside_require fun _ _ => ⟨rfl, rfl, rfl⟩

/-- An alternative that begins with a token. -/
theorem spells_ifTake {token : String} {yes no : TypeReader Types TypeId}
    (takes : Spells left right yes yes) (passes : Spells left right no no) :
    Spells left right (do if ← take? token then yes else no)
      (do if ← take? token then yes else no) := by
  refine (alongside_take? token).bind ?_
  rintro _ _ _ taken - - ⟨rfl, rfl, rfl, -⟩
  cases taken with
  | true => exact takes
  | false => exact passes

/-! ## Types

One lemma for each production of the grammar.  The handles that were read before a part have to be
carried over the part, since both arenas may have grown in the meantime: this is what the steps with
`mono` and `all_mono` are for. -/

variable {item : TypeReader Types TypeId}

/-- Lists that spell the same items. -/
abbrev SameItems (left right : Types) (items others : List TypeId × Bool) : Prop :=
  List.Forall₂ (SameTerm left right) items.1 others.1 ∧ others.2 = items.2

/-- Both readers see the same characters, so they take the same turns and differ in handles only. -/
theorem alongside_listItems (reads : SpellsAlways item) {close : String} {turns : Nat}
    {items others : List TypeId} {vararg : Bool} (twins : left.Twins right)
    (known : List.Forall₂ (SameTerm left right) items others) :
    Alongside left right (listItems item close turns items vararg)
      (listItems item close turns others vararg) SameItems := by
  induction turns generalizing left right items others vararg with
  | zero => exact .fail
  | succ turns ih =>
    -- behind an item the list ends or goes on, for both readers alike
    have rest {left right : Types} {items others : List TypeId} {vararg : Bool}
        (twins : left.Twins right) (known : List.Forall₂ (SameTerm left right) items others) :
        Alongside left right (do
          if ← take? close then
            return (items, vararg)
          expect ","
          listItems item close turns items vararg) (do
          if ← take? close then
            return (others, vararg)
          expect ","
          listItems item close turns others vararg) SameItems := by
      refine (alongside_take? close).bind ?_
      rintro _ _ _ closed - - ⟨rfl, rfl, rfl, -⟩
      cases closed with
      | true => exact .pure ⟨known, rfl⟩
      | false =>
        refine (alongside_expect ",").bind ?_
        rintro _ _ _ _ - - ⟨rfl, rfl⟩
        exact ih twins known
    rw [listItems, listItems]
    refine (alongside_take? "...").bind ?_
    rintro _ _ _ dots - - ⟨rfl, rfl, rfl, -⟩
    cases dots with
    | true => exact rest twins known
    | false =>
      refine (reads twins).bind fun {left' right' a b} writes writes' same =>
        rest (twins.mono writes.interns writes'.interns) ?_
      exact List.rel_append (SameTerm.all_mono known twins writes.interns writes'.interns)
        (.cons same .nil)

/-- A list is empty for both readers, or both take its items. -/
theorem alongside_list (reads : SpellsAlways item) (twins : left.Twins right) (close : String) :
    Alongside left right (list item close) (list item close) SameItems := by
  refine (alongside_take? close).bind ?_
  rintro _ _ _ closed - - ⟨rfl, rfl, rfl, -⟩
  cases closed with
  | true => exact .pure ⟨.nil, rfl⟩
  | false => exact fun text => alongside_listItems reads twins .nil text

/-- Words are looked up by name, and twin arenas have the same names. -/
theorem spells_ofWord (twins : left.Twins right) (word : List Char) :
    Spells left right (ofWord word) (ofWord word) := by
  unfold ofWord
  split
  · exact spells_leaf twins (.float _) trivial rfl (.float _)
  · split
    · next digits _ =>
      refine Alongside.bind (P := fun left' right' a b => left' = left ∧ right' = right ∧ b = a
        ∧ UInt32.ofNat a ≠ 0) (alongside_require fun bits found => ⟨rfl, rfl, rfl, ?_⟩) ?_
      · simp only [Option.filter_eq_some_iff, bounded?, decide_eq_true_eq] at found
        -- the width is positive as a number, and below the bound it is so as a word too
        have small : bits < 2 ^ 32 := found.1.2
        intro zero
        have value := congrArg UInt32.toNat zero
        rw [UInt32.toNat_ofNat', UInt32.toNat_zero, Nat.mod_eq_of_lt small] at value
        omega
      · rintro _ _ _ bits - - ⟨rfl, rfl, rfl, positive⟩
        exact spells_leaf twins (.int _) trivial rfl (.int positive)
    · exact .fail

/-- A struct without a name is made of its fields, and a mark in its list is dropped on both sides.
-/
theorem spells_literalStruct (reads : SpellsAlways item) (twins : left.Twins right)
    (close : String) (packed : Bool) :
    Spells left right (do
      let (fields, _) ← list item close
      interning (.struct ⟨none, fields, packed, true⟩)) (do
      let (fields, _) ← list item close
      interning (.struct ⟨none, fields, packed, true⟩)) := by
  refine (alongside_list reads twins close).bind fun {_ _ fields others} writes writes' known => ?_
  obtain ⟨has, has', terms, readable⟩ := SameTerm.all known.1
  exact spells_interning (twins.mono writes.interns writes'.interns)
    (.struct ⟨none, _, packed, true⟩)
    (.struct ⟨none, _, packed, true⟩) ⟨rfl, rfl⟩ ⟨rfl, rfl⟩ has has'
    (congrArg (TypeTerm.struct · packed) terms) (.struct readable)

/-- The length is the same number, and the elements are of one term. -/
theorem spells_array (reads : SpellsAlways item) (twins : left.Twins right) :
    Spells left right (do
      let length ← number UInt64.size
      if (← word) != ['x'] then
        fail
      let elem ← item
      expect "]"
      interning (.array elem (UInt64.ofNat length))) (do
      let length ← number UInt64.size
      if (← word) != ['x'] then
        fail
      let elem ← item
      expect "]"
      interning (.array elem (UInt64.ofNat length))) := by
  refine (alongside_number _).bind ?_
  rintro _ _ _ length - - ⟨rfl, rfl, rfl⟩
  refine alongside_word.bind ?_
  rintro _ _ _ cross - - ⟨rfl, rfl, rfl, -⟩
  dsimp only
  split
  -- another word than the cross makes both readers fail
  · exact (Alongside.fail (P := fun _ _ (_ : PUnit) (_ : PUnit) => False)).bind
      fun _ _ never => never.elim
  · refine (reads twins).bind fun {_ _ elem other} writes writes' same => ?_
    refine (alongside_expect "]").bind ?_
    rintro _ _ _ _ - - ⟨rfl, rfl⟩
    refine spells_interning (twins.mono writes.interns writes'.interns) (.array elem _)
      (.array other _) trivial trivial ?_ ?_ (congrArg (TypeTerm.array · _) same.same)
      (.array same.readable)
    · exact fun child mem => List.mem_singleton.mp mem ▸ same.has
    · exact fun child mem => List.mem_singleton.mp mem ▸ same.has'

/-- A number alone decides which pointer it is. -/
theorem spells_addrSpace (twins : left.Twins right) :
    Spells left right (do
      let space ← number UInt64.size
      let space ← require (if space < UInt32.size then some space else none)
      expect ")"
      interning (.ptr (UInt32.ofNat space))) (do
      let space ← number UInt64.size
      let space ← require (if space < UInt32.size then some space else none)
      expect ")"
      interning (.ptr (UInt32.ofNat space))) := by
  refine (alongside_number _).bind ?_
  rintro _ _ _ space - - ⟨rfl, rfl, rfl⟩
  refine Alongside.bind (P := fun left' right' a b => left' = _ ∧ right' = _ ∧ b = a)
    (alongside_require fun _ _ => ⟨rfl, rfl, rfl⟩) ?_
  rintro _ _ _ space - - ⟨rfl, rfl, rfl⟩
  refine (alongside_expect ")").bind ?_
  rintro _ _ _ _ - - ⟨rfl, rfl⟩
  exact spells_leaf twins (.ptr _) trivial rfl (.ptr _)

/-- A name is declared in both arenas or in none. -/
theorem spells_named (twins : left.Twins right) {name : List Char} (isWord : IsWord name) :
    Spells left right (declared (String.ofList name)) (declared (String.ofList name)) := by
  intro text
  rw [declared_eq, declared_eq]
  have both := twins.names (String.ofList name)
  cases found : left.named? (String.ofList name) with
  | none =>
    cases found' : right.named? (String.ofList name) with
    | none =>
      -- the name is in neither arena
      exact ⟨.refl _, .refl _, .none⟩
    | some other => simp [found, found'] at both
  | some id =>
    cases found' : right.named? (String.ofList name) with
    | none => simp [found, found'] at both
    | some other =>
      refine ⟨.refl _, .refl _, .some ⟨rfl, has_named? found, has_named? found', ?_, ?_⟩⟩
      · dsimp only
        rw [twins.regular.term_of_named? found, twins.regular'.term_of_named? found']
      · dsimp only
        rw [twins.regular.term_of_named? found]
        exact .named (by rwa [String.toList_ofList])

/-- The alternatives, by what the text begins with. -/
theorem spells_base (reads : SpellsAlways item) : SpellsAlways (base item) := by
  intro left right twins
  rw [base]
  refine spells_ifTake (spells_literalStruct reads twins _ _) ?_
  refine spells_ifTake (spells_literalStruct reads twins _ _) ?_
  refine spells_ifTake (spells_array reads twins) (spells_ifTake ?_ ?_)
  · refine alongside_word.bind ?_
    rintro _ _ _ name - - ⟨rfl, rfl, rfl, isWord⟩
    exact spells_named twins isWord
  · refine alongside_word.bind ?_
    rintro _ _ _ name - - ⟨rfl, rfl, rfl, isWord⟩
    split
    · exact spells_basic twins .void rfl rfl .void
    · split
      · exact spells_ifTake (spells_addrSpace twins)
          (spells_basic twins (.ptr 0) rfl rfl (.ptr 0))
      · exact spells_ofWord twins name

/-- Each list makes a function type, of a term that is made of terms seen before. -/
theorem spells_parameterLists (reads : SpellsAlways item) {turns : Nat} {ret ret' : TypeId}
    (twins : left.Twins right) (known : SameTerm left right ret ret') :
    Spells left right (parameterLists item turns ret) (parameterLists item turns ret') := by
  induction turns generalizing left right ret ret' with
  | zero => exact .fail
  | succ turns ih =>
    rw [parameterLists, parameterLists]
    refine (alongside_take? _).bind ?_
    rintro _ _ _ opened - - ⟨rfl, rfl, rfl, -⟩
    cases opened with
    | false => exact .pure known
    | true =>
      refine (alongside_list reads twins _).bind
        fun {left right params params'} writes writes' same => ?_
      have ret := known.mono twins writes.interns writes'.interns
      have twins := twins.mono writes.interns writes'.interns
      obtain ⟨has, has', terms, readable⟩ := SameTerm.all same.1
      refine (spells_interning twins (.func params.1 _ params.2)
        (.func params'.1 _ params'.2) trivial trivial ?_ ?_ ?_ ?_).bind
        fun {_ _ _ _} more more' known => ih (twins.mono more.interns more'.interns) known
      · exact List.forall_mem_cons.mpr ⟨ret.has, has⟩
      · exact List.forall_mem_cons.mpr ⟨ret.has', has'⟩
      · simp only [TypeShape.termWith, terms, ret.same, same.2]
      · exact .func readable ret.readable

/-- By induction on the depth. -/
theorem spells_typeWithin {depth : Nat} : SpellsAlways (typeWithin depth) := by
  induction depth with
  | zero => exact fun _ => .fail
  | succ depth ih =>
    intro left right twins
    refine (spells_base ih twins).bind fun {left right ret ret'} writes writes' known text => ?_
    exact spells_parameterLists ih (twins.mono writes.interns writes'.interns) known text

end TypeReader

namespace Types

variable {left right : Types}

/-- Reading a text interns nothing but literals. -/
theorem Regular.readText_writes (regular : left.Regular) (text : List Char) :
    left.Writes (left.readText text).1 := by
  obtain ⟨writes, -⟩ :=
    @TypeReader.spells_typeWithin (text.length + 1) left left regular.twins text
  simp only [Types.readText, TypeArena.readText, TypeArena.read]
  split
  · next taken => rwa [taken] at writes
  · next taken => rwa [taken] at writes

/-- **A text spells the same term** in all arenas with the same names, or none in any of them. -/
theorem Twins.readText (twins : left.Twins right) (text : List Char) :
    (∃ id other, (left.readText text).2 = .ok id ∧ (right.readText text).2 = .ok other
        ∧ SameTerm (left.readText text).1 (right.readText text).1 id other)
      ∨ (left.readText text).2 = .error (.unknownType (String.ofList text))
        ∧ (right.readText text).2 = .error (.unknownType (String.ofList text)) := by
  obtain ⟨-, -, both⟩ := @TypeReader.spells_typeWithin (text.length + 1) left right twins text
  simp only [Types.readText, TypeArena.readText, TypeArena.read]
  cases run : TypeReader.typeWithin (text.length + 1) left text with
  | mk left' answer =>
    cases run' : TypeReader.typeWithin (text.length + 1) right text with
    | mk right' answer' =>
      rw [run, run'] at both
      cases both with
      | none => exact .inr ⟨rfl, rfl⟩
      | @some taken taken' holds =>
        obtain ⟨id, rest⟩ := taken
        obtain ⟨other, rest'⟩ := taken'
        obtain ⟨same, holds⟩ := holds
        dsimp only at same holds ⊢
        subst same
        -- the texts that are left are the same, so something stands behind the type for both or for
        -- none
        cases (trimStart rest').isEmpty with
        | true => exact .inl ⟨id, other, rfl, rfl, holds⟩
        | false => exact .inr ⟨rfl, rfl⟩

end Types

end IrStream
