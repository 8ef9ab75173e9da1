import IrStream.Proofs.Pairing.Types

/-!
# Reading a type into two arenas

`TypeReader.Parallel` is the judgment that two steps of reading, each run on its own arena but on
the same text, leave the same text and answers that are related, if both succeed.  It goes by the
same rules as `TypeReader.Ensures`; the relation between the arenas grows on the way.

A reader has two inputs, an arena and a text, and only the second one decides what is done next.  So
on the same text both sides take the same branch at every place but one: where a name of a struct is
looked up, or where a shape is interned, the arenas answer.  Steps that take text and nothing else
are therefore settled by one rule (`Parallel.of_same`), and the two others have a lemma each
(`parallel_interning`, `agrees_declared`).

The grammar is recursive, and so is its reader, with a bound for the depth.  `Agrees item` is what
the induction hypothesis says of the reader for parts: it answers related types in all arenas that
are paired, whatever the text.

## Statements

* `Parallel.bind`, `parallel_interning`, `agrees_declared`: the rules.
* `agrees_base`, `parallel_parameterLists`, `agrees_typeWithin`: the grammar, one lemma for each of
  its productions.
* `Paired.readText`: **a text stands for related types** in arenas that are paired, and the arenas
  that reading leaves are paired again.

It is not claimed that one side succeeds if the other does.  A name of a struct may be declared in
one arena only, and then the text is a type there and nowhere else.
-/

set_option autoImplicit false

namespace IrStream

namespace TypeReader

variable {α β γ δ : Type} {R : TypeId → TypeId → Prop} {small large : Types}

/-- Two steps that read something read it one after the other, and the second starts where the first
one stopped.  The arena of the first step is the one the second begins with, also if nothing is read
in between. -/
theorem bind_eq_some_iff {step : TypeReader Types α} {next : α → TypeReader Types β}
    {types after : Types} {text rest : List Char} {b : β} :
    (step >>= next) types text = (after, some (b, rest)) ↔
      ∃ middle a between, step types text = (middle, some (a, between))
        ∧ next a middle between = (after, some (b, rest)) := by
  simp only [Bind.bind]
  cases run : step types text with
  | mk middle answer =>
    cases answer with
    | none => simp
    | some pair =>
      obtain ⟨a, between⟩ := pair
      simp

/-- If both steps take something from a text, they take the same, and their answers have the
property `Q` under a relation that has all the pairs of `R`.  Of a text that only one of them takes,
nothing is said: the statement is used for texts that both readers accept. -/
def Parallel (R : TypeId → TypeId → Prop) (small large : Types) (left : TypeReader Types α)
    (right : TypeReader Types β) (Q : (TypeId → TypeId → Prop) → α → β → Prop) : Prop :=
  small.Paired R large → ∀ {text after a rest afterLarge b rest'},
    left small text = (after, some (a, rest)) → right large text = (afterLarge, some (b, rest')) →
      rest' = rest ∧ ∃ larger, R ≤ larger ∧ after.Paired larger afterLarge ∧ Q larger a b

namespace Parallel

variable {P Q : (TypeId → TypeId → Prop) → α → β → Prop} {left : TypeReader Types α}
  {right : TypeReader Types β}

theorem pure {a : α} {b : β} (h : Q R a b) :
    Parallel R small large (Pure.pure a) (Pure.pure b) Q := by
  rintro paired _ _ _ _ _ _ _ ⟨⟩ ⟨⟩
  exact ⟨rfl, R, le_refl R, paired, h⟩

theorem fail : Parallel R small large TypeReader.fail right Q := by
  rintro _ _ _ _ _ _ _ _ ⟨⟩

/-- The second steps have to be parallel under every larger relation, because the first ones may
have paired new types. -/
theorem bind {next : α → TypeReader Types γ} {next' : β → TypeReader Types δ}
    {Q : (TypeId → TypeId → Prop) → γ → δ → Prop}
    (first : Parallel R small large left right P)
    (second : ∀ {larger small large a b}, R ≤ larger → P larger a b →
      Parallel larger small large (next a) (next' b) Q) :
    Parallel R small large (left >>= next) (right >>= next') Q := by
  intro paired text after c rest afterLarge d rest' run run'
  obtain ⟨middle, a, between, here, run⟩ := bind_eq_some_iff.mp run
  obtain ⟨middleLarge, b, between', there, run'⟩ := bind_eq_some_iff.mp run'
  obtain ⟨rfl, larger, le, paired, related⟩ := first paired here there
  obtain ⟨same, largest, more, paired, holds⟩ := second le related paired run run'
  exact ⟨same, largest, le_trans le more, paired, holds⟩

/-- A step that takes text and leaves the arena alone does the same in both arenas.  This covers
everything that reads tokens: blanks, words, marks and numbers. -/
theorem of_same {step : TypeReader Types α} (same : ∀ types text, (step types text).1 = types)
    (blind : ∀ types others text, (step types text).2 = (step others text).2) :
    Parallel R small large step step fun _ a b => a = b := by
  intro paired text after a rest afterLarge b rest' run run'
  have here := same small text
  have there := same large text
  have answer := blind small large text
  rw [run, run'] at answer
  rw [run] at here
  rw [run'] at there
  cases answer
  cases here
  cases there
  exact ⟨rfl, R, le_refl R, paired, rfl⟩

end Parallel

theorem parallel_require (answer : Option α) :
    Parallel R small large (require answer) (require answer) fun _ a b => a = b := by
  cases answer with
  | none => exact .fail
  | some value => exact .pure rfl

/-- **Interning shapes that are alike** answers related types.  This is where pairs come from: the
new pair is added to the relation, unless both shapes have their handles already. -/
theorem parallel_interning {shape other : TypeShape} (alike : shape.Alike R other)
    (unnamed : shape.structName? = none) :
    Parallel R small large (interning shape) (interning other)
      fun larger a b => larger a b := by
  rintro paired text _ _ _ _ _ _ ⟨⟩ ⟨⟩
  exact ⟨rfl, _, fun _ _ => .old, paired.intern alike unnamed, .new⟩

/-! ## Words -/

theorem parallel_take? (token : String) :
    Parallel R small large (take? token) (take? token) fun _ a b => a = b := by
  refine .of_same (fun types text => ?_) fun types others text => ?_
  · rw [take?]
    split <;> rfl
  · rw [take?, take?]
    split <;> rfl

theorem parallel_expect (token : String) :
    Parallel R small large (expect token) (expect token) fun _ _ _ => True := by
  refine (parallel_take? token).bind ?_
  rintro _ _ _ taken _ - rfl
  cases taken with
  | false => exact .fail
  | true => exact .pure trivial

theorem parallel_word : Parallel R small large word word fun _ a b => a = b :=
  .of_same (fun _ _ => rfl) fun _ _ _ => rfl

theorem parallel_number (limit : Nat) :
    Parallel R small large (number limit) (number limit) fun _ a b => a = b := by
  refine parallel_word.bind ?_
  rintro _ _ _ digits _ - rfl
  exact parallel_require _

/-! ## Types -/

/-- The reader answers related types wherever it is used.  The relation does not occur, so the
judgment is one that an induction on the depth can carry. -/
def Agrees (item : TypeReader Types TypeId) : Prop :=
  ∀ {R small large}, Parallel R small large item item fun larger a b => larger a b

variable {item : TypeReader Types TypeId}

/-- Items are read by the same reader, in one order, until the same mark closes the list.  The lists
so far are related entry by entry, and the mark that ends the list is the same. -/
theorem parallel_listItems (reads : Agrees item) {close : String} {turns : Nat}
    {items others : List TypeId} {vararg : Bool} (known : List.Forall₂ R items others) :
    Parallel R small large (listItems item close turns items vararg)
      (listItems item close turns others vararg)
      fun larger a b => List.Forall₂ larger a.1 b.1 ∧ a.2 = b.2 := by
  induction turns generalizing R small large items others vararg with
  | zero => exact .fail
  | succ turns ih =>
    have rest {R small large items others vararg} (known : List.Forall₂ R items others) :
        Parallel R small large (do
          if ← take? close then
            return (items, vararg)
          expect ","
          listItems item close turns items vararg) (do
          if ← take? close then
            return (others, vararg)
          expect ","
          listItems item close turns others vararg)
          fun larger a b => List.Forall₂ larger a.1 b.1 ∧ a.2 = b.2 := by
      refine (parallel_take? close).bind ?_
      rintro larger _ _ closed _ le rfl
      have known := known.imp le
      cases closed with
      | true => exact .pure ⟨known, rfl⟩
      | false =>
        exact (parallel_expect ",").bind fun more _ => ih (known.imp more)
    rw [listItems, listItems]
    refine (parallel_take? "...").bind ?_
    rintro larger _ _ dots _ le rfl
    have known := known.imp le
    cases dots with
    | true => exact rest known
    | false =>
      exact reads.bind fun more related =>
        rest (List.rel_append (known.imp more) (.cons related .nil))

theorem parallel_list (reads : Agrees item) (close : String) :
    Parallel R small large (list item close) (list item close)
      fun larger a b => List.Forall₂ larger a.1 b.1 ∧ a.2 = b.2 := by
  refine (parallel_take? close).bind ?_
  rintro _ _ _ closed _ - rfl
  cases closed with
  | true => exact .pure ⟨.nil, rfl⟩
  | false => exact fun paired => parallel_listItems reads .nil paired

theorem agrees_ofWord (word : List Char) : Agrees (ofWord word) := by
  intro R small large
  unfold ofWord
  split
  · exact parallel_interning (.float _) rfl
  · split
    · refine (parallel_require _).bind ?_
      rintro _ _ _ bits _ - rfl
      exact parallel_interning (.int _) rfl
    · exact .fail

/-- An alternative that begins with a token.  Both texts are the same, so the token is there for
both or for neither. -/
theorem agrees_ifTake {token : String} {yes no : TypeReader Types TypeId} (takes : Agrees yes)
    (passes : Agrees no) : Agrees (do if ← take? token then yes else no) := by
  intro R small large
  refine (parallel_take? token).bind ?_
  rintro _ _ _ taken _ - rfl
  cases taken with
  | true => exact takes
  | false => exact passes

theorem agrees_literalStruct (reads : Agrees item) (close : String) (packed : Bool) :
    Agrees (do
      let (fields, _) ← list item close
      interning (.struct ⟨none, fields, packed, true⟩)) := by
  intro R small large
  refine (parallel_list reads close).bind ?_
  rintro _ _ _ ⟨fields, _⟩ ⟨others, _⟩ - ⟨related, -⟩
  exact parallel_interning (.struct none packed true related) rfl

/-- The length is read from the text alone, so it is the same number on both sides. -/
theorem agrees_array (reads : Agrees item) :
    Agrees (do
      let length ← number UInt64.size
      if (← word) != ['x'] then
        fail
      let elem ← item
      expect "]"
      interning (.array elem (UInt64.ofNat length))) := by
  intro R small large
  refine (parallel_number _).bind ?_
  rintro _ _ _ length _ - rfl
  refine parallel_word.bind ?_
  rintro R small large cross _ - rfl
  dsimp only
  split
  · exact (Parallel.fail (Q := fun _ _ _ => False)).bind fun _ never => never.elim
  · refine reads.bind fun _ related => (parallel_expect "]").bind fun le _ => ?_
    exact parallel_interning (.array _ (le _ _ related)) rfl

/-- The address space is a number in the text. -/
theorem agrees_addrSpace :
    Agrees (do
      let space ← number UInt64.size
      let space ← require (if space < UInt32.size then some space else none)
      expect ")"
      interning (.ptr (UInt32.ofNat space))) := by
  intro R small large
  refine (parallel_number _).bind ?_
  rintro _ _ _ space _ - rfl
  refine (parallel_require _).bind ?_
  rintro _ _ _ space _ - rfl
  exact (parallel_expect ")").bind fun _ _ => parallel_interning (.ptr _) rfl

theorem agrees_basic {id : TypeId} (basic : id.index ≤ 5) : Agrees (Pure.pure id) :=
  fun paired => Parallel.pure (paired.basic basic) paired

/-- A name stands for related structs.  A name that only one arena knows is none that both readers
accept. -/
theorem agrees_declared (name : String) : Agrees (declared name) := by
  intro R small large paired text after a rest afterLarge b rest' run run'
  have known := paired.named name
  change (small, (small.named? name).map _) = _ at run
  change (large, (large.named? name).map _) = _ at run'
  generalize small.named? name = first, large.named? name = second at known run run'
  cases known with
  | none => cases run
  | some related =>
    cases run
    cases run'
    exact ⟨rfl, R, le_refl R, paired, related⟩

/-- A type begins with a word, a mark or a bracket, and each of these is one alternative.  What a
type begins with is seen in the text, so both sides take the same alternative. -/
theorem agrees_base (reads : Agrees item) : Agrees (base item) := by
  refine agrees_ifTake (agrees_literalStruct reads _ _) ?_
  refine agrees_ifTake (agrees_literalStruct reads _ _) ?_
  refine agrees_ifTake (agrees_array reads) (agrees_ifTake ?_ ?_)
  · intro R small large
    refine parallel_word.bind ?_
    rintro R small large name _ - rfl
    exact agrees_declared _
  · intro R small large
    refine parallel_word.bind ?_
    rintro R small large name _ - rfl
    split
    · exact agrees_basic (Nat.zero_le 5)
    · split
      · exact agrees_ifTake agrees_addrSpace (agrees_basic (Nat.le_refl 5))
      · exact agrees_ofWord name

/-- Each list of parameters makes a function type of what has been read so far, which is related on
both sides. -/
theorem parallel_parameterLists (reads : Agrees item) {turns : Nat} {ret other : TypeId}
    (known : R ret other) :
    Parallel R small large (parameterLists item turns ret) (parameterLists item turns other)
      fun larger a b => larger a b := by
  induction turns generalizing R small large ret other with
  | zero => exact .fail
  | succ turns ih =>
    rw [parameterLists, parameterLists]
    refine (parallel_take? _).bind ?_
    rintro _ _ _ opened _ le rfl
    have known := le _ _ known
    cases opened with
    | false => exact .pure known
    | true =>
      refine (parallel_list reads _).bind ?_
      rintro _ _ _ ⟨params, vararg⟩ ⟨others, _⟩ le ⟨related, rfl⟩
      exact (parallel_interning (.func vararg related (le _ _ known)) rfl).bind
        fun _ related => ih related

/-- By induction on the depth, which is the same on both sides.  At depth zero both fail. -/
theorem agrees_typeWithin (depth : Nat) : Agrees (typeWithin depth) := by
  induction depth with
  | zero => exact .fail
  | succ depth ih =>
    refine (agrees_base ih).bind fun _ related paired => ?_
    exact parallel_parameterLists ih related paired

end TypeReader

namespace Types

variable {R : TypeId → TypeId → Prop} {small large after afterLarge : Types} {text : List Char}
  {id other : TypeId}

/-- **A text stands for related types** in arenas that are paired.  The shorter document and the
longer one read the same text, each in its arena. -/
theorem Paired.readText (paired : small.Paired R large)
    (run : small.readText text = (after, .ok id))
    (run' : large.readText text = (afterLarge, .ok other)) :
    ∃ larger, R ≤ larger ∧ after.Paired larger afterLarge ∧ larger id other := by
  have taken {types after : Types} {id : TypeId} (run : types.readText text = (after, .ok id)) :
      ∃ rest, TypeReader.typeWithin (text.length + 1) types text = (after, some (id, rest)) := by
    simp only [Types.readText, TypeArena.readText, TypeArena.read] at run
    split at run
    · next after' id' rest answer =>
      by_cases whole : (trimStart rest).isEmpty
      · rw [if_pos whole] at run
        cases run
        exact ⟨rest, answer⟩
      · rw [if_neg whole] at run
        cases run
    · cases run
  obtain ⟨rest, run⟩ := taken run
  obtain ⟨rest', run'⟩ := taken run'
  exact (TypeReader.agrees_typeWithin _ paired run run').2

end Types

end IrStream
