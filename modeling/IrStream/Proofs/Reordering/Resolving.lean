import IrStream.Proofs.Document.Step
import IrStream.Proofs.Pairing.Lookup
import IrStream.Proofs.Reordering.Basic

/-!
# Resolving in two programs with the same names

`Loader.Along` is the judgment that two steps of loading, each run on its own program, both fail or
both succeed, and what is known of the outcomes if they succeed.  It holds of two `do` blocks if it
holds of their parts.  Meanwhile both programs only grow, in a way that is a parameter of the
judgment: resolving adds types and constants (`Program.Enlarges`), and building bodies does more
than that (`Program.Fills`).

What a text resolves to depends on the names of structs, globals and functions only.  So in programs
with the same names (`Program.Twins`) a type, a constant or an operand that is written the same
resolves to handles that stand for each other, or it does not resolve in either of them.

Having growth as a parameter is what allows one judgment for everything that loads a body.  A rule
for `do` has to know that what held before the second step still holds, and which facts that are
depends on how much the steps may do.  The class `Growth` asks only that a way of growing is
reflexive and transitive; the lemmas about resolving are stated for `Enlarges`, and a step that
resolves something inside a larger step is turned into one that `Fills`.

No errors are compared.  Two loads that both fail may do so at different names, as the second one
may come to another fault first.

## Statements

* `Along.bind`, `Along.mapM` and those beside them: the rules.
* `along_interned`: interning what corresponds answers handles that stand for each other.
* `along_literal`, `along_named`, `along_operandOfText`: constants, names, and the texts of
  operands.
* `along_operandOf`: **an operand resolves to what corresponds**, or to nothing in either program.
-/

set_option autoImplicit false

namespace IrStream

/-- Two answers are related if both are there or none is, and if those that are there are related.
-/
theorem optionRel_of_isSome {α β : Type} {R : α → β → Prop} {a : Option α} {b : Option β}
    (same : b.isSome = a.isSome) (related : ∀ {x y}, a = some x → b = some y → R x y) :
    Option.Rel R a b := by
  cases a with
  | none =>
    rw [Option.isSome_none, Option.isSome_eq_false_iff, Option.isNone_iff_eq_none] at same
    rw [same]
    exact .none
  | some x =>
    obtain ⟨y, rfl⟩ := Option.isSome_iff_exists.mp same
    exact .some (related rfl rfl)

namespace Program

/-! ## Programs that are resolved in

Resolving reads the names of a program and adds to its types and constants.  Everything else stays
as it is, and most of the lemmas here say just that, for one part of the program each. -/

/-- The second program is the first one with more constants and literal types. -/
structure Enlarges (p q : Program) : Prop where
  /-- The types have grown by literals only. -/
  types : p.types.Writes q.types
  /-- Every constant keeps its handle. -/
  constant : ∀ {id constant}, p.constant id = .ok constant → q.constant id = .ok constant
  /-- Nothing else has changed. -/
  rest : q = { p with types := q.types, constants := q.constants }

/-- Programs with the same names, of structs, globals and functions. -/
structure Twins (p q : Program) : Prop where
  /-- The same structs are declared. -/
  types : p.types.Twins q.types
  /-- A struct without a name has its fields, in the first program. -/
  known : p.types.LiteralsKnown
  /-- A struct without a name has its fields, in the second program. -/
  known' : q.types.LiteralsKnown
  /-- The same names are those of globals. -/
  globals : ∀ name, (q.findGlobal? name).isSome = (p.findGlobal? name).isSome
  /-- The same names are those of functions. -/
  functions : ∀ name, (q.findFunction? name).isSome = (p.findFunction? name).isSome

variable {p q p' q' : Program}

/-- A program enlarges itself by nothing. -/
theorem Enlarges.refl (p : Program) : p.Enlarges p := ⟨.refl _, id, rfl⟩

/-- Enlarging goes on. -/
theorem Enlarges.trans {r : Program} (first : p.Enlarges q) (second : q.Enlarges r) :
    p.Enlarges r := by
  refine ⟨first.types.trans second.types, fun found => second.constant (first.constant found), ?_⟩
  rw [second.rest, first.rest]

namespace Enlarges

variable (enlarges : p.Enlarges q)
include enlarges

theorem globals : q.globals = p.globals := by rw [enlarges.rest]

theorem functions : q.functions = p.functions := by rw [enlarges.rest]

theorem blocks : q.blocks = p.blocks := by rw [enlarges.rest]

theorem insts : q.insts = p.insts := by rw [enlarges.rest]

theorem args : q.args = p.args := by rw [enlarges.rest]

/-- Resolving leaves a later state of the same program. -/
theorem later : p.Later q where
  types := enlarges.types
  constant := enlarges.constant
  global found := ⟨_, by rwa [global, enlarges.globals], rfl, rfl, rfl⟩
  function found := ⟨_, by rwa [function, enlarges.functions], rfl, rfl, rfl⟩
  arg found := by rwa [arg, enlarges.args]

/-- Resolving declares no global. -/
theorem findGlobal?_eq (name : String) : q.findGlobal? name = p.findGlobal? name := by
  rw [findGlobal?, findGlobal?, enlarges.globals]

/-- Resolving declares no function. -/
theorem findFunction?_eq (name : String) : q.findFunction? name = p.findFunction? name := by
  rw [findFunction?, findFunction?, enlarges.functions]

end Enlarges

/-- Programs with the same names have them after resolving. -/
theorem Twins.enlarge (twins : p.Twins q) (enlarges : p.Enlarges p') (enlarges' : q.Enlarges q') :
    p'.Twins q' where
  types := twins.types.mono enlarges.types.interns enlarges'.types.interns
  known := twins.known.writes enlarges.types
  known' := twins.known'.writes enlarges'.types
  globals name := by rw [enlarges.findGlobal?_eq, enlarges'.findGlobal?_eq, twins.globals]
  functions name := by rw [enlarges.findFunction?_eq, enlarges'.findFunction?_eq, twins.functions]

/-- Reading a type adds literal types only. -/
theorem enlarges_types {types : Types} (writes : p.types.Writes types) :
    p.Enlarges { p with types } :=
  ⟨writes, fun found => found, rfl⟩

/-- Interning a constant adds at most that constant. -/
theorem enlarges_internConstant (constant : Constant) :
    p.Enlarges (p.internConstant constant).2 :=
  ⟨.refl _, fun found => Constants.constant_intern_of_constant found constant, rfl⟩

/-- A way in which programs grow. -/
class Growth (G : Program → Program → Prop) : Prop where
  refl : ∀ p, G p p
  trans : ∀ {p q r}, G p q → G q r → G p r

instance : Growth Enlarges := ⟨.refl, .trans⟩

/-- Types with the same term have alike shapes, or both are structs. -/
theorem Twins.shapes (twins : p.Twins q) {id other : TypeId}
    (same : Types.SameTerm p.types q.types id other) :
    BothOk (fun shape shape' => shape.Alike (Types.SameTerm p.types q.types) shape'
      ∨ ∃ body body', shape = .struct body ∧ shape' = .struct body')
      (p.types.shape id) (q.types.shape other) := by
  obtain ⟨shape, found⟩ := same.has.exists_shape
  obtain ⟨shape', there⟩ := same.has'.exists_shape
  obtain ⟨names, alike⟩ := same.shapes twins.types twins.known twins.known' found there
  refine ⟨shape, shape', found, there, ?_⟩
  cases named : shape.structName? with
  | none => exact .inl (alike named)
  | some name =>
    rw [named] at names
    cases shape with
    | struct body =>
      cases shape' with
      | struct body' => exact .inr ⟨body, body', rfl, rfl⟩
      | _ => cases names
    | _ => cases named

/-! ## Names

Handles are given out in the order of declaration, so the same name may stand for different handles
in the two programs.  They stand for each other all the same, and that is what `SameGlobal` and
`SameFunction` mean: the relation is defined by the names, and looking a name up on both sides leads
to a pair of it. -/

/-- What a name finds has the name. -/
theorem exists_of_findGlobal? {name : String} {id : GlobalId}
    (found : p.findGlobal? name = some id) :
    ∃ global, p.global id = .ok global ∧ global.name = name := by
  simp only [findGlobal?, Option.map_eq_some_iff, Array.findIdx?_eq_some_iff_getElem] at found
  obtain ⟨index, ⟨bound, same, -⟩, rfl⟩ := found
  exact ⟨_, global_eq_ok_iff.mpr (Array.getElem?_eq_getElem bound), eq_of_beq same⟩

/-- What a name finds has the name. -/
theorem exists_of_findFunction? {name : String} {id : FuncId}
    (found : p.findFunction? name = some id) :
    ∃ function, p.function id = .ok function ∧ function.name = name := by
  simp only [findFunction?, Option.map_eq_some_iff, Array.findIdx?_eq_some_iff_getElem] at found
  obtain ⟨index, ⟨bound, same, -⟩, rfl⟩ := found
  exact ⟨_, function_eq_ok_iff.mpr (Array.getElem?_eq_getElem bound), eq_of_beq same⟩

namespace Twins

variable (twins : p.Twins q) (name : String)
include twins

/-- A name is that of a global in both programs or in none, and the globals stand for each other. -/
theorem optionRel_findGlobal? :
    Option.Rel (p.SameGlobal q) (p.findGlobal? name) (q.findGlobal? name) := by
  refine optionRel_of_isSome (twins.globals name) fun {id other} found there => ?_
  obtain ⟨global, here, rfl⟩ := exists_of_findGlobal? found
  obtain ⟨global', here', same⟩ := exists_of_findGlobal? there
  exact ⟨global, global', here, here', same⟩

/-- A name is that of a function in both programs or in none, and the functions stand for each
other. -/
theorem optionRel_findFunction? :
    Option.Rel (p.SameFunction q) (p.findFunction? name) (q.findFunction? name) := by
  refine optionRel_of_isSome (twins.functions name) fun {id other} found there => ?_
  obtain ⟨function, here, rfl⟩ := exists_of_findFunction? found
  obtain ⟨function', here', same⟩ := exists_of_findFunction? there
  exact ⟨function, function', here, here', same⟩

end Twins

end Program

/-- The same names are in scope, for what stands for each other. -/
structure Scope.Corresponds (m : Correspondence) (scope other : Scope) : Prop where
  values : ∀ name, Option.Rel (Operand.Corresponds m) (scope.values.lookup name)
    (other.values.lookup name)
  blocks : ∀ name, Option.Rel m.block (scope.blocks.lookup name) (other.blocks.lookup name)

/-- Scopes correspond in a larger correspondence. -/
theorem Scope.Corresponds.mono {m larger : Correspondence} (le : m.Le larger) {scope other : Scope}
    (h : scope.Corresponds m other) : scope.Corresponds larger other where
  values name := optionRel_imp (h.values name) (.mono le)
  blocks name := optionRel_imp (h.blocks name) le.block

namespace Loader

open Program

variable {α β γ δ : Type} {G : Program → Program → Prop} {p q p' q' : Program}

/-! ## Two loads

The judgment, and how it is weakened. -/

/-- Both steps fail, or both succeed.  Then both programs grow by `G`, and what they are and what is
answered has the property `Q`. -/
def Along (G : Program → Program → Prop) (p q : Program) (left : Loader α) (right : Loader β)
    (Q : Program → Program → α → β → Prop) : Prop :=
  Agree ⊤ (fun a b => G p a.2 ∧ G q b.2 ∧ Q a.2 b.2 a.1 b.1) (left.run p) (right.run q)

namespace Along

variable {P Q : Program → Program → α → β → Prop} {left : Loader α} {right : Loader β}

theorem imp {H : Program → Program → Prop} (along : Along G p q left right P)
    (grows : ∀ {p q}, G p q → H p q)
    (h : ∀ {p' q' a b}, G p p' → G q q' → P p' q' a b → Q p' q' a b) :
    Along H p q left right Q :=
  Agree.imp along fun ⟨first, second, holds⟩ => ⟨grows first, grows second, h first second holds⟩

/-- What is known of two runs that succeed. -/
theorem of_yields (along : Along G p q left right Q) {a : α} {b : β} (run : Yields left p a p')
    (run' : Yields right q b q') : G p p' ∧ G q q' ∧ Q p' q' a b :=
  Agree.of_ok along run run'

/-- Both steps succeed if one of them does. -/
theorem exists_iff (along : Along G p q left right Q) :
    (∃ b q', Yields right q b q') ↔ ∃ a p', Yields left p a p' := by
  have both := Agree.exists_iff along
  rwa [Prod.exists, Prod.exists] at both

/-- Of steps that answer nothing only success matters. -/
theorem exists_unit_iff {left right : Loader PUnit} {Q : Program → Program → PUnit → PUnit → Prop}
    (along : Along G p q left right Q) :
    (∃ q', Yields right q () q') ↔ ∃ p', Yields left p () p' := by
  have both := along.exists_iff
  exact ⟨fun ⟨q', run⟩ => have ⟨_, p', run⟩ := both.mp ⟨(), q', run⟩; ⟨p', run⟩,
    fun ⟨p', run⟩ => have ⟨_, q', run⟩ := both.mpr ⟨(), p', run⟩; ⟨q', run⟩⟩

/-! ## Making steps out of steps

One rule for each way; those with a continuation are for steps that look something up. -/

theorem throw {fault fault' : ProgramError} :
    Along G p q (MonadExcept.throw fault) (MonadExcept.throw fault') Q :=
  .error trivial

theorem get {next : Program → Loader γ} {next' : Program → Loader δ}
    {Q : Program → Program → γ → δ → Prop} (rest : Along G p q (next p) (next' q) Q) :
    Along G p q (MonadState.get >>= next) (MonadState.get >>= next') Q :=
  rest

theorem dangling {R : α → β → Prop} {answer : Except Dangling α} {answer' : Except Dangling β}
    {next : α → Loader γ} {next' : β → Loader δ} {Q : Program → Program → γ → δ → Prop}
    (both : BothOk R answer answer') (rest : ∀ {a b}, R a b → Along G p q (next a) (next' b) Q) :
    Along G p q (liftM answer >>= next) (liftM answer' >>= next') Q := by
  obtain ⟨a, b, rfl, rfl, related⟩ := both
  exact rest related

theorem set {next next' : PUnit → Loader γ} {Q : Program → Program → γ → γ → Prop}
    [Growth G] (grows : G p p') (grows' : G q q') (rest : Along G p' q' (next ⟨⟩) (next' ⟨⟩) Q) :
    Along G p q (MonadStateOf.set p' >>= next) (MonadStateOf.set q' >>= next') Q :=
  Agree.imp rest fun ⟨first, second, holds⟩ =>
    ⟨Growth.trans grows first, Growth.trans grows' second, holds⟩

theorem pure [Growth G] {a : α} {b : β} (h : Q p q a b) :
    Along G p q (Pure.pure a) (Pure.pure b) Q :=
  .ok ⟨Growth.refl p, Growth.refl q, h⟩

theorem except [Growth G] {answer : Except ProgramError α} {answer' : Except ProgramError β}
    (agree : Agree ⊤ (Q p q) answer answer') : Along G p q (liftM answer) (liftM answer') Q := by
  cases agree with
  | ok related => exact .ok ⟨Growth.refl p, Growth.refl q, related⟩
  | error => exact .error trivial

/-- A computation that does not touch the program, in front of other steps. -/
theorem except_bind {R : α → β → Prop} {answer : Except ProgramError α}
    {answer' : Except ProgramError β} {next : α → Loader γ} {next' : β → Loader δ}
    {Q : Program → Program → γ → δ → Prop} (agree : Agree ⊤ R answer answer')
    (rest : ∀ {a b}, R a b → Along G p q (next a) (next' b) Q) :
    Along G p q (liftM answer >>= next) (liftM answer' >>= next') Q := by
  cases agree with
  | ok related => exact rest related
  | error => exact .error trivial

theorem bind [Growth G] {next : α → Loader γ} {next' : β → Loader δ}
    {Q : Program → Program → γ → δ → Prop} (first : Along G p q left right P)
    (second : ∀ {p' q' a b}, G p p' → G q q' → P p' q' a b →
      Along G p' q' (next a) (next' b) Q) :
    Along G p q (left >>= next) (right >>= next') Q := by
  rw [Along, StateT.run_bind, StateT.run_bind]
  refine Agree.bind first fun ⟨grows, grows', holds⟩ => ?_
  exact Agree.imp (second grows grows' holds) fun ⟨more, more', holds⟩ =>
    ⟨Growth.trans grows more, Growth.trans grows' more', holds⟩

theorem update {step : Program → Except ProgramError (α × Program)}
    {step' : Program → Except ProgramError (β × Program)}
    (agree : Agree ⊤ (fun a b => G p a.2 ∧ G q b.2 ∧ Q a.2 b.2 a.1 b.1) (step p) (step' q)) :
    Along G p q (Loader.update step) (Loader.update step') Q := by
  rw [Along, run_update, run_update]
  exact agree

/-- A step for each entry of one list, in two programs that grow; what is related stays so. -/
theorem mapM [Growth G] {S : Program → Program → γ → δ → Prop} {step : α → Loader γ}
    {step' : α → Loader δ} {list : List α}
    (each : ∀ {p' q'} a, G p p' → G q q' → Along G p' q' (step a) (step' a) S)
    (stays : ∀ {p' q' p'' q'' a b}, G p p' → G q q' → G p' p'' → G q' q'' → S p' q' a b →
      S p'' q'' a b) :
    Along G p q (list.mapM step) (list.mapM step') fun p q => List.Forall₂ (S p q) := by
  induction list generalizing p q with
  | nil => exact .pure .nil
  | cons a rest ih =>
    rw [List.mapM_cons, List.mapM_cons]
    refine (each a (Growth.refl p) (Growth.refl q)).bind fun {p' q' c d} grows grows' here => ?_
    refine (ih (fun a more more' => each a (Growth.trans grows more) (Growth.trans grows' more'))
      fun more more' => stays (Growth.trans grows more) (Growth.trans grows' more')).bind
        fun {p'' q'' cs ds} more more' others => ?_
    exact .pure (.cons (stays grows grows' more more' here) others)

end Along

/-! ## Types

A type text names structs and nothing else, so the names of structs decide.  The handles that are
answered differ, and what they have in common is their term. -/

/-- A text is a type in both programs or in none, and then it is of the same term. -/
theorem along_typeOfText (twins : p.types.Twins q.types) (text : List Char) :
    Along Enlarges p q (typeOfText text) (typeOfText text)
      fun p q => Types.SameTerm p.types q.types := by
  have agree : Agree ⊤ (Types.SameTerm (p.types.readText text).1 (q.types.readText text).1)
      (p.types.readText text).2 (q.types.readText text).2 := by
    rcases twins.readText text with ⟨id, other, found, there, same⟩ | ⟨failed, failed'⟩
    · rw [found, there]
      exact .ok same
    · rw [failed, failed']
      exact .error trivial
  exact .get (.set (enlarges_types (twins.regular.readText_writes text))
    (enlarges_types (twins.regular'.readText_writes text)) (.except agree))

/-- Function types of corresponding parts have the same term. -/
theorem along_func (twins : p.types.Twins q.types) {params others : List TypeId}
    {ret other : TypeId} (vararg : Bool)
    (parameters : List.Forall₂ (Types.SameTerm p.types q.types) params others)
    (result : Types.SameTerm p.types q.types ret other) :
    Along Enlarges p q (withTypes (·.func params ret vararg))
      (withTypes (·.func others other vararg))
      fun p q => Types.SameTerm p.types q.types := by
  obtain ⟨has, has', terms, readable⟩ := Types.SameTerm.all parameters
  have parts := List.forall_mem_cons.mpr ⟨result.has, has⟩
  have parts' := List.forall_mem_cons.mpr ⟨result.has', has'⟩
  refine .ok ⟨enlarges_types (.intern (.refl _) (.func params ret vararg) trivial parts),
    enlarges_types (.intern (.refl _) (.func others other vararg) trivial parts'), ?_⟩
  refine twins.intern rfl rfl parts parts' ?_ (.func readable result.readable)
  rw [TypeShape.termWith, TypeShape.termWith, terms, result.same]

mutual

/-- By recursion on the node. -/
theorem along_typeOf {p q : Program} (twins : p.types.Twins q.types) (node : TypeNode) :
    Along Enlarges p q (typeOf node) (typeOf node) fun p q => Types.SameTerm p.types q.types := by
  cases node with
  | text text => exact along_typeOfText twins _
  | func ret params vararg =>
    rw [typeOf]
    refine (along_typeOf twins ret).bind fun first first' result => ?_
    have twins := twins.mono first.types.interns first'.types.interns
    refine (along_typesOf twins params).bind fun second second' parameters => ?_
    have result := result.mono twins second.types.interns second'.types.interns
    have twins := twins.mono second.types.interns second'.types.interns
    exact along_func twins vararg parameters result

/-- Types in a row: what was read first keeps its term while the others are read. -/
theorem along_typesOf {p q : Program} (twins : p.types.Twins q.types) (nodes : List TypeNode) :
    Along Enlarges p q (typesOf nodes) (typesOf nodes)
      fun p q => List.Forall₂ (Types.SameTerm p.types q.types) := by
  cases nodes with
  | nil =>
    rw [typesOf]
    exact .pure .nil
  | cons node rest =>
    rw [typesOf]
    refine (along_typeOf twins node).bind fun first first' same => ?_
    have twins := twins.mono first.types.interns first'.types.interns
    refine (along_typesOf twins rest).bind fun second second' others => ?_
    exact .pure (.cons (same.mono twins second.types.interns second'.types.interns) others)

end

/-! ## Constants

A constant is interned on both sides, and may be found on the one and new on the other.  That it
does not matter which is `along_interned`: interning answers a handle that leads to the constant,
and what leads to constants that correspond stands for each other. -/

section

variable {locals : Locals}

/-- Interning what corresponds answers handles that stand for each other. -/
theorem along_interned (twins : p.Twins q) {value other : Constant}
    (alike : value.Corresponds (p.matching q locals) other) :
    p.Enlarges (p.internConstant value).2 ∧ q.Enlarges (q.internConstant other).2
      ∧ (p.internConstant value).2.SameConst (q.internConstant other).2 (p.internConstant value).1
        (q.internConstant other).1 := by
  have first : p.Enlarges _ := enlarges_internConstant value
  have second : q.Enlarges _ := enlarges_internConstant other
  have le := matching_le first.later second.later twins.types (.refl locals)
  refine ⟨first, second, @SameConst.of_bothOk _ _ locals _ _
    ⟨value, other, Constants.constant_intern, Constants.constant_intern, ?_⟩⟩
  exact alike.imp le.type le.constant le.global le.function

/-- Constants that correspond become operands that do. -/
theorem along_constant (twins : p.Twins q) {value other : Constant}
    (alike : value.Corresponds (p.matching q locals) other) :
    Along Enlarges p q (constant value) (constant other)
      fun p q => Operand.Corresponds (p.matching q locals) := by
  obtain ⟨first, second, same⟩ := along_interned twins alike
  exact .update (.ok ⟨first, second, .const same⟩)

/-- Integers correspond if their types do and their bits are equal, and the width belongs to the
type. -/
theorem along_constInt (twins : p.Twins q) {type other : TypeId}
    (same : Types.SameTerm p.types q.types type other) (value : Int) :
    Along Enlarges p q (update (·.constInt type value)) (update (·.constInt other value))
      fun p q => p.SameConst q := by
  obtain ⟨shape, shape', found, there, alike⟩ := twins.shapes same
  refine .update ?_
  simp only [constInt, found, there]
  rcases alike with alike | ⟨body, body', rfl, rfl⟩
  · cases alike with
    | int bits =>
      change Agree ⊤ _ (if maxIntBits < bits.toNat then _ else _)
        (if maxIntBits < bits.toNat then _ else _)
      split
      · exact .error trivial
      · exact .ok (@along_interned _ _ .none twins _ _ (.int _ same))
    | _ => exact .error trivial
  · exact .error trivial

/-- A literal is a constant that is made of its type and its text; both sides make the same one. -/
theorem along_literal (twins : p.Twins q) {type other : TypeId}
    (same : Types.SameTerm p.types q.types type other) (text : List Char) :
    Along Enlarges p q (literal type text) (literal other text)
      fun p q => Operand.Corresponds (p.matching q locals) := by
  rw [literal, literal]
  split
  · exact along_constant twins (.null same)
  split
  · exact along_constant twins (.undef same)
  refine .get (.dangling (twins.shapes same) fun {shape shape'} alike => ?_)
  rcases alike with alike | ⟨body, body', rfl, rfl⟩
  · cases alike with
    | int bits =>
      dsimp only
      split
      · exact (along_constInt twins same _).bind fun _ _ known => .pure (.const known)
      · exact .throw
    | float kind =>
      dsimp only
      split
      · exact along_constant twins (.float _ same)
      · exact .throw
    | _ => exact .throw
  · exact .throw

/-! ## Operands

Locals come from scopes that correspond, and everything else is a name of the program or a constant.
An operand that is no constant where one is needed is refused in both programs. -/

section

variable {scope other : Scope}

/-- Names are looked up among the locals first, and then among the names of the program.  They
correspond in both places. -/
theorem along_named (twins : p.Twins q) (alike : scope.Corresponds (p.matching q locals) other)
    (name : List Char) :
    Along Enlarges p q (named scope name) (named other name)
      fun p q => Operand.Corresponds (p.matching q locals) := by
  unfold named
  split
  · next name =>
    have known := alike.values (String.ofList name)
    dsimp only
    generalize scope.values.lookup (String.ofList name) = value at known
    generalize other.values.lookup (String.ofList name) = value' at known
    cases known with
    | none => exact .throw
    | some related => exact .pure related
  · refine .get ?_
    have known := twins.optionRel_findGlobal? (String.ofList (name.dropWhile (· == '@')))
    generalize p.findGlobal? _ = global, q.findGlobal? _ = global' at known
    cases known with
    | some related => exact along_constant twins (.global related)
    | none =>
      refine .get ?_
      have known := twins.optionRel_findFunction? (String.ofList (name.dropWhile (· == '@')))
      generalize p.findFunction? _ = function, q.findFunction? _ = function' at known
      cases known with
      | some related => exact along_constant twins (.function related)
      | none => exact .throw

/-- The branch is chosen by the text, and in each of the branches corresponding operands are
answered. -/
theorem along_operandOfText (twins : p.Twins q)
    (alike : scope.Corresponds (p.matching q locals) other) (text : List Char) :
    Along Enlarges p q (operandOfText scope text) (operandOfText other text)
      fun p q => Operand.Corresponds (p.matching q locals) := by
  unfold operandOfText
  extract_lets text rest rest'
  have others (done : Unit) : Along Enlarges p q (rest done) (rest' done)
      fun p q => Operand.Corresponds (p.matching q locals) := by
    dsimp only [rest, rest']
    split
    · exact along_named twins alike text
    · split
      · exact .throw
      · split
        · exact along_named twins alike _
        · exact (along_typeOfText twins.types _).bind fun first second same =>
            along_literal (twins.enlarge first second) same _
  generalize text = text
  split
  · exact .pure (.text _)
  · split
    · next label _ =>
      have known := alike.blocks (String.ofList ((trim label).dropWhile (· == '%')))
      dsimp only
      generalize scope.blocks.lookup _ = block, other.blocks.lookup _ = block' at known
      cases known with
      | none => exact .throw
      | some related => exact .pure (.block related)
    · exact others ()

end

/-- An operand is a constant in both programs or in none. -/
theorem along_requireConstant (node : OperandNode) {operand other : Operand}
    (alike : operand.Corresponds (p.matching q locals) other) :
    Along Enlarges p q (requireConstant node operand) (requireConstant node other)
      fun p q => p.SameConst q := by
  cases alike with
  | const related => exact .pure related
  | _ => exact .throw

end

mutual

/-- **An operand resolves to what corresponds**, or to nothing in either program. -/
theorem along_operandOf {p q : Program} {locals : Locals} {scope other : Scope} (twins : p.Twins q)
    (alike : scope.Corresponds (p.matching q locals) other) (node : OperandNode) :
    Along Enlarges p q (operandOf scope node) (operandOf other node)
      fun p q => Operand.Corresponds (p.matching q locals) := by
  cases node with
  | text text => exact along_operandOfText twins alike _
  | aggregate type elems =>
    rw [operandOf, operandOf]
    refine (along_typeOf twins.types type).bind fun first first' same => ?_
    have le := matching_le first.later first'.later twins.types (.refl locals)
    have twins := twins.enlarge first first'
    refine (along_constantsOf twins (alike.mono le) elems).bind fun second second' parts => ?_
    have same := same.mono twins.types second.types.interns second'.types.interns
    exact along_constant (twins.enlarge second second') (.aggregate same parts)

/-- The parts of an aggregate are resolved like operands, and none of them may be a local. -/
theorem along_constantsOf {p q : Program} {locals : Locals} {scope other : Scope}
    (twins : p.Twins q) (alike : scope.Corresponds (p.matching q locals) other)
    (nodes : List OperandNode) :
    Along Enlarges p q (constantsOf scope nodes) (constantsOf other nodes)
      fun p q => List.Forall₂ (p.SameConst q) := by
  cases nodes with
  | nil =>
    rw [constantsOf, constantsOf]
    exact .pure .nil
  | cons node rest =>
    rw [constantsOf, constantsOf]
    refine (along_operandOf twins alike node).bind fun first first' operand => ?_
    have le := matching_le first.later first'.later twins.types (.refl locals)
    have alike := alike.mono le
    have twins := twins.enlarge first first'
    refine (along_requireConstant node operand).bind fun second second' same => ?_
    have le := matching_le second.later second'.later twins.types (.refl locals)
    have alike := alike.mono le
    have twins := twins.enlarge second second'
    refine (along_constantsOf twins alike rest).bind fun third third' others => ?_
    exact .pure (.cons (same.mono third.later third'.later twins.types) others)

end

end Loader

end IrStream
