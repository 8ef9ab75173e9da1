import IrStream.Proofs.Program.Lookup
import Mathlib.Data.Fintype.Card
import Mathlib.Data.List.Forall2
import Mathlib.Data.Option.Basic

/-!
# What two programs have in common

Two programs that are built differently may say the same with different handles.  A `Pairing` says
which types, constants, globals and instructions of a first program stand for which of a second,
which may have more of them.  It also says which functions, blocks and arguments both programs have;
these have the same handle in both.

What a program is made of is alike under a pairing if it is the same up to the handles
(`TypeShape.Alike`, `Constant.Alike`, `Operand.Alike` and so on).  A pairing may grow while the
programs are built (`Pairing.Le`), and what was alike stays alike.

A list may be another one without some of its entries: `Thinned` relates the two.

## Why relations and not maps

A renaming of handles would be a map, and there is one in `Renaming/Basic.lean`.  Two things are
gained by starting from relations.

* **Handles without a counterpart.**  A debug instruction that only one program has brings types and
  constants of its own, and an instruction.  A map would have to send them somewhere or be partial;
  a relation just does not mention them.
* **Growing.**  Programs are loaded step by step, and with each step a pair may be added
  (`WithPair`).  For relations that is a disjunction, and what is monotone in the relation is kept.

What has to be shown instead is that no handle has two counterparts, on either side.  The relations
of a pairing are `Relator.BiUnique` where that matters, and `WithPair.rightUnique` and
`WithPair.leftUnique` are what an added pair has to meet.

## Instructions

Instructions are related by `inst`, and results that an operand may name by `value`; `dropped` holds
of those that only the second program has.  `Pairing.Exact` is the case in which nothing is dropped
and handles of instructions are kept.  It is a hypothesis of all that depends on handles being shown
as numbers.
-/

set_option autoImplicit false

namespace IrStream

/-! ## Lists and arenas

Tools for lists that are related one by one, for arenas that are related place by place, and for
lists of which one has more.  The library has `List.Forall₂`; `Thinned` and `SameArena` are beside
it. -/

/-- The first list is the second one without some entries of a certain kind; the others are related
one by one. -/
inductive Thinned {α β : Type} (R : α → β → Prop) (Dropped : β → Prop) : List α → List β → Prop
  /-- Both lists are empty. -/
  | nil : Thinned R Dropped [] []
  /-- Both lists have an entry, and the two are related. -/
  | keep {a : α} {b : β} {as : List α} {bs : List β} (related : R a b)
      (rest : Thinned R Dropped as bs) : Thinned R Dropped (a :: as) (b :: bs)
  /-- Only the second list has an entry, of the kind that may be missing. -/
  | drop {b : β} {as : List α} {bs : List β} (dropped : Dropped b)
      (rest : Thinned R Dropped as bs) : Thinned R Dropped as (b :: bs)

namespace Thinned

variable {α β : Type} {R S : α → β → Prop} {P Q : β → Prop} {as more : List α} {bs others : List β}

theorem imp (h : Thinned R P as bs) (related : ∀ {a b}, R a b → S a b)
    (dropped : ∀ {b}, P b → Q b) : Thinned S Q as bs := by
  induction h with
  | nil => exact .nil
  | keep here _ ih => exact .keep (related here) ih
  | drop here _ ih => exact .drop (dropped here) ih

theorem append (first : Thinned R P as bs) (second : Thinned R P more others) :
    Thinned R P (as ++ more) (bs ++ others) := by
  induction first with
  | nil => exact second
  | keep here _ ih => exact .keep here ih
  | drop here _ ih => exact .drop here ih

/-- A filter that nothing dropped passes makes lists that are related one by one. -/
theorem filter (h : Thinned R P as bs) {test : α → Bool} {other : β → Bool}
    (agree : ∀ {a b}, R a b → test a = other b) (none : ∀ {b}, P b → other b = false) :
    List.Forall₂ R (as.filter test) (bs.filter other) := by
  induction h with
  | nil => exact .nil
  | @keep a b _ _ here _ ih =>
    rw [List.filter_cons, List.filter_cons, agree here]
    cases other b with
    | false => exact ih
    | true => exact .cons here ih
  | drop here _ ih =>
    rw [List.filter_cons_of_neg (by simp [none here])]
    exact ih

/-- Nothing is missing if nothing may be dropped. -/
theorem length_eq (h : Thinned R P as bs) (none : ∀ {b}, ¬ P b) : bs.length = as.length := by
  induction h with
  | nil => rfl
  | keep _ _ ih => exact congrArg (· + 1) ih
  | drop here => exact (none here).elim

theorem exists_right (h : Thinned R P as bs) {a : α} (mem : a ∈ as) : ∃ b, R a b := by
  induction h with
  | nil => cases mem
  | @keep _ b _ _ here _ ih =>
    rcases List.mem_cons.mp mem with rfl | mem
    · exact ⟨b, here⟩
    · exact ih mem
  | drop _ _ ih => exact ih mem

/-- What is in the longer list is related to something, or dropped. -/
theorem exists_left (h : Thinned R P as bs) {b : β} (mem : b ∈ bs) : (∃ a, R a b) ∨ P b := by
  induction h with
  | nil => cases mem
  | @keep a _ _ _ here _ ih =>
    rcases List.mem_cons.mp mem with rfl | mem
    · exact .inl ⟨a, here⟩
    · exact ih mem
  | drop here _ ih =>
    rcases List.mem_cons.mp mem with rfl | mem
    · exact .inr here
    · exact ih mem

end Thinned

/-- Lists related one by one have what is searched at the same position. -/
theorem findIdx?_eq_of_forall₂ {α β : Type} {R : α → β → Prop} {as : List α} {bs : List β}
    {test : α → Bool} {other : β → Bool} (related : List.Forall₂ R as bs)
    (agree : ∀ {a b}, R a b → other b = test a) : bs.findIdx? other = as.findIdx? test := by
  induction related with
  | nil => rfl
  | cons here _ ih => rw [List.findIdx?_cons, List.findIdx?_cons, ih, agree here]

/-- Keys that are related one by one have equal values under related keys. -/
theorem lookup_eq_of_forall₂ {α β γ : Type} [DecidableEq α] [DecidableEq β] {R : α → β → Prop}
    (unique : Relator.BiUnique R) {a : α} {b : β} (related : R a b) {as : List (α × γ)}
    {bs : List (β × γ)} (alike : List.Forall₂ (fun x y => R x.1 y.1 ∧ y.2 = x.2) as bs) :
    bs.lookup b = as.lookup a := by
  induction alike with
  | nil => rfl
  | @cons x y _ _ here _ ih =>
    have agree : (b == y.1) = (a == x.1) := by
      rw [Bool.eq_iff_iff, beq_iff_eq, beq_iff_eq]
      constructor
      · rintro rfl
        exact unique.1 related here.1
      · rintro rfl
        exact unique.2 related here.1
    rw [List.lookup_cons, List.lookup_cons, agree, here.2, ih]

/-- Functions that agree on what is related make equal lists. -/
theorem map_eq_of_forall₂ {α β γ : Type} {R : α → β → Prop} {as : List α} {bs : List β}
    {f : α → γ} {g : β → γ} (related : List.Forall₂ R as bs) (agree : ∀ {a b}, R a b → g b = f a) :
    bs.map g = as.map f := by
  induction related with
  | nil => rfl
  | cons here _ ih => rw [List.map_cons, List.map_cons, ih, agree here]

theorem optionRel_getElem? {α β : Type} {R : α → β → Prop} {as : List α} {bs : List β}
    (related : List.Forall₂ R as bs) (index : Nat) : Option.Rel R as[index]? bs[index]? := by
  induction related generalizing index with
  | nil => exact .none
  | cons here _ ih =>
    cases index with
    | zero => exact .some here
    | succ index => exact ih index

theorem optionRel_getLast? {α β : Type} {R : α → β → Prop} {as : List α} {bs : List β}
    (related : List.Forall₂ R as bs) : Option.Rel R as.getLast? bs.getLast? := by
  induction related with
  | nil => exact .none
  | cons here rest ih =>
    cases rest with
    | nil => exact .some here
    | cons =>
      rw [List.getLast?_cons_cons, List.getLast?_cons_cons]
      exact ih

theorem dropLast_of_forall₂ {α β : Type} {R : α → β → Prop} {as : List α} {bs : List β}
    (related : List.Forall₂ R as bs) : List.Forall₂ R as.dropLast bs.dropLast := by
  induction related with
  | nil => exact .nil
  | cons here rest ih =>
    cases rest with
    | nil => exact .nil
    | cons => exact .cons here ih

/-- The arenas are as large as each other, and their entries related one by one. -/
structure SameArena {α β : Type} (R : α → β → Prop) (as : Array α) (bs : Array β) : Prop where
  /-- A handle is in range on both sides or on neither. -/
  size : as.size = bs.size
  /-- What two entries have in common. -/
  entry : ∀ {index : Nat} {a : α} {b : β}, as[index]? = some a → bs[index]? = some b → R a b

namespace SameArena

variable {α β : Type} {R S : α → β → Prop} {as : Array α} {bs : Array β} {index : Nat} {a : α}
  {b : β}

theorem empty : SameArena R (#[] : Array α) (#[] : Array β) :=
  ⟨rfl, fun h => by simp at h⟩

theorem imp (h : SameArena R as bs) (related : ∀ {a b}, R a b → S a b) : SameArena S as bs :=
  ⟨h.size, fun left right => related (h.entry left right)⟩

theorem exists_right (h : SameArena R as bs) (found : as[index]? = some a) :
    ∃ b, bs[index]? = some b ∧ R a b := by
  have bound := (Array.getElem?_eq_some_iff.mp found).1
  rw [h.size] at bound
  exact ⟨_, Array.getElem?_eq_getElem bound, h.entry found (Array.getElem?_eq_getElem bound)⟩

theorem toList (h : SameArena R as bs) : List.Forall₂ R as.toList bs.toList := by
  refine List.forall₂_iff_get.mpr ⟨h.size, fun index first second => ?_⟩
  exact h.entry (Array.getElem?_eq_getElem first) (Array.getElem?_eq_getElem second)

theorem findIdx?_eq (h : SameArena R as bs) {test : α → Bool} {other : β → Bool}
    (agree : ∀ {a b}, R a b → other b = test a) : bs.findIdx? other = as.findIdx? test := by
  have same := findIdx?_eq_of_forall₂ h.toList agree
  rwa [← List.findIdx?_toArray, ← List.findIdx?_toArray] at same

/-- Entries that are related may be appended to both arenas. -/
theorem push (h : SameArena R as bs) (new : R a b) : SameArena R (as.push a) (bs.push b) := by
  refine ⟨by simp [h.size], fun left right => ?_⟩
  rcases getElem?_push_eq_some left with ⟨here, rfl⟩ | left
  · rcases getElem?_push_eq_some right with ⟨-, rfl⟩ | right
    · exact new
    · rw [here, h.size, Array.getElem?_size] at right
      cases right
  · rcases getElem?_push_eq_some right with ⟨here, rfl⟩ | right
    · rw [here, ← h.size, Array.getElem?_size] at left
      cases left
    · exact h.entry left right

theorem append (h : SameArena R as bs) {new : List α} {others : List β}
    (more : List.Forall₂ R new others) :
    SameArena R (as ++ new.toArray) (bs ++ others.toArray) := by
  induction more generalizing as bs with
  | nil => simpa using h
  | @cons a b new others here _ ih =>
    have step := ih (h.push here)
    simpa using step

/-- An entry of the second arena is replaced by one that is related to its counterpart as well. -/
theorem set_right (h : SameArena R as bs) (new : ∀ {a}, as[index]? = some a → R a b) :
    SameArena R as (bs.setIfInBounds index b) := by
  refine ⟨by simp [h.size], fun {other x y} left right => ?_⟩
  by_cases same : index = other
  · subst same
    rw [Array.getElem?_setIfInBounds_self] at right
    split at right
    · cases right
      exact new left
    · cases right
  · rw [Array.getElem?_setIfInBounds_ne same] at right
    exact h.entry left right

/-- Entries that are related may replace those at the same place. -/
theorem set (h : SameArena R as bs) (new : R a b) :
    SameArena R (as.setIfInBounds index a) (bs.setIfInBounds index b) := by
  refine ⟨by simp [h.size], fun {other x y} left right => ?_⟩
  by_cases same : index = other
  · subst same
    rw [Array.getElem?_setIfInBounds_self] at left right
    split at left
    · split at right
      · cases left
        cases right
        exact new
      · cases right
    · cases left
  · rw [Array.getElem?_setIfInBounds_ne same] at left right
    exact h.entry left right

end SameArena

theorem optionRel_imp {α β : Type} {R S : α → β → Prop} {a : Option α} {b : Option β}
    (h : Option.Rel R a b) (related : ∀ {a b}, R a b → S a b) : Option.Rel S a b := by
  cases h with
  | some here => exact .some (related here)
  | none => exact .none

/-- There are no more positions than related ones, if none is related to by two. -/
theorem le_of_leftUnique {R : Nat → Nat → Prop} {count larger : Nat}
    (total : ∀ index < count, ∃ other < larger, R index other)
    (unique : ∀ {index again other}, R index other → R again other → index = again) :
    count ≤ larger := by
  have choice : ∀ index : Fin count, ∃ other : Fin larger, R index other := fun index => by
    obtain ⟨other, bound, related⟩ := total index index.isLt
    exact ⟨⟨other, bound⟩, related⟩
  choose f related using choice
  have injective : Function.Injective f := fun index again same =>
    Fin.ext (unique (related index) (same ▸ related again))
  simpa using Fintype.card_le_of_injective f injective

/-! ## One more pair

Adding a pair of handles to a relation.  Both are new, or one of them is, or the pair was there
before. -/

section

variable {α β : Type} {R : α → β → Prop} {a : α} {b : β}

/-- A relation with one more pair. -/
def WithPair (R : α → β → Prop) (a : α) (b : β) : α → β → Prop :=
  fun x y => R x y ∨ (x = a ∧ y = b)

theorem WithPair.old {x : α} {y : β} (h : R x y) : WithPair R a b x y := .inl h

theorem WithPair.new : WithPair R a b a b := .inr ⟨rfl, rfl⟩

theorem withPair_eq (known : R a b) : WithPair R a b = R := by
  funext x y
  refine propext ⟨?_, .inl⟩
  rintro (old | ⟨rfl, rfl⟩)
  exacts [old, known]

/-- The new pair is in no one's way if its first half is related to its second half or to nothing.
-/
theorem WithPair.rightUnique (unique : Relator.RightUnique R) (only : ∀ y, R a y → y = b) :
    Relator.RightUnique (WithPair R a b) := by
  rintro x y z (old | ⟨rfl, rfl⟩) (old' | ⟨here, rfl⟩)
  · exact unique old old'
  · exact only y (here ▸ old)
  · exact (only z old').symm
  · rfl

/-- The same from the other side. -/
theorem WithPair.leftUnique (unique : Relator.LeftUnique R) (only : ∀ x, R x b → x = a) :
    Relator.LeftUnique (WithPair R a b) := by
  rintro x y z (old | ⟨rfl, rfl⟩) (old' | ⟨rfl, here⟩)
  · exact unique old old'
  · exact only x (here ▸ old)
  · exact (only y old').symm
  · rfl

end

/-! ## Pairings -/

/-- Which handles of two programs stand for the same thing. -/
structure Pairing where
  /-- Types that stand for the same; each of them may have another handle in the second program. -/
  type : TypeId → TypeId → Prop
  /-- Constants that stand for the same. -/
  constant : ConstId → ConstId → Prop
  /-- Globals that stand for the same. -/
  global : GlobalId → GlobalId → Prop
  /-- Functions that both programs have, under the same handle; blocks and arguments likewise. -/
  function : FuncId → Prop
  /-- Blocks that both programs have. -/
  block : BlockId → Prop
  /-- Arguments that both programs have. -/
  arg : ArgId → Prop
  /-- Instructions that stand for the same. -/
  inst : InstId → InstId → Prop
  /-- Instructions that stand for the same and that operands may refer to. -/
  value : InstId → InstId → Prop
  /-- Instructions of the second program that the first one does not have. -/
  dropped : InstId → Prop

namespace Pairing

/-- The second pairing has all the pairs of the first. -/
structure Le (m larger : Pairing) : Prop where
  type : ∀ {a b}, m.type a b → larger.type a b
  constant : ∀ {a b}, m.constant a b → larger.constant a b
  global : ∀ {a b}, m.global a b → larger.global a b
  function : ∀ {a}, m.function a → larger.function a
  block : ∀ {a}, m.block a → larger.block a
  arg : ∀ {a}, m.arg a → larger.arg a
  inst : ∀ {a b}, m.inst a b → larger.inst a b
  value : ∀ {a b}, m.value a b → larger.value a b
  dropped : ∀ {b}, m.dropped b → larger.dropped b

theorem Le.refl (m : Pairing) : m.Le m := ⟨id, id, id, id, id, id, id, id, id⟩

/-- Pairings grow step by step. -/
theorem Le.trans {m middle larger : Pairing} (first : m.Le middle) (second : middle.Le larger) :
    m.Le larger where
  type h := second.type (first.type h)
  constant h := second.constant (first.constant h)
  global h := second.global (first.global h)
  function h := second.function (first.function h)
  block h := second.block (first.block h)
  arg h := second.arg (first.arg h)
  inst h := second.inst (first.inst h)
  value h := second.value (first.value h)
  dropped h := second.dropped (first.dropped h)

/-- Globals, functions, blocks and arguments are all in both programs, under the same handles. -/
structure Whole (m : Pairing) : Prop where
  global : m.global = Eq
  function : ∀ id, m.function id
  block : ∀ id, m.block id
  arg : ∀ id, m.arg id

/-- Instructions have the same handles in both programs, and the second one has no others in the
blocks of the first.  Handles of instructions are the only ones that are ever shown. -/
structure Exact (m : Pairing) : Prop where
  inst : ∀ {id other}, m.inst id other → other = id
  dropped : ∀ {id}, ¬ m.dropped id

variable {m : Pairing}

theorem Whole.global_self (whole : m.Whole) (id : GlobalId) : m.global id id := by
  rw [whole.global]

theorem Whole.biUnique_global (whole : m.Whole) : Relator.BiUnique m.global := by
  rw [whole.global]
  exact ⟨fun _ _ _ first second => first.trans second.symm,
    fun _ _ _ first second => first.symm.trans second⟩

end Pairing

/-! ## What is alike under a pairing

One relation for each sort of entity, and each of them says that everything in it is equal except
for handles, which are related. -/

/-- The shapes are the same up to the types they contain. -/
inductive TypeShape.Alike (R : TypeId → TypeId → Prop) : TypeShape → TypeShape → Prop
  | void : Alike R .void .void
  | int (bits : UInt32) : Alike R (.int bits) (.int bits)
  | ptr (addrSpace : UInt32) : Alike R (.ptr addrSpace) (.ptr addrSpace)
  | float (kind : FloatKind) : Alike R (.float kind) (.float kind)
  | func {params others : List TypeId} {ret other : TypeId} (vararg : Bool)
      (parameters : List.Forall₂ R params others) (result : R ret other) :
      Alike R (.func params ret vararg) (.func others other vararg)
  | struct {fields others : List TypeId} (name : Option String) (packed hasBody : Bool)
      (parts : List.Forall₂ R fields others) :
      Alike R (.struct ⟨name, fields, packed, hasBody⟩) (.struct ⟨name, others, packed, hasBody⟩)
  | array {elem other : TypeId} (length : UInt64) (part : R elem other) :
      Alike R (.array elem length) (.array other length)

/-- The constants are the same up to the handles in them. -/
inductive Constant.Alike (m : Pairing) : Constant → Constant → Prop
  | int {type other : TypeId} (bits : BitVec 128) (typed : m.type type other) :
      Alike m (.int type bits) (.int other bits)
  | float {type other : TypeId} (bits : UInt64) (typed : m.type type other) :
      Alike m (.float type bits) (.float other bits)
  | null {type other : TypeId} (typed : m.type type other) : Alike m (.null type) (.null other)
  | undef {type other : TypeId} (typed : m.type type other) : Alike m (.undef type) (.undef other)
  | aggregate {type other : TypeId} {elems others : List ConstId} (typed : m.type type other)
      (parts : List.Forall₂ m.constant elems others) :
      Alike m (.aggregate type elems) (.aggregate other others)
  | global {id other : GlobalId} (related : m.global id other) :
      Alike m (.global id) (.global other)
  | function {id : FuncId} (known : m.function id) : Alike m (.function id) (.function id)

/-- The operands are the same up to the handles in them. -/
inductive Operand.Alike (m : Pairing) : Operand → Operand → Prop
  | const {id other : ConstId} (related : m.constant id other) : Alike m (.const id) (.const other)
  | arg {id : ArgId} (known : m.arg id) : Alike m (.arg id) (.arg id)
  | inst {id other : InstId} (related : m.value id other) : Alike m (.inst id) (.inst other)
  | block {id : BlockId} (known : m.block id) : Alike m (.block id) (.block id)
  | text (text : String) : Alike m (.text text) (.text text)

/-- The type that a kind of instruction needs besides the operands. -/
def InstKind.typeArg? : InstKind → Option TypeId
  | alloca allocated => some allocated
  | getElementPtr source => some source
  | _ => none

/-- The kinds are the same up to the types in them. -/
inductive InstKind.Alike (R : TypeId → TypeId → Prop) : InstKind → InstKind → Prop
  | alloca {allocated other : TypeId} (related : R allocated other) :
      Alike R (.alloca allocated) (.alloca other)
  | getElementPtr {source other : TypeId} (related : R source other) :
      Alike R (.getElementPtr source) (.getElementPtr other)
  | plain {kind : InstKind} (none : kind.typeArg? = none) : Alike R kind kind

/-- The instructions are the same up to the handles in them. -/
structure Inst.Alike (m : Pairing) (inst other : Inst) : Prop where
  /-- The kinds are the same, up to the types that they mention. -/
  kind : inst.kind.Alike m.type other.kind
  /-- The results have related types. -/
  type : m.type inst.type other.type
  /-- The operands are alike, one by one. -/
  operands : List.Forall₂ (Operand.Alike m) inst.operands other.operands
  /-- The results have the same name, or none has a name. -/
  name : other.name = inst.name
  /-- They stand in the same block. -/
  block : other.block = inst.block

/-- The blocks are the same, but for instructions that the first one does not have. -/
structure Block.Alike (m : Pairing) (block other : Block) : Prop where
  func : other.func = block.func
  label : other.label = block.label
  insts : Thinned m.inst m.dropped block.insts other.insts

structure Function.Alike (m : Pairing) (function other : Function) : Prop where
  name : other.name = function.name
  type : m.type function.type other.type
  args : other.args = function.args
  blocks : other.blocks = function.blocks

structure Arg.Alike (m : Pairing) (arg other : Arg) : Prop where
  func : other.func = arg.func
  number : other.number = arg.number
  type : m.type arg.type other.type
  name : other.name = arg.name

structure Global.Alike (m : Pairing) (global other : Global) : Prop where
  name : other.name = global.name
  type : m.type global.type other.type
  threadLocal : other.threadLocal = global.threadLocal
  init : Option.Rel m.constant global.init other.init

/-! ### Larger pairings

Everything is monotone in the pairing, and inherits from it that there is at most one counterpart.
-/

namespace TypeShape.Alike

variable {R S : TypeId → TypeId → Prop} {shape other third : TypeShape}

theorem imp (h : shape.Alike R other) (related : ∀ {a b}, R a b → S a b) : shape.Alike S other := by
  cases h with
  | void => exact .void
  | int bits => exact .int bits
  | ptr addrSpace => exact .ptr addrSpace
  | float kind => exact .float kind
  | func vararg params ret => exact .func vararg (params.imp fun _ _ => related) (related ret)
  | struct name packed hasBody fields =>
    exact .struct name packed hasBody (fields.imp fun _ _ => related)
  | array length elem => exact .array length (related elem)

theorem flip (h : shape.Alike R other) : other.Alike (fun b a => R a b) shape := by
  cases h with
  | void => exact .void
  | int bits => exact .int bits
  | ptr addrSpace => exact .ptr addrSpace
  | float kind => exact .float kind
  | func vararg params ret => exact .func vararg params.flip ret
  | struct name packed hasBody fields => exact .struct name packed hasBody fields.flip
  | array length elem => exact .array length elem

/-- What a shape contains is related one by one. -/
theorem children (h : shape.Alike R other) : List.Forall₂ R shape.children other.children := by
  cases h with
  | void | int | ptr | float => exact .nil
  | func _ params ret => exact .cons ret params
  | struct _ _ _ fields => exact fields
  | array _ elem => exact .cons elem .nil

theorem structName?_eq (h : shape.Alike R other) : other.structName? = shape.structName? := by
  cases h <;> rfl

theorem isVoid_eq (h : shape.Alike R other) : other.isVoid = shape.isVoid := by
  cases h <;> rfl

/-- There is one shape like another if there is one type like another. -/
theorem right_unique (unique : Relator.RightUnique R) (h : shape.Alike R other)
    (again : shape.Alike R third) : other = third := by
  cases h with
  | func vararg params ret =>
    cases again with
    | func _ params' ret' => rw [List.right_unique_forall₂' unique params params', unique ret ret']
  | struct name packed hasBody fields =>
    cases again with
    | struct _ _ _ fields' => rw [List.right_unique_forall₂' unique fields fields']
  | array length elem =>
    cases again with
    | array _ elem' => rw [unique elem elem']
  | _ => cases again; rfl

end TypeShape.Alike

section

variable {m larger : Pairing} (le : m.Le larger)
include le

/-- Constants stay alike while the pairing grows. -/
theorem Constant.Alike.mono {constant other : Constant} (h : constant.Alike m other) :
    constant.Alike larger other := by
  cases h with
  | int bits type => exact .int bits (le.type type)
  | float bits type => exact .float bits (le.type type)
  | null type => exact .null (le.type type)
  | undef type => exact .undef (le.type type)
  | aggregate type elems =>
    exact .aggregate (le.type type) (elems.imp fun _ _ => le.constant)
  | global related => exact .global (le.global related)
  | function known => exact .function (le.function known)

theorem Operand.Alike.mono {operand other : Operand} (h : operand.Alike m other) :
    operand.Alike larger other := by
  cases h with
  | const related => exact .const (le.constant related)
  | arg known => exact .arg (le.arg known)
  | inst related => exact .inst (le.value related)
  | block known => exact .block (le.block known)
  | text text => exact .text text

theorem InstKind.Alike.mono {kind other : InstKind} (h : kind.Alike m.type other) :
    kind.Alike larger.type other := by
  cases h with
  | alloca related => exact .alloca (le.type related)
  | getElementPtr related => exact .getElementPtr (le.type related)
  | plain none => exact .plain none

theorem Inst.Alike.mono {inst other : Inst} (h : inst.Alike m other) : inst.Alike larger other where
  kind := h.kind.mono le
  type := le.type h.type
  operands := h.operands.imp fun _ _ => .mono le
  name := h.name
  block := h.block

theorem Block.Alike.mono {block other : Block} (h : block.Alike m other) :
    block.Alike larger other where
  func := h.func
  label := h.label
  insts := h.insts.imp le.inst le.dropped

theorem Function.Alike.mono {function other : Function} (h : function.Alike m other) :
    function.Alike larger other where
  name := h.name
  type := le.type h.type
  args := h.args
  blocks := h.blocks

theorem Arg.Alike.mono {arg other : Arg} (h : arg.Alike m other) : arg.Alike larger other where
  func := h.func
  number := h.number
  type := le.type h.type
  name := h.name

theorem Global.Alike.mono {global other : Global} (h : global.Alike m other) :
    global.Alike larger other where
  name := h.name
  type := le.type h.type
  threadLocal := h.threadLocal
  init := optionRel_imp h.init le.constant

end

namespace Constant.Alike

variable {m : Pairing} {constant other third : Constant}

theorem type (basic : m.type .ptr .ptr) (h : constant.Alike m other) :
    m.type constant.type other.type := by
  cases h with
  | int _ type | float _ type | null type | undef type | aggregate type => exact type
  | global | function => exact basic

theorem right_unique (types : Relator.RightUnique m.type)
    (constants : Relator.RightUnique m.constant) (globals : Relator.RightUnique m.global)
    (h : constant.Alike m other) (again : constant.Alike m third) : other = third := by
  cases h with
  | int bits type => cases again with | int _ type' => rw [types type type']
  | float bits type => cases again with | float _ type' => rw [types type type']
  | null type => cases again with | null type' => rw [types type type']
  | undef type => cases again with | undef type' => rw [types type type']
  | aggregate type elems =>
    cases again with
    | aggregate type' elems' =>
      rw [types type type', List.right_unique_forall₂' constants elems elems']
  | global known => cases again with | global known' => rw [globals known known']
  | function => cases again; rfl

/-- And no two constants of the first program are like the same one. -/
theorem left_unique (types : Relator.LeftUnique m.type)
    (constants : Relator.LeftUnique m.constant) (globals : Relator.LeftUnique m.global)
    (h : constant.Alike m third) (again : other.Alike m third) : constant = other := by
  cases h with
  | int bits type => cases again with | int _ type' => rw [types type type']
  | float bits type => cases again with | float _ type' => rw [types type type']
  | null type => cases again with | null type' => rw [types type type']
  | undef type => cases again with | undef type' => rw [types type type']
  | aggregate type elems =>
    cases again with
    | aggregate type' elems' =>
      rw [types type type', List.left_unique_forall₂' constants elems elems']
  | global known => cases again with | global known' => rw [globals known known']
  | function => cases again; rfl

end Constant.Alike

theorem InstKind.Alike.isDebug_eq {R : TypeId → TypeId → Prop} {kind other : InstKind}
    (h : kind.Alike R other) : other.isDebug = kind.isDebug := by
  cases h <;> rfl

end IrStream
