import IrStream.Proofs.Reordering.Rounds
import IrStream.Proofs.Reordering.Structs

/-!
# No handle stands for two

Types with the same term, globals and functions with the same name, arguments with the same number
and constants that are made of them in the same way stand for each other one to one.  For constants
this is shown by following both of them down to their parts, which were interned before.

So two programs correspond if what is declared in them does, and if bodies of structs, initializers
and function bodies do (`Program.corresponds_of_parts`).

Each of the relations is symmetric when the two programs change places, so it is enough to show that
no handle of the first program stands for two of the second.  For names that is a look-up, and for
arguments counting.  For types it is the fact that an arena has no two types of the same term, which
is what interning sees to.  For constants there is an induction: two constants of the second program
that are made like one of the first have parts that are the same, by induction, so they are the same
entry, as no constant is stored twice.

Types need one more remark.  `Types.SameTerm` relates types that a text can spell, since it is used
of what was read; a program may have others, and the relation that all types are in is `SameType`.

## Statements

* `SameType.alike`: **types with the same term are alike**, if structs with the same name are.
* `rightUnique_sameConst`: **constants that are made in the same way are the same.**
* `oneToOne_matchingAll`: **no handle stands for two**, if no block and no instruction does.
* `corresponds_of_parts`: **programs correspond if their parts do.**
-/

set_option autoImplicit false

namespace IrStream

theorem BothOk.symm {ε α β : Type} {R : α → β → Prop} {answer : Except ε α} {answer' : Except ε β}
    (both : BothOk R answer answer') : BothOk (flip R) answer' answer := by
  obtain ⟨a, b, found, there, related⟩ := both
  exact ⟨b, a, there, found, related⟩

namespace Types

variable {left right left' right' : Types} {id other : TypeId}

/-- Handles of two arenas that have the same term, whether a text can spell it or not.  A struct
whose name no text can spell is among them, and then `SameTerm` would say too much. -/
structure SameType (left right : Types) (id other : TypeId) : Prop where
  has : left.Has id
  has' : right.Has other
  same : right.term other = left.term id

theorem SameTerm.sameType (same : SameTerm left right id other) : SameType left right id other :=
  ⟨same.has, same.has', same.same⟩

theorem SameTerm.symm (same : SameTerm left right id other) : SameTerm right left other id :=
  ⟨same.has', same.has, same.same.symm, same.same ▸ same.readable⟩

theorem biUnique_sameType (twins : left.Twins right) (known : left.LiteralsKnown)
    (known' : right.LiteralsKnown) : Relator.BiUnique (SameType left right) where
  left _ _ _ first second := twins.regular.eq_of_term_eq known second.has first.has
    (first.same.symm.trans second.same)
  right _ _ _ first second := twins.regular'.eq_of_term_eq known' second.has' first.has'
    (first.same.trans second.same.symm)

/-- Structs with the same name have the same term.  Both arenas know the same names. -/
theorem Twins.optionRel_named? (twins : left.Twins right) (name : String) :
    Option.Rel (SameType left right) (left.named? name) (right.named? name) := by
  refine optionRel_of_isSome (twins.names name).symm fun found there => ?_
  refine ⟨has_named? found, has_named? there, ?_⟩
  rw [twins.regular.term_of_named? found, twins.regular'.term_of_named? there]

/-- **Types with the same term are alike**, if structs with the same name are.  Without a name a
shape is determined by its parts, and with one by the name. -/
theorem SameType.alike (same : SameType left right id other) (twins : left.Twins right)
    (known : left.LiteralsKnown) (known' : right.LiteralsKnown) (named : NamedAlike left right) :
    BothOk (TypeShape.Alike (SameType left right)) (left.shape id) (right.shape other) := by
  obtain ⟨shape, found⟩ := same.has.exists_shape
  obtain ⟨shape', there⟩ := same.has'.exists_shape
  have terms := same.same
  rw [twins.regular.layered.term_of_shape found,
    twins.regular'.layered.term_of_shape there] at terms
  have names := TypeShape.structName?_of_termWith_eq terms
  cases name : shape.structName? with
  | some _ =>
    rw [name] at names
    exact (named (twins.regular.names found name) (twins.regular'.names there names)).imp
      fun alike => alike.imp_of_mem fun _ _ _ _ part => part.sameType
  | none =>
    rw [name] at names
    refine ⟨shape, shape', found, there, ?_⟩
    refine (TypeShape.alike_of_termWith_eq terms (known found name)
      (known' there names)).imp_of_mem fun child mem child' mem' same => ?_
    exact ⟨twins.regular.complete found child mem, twins.regular'.complete there child' mem', same⟩

end Types

namespace Program

variable {p q : Program}

/-! ## Names -/

theorem SameGlobal.symm {id other : GlobalId} (same : p.SameGlobal q id other) :
    q.SameGlobal p other id :=
  BothOk.symm same |>.imp Eq.symm

theorem SameFunction.symm {id other : FuncId} (same : p.SameFunction q id other) :
    q.SameFunction p other id :=
  BothOk.symm same |>.imp Eq.symm

theorem SameArg.symm {id other : ArgId} (same : p.SameArg q id other) : q.SameArg p other id :=
  BothOk.symm same |>.imp fun ⟨func, number⟩ => ⟨func.symm, number.symm⟩

theorem rightUnique_sameGlobal (built : q.Built) : Relator.RightUnique (p.SameGlobal q) := by
  rintro a b c ⟨global, global', found, there, name⟩ ⟨_, global'', again, there', name'⟩
  cases found.symm.trans again
  have first := (built.arranged.findGlobal _ b).mpr ⟨global', there, name⟩
  have second := (built.arranged.findGlobal _ c).mpr ⟨global'', there', name'⟩
  exact Option.some.inj (first.symm.trans second)

theorem rightUnique_sameFunction (built : q.Built) : Relator.RightUnique (p.SameFunction q) := by
  rintro a b c ⟨function, function', found, there, name⟩ ⟨_, function'', again, there', name'⟩
  cases found.symm.trans again
  have first := (built.arranged.findFunction _ b).mpr ⟨function', there, name⟩
  have second := (built.arranged.findFunction _ c).mpr ⟨function'', there', name'⟩
  exact Option.some.inj (first.symm.trans second)

/-- An argument is told by its function and its number.  Its name may be missing, and may change. -/
theorem rightUnique_sameArg (built : q.Built) : Relator.RightUnique (p.SameArg q) := by
  rintro a b c ⟨arg, arg', found, there, func, number⟩ ⟨_, arg'', again, there', func', number'⟩
  cases found.symm.trans again
  have same := rightUnique_sameFunction built func func'
  obtain ⟨function, _, _, _, owner, -, -, place⟩ := built.consistent.1.arg there
  obtain ⟨_, _, _, _, owner', -, -, place'⟩ := built.consistent.1.arg there'
  rw [same] at owner
  cases owner.symm.trans owner'
  rw [number] at place
  rw [number'] at place'
  exact Option.some.inj (place.symm.trans place')

/-! ## Constants

By induction on the first constant, whose parts were stored before it. -/

/-- Constants that are made in the same way are so in both directions.  By induction on how the
constant is made. -/
theorem SameConst.symm {id other : ConstId} (same : p.SameConst q id other) :
    q.SameConst p other id := by
  obtain ⟨R, related, step⟩ := same
  refine ⟨flip R, related, fun related => (step related).symm.imp fun {value value'} alike => ?_⟩
  cases alike with
  | int bits typed => exact .int bits typed.symm
  | float bits typed => exact .float bits typed.symm
  | null typed => exact .null typed.symm
  | undef typed => exact .undef typed.symm
  | aggregate typed parts => exact .aggregate typed.symm parts.flip
  | global related => exact .global related.symm
  | function related => exact .function related.symm

/-- **Constants that are made in the same way are the same.**  The arena holds each constant once,
so equal parts give equal handles. -/
theorem rightUnique_sameConst (twins : p.Twins q) (built : p.Built) (built' : q.Built) :
    Relator.RightUnique (p.SameConst q) := by
  have types : Relator.RightUnique (Types.SameTerm p.types q.types) := fun _ _ _ first second =>
    (Types.biUnique_sameType twins.types twins.known twins.known').2 first.sameType second.sameType
  intro a b c first second
  -- elements of an aggregate were interned before it
  induction bound : a.index using Nat.strong_induction_on generalizing a b c with
  | _ index ih =>
    subst bound
    obtain ⟨value, _, found, there, alike⟩ := first.bothOk .none
    obtain ⟨_, _, again, there', alike'⟩ := second.bothOk .none
    cases found.symm.trans again
    have same {value' : Constant} (there : q.constant b = .ok value')
        (there' : q.constant c = .ok value') : b = c := built'.canonical_constants there there'
    cases alike with
    | int bits typed =>
      cases alike' with
      | int _ typed' => exact same there (types typed' typed ▸ there')
    | float bits typed =>
      cases alike' with
      | float _ typed' => exact same there (types typed' typed ▸ there')
    | null typed =>
      cases alike' with
      | null typed' => exact same there (types typed' typed ▸ there')
    | undef typed =>
      cases alike' with
      | undef typed' => exact same there (types typed' typed ▸ there')
    | aggregate typed parts =>
      cases alike' with
      | aggregate typed' parts' =>
        have smaller : Relator.RightUnique fun x y => p.SameConst q x y ∧ x.index < a.index :=
          fun _ _ _ first second => ih _ first.2 first.1 second.1 rfl
        have below := built.constants found
        have elems := smaller.forall₂
          (forall₂_imp_of_mem parts' fun x mem _ _ same => ⟨same, below x mem⟩)
          (forall₂_imp_of_mem parts fun x mem _ _ same => ⟨same, below x mem⟩)
        exact same there (elems ▸ types typed' typed ▸ there')
    | global related =>
      cases alike' with
      | global related' =>
        exact same there (rightUnique_sameGlobal built' related' related ▸ there')
    | function related =>
      cases alike' with
      | function related' =>
        exact same there (rightUnique_sameFunction built' related' related ▸ there')

/-! ## All handles

Everything but blocks and instructions, which are one to one because they were made so. -/

theorem Twins.symm (twins : p.Twins q) : q.Twins p where
  types := ⟨twins.types.regular', twins.types.regular, fun name => (twins.types.names name).symm⟩
  known := twins.known'
  known' := twins.known
  globals name := (twins.globals name).symm
  functions name := (twins.functions name).symm

/-- What stands for each other if these blocks and instructions do, types that no text can spell
included.  It is what is used for the whole program, while bodies are compared with less. -/
def matchingAll (p q : Program) (locals : Locals) : Correspondence :=
  { p.matching q locals with type := Types.SameType p.types q.types }

/-- **No handle stands for two**, if no block and no instruction does.  Everything but blocks and
instructions is determined by names, numbers and terms. -/
theorem oneToOne_matchingAll (twins : p.Twins q) (built : p.Built) (built' : q.Built)
    {locals : Locals} (block : Relator.BiUnique locals.block)
    (inst : Relator.BiUnique locals.inst) : (p.matchingAll q locals).OneToOne where
  type := Types.biUnique_sameType twins.types twins.known twins.known'
  constant := ⟨fun _ _ _ first second =>
    rightUnique_sameConst twins.symm built' built first.symm second.symm,
    rightUnique_sameConst twins built built'⟩
  global := ⟨fun _ _ _ first second => rightUnique_sameGlobal built first.symm second.symm,
    rightUnique_sameGlobal built'⟩
  function := ⟨fun _ _ _ first second => rightUnique_sameFunction built first.symm second.symm,
    rightUnique_sameFunction built'⟩
  arg := ⟨fun _ _ _ first second => rightUnique_sameArg built first.symm second.symm,
    rightUnique_sameArg built'⟩
  block := block
  inst := inst

/-! ## Parts -/

/-- Pairs that belong to different owners do not get in each other's way.  It is used for blocks
with functions as owners, and for instructions. -/
theorem biUnique_of_owned {ι κ α β : Type} {same : ι → κ → Prop} {R : ι → κ → α → β → Prop}
    {owner : α → Except Dangling ι} {owner' : β → Except Dangling κ}
    (unique : Relator.BiUnique same)
    (each : ∀ {i k}, same i k → Relator.BiUnique (R i k))
    (owned : ∀ {i k a b}, same i k → R i k a b → owner a = .ok i ∧ owner' b = .ok k) :
    Relator.BiUnique fun a b => ∃ i k, same i k ∧ R i k a b := by
  constructor
  · rintro a b c ⟨i, k, related, first⟩ ⟨j, l, related', second⟩
    obtain rfl : k = l :=
      Except.ok.inj ((owned related first).2.symm.trans (owned related' second).2)
    obtain rfl := unique.1 related related'
    exact (each related).1 first second
  · rintro a b c ⟨i, k, related, first⟩ ⟨j, l, related', second⟩
    obtain rfl : i = j :=
      Except.ok.inj ((owned related first).1.symm.trans (owned related' second).1)
    obtain rfl := unique.2 related related'
    exact (each related).2 first second

namespace SameBody

variable {locals : Locals} {f g : FuncId} (body : SameBody locals f g p q)
include body

theorem owner_block {id other : BlockId} (related : locals.block id other) :
    (p.block id).map (·.func) = .ok f ∧ (q.block other).map (·.func) = .ok g := by
  obtain ⟨block, block', found, there, ⟨func, func'⟩, -⟩ := body.block related
  rw [found, there]
  exact ⟨congrArg Except.ok func, congrArg Except.ok func'⟩

theorem owner_inst {id other : InstId} (related : locals.inst id other) :
    p.ownerOfInst id = .ok f ∧ q.ownerOfInst other = .ok g := by
  obtain ⟨inst, inst', found, there, alike⟩ := body.inst related
  obtain ⟨block, block', holder, holder', ⟨func, func'⟩, -⟩ := body.block alike.block
  exact ⟨ownerOfInst_eq_ok_iff.mpr ⟨inst, block, found, holder, func⟩,
    ownerOfInst_eq_ok_iff.mpr ⟨inst', block', there, holder', func'⟩⟩

end SameBody

/-- The blocks and instructions that stand for each other in functions with the same name.  Each
function brings its own correspondence, and these are put together. -/
def localsOf (p q : Program) (locals : FuncId → FuncId → Locals) : Locals where
  block id other := ∃ f g, p.SameFunction q f g ∧ (locals f g).block id other
  inst id other := ∃ f g, p.SameFunction q f g ∧ (locals f g).inst id other

theorem matching_le_localsOf (locals : FuncId → FuncId → Locals) {f g : FuncId}
    (same : p.SameFunction q f g) :
    (p.matching q (locals f g)).Le (p.matchingAll q (p.localsOf q locals)) where
  type := Types.SameTerm.sameType
  constant := id
  global := id
  function := id
  arg := id
  block related := ⟨f, g, same, related⟩
  inst related := ⟨f, g, same, related⟩

/-- **Programs correspond if their parts do**: what is declared, the bodies of structs, the
initializers of globals and the bodies of functions.  This is the last step: all parts are known by
then, each for itself. -/
theorem corresponds_of_parts (declared : p.Declared q) (built : p.Built) (built' : q.Built)
    (named : Types.NamedAlike p.types q.types)
    (inits : ∀ {id other}, p.SameGlobal q id other → Loader.SameInit p q id other)
    (bodies : ∀ {f g}, p.SameFunction q f g → ∃ locals, SameBody locals f g p q) :
    ∃ locals, p.Corresponds (p.matchingAll q locals) q := by
  have bodies (f g : FuncId) :
      ∃ locals, p.SameFunction q f g → SameBody locals f g p q := by
    by_cases same : p.SameFunction q f g
    · obtain ⟨locals, body⟩ := bodies same
      exact ⟨locals, fun _ => body⟩
    · exact ⟨.none, fun related => absurd related same⟩
  -- from here on there are locals for every pair of functions, and each body uses its own
  choose locals bodies using bodies
  have twins := declared.twins
  have functions : Relator.BiUnique (p.SameFunction q) :=
    ⟨fun _ _ _ first second => rightUnique_sameFunction built first.symm second.symm,
      rightUnique_sameFunction built'⟩
  refine ⟨p.localsOf q locals, ?_⟩
  exact {
    oneToOne := oneToOne_matchingAll twins built built'
      (biUnique_of_owned functions (fun same => (bodies _ _ same).uniqueBlock)
        fun same => (bodies _ _ same).owner_block)
      (biUnique_of_owned functions (fun same => (bodies _ _ same).uniqueInst)
        fun same => (bodies _ _ same).owner_inst)
    type := fun same => same.alike twins.types twins.known twins.known' named
    constant := fun same => (same.bothOk .none).imp fun alike =>
      alike.imp Types.SameTerm.sameType id id id
    global := fun same => by
      obtain ⟨global, global', found, there, type, threadLocal⟩ := declared.global same
      exact ⟨global, global', found, there, same.of_ok found there, type.sameType, threadLocal,
        (inits same).of_ok found there⟩
    function := fun {f g} same => by
      obtain ⟨function, function', found, there, type, args⟩ := declared.function same
      obtain ⟨name, blocks⟩ := (bodies f g same).function.of_ok found there
      exact ⟨function, function', found, there, name, type.sameType, args,
        blocks.imp fun _ _ related => ⟨f, g, same, related⟩⟩
    arg := fun same => by
      obtain ⟨arg, arg', found, there, type, name⟩ := declared.arg same
      obtain ⟨func, number⟩ := same.of_ok found there
      exact ⟨arg, arg', found, there, func, number, type.sameType, name⟩
    -- a block belongs to one pair of functions, so the locals of this pair decide about it
    block := by
      rintro id other ⟨f, g, same, related⟩
      refine ((bodies f g same).block related).imp ?_
      rintro block block' ⟨⟨rfl, rfl⟩, label, insts⟩
      exact ⟨same, label, insts.imp fun _ _ related => ⟨_, _, same, related⟩⟩
    inst := by
      rintro id other ⟨f, g, same, related⟩
      exact ((bodies f g same).inst related).imp (.mono (matching_le_localsOf locals same)) }

end Program

end IrStream
