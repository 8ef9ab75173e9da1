import IrStream.Proofs.Encode.Registration
import IrStream.Proofs.Program.Calls
import IrStream.Proofs.Program.Layered
import IrStream.Proofs.Program.Text
import IrStream.Proofs.Types.Extent
import IrStream.Proofs.Types.Legible

/-!
# Recursions over programs end

Texts of types and of constants, the test for containment, and layouts are computed from what they
are for the parts.  Each of these recursions goes down an order of its own:

* The text of a type goes from a type without a name to the types it is made of, which were stored
  before it.  A named struct is only its name, so types that reach themselves through one have a
  text (`Types.Layered.terminates_text`).
* Containment and layout go from a type to the types of its fields or elements.  These may have
  been stored later, and get another body later; but no type contains itself
  (`Types.Acyclic.terminates_contains`, `Types.Acyclic.terminates_extent`).
* The text of an aggregate goes to its elements, which were stored before it
  (`Program.terminates_constantBody`).

`Terminates` says of such a recursion that its order has no endless way down, so that its equation
has one solution, and that this is what the functions answer: they count down from a depth that is
never used up.  `Program.Recursions` is all four of them, and `Program.Answers` that with handles of
the program no query comes upon one outside an arena.

The functions have a bound for their depth because they have to be defined for every program, and in
some programs a type does contain itself.  If the bound were used up, they would answer something
that means nothing.  So that they end is no statement at all; the statement is that the bound has no
influence.  It is proved from a *height* of each thing, a number that gets smaller with each step of
the recursion and is below the bound (`Terminates.of_heights`).  A recursion that never goes deeper
than a height has the same answer with every bound above it, and satisfies the equation without a
bound.

Heights are read off the program.  For texts it is the handle itself, since parts are stored first.
For containment and layouts handles are of no use, as a body comes later than its struct; there it
is the number of types that a type contains, which is less for each of its parts.
-/

set_option autoImplicit false

namespace IrStream

/-! ## Recursions with a bound on their depth

Nothing in this section is about programs. -/

section

variable {α β : Type}

/-- The recursion `layer` goes from a thing to those below it.  Its answers are `value`, and
`within` are those it gets to with a bound on the depth. -/
structure Terminates (below : α → α → Prop) (layer : (α → β) → α → β) (within : Nat → α → β)
    (value : α → β) : Prop where
  /-- There is no endless way down. -/
  wellFounded : WellFounded fun part whole => below whole part
  /-- A layer asks for nothing but what is below. -/
  congr : ∀ {first second : α → β} {a : α},
    (∀ part, below a part → first part = second part) → layer first a = layer second a
  /-- More depth is one more layer. -/
  step : ∀ depth a, within (depth + 1) a = layer (within depth) a
  /-- The answers are answers of the recursion. -/
  value_eq : ∀ a, value a = layer value a
  /-- The recursion has no other answers. -/
  unique : ∀ {other : α → β}, (∀ a, other a = layer other a) → other = value
  /-- The depth that is counted down from is not used up, so more of it changes nothing. -/
  enough : ∃ limit, within limit = value ∧ ∀ depth, limit ≤ depth → within depth = value

namespace Terminates

variable {below : α → α → Prop} {layer : (α → β) → α → β} {within : Nat → α → β}

/-- A recursion that goes down a well-founded order has one solution. -/
theorem eq_of_layers
    (congr : ∀ {first second : α → β} {a : α},
      (∀ part, below a part → first part = second part) → layer first a = layer second a)
    (wellFounded : WellFounded fun part whole => below whole part)
    {first second : α → β} (fixed : ∀ a, first a = layer first a)
    (fixed' : ∀ a, second a = layer second a) : first = second := by
  funext a
  induction a using wellFounded.induction with
  | _ a ih => rw [fixed, fixed', congr ih]

section

variable {Deep : Nat → α → Prop}
  (drops : ∀ {height a part}, Deep height a → below a part → ∃ lower < height, Deep lower part)
include drops

theorem acc_of_heights {height : Nat} {a : α} (here : Deep height a) :
    Acc (fun part whole => below whole part) a := by
  induction height using Nat.strong_induction_on generalizing a with
  | _ height ih =>
    refine ⟨a, fun part step => ?_⟩
    obtain ⟨lower, less, there⟩ := drops here step
    exact ih lower less there

variable (congr : ∀ {first second : α → β} {a : α},
    (∀ part, below a part → first part = second part) → layer first a = layer second a)
  (step : ∀ depth a, within (depth + 1) a = layer (within depth) a)
include congr step

/-- Depth beyond the height of a thing changes nothing. -/
theorem within_eq_of_heights {height : Nat} {a : α} (here : Deep height a) {depth more : Nat}
    (enough : height < depth) (enough' : height < more) : within depth a = within more a := by
  induction height using Nat.strong_induction_on generalizing a depth more with
  | _ height ih =>
    obtain ⟨depth, rfl⟩ := Nat.exists_eq_add_one_of_ne_zero (Nat.ne_zero_of_lt enough)
    obtain ⟨more, rfl⟩ := Nat.exists_eq_add_one_of_ne_zero (Nat.ne_zero_of_lt enough')
    rw [step, step]
    refine congr fun part below => ?_
    obtain ⟨lower, less, there⟩ := drops here below
    exact ih lower less there (by omega) (by omega)

variable (Deep) in
/-- A recursion goes down if each step lowers a height, and none is above the depth it is given. -/
theorem of_heights {most limit : Nat} (all : ∀ a, Deep most a) (low : most < limit) :
    Terminates below layer within (within limit) := by
  have wellFounded : WellFounded fun part whole => below whole part :=
    ⟨fun a => acc_of_heights @drops (all a)⟩
  have more {depth : Nat} (enough : limit ≤ depth) : within depth = within limit :=
    funext fun a => within_eq_of_heights @drops @congr step (all a)
      (Nat.lt_of_lt_of_le low enough) low
  have value_eq (a : α) : within limit a = layer (within limit) a := by
    rw [← step, more (Nat.le_succ limit)]
  exact {
    wellFounded := wellFounded
    congr := congr
    step := step
    value_eq := value_eq
    unique := fun fixed => eq_of_layers @congr wellFounded fixed value_eq
    enough := ⟨limit, rfl, fun _ => more⟩ }

end

end Terminates

end

theorem anyM_congr {ε α : Type} {first second : α → Except ε Bool} {list : List α}
    (same : ∀ a ∈ list, first a = second a) : list.anyM first = list.anyM second := by
  induction list with
  | nil => rfl
  | cons a rest ih =>
    rw [List.anyM, List.anyM, same a List.mem_cons_self,
      ih fun other mem => same other (List.mem_cons_of_mem a mem)]

theorem mapM_congr {ε α β : Type} {first second : α → Except ε β} {list : List α}
    (same : ∀ a ∈ list, first a = second a) : list.mapM first = list.mapM second := by
  induction list with
  | nil => rfl
  | cons a rest ih =>
    rw [List.mapM_cons, List.mapM_cons, same a List.mem_cons_self,
      ih fun other mem => same other (List.mem_cons_of_mem a mem)]

namespace Types

variable {types : Types}

/-! ## Texts of types

The way down ends at named structs, which are shown by name. -/

/-- The text of a type has the text of a part in it. -/
def Shows (types : Types) (outer part : TypeId) : Prop :=
  ∃ shape, types.shape outer = .ok shape ∧ shape.structName? = none ∧ part ∈ shape.children

/-- The text of a type, from the texts of its parts. -/
def textLayer (types : Types) (text : TypeId → String) (id : TypeId) : String :=
  match types.shape? id with
  | none => badText id
  | some shape => shape.textWith text

theorem Layered.index_lt (layered : types.Layered) {outer part : TypeId}
    (shows : types.Shows outer part) : part.index < outer.index := by
  obtain ⟨shape, found, unnamed, mem⟩ := shows
  exact layered found unnamed part mem

/-- A type without a name is stored behind its parts. -/
theorem Layered.terminates_text (layered : types.Layered) :
    Terminates types.Shows types.textLayer types.textWithin types.text := by
  refine .of_heights (fun height id => types.Has id → id.index ≤ height) ?_ ?_ ?_
    (fun id has => Nat.le_of_lt has) (Nat.lt_succ_self types.size)
  · intro height outer part most shows
    obtain ⟨shape, found, -⟩ := id shows
    have less := layered.index_lt shows
    exact ⟨part.index, less.trans_le (most (has_of_shape found)), fun _ => Nat.le_refl _⟩
  · intro first second id same
    rw [textLayer, textLayer]
    cases found : types.shape? id with
    | none => rfl
    | some shape =>
      exact textWith_congr fun unnamed part mem =>
        same part ⟨shape, shape_eq_ok_iff.mpr found, unnamed, mem⟩
  · intro depth id
    rw [textLayer]
    cases found : types.shape? id with
    | none => rw [textWithin, found]
    | some shape => exact textWithin_succ_of_shape (shape_eq_ok_iff.mpr found) depth

/-! ## Containment

A type that contains another one contains all that this one does, and itself not. -/

/-- Whether a type contains another, from whether its parts do. -/
def containsLayer (types : Types) (inner : TypeId) (contains : TypeId → Except Dangling Bool)
    (outer : TypeId) : Except Dangling Bool :=
  if outer = inner then .ok true
  else do
    match ← types.shape outer with
    | .struct shape => shape.fields.anyM contains
    | .array elem _ => contains elem
    | _ => return false

/-- No type contains all types, as none contains itself. -/
theorem Acyclic.height_lt_size (acyclic : types.Acyclic) (some : 0 < types.size) (id : TypeId) :
    types.height id < types.size := by
  by_cases has : types.Has id
  · have apart : (⟨id.index, has⟩ : Fin types.size) ∉ types.below id :=
      fun mem => acyclic id (mem_below.mp mem)
    have fewer := Finset.card_lt_univ_of_notMem apart
    rwa [Fintype.card_fin] at fewer
  · have none : types.below id = ∅ := by
      refine Finset.eq_empty_of_forall_notMem fun index mem => ?_
      obtain ⟨part, holds, -⟩ := Relation.TransGen.head'_iff.mp (mem_below.mp mem)
      exact has holds.has
    rwa [height, none]

/-- A part contains fewer types than the whole. -/
theorem Acyclic.exists_lower (acyclic : types.Acyclic) (complete : types.Complete) {height : Nat}
    {outer part : TypeId} (most : types.height outer ≤ height) (holds : types.Holds outer part) :
    ∃ lower < height, types.height part ≤ lower :=
  ⟨types.height part, (acyclic.height_lt complete holds).trans_le most, Nat.le_refl _⟩

/-- Whether one type contains another is decided by its parts. -/
theorem Acyclic.terminates_contains (acyclic : types.Acyclic) (complete : types.Complete)
    (some : 0 < types.size) (inner : TypeId) :
    Terminates types.Holds (types.containsLayer inner) (types.containsWithin inner)
      (types.containsByValue · inner) := by
  refine .of_heights (fun height id => types.height id ≤ height)
    (fun most holds => acyclic.exists_lower complete most holds) ?_ ?_
    (fun id => Nat.le_pred_of_lt (acyclic.height_lt_size some id)) (Nat.pred_lt_of_lt some)
  · intro first second outer same
    rw [containsLayer, containsLayer]
    split
    · rfl
    · cases found : types.shape outer with
      | error handle => rfl
      | ok shape =>
        cases shape with
        | struct shape => exact anyM_congr fun part mem => same part ⟨_, found, mem⟩
        | array elem length => exact same elem ⟨_, found, List.mem_cons_self⟩
        | _ => rfl
  · exact fun depth outer => rfl

/-! ## Layouts

The order is the one of containment: a layout needs the extents of the fields and elements. -/

/-- The extent of a type, from the extents of its parts. -/
def extentLayer (types : Types) (target : DataLayout) (extent : TypeId → Extent) (id : TypeId) :
    Extent :=
  match types.shape id with
  | .error handle => .missing (.dangling handle)
  | .ok .void => .missing .unsized
  | .ok (.int bits) => .scalar (intBytes bits) (intAlign (intBytes bits))
  | .ok (.ptr addrSpace) =>
    let bytes := (target.pointerBytes addrSpace).toNat
    .scalar bytes bytes
  | .ok (.float kind) => .scalar kind.bytes kind.align
  | .ok (.func ..) => .missing .unsized
  | .ok (.struct shape) => .ofLayout (layoutWith extent shape)
  | .ok (.array elem length) => (extent elem).times length.toNat

/-- Extents are computed from the extents of parts. -/
theorem Acyclic.terminates_extent (acyclic : types.Acyclic) (complete : types.Complete)
    (target : DataLayout) :
    Terminates types.Holds (types.extentLayer target) (types.extentWithin target)
      (types.extent target) := by
  refine .of_heights (fun height id => types.height id ≤ height)
    (fun most holds => acyclic.exists_lower complete most holds) ?_ ?_ types.height_le
    (Nat.lt_succ_self types.size)
  · intro first second id same
    rw [extentLayer, extentLayer]
    cases found : types.shape id with
    | error handle => rfl
    | ok shape =>
      cases shape with
      | struct shape =>
        have fields : shape.fields.map first = shape.fields.map second :=
          List.map_congr_left fun part mem => same part ⟨_, found, mem⟩
        dsimp only
        rw [layoutWith, layoutWith, fields]
      | array elem length =>
        exact congrArg (Extent.times · length.toNat) (same elem ⟨_, found, List.mem_cons_self⟩)
      | _ => rfl
  · exact fun depth id => rfl

end Types

/-! ## Texts of constants -/

namespace Program

variable {program : Program}

/-- The text of an aggregate has the text of an element in it. -/
def HasElem (program : Program) (whole part : Constant) : Prop :=
  ∃ type elems id, whole = .aggregate type elems ∧ id ∈ elems ∧ program.constant id = .ok part

/-- The text of a constant, from the texts of its elements. -/
def bodyLayer (program : Program) (body : Constant → Except Dangling String) :
    Constant → Except Dangling String
  | .aggregate type elems => do
    let isArray := match ← program.types.shape type with
      | .array .. => true
      | _ => false
    let texts ← elems.mapM fun id => do
      let elem ← program.constant id
      return program.types.text elem.type ++ " " ++ (← body elem)
    return aggregateText isArray texts
  | constant => program.constantBodyWithin 0 constant

theorem Built.index_lt_of_aggregate (built : program.Built) {id elem : ConstId} {type : TypeId}
    {elems : List ConstId} (found : program.constant id = .ok (.aggregate type elems))
    (mem : elem ∈ elems) : elem.index < id.index :=
  built.constants found elem mem

/-- An aggregate is stored behind its elements. -/
theorem terminates_constantBody (built : program.Built) :
    Terminates program.HasElem program.bodyLayer program.constantBodyWithin
      program.constantBody := by
  -- a constant that is not stored is as deep as its last element
  refine .of_heights (fun height constant => ∀ type elems, constant = .aggregate type elems →
    ∀ elem ∈ elems, elem.index < program.constants.size → elem.index < height) ?_ ?_ ?_
    (fun _ _ _ _ _ _ bound => bound) (Nat.lt_succ_self program.constants.size)
  · rintro height _ part deep ⟨type, elems, id, rfl, mem, found⟩
    have bound : id.index < program.constants.size :=
      (Array.getElem?_eq_some_iff.mp (constant_eq_ok_iff.mp found)).1
    refine ⟨id.index, deep type elems rfl id mem bound, ?_⟩
    rintro type elems rfl elem mem -
    exact built.index_lt_of_aggregate found mem
  · intro first second constant same
    cases constant with
    | aggregate type elems =>
      have texts : (elems.mapM fun id => do
          let elem ← program.constant id
          return program.types.text elem.type ++ " " ++ (← first elem))
        = elems.mapM fun id => do
          let elem ← program.constant id
          return program.types.text elem.type ++ " " ++ (← second elem) := by
        refine mapM_congr fun id mem => ?_
        cases found : program.constant id with
        | error handle => rfl
        | ok elem =>
          exact congrArg (fun body => do return program.types.text elem.type ++ " " ++ (← body))
            (same elem ⟨type, elems, id, rfl, mem, found⟩)
      rw [bodyLayer, bodyLayer, texts]
    | _ => rfl
  · intro depth constant
    cases constant <;> rfl

/-! ## Programs -/

/-- The recursions over a program go down, each in its own order. -/
structure Recursions (program : Program) : Prop where
  /-- The text of a type, over the types that it shows. -/
  text : Terminates program.types.Shows program.types.textLayer program.types.textWithin
    program.types.text
  /-- What the text of a type shows was stored before the type. -/
  shows : ∀ {outer part}, program.types.Shows outer part → part.index < outer.index
  /-- Containment by value, over parts. -/
  contains : ∀ inner, Terminates program.types.Holds (program.types.containsLayer inner)
    (program.types.containsWithin inner) (program.types.containsByValue · inner)
  /-- Extents, over parts as well. -/
  layout : ∀ target, Terminates program.types.Holds (program.types.extentLayer target)
    (program.types.extentWithin target) (program.types.extent target)
  /-- The text of a constant, over elements. -/
  constant : Terminates program.HasElem program.bodyLayer program.constantBodyWithin
    program.constantBody
  /-- The elements of an aggregate were stored before it. -/
  elems : ∀ {id type elems}, program.constant id = .ok (.aggregate type elems) →
    ∀ elem ∈ elems, elem.index < id.index

/-- Each query about a handle of the program has an answer. -/
structure Answers (program : Program) : Prop where
  /-- Types have texts that are made of those of their parts. -/
  text : ∀ {id}, program.types.Has id → ∃ shape, program.types.shape id = .ok shape
    ∧ program.types.text id = shape.textWith program.types.text
  /-- Whether a type contains another one is decided. -/
  contains : ∀ {outer}, program.types.Has outer → ∀ inner,
    ∃ answer, program.types.containsByValue outer inner = .ok answer
  /-- Whether a type has an alignment is answered for every target. -/
  align : ∀ {id}, program.types.Has id → ∀ target,
    ∃ align?, program.types.abiAlign? target id = .ok align?
  /-- Whether a type has a size is answered for every target. -/
  size : ∀ {id}, program.types.Has id → ∀ target,
    ∃ size?, program.types.allocSize? target id = .ok size?
  /-- Whether a value of the type can be stored is answered for every target. -/
  store : ∀ {id}, program.types.Has id → ∀ target,
    ∃ size?, program.types.storeSize? target id = .ok size?
  /-- Whether a type is laid out as a struct is answered for every target. -/
  layout : ∀ {id}, program.types.Has id → ∀ target,
    ∃ layout?, program.types.structLayout? target id = .ok layout?
  /-- Constants have texts, also those that are not stored. -/
  constant : ∀ {constant : Constant}, constant.InRange program →
    ∃ text, program.constantText constant = .ok text
  /-- Constants that are stored have texts. -/
  stored : ∀ {id : ConstId}, id.index < program.constants.size →
    ∃ constant text, program.constant id = .ok constant ∧ program.constantText constant = .ok text
  /-- Operands have texts. -/
  operand : ∀ {operand : Operand}, operand.InRange program →
    ∃ text, program.operandText operand = .ok text
  /-- Instructions have texts. -/
  inst : ∀ {id : InstId}, id.index < program.insts.size → ∃ text, program.instText id = .ok text

/-- The recursions of a built program, each with the measure that goes down in it. -/
theorem Built.recursions (built : program.Built) : program.Recursions := by
  have regular := built.types.regular
  have acyclic := built.types.acyclic
  exact {
    text := regular.layered.terminates_text
    shows := regular.layered.index_lt
    contains := acyclic.terminates_contains regular.complete
      (Nat.lt_of_le_of_lt (Nat.zero_le _) regular.has_ptr)
    layout := acyclic.terminates_extent regular.complete
    constant := terminates_constantBody built
    elems := fun found _ mem => built.index_lt_of_aggregate found mem }

/-- All queries answer in a built program: every handle in an entry is good, so no look-up can fail.
-/
theorem Built.answers (built : program.Built) : program.Answers := by
  have complete := built.complete
  exact {
    text := fun has => by
      obtain ⟨shape, found⟩ := has.exists_shape
      exact ⟨shape, found, built.types.regular.layered.text_of_shape found⟩
    contains := fun has inner => by
      obtain ⟨answer, tested, -⟩ :=
        complete.types.containsByValue_eq built.types.acyclic has inner
      exact ⟨answer, tested⟩
    align := fun has target => complete.types.abiAlign?_eq_ok has
    size := fun has target => complete.types.allocSize?_eq_ok has
    store := fun has target => complete.types.storeSize?_eq_ok has
    layout := fun has target => complete.types.structLayout?_eq_ok has
    constant := complete.exists_constantText
    stored := fun bound => by
      obtain ⟨constant, found⟩ := exists_constant bound
      obtain ⟨text, shown⟩ := complete.exists_constantText (complete.constant found)
      exact ⟨constant, text, found, shown⟩
    operand := complete.exists_operandText
    inst := fun bound => by
      obtain ⟨inst, found⟩ := exists_inst bound
      exact complete.exists_instText built.consistent.1 found }

end Program

/-- **Every recursion ends.**  After any calls with handles that a program gave out, whether or not
the calls succeeded, each recursion over the program goes down its order and has the one solution
that the program answers with; and queries about handles of the program come upon none outside an
arena. -/
theorem recursions_of_run {layout : DataLayout} {calls : List Call} {workspace : Workspace}
    (run : (Workspace.empty layout).Run calls workspace) :
    workspace.program.Recursions ∧ workspace.program.Answers :=
  have built := (run.built (.empty layout) (Workspace.indexed_empty layout)).1
  ⟨built.recursions, built.answers⟩

/-- A table of methods which take the table, `%Methods = type \x7b [2 x i32 (%Methods)] \x7d`, and a
body that it may not have, as it would be inside itself.  The last constant is an array in an
array. -/
def Call.methods : List Call :=
  [.internType (.struct ⟨some "Methods", [], false, false⟩),
    .internType (.func [⟨6⟩] .i32 false), .internType (.array ⟨7⟩ 2),
    .setStructBody ⟨6⟩ [⟨8⟩] false, .setStructBody ⟨6⟩ [⟨6⟩] false,
    .internType (.array .ptr 2), .internType (.array ⟨9⟩ 1), .internConstant (.null .ptr),
    .internConstant (.aggregate ⟨9⟩ [⟨0⟩, ⟨0⟩]), .internConstant (.aggregate ⟨10⟩ [⟨1⟩])]

/-- The workspace that these calls leave. -/
def Workspace.tabled : Workspace :=
  Call.methods.foldl (fun workspace call => (call.perform.run.run workspace).2) (.empty .standard)

theorem Workspace.run_methods : (empty .standard).Run Call.methods tabled := by
  refine .cons ?_ (.cons ?_ (.cons ?_ (.cons ⟨?_, ?_⟩ (.cons ⟨?_, ?_⟩ (.cons ?_ (.cons ?_
    (.cons (show Types.Has _ .ptr from ?_) (.cons ⟨?_, ?_⟩ (.cons ⟨?_, ?_⟩ (.nil _))))))))))
  all_goals try unfold Call.InRange
  all_goals decide +kernel

/-- The struct can be reached from itself, and all has an answer. -/
theorem recursions_of_run_methods :
    (Workspace.empty .standard).Run Call.methods Workspace.tabled
      ∧ Relation.TransGen Workspace.tabled.program.types.Refers ⟨6⟩ ⟨6⟩
      ∧ Workspace.tabled.program.Recursions ∧ Workspace.tabled.program.Answers
      ∧ Workspace.tabled.program.types.text ⟨8⟩ = "[2 x i32 (%Methods)]"
      ∧ Workspace.tabled.program.constantText (.aggregate ⟨10⟩ [⟨1⟩])
        = .ok "[1 x [2 x ptr]] [[2 x ptr] [ptr null, ptr null]]" := by
  have field : Workspace.tabled.program.types.Refers ⟨6⟩ ⟨8⟩ :=
    ⟨[⟨8⟩], by decide +kernel, List.mem_cons_self⟩
  have element : Workspace.tabled.program.types.Refers ⟨8⟩ ⟨7⟩ :=
    ⟨[⟨7⟩], by decide +kernel, List.mem_cons_self⟩
  have parameter : Workspace.tabled.program.types.Refers ⟨7⟩ ⟨6⟩ :=
    ⟨[.i32, ⟨6⟩], by decide +kernel, List.mem_cons_of_mem _ List.mem_cons_self⟩
  obtain ⟨recursions, answers⟩ := recursions_of_run Workspace.run_methods
  exact ⟨Workspace.run_methods, .head field (.head element (.single parameter)), recursions,
    answers, by decide +kernel, by decide +kernel⟩

end IrStream
