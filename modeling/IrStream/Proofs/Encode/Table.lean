import IrStream.Encode.Table
import IrStream.Proofs.Program.Lookup
import Mathlib.Data.Finset.Card
import Mathlib.Tactic.Tauto

/-!
# Tables only grow

`Table.Grows` says that one table is another with entries appended.  A position that the shorter
table gives is then a position of the longer one (`Table.Grows.position?`), which is why a stream
may use a position before the table it points into is complete.

Registering a type does more than grow the type table: afterwards everything that a new entry
contains is in the table too, so that a table that began with this property (`Types.Closed`) has it
again.  The recursion of `Types.register` inserts before it descends, and each descent therefore
leaves one type less to register; this is what bounds its depth by the arena.  What it appends are
the types in the order of their first visits (`Types.Visits`, `registerWithin_visits`).

## The depth of the recursion

Types may contain themselves by way of functions and pointers, so the recursion does not go down any
structure.  It has a bound for its depth, and the bound has to be shown to be enough.  The measure
is `Types.unregistered`, the set of types that are in the arena and not in the table.

* Registering a new type takes it out of that set, *before* its parts are looked at
  (`card_unregistered_insert_lt`), and nothing ever puts one back.
* So as long as the depth is larger than the set, one step down leaves it larger
  (`registerWithin_visits`), and it is larger at the beginning, as the set is a part of the arena.
* Any two depths that are enough give the same table (`registerWithin_eq`).  So the bound is no part
  of what registering does.

`Types.Visits` describes the run without depth and without tables.  It is inductive on the types
that are still to be visited, as the recursion is, and proofs about the outcome are inductions on
it.
-/

set_option autoImplicit false

namespace IrStream

namespace Table

variable {α : Type}

instance : Membership α (Table α) where
  mem table key := key ∈ table.toList

theorem mem_def {table : Table α} {key : α} : key ∈ table ↔ key ∈ table.toList := Iff.rfl

/-- The second table is the first with entries appended. -/
def Grows (table larger : Table α) : Prop :=
  table.toList <+: larger.toList

/-- No key has two positions. -/
def Distinct (table : Table α) : Prop :=
  table.toList.Nodup

theorem Grows.refl (table : Table α) : table.Grows table :=
  List.prefix_refl _

theorem Grows.trans {table larger largest : Table α} (first : table.Grows larger)
    (second : larger.Grows largest) : table.Grows largest :=
  List.IsPrefix.trans first second

theorem Grows.mem {table larger : Table α} (grows : table.Grows larger) {key : α}
    (h : key ∈ table) : key ∈ larger :=
  grows.subset h

@[simp] theorem not_mem_empty {key : α} : key ∉ (empty : Table α) := by
  simp [mem_def, toList, empty]

theorem length_toList (table : Table α) : table.toList.length = table.size := by
  simp [toList, size]

theorem getElem?_toList (table : Table α) (index : Nat) :
    table.toList[index]? = table.get? index := by
  simp [toList, get?]

variable [DecidableEq α]

instance (key : α) (table : Table α) : Decidable (key ∈ table) :=
  inferInstanceAs (Decidable (key ∈ table.toList))

theorem position?_eq_findIdx? (table : Table α) (key : α) :
    table.position? key = table.toList.findIdx? (· == key) := by
  rw [toList, ← List.findIdx?_toArray, Array.toArray_toList, position?]

theorem get?_of_position? {table : Table α} {key : α} {index : Nat}
    (h : table.position? key = some index) : table.get? index = some key := by
  rw [position?_eq_findIdx?, List.findIdx?_eq_some_iff_getElem] at h
  obtain ⟨bound, found, -⟩ := h
  rw [← getElem?_toList, List.getElem?_eq_getElem bound, beq_iff_eq.mp found]

/-- What is in a table has a position. -/
theorem mem_iff_position? {table : Table α} {key : α} :
    key ∈ table ↔ ∃ index, table.position? key = some index := by
  rw [mem_def, position?_eq_findIdx?, ← Option.isSome_iff_exists, List.findIdx?_isSome]
  simp

theorem position?_eq_none_iff {table : Table α} {key : α} :
    table.position? key = none ↔ key ∉ table := by
  rw [mem_iff_position?, ← Option.isSome_iff_exists, Option.not_isSome_iff_eq_none]

/-- **A position handed out once stays valid.** -/
theorem Grows.position? {table larger : Table α} (grows : table.Grows larger) {key : α}
    {index : Nat} (h : table.position? key = some index) : larger.position? key = some index := by
  obtain ⟨added, extended⟩ := grows
  rw [position?_eq_findIdx?] at h ⊢
  rw [← extended, List.findIdx?_append, h]
  rfl

theorem Distinct.position? {table : Table α} (distinct : table.Distinct) {key : α} {index : Nat}
    (h : table.get? index = some key) : table.position? key = some index := by
  rw [← getElem?_toList] at h
  obtain ⟨bound, found⟩ := List.getElem?_eq_some_iff.mp h
  rw [position?_eq_findIdx?, List.findIdx?_eq_some_iff_getElem]
  refine ⟨bound, by simp [found], fun before earlier => ?_⟩
  have := List.pairwise_iff_getElem.mp distinct before index (by omega) bound earlier
  simpa [found] using this

/-! ## Inserting a key

A key that is there keeps its position and nothing else happens; a new one is appended. -/

theorem toList_insert (table : Table α) (key : α) :
    (table.insert key).2.toList
      = if key ∈ table then table.toList else table.toList ++ [key] := by
  rw [insert]
  split
  · next found => rw [if_pos (mem_iff_position?.mpr ⟨_, found⟩)]
  · next missing =>
    rw [if_neg (position?_eq_none_iff.mp missing)]
    simp [toList]

theorem grows_insert (table : Table α) (key : α) : table.Grows (table.insert key).2 := by
  rw [Grows, toList_insert]
  split
  · exact List.prefix_refl _
  · exact List.prefix_append _ _

@[simp] theorem mem_insert {table : Table α} {key other : α} :
    other ∈ (table.insert key).2 ↔ other = key ∨ other ∈ table := by
  rw [mem_def, toList_insert]
  split
  · next known =>
    constructor
    · exact .inr
    · rintro (rfl | mem)
      exacts [known, mem]
  · rw [List.mem_append, List.mem_singleton, or_comm, mem_def]

/-- The answer of an insertion is the position of the key. -/
theorem position?_insert (table : Table α) (key : α) :
    (table.insert key).2.position? key = some (table.insert key).1 := by
  rw [insert]
  split
  · next found => exact found
  · next missing =>
    rw [position?_eq_findIdx?] at missing ⊢
    change (table.entries.push key).toList.findIdx? _ = _
    rw [Array.toList_push, List.findIdx?_append, ← toList, missing]
    simp [length_toList]

/-- A key is only appended if it is not there. -/
theorem Distinct.insert {table : Table α} (distinct : table.Distinct) (key : α) :
    (table.insert key).2.Distinct := by
  rw [Distinct, toList_insert]
  split
  · exact distinct
  · next absent =>
    rw [List.nodup_append]
    refine ⟨distinct, List.nodup_singleton _, fun x known y new => ?_⟩
    rw [List.mem_singleton.mp new]
    rintro rfl
    exact absent known

end Table

/-! ## Registering types

What is said here of one type is said in terms of lists of types, because the recursion is over the
parts of a type in order. -/

namespace Types

variable (types : Types)

/-- All that a type contains directly is in the table. -/
def ChildrenIn (table : TypeTable) (id : TypeId) : Prop :=
  ∃ children, types.children id = .ok children ∧ ∀ child ∈ children, child ∈ table

/-- The table has with a type all that the type contains. -/
def Closed (table : TypeTable) : Prop :=
  ∀ id ∈ table, types.ChildrenIn table id

/-- Visiting the types `todo` in turn, when those in `seen` need no visit, visits `new`.  Behind a
type that was not seen before, the types that it contains are visited first. -/
inductive Visits (types : Types) : (seen todo new : List TypeId) → Prop
  /-- Nothing is left to visit. -/
  | nil (seen : List TypeId) : Visits types seen [] []
  /-- A type that has its place keeps it. -/
  | known {seen : List TypeId} {id : TypeId} {rest new : List TypeId} (mem : id ∈ seen)
      (later : Visits types seen rest new) : Visits types seen (id :: rest) new
  /-- What is below the type counts as seen when the rest is visited. -/
  | new {seen : List TypeId} {id : TypeId} {children rest inner outer : List TypeId}
      (absent : id ∉ seen) (found : types.children id = .ok children)
      (below : Visits types (seen ++ [id]) children inner)
      (later : Visits types (seen ++ id :: inner) rest outer) :
      Visits types seen (id :: rest) (id :: inner ++ outer)

/-- What registering the types `ids` makes of a table.  What is new in it has its parts in it. -/
structure Registers (table : TypeTable) (ids : List TypeId) (after : TypeTable) : Prop where
  /-- What was in the table keeps its position. -/
  grows : table.Grows after
  /-- No type comes to be in the table twice. -/
  distinct : table.Distinct → after.Distinct
  /-- The types are in the table. -/
  mem : ∀ id ∈ ids, id ∈ after
  /-- With a new type its parts are in the table. -/
  closed : ∀ id ∈ after, id ∈ table ∨ types.ChildrenIn after id

variable {types}

theorem ChildrenIn.mono {table after : TypeTable} (grows : table.Grows after) {id : TypeId}
    (h : types.ChildrenIn table id) : types.ChildrenIn after id := by
  obtain ⟨children, found, all⟩ := h
  exact ⟨children, found, fun child mem => grows.mem (all child mem)⟩

theorem Registers.closed_of_closed {table after : TypeTable} {ids : List TypeId}
    (registers : types.Registers table ids after) (closed : types.Closed table) :
    types.Closed after := fun id mem =>
  (registers.closed id mem).elim (fun before => (closed id before).mono registers.grows) fun h => h

/-! ### Visits -/

namespace Visits

variable {seen todo new : List TypeId}

/-- The first type is visited, with all that is below it, before the rest is looked at. -/
theorem cons {first others rest : List TypeId} {id : TypeId} (head : types.Visits seen [id] first)
    (tail : types.Visits (seen ++ first) rest others) :
    types.Visits seen (id :: rest) (first ++ others) := by
  cases head with
  | known mem later =>
    cases later
    rw [List.append_nil] at tail
    exact .known mem tail
  | new absent found below later =>
    cases later
    rw [List.append_nil] at tail ⊢
    exact .new absent found below tail

/-- What is to be visited is seen afterwards. -/
theorem mem (h : types.Visits seen todo new) : ∀ id ∈ todo, id ∈ seen ++ new := by
  induction h with
  | nil => simp
  | known mem _ ih => simp_all
  | new absent found below later _ ih => simp_all

/-- What is visited has its parts seen afterwards. -/
theorem children (h : types.Visits seen todo new) {id : TypeId} (visited : id ∈ new) :
    ∃ children, types.children id = .ok children ∧ ∀ child ∈ children, child ∈ seen ++ new := by
  induction h with
  | nil => simp at visited
  | known _ _ ih => exact ih visited
  | @new seen other children rest inner outer absent found below later inside behind =>
    have more : ∀ child, child ∈ seen ++ [other] ++ inner →
        child ∈ seen ++ (other :: inner ++ outer) := by
      simp only [List.mem_append, List.mem_cons, List.not_mem_nil]
      tauto
    rcases List.mem_append.mp visited with visited | visited
    · rcases List.mem_cons.mp visited with rfl | visited
      · exact ⟨children, found, fun child listed => more child (below.mem child listed)⟩
      · obtain ⟨children, found, all⟩ := inside visited
        exact ⟨children, found, fun child listed => more child (all child listed)⟩
    · obtain ⟨children, found, all⟩ := behind visited
      exact ⟨children, found, fun child listed => by simpa using all child listed⟩

/-- Nothing is visited that was seen before. -/
theorem not_mem (h : types.Visits seen todo new) {id : TypeId} (visited : id ∈ new) :
    id ∉ seen := by
  induction h with
  | nil => simp at visited
  | known _ _ ih => exact ih visited
  | new absent _ _ _ inside behind =>
    rcases List.mem_append.mp visited with visited | visited
    · rcases List.mem_cons.mp visited with rfl | visited
      · exact absent
      · exact fun before => inside visited (List.mem_append_left _ before)
    · exact fun before => behind visited (List.mem_append_left _ before)

/-- Nothing is visited twice. -/
theorem nodup (h : types.Visits seen todo new) : new.Nodup := by
  induction h with
  | nil => exact List.nodup_nil
  | known _ _ ih => exact ih
  | new absent _ below later inside behind =>
    refine List.nodup_append.mpr ⟨List.nodup_cons.mpr ⟨fun visited => ?_, inside⟩, behind, ?_⟩
    · exact below.not_mem visited (by simp)
    · rintro id before other after rfl
      exact later.not_mem after (List.mem_append_right _ before)

/-- A table to which the visited types were appended. -/
theorem registers {table after : TypeTable} (h : types.Visits table.toList todo new)
    (appended : after.toList = table.toList ++ new) : types.Registers table todo after where
  grows := ⟨new, appended.symm⟩
  distinct distinct := by
    rw [Table.Distinct, appended]
    refine List.nodup_append.mpr ⟨distinct, h.nodup, ?_⟩
    rintro id before other visited rfl
    exact h.not_mem visited before
  mem id listed := by
    rw [Table.mem_def, appended]
    exact h.mem id listed
  closed id mem := by
    rw [Table.mem_def, appended, List.mem_append] at mem
    refine mem.imp_right fun visited => ?_
    obtain ⟨children, found, all⟩ := h.children visited
    refine ⟨children, found, fun child listed => ?_⟩
    rw [Table.mem_def, appended]
    exact all child listed

end Visits

/-! ### The depth of the recursion -/

variable (types) in
/-- Types of the arena that are not in the table. -/
def unregistered (table : TypeTable) : Finset Nat :=
  (Finset.range types.size).filter fun index => (⟨index⟩ : TypeId) ∉ table

variable (types) in
/-- No more types are left than the arena has. -/
theorem card_unregistered_le (table : TypeTable) :
    (types.unregistered table).card ≤ types.size := by
  have := Finset.card_filter_le (Finset.range types.size) fun index => (⟨index⟩ : TypeId) ∉ table
  rwa [Finset.card_range] at this

variable (types) in
theorem card_unregistered_mono {table after : TypeTable} (grows : table.Grows after) :
    (types.unregistered after).card ≤ (types.unregistered table).card := by
  refine Finset.card_le_card fun index mem => ?_
  rw [unregistered, Finset.mem_filter] at mem ⊢
  exact ⟨mem.1, fun known => mem.2 (grows.mem known)⟩

/-- A new entry is one type less to register. -/
theorem card_unregistered_insert_lt {table : TypeTable} {id : TypeId} (new : id ∉ table)
    (bound : id.index < types.size) :
    (types.unregistered (table.insert id).2).card < (types.unregistered table).card := by
  refine Finset.card_lt_card (Finset.ssubset_iff_of_subset (fun index mem => ?_) |>.mpr ?_)
  · rw [unregistered, Finset.mem_filter] at mem ⊢
    exact ⟨mem.1, fun known => mem.2 (Table.mem_insert.mpr (.inr known))⟩
  · refine ⟨id.index, ?_, ?_⟩
    · exact Finset.mem_filter.mpr ⟨Finset.mem_range.mpr bound, new⟩
    · intro mem
      exact (Finset.mem_filter.mp mem).2 (Table.mem_insert.mpr (.inl rfl))

/-- Registering one type after the other, if `depth` is enough for each. -/
theorem foldlM_visits {depth : Nat}
    (each : ∀ {table id after}, (types.unregistered table).card < depth →
      types.registerWithin depth table id = .ok after →
      ∃ new, types.Visits table.toList [id] new ∧ after.toList = table.toList ++ new) :
    ∀ {ids : List TypeId} {table after : TypeTable}, (types.unregistered table).card < depth →
      ids.foldlM (types.registerWithin depth) table = .ok after →
      ∃ new, types.Visits table.toList ids new ∧ after.toList = table.toList ++ new
  | [], table, after, _, run => by
    rw [List.foldlM_nil, pure_eq_ok_iff] at run
    subst run
    exact ⟨[], .nil _, (List.append_nil _).symm⟩
  | id :: ids, table, after, enough, run => by
    rw [List.foldlM_cons, bind_eq_ok_iff] at run
    obtain ⟨middle, first, others⟩ := run
    obtain ⟨new, head, appended⟩ := each enough first
    have left := card_unregistered_mono types ⟨new, appended.symm⟩
    obtain ⟨more, tail, whole⟩ := foldlM_visits each (by omega) others
    rw [appended] at tail whole
    exact ⟨new ++ more, head.cons tail, by rw [whole, List.append_assoc]⟩

/-- A type that is new is inserted first, and then its parts are registered. -/
theorem registerWithin_succ_of_new {depth : Nat} {table after : TypeTable} {id : TypeId}
    (new : table.position? id = none) :
    types.registerWithin (depth + 1) table id = .ok after ↔
      ∃ children, types.children id = .ok children
        ∧ children.foldlM (types.registerWithin depth) (table.insert id).2 = .ok after := by
  rw [registerWithin, new]
  exact bind_eq_ok_iff

theorem card_unregistered_insert_lt_of_children {table : TypeTable} {id : TypeId}
    {children : List TypeId} (new : table.position? id = none)
    (found : types.children id = .ok children) :
    (types.unregistered (table.insert id).2).card < (types.unregistered table).card := by
  obtain ⟨shape, inArena, -⟩ := children_eq_ok_iff.mp found
  exact card_unregistered_insert_lt (Table.position?_eq_none_iff.mp new)
    (index_lt_of_shape inArena)

/-- Each step down registers one more type, so the depth never runs out while it exceeds the number
of types that are left to register. -/
theorem registerWithin_visits {depth : Nat} {table after : TypeTable} {id : TypeId}
    (enough : (types.unregistered table).card < depth)
    (run : types.registerWithin depth table id = .ok after) :
    ∃ new, types.Visits table.toList [id] new ∧ after.toList = table.toList ++ new := by
  induction depth generalizing table id after with
  | zero => omega
  | succ depth ih =>
    cases known : table.position? id with
    | some index =>
      rw [registerWithin, known] at run
      cases run
      exact ⟨[], .known (Table.mem_iff_position?.mpr ⟨index, known⟩) (.nil _),
        (List.append_nil _).symm⟩
    | none =>
      obtain ⟨children, found, run⟩ := (registerWithin_succ_of_new known).mp run
      have fewer := card_unregistered_insert_lt_of_children known found
      obtain ⟨inner, below, appended⟩ := foldlM_visits ih (by omega) run
      have absent := Table.position?_eq_none_iff.mp known
      rw [Table.toList_insert, if_neg absent] at below appended
      have visits := Visits.new absent found below (.nil _)
      rw [List.append_nil] at visits
      exact ⟨id :: inner, visits, by rw [appended, List.append_assoc, List.singleton_append]⟩

/-- Any depth that is enough does the same. -/
theorem registerWithin_eq {depth more : Nat} {table : TypeTable} {id : TypeId}
    (enough : (types.unregistered table).card < depth)
    (enough' : (types.unregistered table).card < more) :
    types.registerWithin depth table id = types.registerWithin more table id := by
  induction depth generalizing more table id with
  | zero => omega
  | succ depth ih =>
    obtain ⟨more, rfl⟩ :=
      Nat.exists_eq_add_one_of_ne_zero (Nat.ne_of_gt (Nat.zero_lt_of_lt enough'))
    -- the first part may leave fewer types to register, and more of them never
    have each : ∀ {ids : List TypeId} {table : TypeTable}, (types.unregistered table).card < depth →
        (types.unregistered table).card < more →
        ids.foldlM (types.registerWithin depth) table
          = ids.foldlM (types.registerWithin more) table := by
      intro ids
      induction ids with
      | nil => exact fun _ _ => rfl
      | cons id ids rest =>
        intro table enough enough'
        rw [List.foldlM_cons, List.foldlM_cons, ← ih enough enough']
        cases run : types.registerWithin depth table id with
        | error handle => rfl
        | ok middle =>
          obtain ⟨new, -, appended⟩ := registerWithin_visits enough run
          have left := card_unregistered_mono types ⟨new, appended.symm⟩
          exact rest (by omega) (by omega)
    rw [registerWithin, registerWithin]
    cases known : table.position? id with
    | some index => rfl
    | none =>
      dsimp only
      cases found : types.children id with
      | error handle => rfl
      | ok children =>
        have fewer := card_unregistered_insert_lt_of_children known found
        exact each (by omega) (by omega)

/-- **Registering a type** appends the types that are visited from it, and answers its position. -/
theorem register_visits {table after : TypeTable} {id : TypeId} {index : Nat}
    (run : types.register table id = .ok (index, after)) :
    ∃ new, types.Visits table.toList [id] new ∧ after.toList = table.toList ++ new
      ∧ after.position? id = some index := by
  cases known : table.position? id with
  | some position =>
    rw [register, known] at run
    cases run
    exact ⟨[], .known (Table.mem_iff_position?.mpr ⟨_, known⟩) (.nil _),
      (List.append_nil _).symm, known⟩
  | none =>
    rw [register, known] at run
    simp only [bind_eq_ok_iff, pure_eq_ok_iff, Prod.mk.injEq] at run
    obtain ⟨registered, run, rfl, rfl⟩ := run
    have atMost := card_unregistered_le types table
    obtain ⟨new, visits, appended⟩ := registerWithin_visits (by omega) run
    refine ⟨new, visits, appended, ?_⟩
    -- the type itself went in first, at the end of the old table
    have grows : (table.insert id).2.Grows after := by
      have absent := Table.position?_eq_none_iff.mp known
      rw [Table.Grows, Table.toList_insert, if_neg absent, appended]
      cases visits with
      | known mem => exact absurd mem absent
      | new => simp
    have last : (table.insert id).1 = table.size := by rw [Table.insert, known]
    rw [← last]
    exact grows.position? (table.position?_insert id)

/-- Registering a type answers its position, and leaves a table that has it and all that is
below it. -/
theorem register_registers {table after : TypeTable} {id : TypeId} {index : Nat}
    (run : types.register table id = .ok (index, after)) :
    types.Registers table [id] after ∧ after.position? id = some index := by
  obtain ⟨new, visits, appended, position⟩ := register_visits run
  exact ⟨visits.registers appended, position⟩

theorem register_of_position? {table : TypeTable} {id : TypeId} {index : Nat}
    (found : table.position? id = some index) : types.register table id = .ok (index, table) := by
  rw [register, found]

end Types

/-! ## Positions of functions

Functions are not registered.  The table of functions has all of them from the beginning. -/

namespace Program

variable {program : Program}

theorem nodup_functionIds : program.functionIds.Nodup := by
  rw [functionIds, List.Nodup, List.pairwise_map]
  exact List.nodup_range.imp fun apart same => apart (congrArg FuncId.index same)

theorem lt_size_of_mem_functionIds {id : FuncId} (mem : id ∈ program.functionIds) :
    id.index < program.functions.size := by
  obtain ⟨index, bound, rfl⟩ := List.mem_map.mp mem
  exact List.mem_range.mp bound

/-- The position of a function is its place in the arena. -/
theorem position?_functionTable {id : FuncId} {function : Function}
    (found : program.function id = .ok function) :
    program.functionTable.position? id = some id.index := by
  have distinct : program.functionTable.Distinct := by
    simpa [Table.Distinct, Table.toList, functionTable] using program.nodup_functionIds
  refine distinct.position? ?_
  simpa [Table.get?, functionTable] using getElem?_functionIds found

end Program

end IrStream
