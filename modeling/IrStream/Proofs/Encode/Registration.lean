import IrStream.Proofs.Encode.Settles
import IrStream.Proofs.Types.Acyclic
import Mathlib.Logic.Relation

/-!
# Registering a type

Types refer to other types, and through function types they may refer to themselves.  Registering a
type puts into the table what can be reached from it, and `Types.Registered` says what and where:

* `Types.Refers` is one step from a type to a type that it contains; what is reached is its
  reflexive and transitive closure.
* `Types.NextIn` says which type comes next in a list of visited types, without a word about the
  recursion: the first part not yet there of the last type that still has one.  A list in which
  every entry comes next is in depth-first order (`Types.DepthFirst`).

What the recursion visits is related to both by induction on `Types.Visits`.

Main statement: registering a type always comes to an end, in a table that is closed if it was
closed before, and registering the type once more does nothing (`register_exact`).

The usual way to say that a list is in depth-first order is to define the traversal and compare with
it, which would say here that the recursion is itself.  `NextIn` is a condition on the list alone:
given what is there so far, it determines the entry behind it, and so there is at most one list in
depth-first order from a given root.  It can be read with a pencil next to a table that was printed.

The proof has one induction for each half.  `Visits.reach` shows that what is visited can be
reached, and `Closed.mem_of_reach` the converse, as the table behind is closed.  `Visits.depthFirst`
is about the order: a type is visited either because it comes next, or because all that was visited
before it has no parts left, and then it was on the list of those to be visited (`Visits.next`).
-/

set_option autoImplicit false

namespace IrStream

namespace Types

variable (types : Types)

/-- A type contains another one directly. -/
def Refers (outer inner : TypeId) : Prop :=
  ∃ children, types.children outer = .ok children ∧ inner ∈ children

/-- All that a type contains directly is in a list. -/
def PartsIn (seen : List TypeId) (id : TypeId) : Prop :=
  ∃ children, types.children id = .ok children ∧ ∀ child ∈ children, child ∈ seen

/-- Among the types visited so far, `front`, the last one with a part that has not been seen is
some `parent`, and `id` is its first such part. -/
def NextIn (seen front : List TypeId) (id : TypeId) : Prop :=
  ∃ before parent after earlier later, front = before ++ parent :: after
    ∧ types.children parent = .ok (earlier ++ id :: later)
    ∧ (∀ part ∈ earlier, part ∈ seen ++ front)
    ∧ ∀ other ∈ after, types.PartsIn (seen ++ front) other

/-- The types `new` are visited depth first: the first of them is `root`, and each of the others is
the one that comes next. -/
def DepthFirst (seen : List TypeId) (root : TypeId) (new : List TypeId) : Prop :=
  ∀ front id back, new = front ++ id :: back →
    front = [] ∧ id = root ∨ types.NextIn seen front id

/-- What registering a type makes of a table. -/
structure Registered (table : TypeTable) (root : TypeId) (after : TypeTable)
    (new : List TypeId) : Prop where
  /-- Old entries stay where they are. -/
  appended : after.toList = table.toList ++ new
  /-- Nothing is registered twice. -/
  once : new.Nodup
  /-- The new entries are what can be reached and was not there. -/
  reached : ∀ id, id ∈ new ↔ id ∉ table ∧ Relation.ReflTransGen types.Refers root id
  /-- New entries come in depth-first order. -/
  order : types.DepthFirst table.toList root new
  /-- What is registered is registered with its parts. -/
  closed : types.Closed after

variable {types}

/-! ## What is reached -/

/-- A closed table has with a type all that can be reached from it. -/
theorem Closed.mem_of_reach {table : TypeTable} (closed : types.Closed table) {root id : TypeId}
    (mem : root ∈ table) (reach : Relation.ReflTransGen types.Refers root id) : id ∈ table := by
  induction reach with
  | refl => exact mem
  | tail _ step ih =>
    obtain ⟨children, found, listed⟩ := step
    obtain ⟨_, same, all⟩ := closed _ ih
    cases found.symm.trans same
    exact all _ listed

namespace Visits

variable {seen todo new : List TypeId}

/-- What is visited can be reached from what is to be visited. -/
theorem reach (h : types.Visits seen todo new) {id : TypeId} (visited : id ∈ new) :
    ∃ root ∈ todo, Relation.ReflTransGen types.Refers root id := by
  induction h with
  | nil => simp at visited
  | known _ _ ih =>
    obtain ⟨root, listed, path⟩ := ih visited
    exact ⟨root, List.mem_cons_of_mem _ listed, path⟩
  | @new _ other _ _ _ _ _ found _ _ inside behind =>
    rcases List.mem_append.mp visited with visited | visited
    · refine ⟨other, List.mem_cons_self, ?_⟩
      rcases List.mem_cons.mp visited with rfl | visited
      · exact .refl
      · obtain ⟨root, listed, path⟩ := inside visited
        exact .head ⟨_, found, listed⟩ path
    · obtain ⟨root, listed, path⟩ := behind visited
      exact ⟨root, List.mem_cons_of_mem _ listed, path⟩

end Visits

/-! ## The order

Types that were there before the visit count as seen, and never as visited; `prepend` is what makes
the induction go through when a visit is put together from two. -/

namespace NextIn

variable {seen front : List TypeId} {id : TypeId}

/-- Whether a type was visited or seen before makes no difference to what comes next. -/
theorem prepend (visited : List TypeId) (h : types.NextIn (seen ++ visited) front id) :
    types.NextIn seen (visited ++ front) id := by
  obtain ⟨before, parent, after, earlier, later, rfl, found, first, done⟩ := h
  rw [List.append_assoc] at first done
  exact ⟨visited ++ before, parent, after, earlier, later, (List.append_assoc _ _ _).symm, found,
    first, done⟩

end NextIn

/-- Of two lists that are appended, an entry is in the first or in the second. -/
theorem append_eq_append_cons {α : Type} {left right front back : List α} {a : α}
    (h : left ++ right = front ++ a :: back) :
    (∃ rest, left = front ++ a :: rest) ∨ ∃ rest, front = left ++ rest
      ∧ right = rest ++ a :: back := by
  rcases List.append_eq_append_iff.mp h with ⟨rest, same, split⟩ | ⟨rest, same, split⟩
  · exact .inr ⟨rest, same, split⟩
  · cases rest with
    | nil =>
      rw [List.append_nil] at same
      exact .inr ⟨[], by rw [same, List.append_nil], split.symm⟩
    | cons first rest =>
      cases split
      exact .inl ⟨rest, same⟩

namespace Visits

variable {seen todo new : List TypeId}

/-- A type is visited because it comes next, or because it is to be visited when all that was
visited before has no parts left. -/
theorem next (h : types.Visits seen todo new) {front back : List TypeId} {id : TypeId}
    (split : new = front ++ id :: back) :
    types.NextIn seen front id
      ∨ ∃ earlier later, todo = earlier ++ id :: later ∧ (∀ other ∈ earlier, other ∈ seen ++ front)
        ∧ ∀ other ∈ front, types.PartsIn (seen ++ front) other := by
  induction h generalizing front back with
  | nil => simp at split
  | known mem _ ih =>
    refine (ih split).imp_right ?_
    rintro ⟨earlier, later, rfl, before, done⟩
    refine ⟨_ :: earlier, later, rfl, fun other listed => ?_, done⟩
    rcases List.mem_cons.mp listed with rfl | listed
    · exact List.mem_append_left _ mem
    · exact before other listed
  | @new seen other children rest inner outer absent found below _ inside behind =>
    cases front with
    | nil =>
      cases split
      exact .inr ⟨[], rest, rfl, by simp, by simp⟩
    | cons first front =>
      obtain ⟨rfl, others⟩ := List.cons.inj split
      rcases append_eq_append_cons others with ⟨back, within⟩ | ⟨front, rfl, beyond⟩
      -- below `other`: its parts are visited one after the other
      · rcases inside within with next | ⟨earlier, later, rfl, before, done⟩
        · exact .inl (next.prepend [other])
        · rw [List.append_assoc] at before done
          exact .inl ⟨[], other, front, earlier, later, rfl, found, before, done⟩
      -- behind `other`: neither it nor what was visited below it has parts left
      · rcases behind beyond with next | ⟨earlier, later, rfl, before, done⟩
        · exact .inl (next.prepend (other :: inner))
        · rw [List.append_assoc] at before done
          have more : ∀ child, child ∈ seen ++ [other] ++ inner →
              child ∈ seen ++ (other :: inner ++ front) := by
            intro child mem
            rw [List.append_assoc] at mem
            rw [← List.append_assoc]
            exact List.mem_append_left _ mem
          refine .inr ⟨other :: earlier, later, rfl, fun child listed => ?_, fun child listed => ?_⟩
          · rcases List.mem_cons.mp listed with rfl | listed
            · exact more _ (by simp)
            · exact before child listed
          · rcases List.mem_cons.mp listed with rfl | listed
            · exact ⟨children, found, fun part mem => more part (below.mem part mem)⟩
            rcases List.mem_append.mp listed with listed | listed
            · obtain ⟨parts, known, all⟩ := below.children listed
              exact ⟨parts, known, fun part mem => more part (all part mem)⟩
            · exact done child listed

/-- **What is visited from a type is visited depth first.** -/
theorem depthFirst {root : TypeId} (h : types.Visits seen [root] new) :
    types.DepthFirst seen root new := by
  intro front id back split
  rcases h.next split with next | ⟨earlier, later, single, -, -⟩
  · exact .inr next
  · obtain ⟨rfl, here⟩ : earlier = [] ∧ id = root := by
      cases earlier with
      | nil => exact ⟨rfl, (List.cons.inj single).1.symm⟩
      | cons => simp at single
    refine .inl ⟨?_, here⟩
    have once := h.nodup
    cases h with
    | known _ later => cases later; simp at split
    | new =>
      cases front with
      | nil => rfl
      | cons first front =>
        rw [split, here, ← (List.cons.inj split).1] at once
        simp at once

end Visits

/-! ## The main statement -/

/-- **Registering a type appends what can be reached from it.**  If a table is closed, registering
a type of the arena succeeds, and no recursion is deeper than the arena is large.  The position is
that of the type in the new table, which is the old one with the types appended that can be reached
and were not there, each of them once, in depth-first order.  The new table is closed, and
registering the type again answers the same position and leaves the table as it is. -/
theorem register_exact (built : types.Built) {table : TypeTable} (closed : types.Closed table)
    {id : TypeId} (has : types.Has id) :
    ∃ index after new, types.register table id = .ok (index, after)
      ∧ (∀ depth, types.size < depth → types.registerWithin depth table id = .ok after)
      ∧ after.position? id = some index ∧ types.Registered table id after new
      ∧ types.register after id = .ok (index, after) := by
  have known : ∀ other ∈ table, types.Has other := by
    intro other mem
    obtain ⟨children, found, -⟩ := closed other mem
    obtain ⟨shape, inArena, -⟩ := children_eq_ok_iff.mp found
    exact index_lt_of_shape inArena
  obtain ⟨index, after, run, -⟩ := exists_register (fun h => h)
    (fun _ found child listed => built.complete found child listed) known has
  obtain ⟨new, visits, appended, position⟩ := register_visits run
  have registers := visits.registers appended
  have closedAfter := registers.closed_of_closed closed
  refine ⟨index, after, new, run, fun depth enough => ?_, position, ?_,
    register_of_position? position⟩
  · have atMost := card_unregistered_le types table
    rw [registerWithin_eq (by omega) (by omega : _ < types.size + 1)]
    rw [register] at run
    split at run
    · next found =>
      cases run
      rw [registerWithin, found]
    · simp only [bind_eq_ok_iff, pure_eq_ok_iff, Prod.mk.injEq] at run
      obtain ⟨registered, run, -, rfl⟩ := run
      exact run
  · refine ⟨appended, visits.nodup, fun other => ⟨fun mem => ⟨visits.not_mem mem, ?_⟩, ?_⟩,
      visits.depthFirst, closedAfter⟩
    · obtain ⟨root, listed, path⟩ := visits.reach mem
      rwa [List.mem_singleton.mp listed] at path
    · rintro ⟨absent, path⟩
      have mem := closedAfter.mem_of_reach (registers.mem id List.mem_cons_self) path
      rw [Table.mem_def, appended, List.mem_append] at mem
      exact mem.resolve_left absent

/-- A table of methods, `%Methods = type \x7b [2 x i32 (%Methods)] \x7d`, which take the table. -/
def methods : Types :=
  ⟨Types.initial.shapes ++ #[.struct ⟨some "Methods", [⟨8⟩], false, true⟩,
    .func [⟨6⟩] .i32 false, .array ⟨7⟩ 2]⟩

/-- The table of methods is made by the operations of an arena. -/
theorem built_methods : methods.Built := by
  have declared : (Types.initial.declareStruct "Methods").2.Built :=
    Built.initial.step (.intern _ (by decide +kernel))
  have method := declared.step (.intern (.func [⟨6⟩] .i32 false) (by decide +kernel))
  have table := method.step (.intern (.array ⟨7⟩ 2) (by decide +kernel))
  refine table.step (@Step.setStructBody _ _ ⟨6⟩ [⟨8⟩] false (by decide +kernel) ?_)
  decide +kernel

/-- The struct can be reached from itself, and comes first. -/
theorem register_exact_methods :
    methods.Built ∧ methods.Closed .empty ∧ methods.Has ⟨6⟩
      ∧ Relation.TransGen methods.Refers ⟨6⟩ ⟨6⟩
      ∧ ∃ index after new, methods.register .empty ⟨6⟩ = .ok (index, after)
        ∧ (∀ depth, methods.size < depth → methods.registerWithin depth .empty ⟨6⟩ = .ok after)
        ∧ after.position? ⟨6⟩ = some index ∧ methods.Registered .empty ⟨6⟩ after new
        ∧ methods.register after ⟨6⟩ = .ok (index, after) := by
  have closed : methods.Closed .empty := fun _ mem => absurd mem Table.not_mem_empty
  have has : methods.Has ⟨6⟩ := by decide +kernel
  have field : methods.Refers ⟨6⟩ ⟨8⟩ := ⟨_, rfl, List.mem_cons_self⟩
  have element : methods.Refers ⟨8⟩ ⟨7⟩ := ⟨_, rfl, List.mem_cons_self⟩
  have parameter : methods.Refers ⟨7⟩ ⟨6⟩ := ⟨_, rfl, List.mem_cons_of_mem _ List.mem_cons_self⟩
  exact ⟨built_methods, closed, has, .head field (.head element (.single parameter)),
    register_exact built_methods closed has⟩

/-- The struct, its array, the function type, and what that returns. -/
example : methods.register .empty ⟨6⟩ = .ok (0, ⟨#[⟨6⟩, ⟨8⟩, ⟨7⟩, .i32]⟩) := by
  decide +kernel

end Types

end IrStream
