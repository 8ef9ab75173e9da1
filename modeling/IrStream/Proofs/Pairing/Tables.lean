import IrStream.Proofs.Encode.Scope
import IrStream.Proofs.Encode.Table
import IrStream.Proofs.Pairing.Lookup
import IrStream.Proofs.Program.Text

/-!
# Tables of two programs

Tables are alike if their keys are related one by one.  Registering what is related, in tables that
are alike, answers the same position and leaves tables that are alike.  Types of the second program
may be registered with a greater depth than those of the first; that makes no difference
(`Types.registerWithin_eq`).

That two searches end at the same place needs uniqueness on both sides.  If a key were related to
two others, the first table could have it where the second one has neither.  Relations of a pairing
are `Relator.BiUnique`, and then a search in one table is a search in the other
(`findIdx?_eq_of_forall₂`).

Registering a type is a recursion over its parts, and the parts of related types are related one by
one, so the induction is the one of the recursion.

## Statements

* `Table.Alike.position?_eq`, `Table.Alike.insert`: searching for related keys, and entering them,
  has the same answer.
* `agree_register`: **registering related types** fails in both arenas or answers the same position
  in both.
* `agree_registerGlobal`: the same for a global, which brings its initializer into the table of
  constants.
* `position?_functionTable_eq`: functions are not registered.  Their positions are those in the
  program, and the two programs have the same functions.
* `Locations.Alike.find?_eq`: where an instruction stands in its function, for the operands that
  refer to it.
-/

set_option autoImplicit false

namespace IrStream

/-! ## Keys -/

/-- The keys are related one by one. -/
def Table.Alike {α β : Type} (R : α → β → Prop) (table : Table α) (other : Table β) : Prop :=
  List.Forall₂ R table.toList other.toList

namespace Table.Alike

variable {α β : Type} {R : α → β → Prop} {table : Table α} {other : Table β}

theorem empty : Alike R (Table.empty : Table α) (Table.empty : Table β) :=
  .nil

theorem size_eq (alike : Alike R table other) : other.size = table.size := by
  rw [← length_toList, ← length_toList]
  exact alike.length_eq.symm

variable [DecidableEq α] [DecidableEq β] (unique : Relator.BiUnique R) {key : α} {key' : β}
  (related : R key key')
include unique related

theorem position?_eq (alike : Alike R table other) :
    other.position? key' = table.position? key := by
  rw [position?_eq_findIdx?, position?_eq_findIdx?]
  refine findIdx?_eq_of_forall₂ alike fun {a b} here => ?_
  rw [Bool.eq_iff_iff, beq_iff_eq, beq_iff_eq]
  constructor
  · rintro rfl
    exact unique.1 here related
  · rintro rfl
    exact unique.2 here related

/-- What is related gets the same position. -/
theorem insert (alike : Alike R table other) :
    (other.insert key').1 = (table.insert key).1
      ∧ Alike R (table.insert key).2 (other.insert key').2 := by
  have same := alike.position?_eq unique related
  rw [Table.insert, Table.insert, same]
  split
  · exact ⟨rfl, alike⟩
  · refine ⟨alike.size_eq, ?_⟩
    simpa [Alike, toList] using List.rel_append alike (.cons related .nil)

end Table.Alike

/-! ## Types -/

namespace Types.Embeds

variable {R : TypeId → TypeId → Prop} {small large : Types} (embeds : small.Embeds R large)
include embeds

/-- A type is registered before its parts and the parts in their order, on both sides. -/
theorem agree_registerWithin (depth : Nat) {table other : TypeTable} (alike : table.Alike R other)
    {id id' : TypeId} (related : R id id') :
    Agree Eq (Table.Alike R) (small.registerWithin depth table id)
      (large.registerWithin depth other id') := by
  have unique : Relator.BiUnique R := ⟨embeds.left, embeds.right⟩
  induction depth generalizing table other id id' with
  | zero => exact .ok alike
  | succ depth ih =>
    have each {ids others : List TypeId} (related : List.Forall₂ R ids others) :
        ∀ {table other : TypeTable}, table.Alike R other →
          Agree Eq (Table.Alike R) (ids.foldlM (small.registerWithin depth) table)
            (others.foldlM (large.registerWithin depth) other) := by
      induction related with
      | nil => exact fun alike => .pure alike
      | cons here _ rest =>
        intro table other alike
        rw [List.foldlM_cons, List.foldlM_cons]
        exact (ih alike here).bind rest
    rw [registerWithin, registerWithin, alike.position?_eq unique related]
    split
    · exact .ok alike
    · have children : Agree Eq (List.Forall₂ R) (small.children id) (large.children id') :=
        (embeds.agree_shape related).bind fun alike => .pure alike.children
      exact children.bind fun parts => each parts (alike.insert unique related).2

/-- **Registering related types** answers the same position. -/
theorem agree_register {table other : TypeTable} (alike : table.Alike R other) {id id' : TypeId}
    (related : R id id') :
    Agree Eq (fun a b => b.1 = a.1 ∧ a.2.Alike R b.2) (small.register table id)
      (large.register other id') := by
  have unique : Relator.BiUnique R := ⟨embeds.left, embeds.right⟩
  rw [register, register, alike.position?_eq unique related]
  split
  · exact .ok ⟨rfl, alike⟩
  -- the second arena may be larger and so is given more depth, which the first does not need
  · have few := card_unregistered_le small table
    have size := embeds.size_le
    have deeper : small.registerWithin (small.size + 1) table id
        = small.registerWithin (large.size + 1) table id := registerWithin_eq (by omega) (by omega)
    rw [deeper]
    exact (embeds.agree_registerWithin _ alike related).bind fun after =>
      .pure ⟨alike.size_eq, after⟩

end Types.Embeds

/-! ## Globals and functions -/

namespace Program.Alike

variable {m : Pairing} {small large : Program} (programs : small.Alike m large)
include programs

/-- A global is registered with its initializer. -/
theorem agree_registerGlobal {globals globals' : GlobalTable}
    {constants constants' : ConstantTable} (known : globals.Alike m.global globals')
    (initial : constants.Alike (Constant.Alike m) constants') {id other : GlobalId}
    (related : m.global id other) :
    Agree Eq (fun a b => b.1 = a.1 ∧ a.2.1.Alike m.global b.2.1
        ∧ a.2.2.Alike (Constant.Alike m) b.2.2)
      (small.registerGlobal globals constants id)
      (large.registerGlobal globals' constants' other) := by
  rw [registerGlobal, registerGlobal, known.position?_eq programs.biUnique_global related]
  obtain ⟨index, registered⟩ := known.insert programs.biUnique_global related
  split
  · exact .ok ⟨rfl, known, initial⟩
  · refine (programs.global related).bind fun {global global'} same => ?_
    have init := same.init
    generalize global.init = init?, global'.init = init'? at init
    cases init with
    | none => exact .pure ⟨index, registered, initial⟩
    | some related =>
      refine (programs.agree_constant related).bind fun same => ?_
      exact .pure ⟨index, registered, (initial.insert programs.biUnique_constant same).2⟩

omit programs in
/-- A function that is not there has no position. -/
theorem position?_functionTable_of_error {program : Program} {id : FuncId} {handle : Dangling}
    (missing : program.function id = .error handle) :
    program.functionTable.position? id = none := by
  rw [Table.position?_eq_none_iff]
  intro mem
  obtain ⟨function, found⟩ := exists_function
    (lt_size_of_mem_functionIds (by simpa [functionTable, Table.mem_def, Table.toList] using mem))
  cases missing.symm.trans found

/-- A function has the same position in both programs. -/
theorem position?_functionTable_eq {id : FuncId} (known : m.function id) :
    large.functionTable.position? id = small.functionTable.position? id := by
  have agree := programs.function known
  generalize here : small.function id = answer, there : large.function id = answer' at agree
  cases agree with
  | ok => rw [position?_functionTable here, position?_functionTable there]
  | error => rw [position?_functionTable_of_error here, position?_functionTable_of_error there]

end Program.Alike

/-! ## Locations

The scope of the encoder maps instructions to locations; related ones have the same. -/

/-- The locations are those of related instructions. -/
def Locations.Alike (m : Pairing) (locations other : Locations) : Prop :=
  List.Forall₂ (fun a b => m.inst a.1 b.1 ∧ b.2 = a.2) locations.entries other.entries

namespace Locations.Alike

variable {m : Pairing} {locations other : Locations} (unique : Relator.BiUnique m.inst)
  {id id' : InstId} (related : m.inst id id') (alike : locations.Alike m other)
include unique related alike

theorem find?_eq : other.find? id' = locations.find? id :=
  lookup_eq_of_forall₂ unique related alike

theorem record (hasResult : Bool) (location : Location) :
    (locations.record id hasResult location).Alike m (other.record id' hasResult location) := by
  cases hasResult with
  | false => exact alike
  | true =>
    refine .cons ⟨related, rfl⟩ (List.rel_filter (fun {a b} here => ?_) alike)
    simp only [ne_eq, decide_not, Bool.not_eq_true', decide_eq_false_iff_not]
    refine not_congr ⟨fun same => ?_, fun same => ?_⟩
    · exact unique.2 (same ▸ here.1) related
    · exact unique.1 (same ▸ here.1) related

end Locations.Alike

end IrStream
