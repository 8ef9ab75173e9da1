import IrStream.Program.Basic
import Mathlib.Data.List.Forall2

/-!
# Look-ups that succeed

A look-up in an arena succeeds exactly for the handles below the size of the arena, and `mapM`,
`filterM` and `>>=` succeed exactly when every look-up in them does.  What they answer is then
stated without the error case.

Handles are numbers, so any computation that follows one may come upon a number that is too large,
and nearly every function over programs is written with `Except` for that reason.  In proofs the
error is in the way most of the time.  The lemmas here take a hypothesis of the form `… = .ok value`
and turn it into what was looked up on the way; those for `simp` are equivalences, so nothing is
lost.

The second half is about arenas that change.  An arena is an array, an operation pushes an entry or
sets one, and a look-up behind it is a look-up before it, or finds the new entry.

## What there is

* `bind_eq_ok_iff`, `pure_eq_ok_iff`, `map_eq_ok_iff`, `throw_eq_ok_iff`: a computation that
  succeeds is taken apart.  They are tagged for `simp`, so a long block is taken apart at once.
* `exists_mapM_eq_ok`, `filterM_eq_ok`: loops over lists whose steps all succeed.
* `exists_mem_of_forall₂`, `exists_left_of_forall₂`, `exists_right_of_forall₂`: the partner of an
  entry in a list that is related to another one by one.
* `resolve_push_self`, `resolve_set_self` and those like them: one entry of an arena after an
  operation.
* `function_eq_ok_iff` and those like it: a look-up in a program is an access to an array.  The
  arenas differ in their types only, and so do these lemmas.
-/

set_option autoImplicit false

namespace IrStream

variable {ε α β : Type}

/-! ## Computations that succeed

Each rule is an equivalence, so it can be used in both directions: to take a run apart that is known
to succeed, and to put one together from parts. -/

/-- A composition succeeds if both of its parts do. -/
@[simp] theorem bind_eq_ok_iff {answer : Except ε α} {next : α → Except ε β} {value : β} :
    answer >>= next = .ok value ↔ ∃ a, answer = .ok a ∧ next a = .ok value := by
  cases answer with
  | ok a =>
    constructor
    · intro h
      exact ⟨a, rfl, h⟩
    · rintro ⟨_, found, h⟩
      cases found
      exact h
  | error error =>
    constructor
    · intro h
      cases h
    · rintro ⟨_, h, -⟩
      cases h

/-- An answer that is given is that answer. -/
@[simp] theorem pure_eq_ok_iff {a value : α} : (pure a : Except ε α) = .ok value ↔ value = a := by
  constructor
  · intro h
    cases h
    rfl
  · rintro rfl
    rfl

/-- An answer that is changed was an answer before. -/
@[simp] theorem map_eq_ok_iff {answer : Except ε α} {f : α → β} {value : β} :
    f <$> answer = .ok value ↔ ∃ a, answer = .ok a ∧ value = f a := by
  rw [← bind_pure_comp]
  simp only [bind_eq_ok_iff, pure_eq_ok_iff]

/-- What fails does not succeed. -/
@[simp] theorem throw_eq_ok_iff {error : ε} {value : α} :
    (throw error : Except ε α) = .ok value ↔ False :=
  ⟨fun h => (nomatch h), False.elim⟩

/-- A composition fails in its first part or in its second. -/
theorem bind_eq_error_iff {answer : Except ε α} {next : α → Except ε β} {error : ε} :
    answer >>= next = .error error ↔
      answer = .error error ∨ ∃ a, answer = .ok a ∧ next a = .error error := by
  cases answer with
  | ok a =>
    constructor
    · intro h
      exact .inr ⟨a, rfl, h⟩
    · rintro (h | ⟨_, found, h⟩)
      · cases h
      · cases found
        exact h
  | error other =>
    constructor
    · intro h
      cases h
      exact .inl rfl
    · rintro (h | ⟨_, found, -⟩)
      · cases h
        rfl
      · cases found

/-- Look-ups in a row succeed if each of them does. -/
theorem exists_bind_eq_ok {answer : Except ε α} {next : α → Except ε β}
    (first : ∃ a, answer = .ok a) (second : ∀ a, answer = .ok a → ∃ b, next a = .ok b) :
    ∃ b, answer >>= next = .ok b := by
  obtain ⟨a, found⟩ := first
  obtain ⟨b, more⟩ := second a found
  exact ⟨b, bind_eq_ok_iff.mpr ⟨a, found, more⟩⟩

/-- A loop succeeds if each of its rounds does. -/
theorem exists_mapM_eq_ok {f : α → Except ε β} {list : List α}
    (each : ∀ a ∈ list, ∃ b, f a = .ok b) : ∃ bs, list.mapM f = .ok bs := by
  induction list with
  | nil => exact ⟨[], List.mapM_nil⟩
  | cons a rest ih =>
    rw [List.mapM_cons]
    have others := ih fun other mem => each other (List.mem_cons_of_mem a mem)
    exact exists_bind_eq_ok (each a List.mem_cons_self) fun b _ =>
      exists_bind_eq_ok others fun bs _ => ⟨b :: bs, rfl⟩

/-- An answer that passes a test is one. -/
theorem exists_of_any_toOption {answer : Except ε α} {test : α → Bool}
    (h : answer.toOption.any test = true) : ∃ value, answer = .ok value ∧ test value = true := by
  cases answer with
  | ok value => exact ⟨value, rfl, h⟩
  | error error => cases h

/-- A look-up inside an operation of a program. -/
@[simp] theorem dangling_eq_ok_iff {answer : Except Dangling α} {value : α} :
    (liftM answer : Except ProgramError α) = .ok value ↔ answer = .ok value := by
  cases answer with
  | ok a =>
    constructor
    · intro h
      cases h
      rfl
    · intro h
      cases h
      rfl
  | error handle => exact ⟨fun h => (nomatch h), fun h => (nomatch h)⟩

/-- The loop behind `filterM`, which collects in reverse. -/
theorem filterAuxM_eq_ok {test : α → Except ε Bool} {keep : α → Bool}
    (agree : ∀ a kept, test a = .ok kept → keep a = kept) {list front answer : List α}
    (h : list.filterAuxM test front = .ok answer) :
    answer.reverse = front.reverse ++ list.filter keep := by
  induction list generalizing front with
  | nil =>
    cases h
    rw [List.filter_nil, List.append_nil]
  | cons a rest ih =>
    rw [List.filterAuxM, bind_eq_ok_iff] at h
    obtain ⟨kept, tested, h⟩ := h
    rw [ih h, List.filter_cons, agree a kept tested]
    cases kept <;> simp

/-- A filter whose tests all succeed is a plain one. -/
theorem filterM_eq_ok {test : α → Except ε Bool} {keep : α → Bool}
    (agree : ∀ a kept, test a = .ok kept → keep a = kept) {list answer : List α}
    (h : list.filterM test = .ok answer) : answer = list.filter keep := by
  rw [List.filterM, bind_eq_ok_iff] at h
  obtain ⟨reversed, tested, h⟩ := h
  rw [pure_eq_ok_iff.mp h, filterAuxM_eq_ok agree tested, List.reverse_nil, List.nil_append]

/-- A filter succeeds if each test does. -/
theorem exists_filterM_eq_ok {test : α → Except ε Bool} {list : List α}
    (each : ∀ a ∈ list, ∃ kept, test a = .ok kept) : ∃ answer, list.filterM test = .ok answer := by
  have aux : ∀ front, ∃ answer, list.filterAuxM test front = .ok answer := by
    induction list with
    | nil => exact fun front => ⟨front, rfl⟩
    | cons a rest ih =>
      intro front
      rw [List.filterAuxM]
      exact exists_bind_eq_ok (each a List.mem_cons_self) fun _ _ =>
        ih (fun other mem => each other (List.mem_cons_of_mem a mem)) _
  rw [List.filterM]
  exact exists_bind_eq_ok (aux []) fun _ _ => ⟨_, rfl⟩

/-! ## Lists that are related one by one

Entries of such lists are found at the same places. -/

/-- What is in the first of two lists that are related one by one has something in the second. -/
theorem exists_mem_of_forall₂ {R : α → β → Prop} {as : List α} {bs : List β}
    (h : List.Forall₂ R as bs) {a : α} (mem : a ∈ as) : ∃ b ∈ bs, R a b := by
  induction h with
  | nil => cases mem
  | cons first _ ih =>
    rcases List.mem_cons.mp mem with rfl | mem
    · exact ⟨_, List.mem_cons_self, first⟩
    · obtain ⟨b, there, related⟩ := ih mem
      exact ⟨b, List.mem_cons_of_mem _ there, related⟩

section

variable {R : α → β → Prop} {as : List α} {bs : List β} {index : Nat}

/-- An entry of the second list has a partner in the first, at the same place. -/
theorem exists_left_of_forall₂ (h : List.Forall₂ R as bs) {b : β} (found : bs[index]? = some b) :
    ∃ a, as[index]? = some a ∧ R a b := by
  induction h generalizing index with
  | nil => cases found
  | cons first _ ih =>
    cases index with
    | zero =>
      cases found
      exact ⟨_, rfl, first⟩
    | succ index => exact ih found

/-- An entry of the first list has a partner in the second, at the same place. -/
theorem exists_right_of_forall₂ (h : List.Forall₂ R as bs) {a : α} (found : as[index]? = some a) :
    ∃ b, bs[index]? = some b ∧ R a b := by
  obtain ⟨b, there, related⟩ := exists_left_of_forall₂ h.flip found
  exact ⟨b, there, related⟩

end

/-! ## Arenas that change

An arena grows at its end, and an entry is replaced at its place.  Either way there are two lemmas,
one for the entry in question and one for the others. -/

/-- A look-up succeeds if the handle is inside the arena, and answers what stands there. -/
theorem resolve_eq_ok_iff {arena : Array α} {index : Nat} {dangling : Dangling} {entry : α} :
    resolve arena index dangling = .ok entry ↔ arena[index]? = some entry := by
  rw [resolve]
  split <;> simp_all

section

variable {arena : Array α} {index other : Nat} {dangling : Dangling} {old new entry : α}

/-- The handle of a new entry leads to it. -/
theorem resolve_push_self {index : Nat} (h : index = arena.size) :
    resolve (arena.push new) index dangling = .ok new := by
  rw [resolve_eq_ok_iff, h]
  exact Array.getElem?_push_size

/-- All other handles lead to what they led to before, and a handle outside the arena still does not
lead anywhere. -/
theorem resolve_push_of_ne (h : index ≠ arena.size) :
    resolve (arena.push new) index dangling = resolve arena index dangling := by
  rw [resolve, resolve, Array.getElem?_push, if_neg h]

/-- The handle of an entry that was replaced leads to the new one. -/
theorem resolve_set_self (found : resolve arena index dangling = .ok old) :
    resolve (arena.setIfInBounds index new) index dangling = .ok new := by
  have bound := (Array.getElem?_eq_some_iff.mp (resolve_eq_ok_iff.mp found)).1
  rw [resolve_eq_ok_iff, Array.getElem?_setIfInBounds_self, if_pos bound]

/-- All other handles lead to what they led to before. -/
theorem resolve_set_of_ne (h : other ≠ index) :
    resolve (arena.setIfInBounds index new) other dangling = resolve arena other dangling := by
  rw [resolve, resolve, Array.getElem?_setIfInBounds_ne h.symm]

theorem getElem?_push_of_some (h : arena[index]? = some entry) :
    (arena.push new)[index]? = some entry := by
  rwa [Array.getElem?_push, if_neg (Nat.ne_of_lt (Array.getElem?_eq_some_iff.mp h).1)]

/-- What stands in an arena with a new entry is that entry, or stood there before. -/
theorem getElem?_push_eq_some (h : (arena.push new)[index]? = some entry) :
    (index = arena.size ∧ entry = new) ∨ arena[index]? = some entry := by
  rw [Array.getElem?_push] at h
  split at h
  · next last => exact .inl ⟨last, (Option.some.inj h).symm⟩
  · exact .inr h

/-- What stands in an arena with an entry replaced is the replacement, or stood there before at
another place. -/
theorem getElem?_set_eq_some (found : arena[index]? = some old)
    (h : (arena.setIfInBounds index new)[other]? = some entry) :
    (other = index ∧ entry = new) ∨ (other ≠ index ∧ arena[other]? = some entry) := by
  have bound := (Array.getElem?_eq_some_iff.mp found).1
  by_cases same : other = index
  · subst same
    rw [Array.getElem?_setIfInBounds_self, if_pos bound] at h
    exact .inl ⟨rfl, (Option.some.inj h).symm⟩
  · rw [Array.getElem?_setIfInBounds_ne (Ne.symm same)] at h
    exact .inr ⟨same, h⟩

end

attribute [ext] TypeId ConstId GlobalId FuncId BlockId InstId ArgId

namespace Program

variable {program : Program}

/-! ## The arenas of a program

What is looked up in a program is an entry of an array.  Proofs about operations of programs go over
to the arrays with these lemmas and come back with them. -/

theorem function_eq_ok_iff {id : FuncId} {function : Function} :
    program.function id = .ok function ↔ program.functions[id.index]? = some function :=
  resolve_eq_ok_iff

theorem block_eq_ok_iff {id : BlockId} {block : Block} :
    program.block id = .ok block ↔ program.blocks[id.index]? = some block :=
  resolve_eq_ok_iff

theorem inst_eq_ok_iff {id : InstId} {inst : Inst} :
    program.inst id = .ok inst ↔ program.insts[id.index]? = some inst :=
  resolve_eq_ok_iff

theorem arg_eq_ok_iff {id : ArgId} {arg : Arg} :
    program.arg id = .ok arg ↔ program.args[id.index]? = some arg :=
  resolve_eq_ok_iff

theorem constant_eq_ok_iff {id : ConstId} {constant : Constant} :
    program.constant id = .ok constant ↔ program.constants.entries[id.index]? = some constant :=
  resolve_eq_ok_iff

theorem global_eq_ok_iff {id : GlobalId} {global : Global} :
    program.global id = .ok global ↔ program.globals[id.index]? = some global :=
  resolve_eq_ok_iff

theorem lt_size_of_function {id : FuncId} {function : Function}
    (h : program.function id = .ok function) : id.index < program.functions.size :=
  (Array.getElem?_eq_some_iff.mp (function_eq_ok_iff.mp h)).1

theorem lt_size_of_arg {id : ArgId} {arg : Arg} (h : program.arg id = .ok arg) :
    id.index < program.args.size :=
  (Array.getElem?_eq_some_iff.mp (arg_eq_ok_iff.mp h)).1

theorem lt_size_of_inst {id : InstId} {inst : Inst} (h : program.inst id = .ok inst) :
    id.index < program.insts.size :=
  (Array.getElem?_eq_some_iff.mp (inst_eq_ok_iff.mp h)).1

theorem lt_size_of_block {id : BlockId} {block : Block} (h : program.block id = .ok block) :
    id.index < program.blocks.size :=
  (Array.getElem?_eq_some_iff.mp (block_eq_ok_iff.mp h)).1

/-- The list of functions has each function at its own index. -/
theorem getElem?_functionIds {func : FuncId} {function : Function}
    (found : program.function func = .ok function) :
    program.functionIds[func.index]? = some func := by
  have bound := lt_size_of_function found
  simp [functionIds, bound]

/-- What the list of functions has at an index is the function with that index. -/
theorem eq_of_getElem?_functionIds {index : Nat} {func : FuncId}
    (h : program.functionIds[index]? = some func) : func = ⟨index⟩ := by
  simp only [functionIds, List.getElem?_eq_some_iff, List.getElem_map, List.getElem_range] at h
  exact h.2.symm

end Program

namespace Types

variable {types : Types} {id : TypeId}

theorem shape_eq_ok_iff {shape : TypeShape} :
    types.shape id = .ok shape ↔ types.shapes[id.index]? = some shape :=
  resolve_eq_ok_iff

theorem children_eq_ok_iff {children : List TypeId} :
    types.children id = .ok children ↔
      ∃ shape, types.shape id = .ok shape ∧ children = shape.children := by
  simp only [Types.children, bind_eq_ok_iff, pure_eq_ok_iff]

theorem index_lt_of_shape {shape : TypeShape} (h : types.shape id = .ok shape) :
    id.index < types.size := by
  rw [shape_eq_ok_iff, Array.getElem?_eq_some_iff] at h
  exact h.1

end Types

end IrStream
