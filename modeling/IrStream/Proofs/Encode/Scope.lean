import IrStream.Encode.Basic
import IrStream.Proofs.Program.Lookup
import IrStream.Proofs.Stream.Description

/-!
# Which results are in scope

The encoder carries its scope from instruction to instruction.  `Program.scopeAt` says what the
scope is at a location without running the encoder: it knows the instructions before the location
that have a result.  That it is the scope the encoder has there is `encodeBlocks_eq`.

* `Program.entriesBefore` lists the instructions before a location, and `mem_entriesBefore` says
  that these are the ones with an earlier location.
* `find?_locationsBefore` and `find?_locationsBefore_eq_none_iff` are what a look-up in the scope
  answers.

A state that is threaded through two nested loops is awkward to reason about: what the scope is at
an instruction depends on the run up to there, although it is the same in every run.  Behind
`encodeBlocks_eq` the state is gone.  The right-hand side is a loop over blocks and a loop over
instructions that share nothing but the tables, and each instruction is encoded in a scope that is
computed from its location.  All modules that reason about the encoder of functions start from that
side: `Program.encodeInstAt` for one instruction, `Program.encodeBlockAt` for one block.

The proof goes along the loops.  At the start the scope is empty (`scopeAt_start`), an instruction
adds itself if it has a result (`scopeAt_succ`), and the end of one block is the beginning of the
next (`scopeAt_next`).

## Statements

* `mem_entriesBefore`: **the instructions before a location** are those at an earlier one.
* `find?_locationsBefore`: **what is in scope at a location.**
* `encodeBlocks_cons`: the comparison of the emitted records with the promised ones changes nothing.
* `encodeBlocks_eq`: **every instruction is encoded in the scope of its location.**
-/

set_option autoImplicit false

namespace IrStream

/-! ## Recording locations

The look-up table of the encoder is a list in which a new entry takes the place of an old one. -/

namespace Locations

/-- Removing the entries of one key leaves the look-up of every other key alone.  Recording removes
an older entry of the same instruction before it adds the new one. -/
theorem lookup_filter_of_ne {entries : List (InstId × Location)} {id other : InstId}
    (h : other ≠ id) : (entries.filter (·.1 ≠ id)).lookup other = entries.lookup other := by
  induction entries with
  | nil => rfl
  | cons entry entries ih =>
    by_cases same : entry.1 = id
    · have differs : (other == entry.1) = false := by
        rw [same]
        exact beq_false_of_ne h
      rw [List.filter_cons_of_neg (by simpa using same), ih, List.lookup_cons, differs]
    · rw [List.filter_cons_of_pos (by simpa using same), List.lookup_cons, List.lookup_cons, ih]

/-- An instruction that is recorded is found at its location, and nothing else changes.  An
instruction without a result is not recorded, so no operand can lead to it. -/
theorem find?_record {locations : Locations} {id other : InstId} {hasResult : Bool}
    {location : Location} :
    (locations.record id hasResult location).find? other =
      if hasResult ∧ other = id then some location else locations.find? other := by
  cases hasResult with
  | false => rfl
  | true =>
    by_cases same : other = id
    · simp [record, find?, same]
    · have differs : (other == id) = false := beq_false_of_ne same
      have others : (locations.record id true location).find? other
          = (locations.entries.filter (·.1 ≠ id)).lookup other := by
        rw [record, if_pos rfl, find?, List.lookup_cons, differs]
      rw [others, lookup_filter_of_ne same, if_neg fun h => same h.2]
      rfl

end Locations

namespace Program

variable (program : Program)

/-- Record instructions at their locations, the ones that have a result.  The encoder does this on
its way; here it is one fold over what lies behind. -/
def recordAll (locations : Locations) (entries : List (InstId × Location)) : Locations :=
  entries.foldl
    (fun known entry => known.record entry.1 (program.hasResult entry.1) entry.2) locations

variable {program}

/-- A location that is found was there before, or it comes from an instruction with a result.  A
later entry takes the place of an earlier one with the same handle. -/
theorem find?_recordAll {locations : Locations} {entries : List (InstId × Location)} {id : InstId}
    {location : Location}
    (h : (program.recordAll locations entries).find? id = some location) :
    locations.find? id = some location
      ∨ (id, location) ∈ entries ∧ program.hasResult id = true := by
  induction entries generalizing locations with
  | nil => exact .inl h
  | cons entry entries ih =>
    rcases ih h with known | ⟨mem, hasResult⟩
    · rw [Locations.find?_record] at known
      split at known
      · next new =>
        obtain ⟨hasResult, rfl⟩ := new
        cases known
        exact .inr ⟨List.mem_cons_self, hasResult⟩
      · exact .inl known
    · exact .inr ⟨List.mem_cons_of_mem _ mem, hasResult⟩

/-- Nothing is found exactly if nothing was there before and the instruction is not recorded, or has
no result.  So a failing look-up has one of three causes, and the statement about dangling results
tells them apart. -/
theorem find?_recordAll_eq_none_iff {locations : Locations} {entries : List (InstId × Location)}
    {id : InstId} :
    (program.recordAll locations entries).find? id = none ↔
      locations.find? id = none
        ∧ ∀ location, (id, location) ∈ entries → program.hasResult id = false := by
  induction entries generalizing locations with
  | nil =>
    constructor
    · intro h
      exact ⟨h, by simp⟩
    · exact And.left
  | cons entry entries ih =>
    rw [recordAll, List.foldl_cons, ← recordAll, ih, Locations.find?_record]
    by_cases new : program.hasResult entry.1 = true ∧ id = entry.1
    · rw [if_pos new]
      obtain ⟨hasResult, rfl⟩ := new
      constructor
      · rintro ⟨h, -⟩
        cases h
      · rintro ⟨-, h⟩
        rw [h entry.2 List.mem_cons_self] at hasResult
        cases hasResult
    · rw [if_neg new]
      refine and_congr_right fun _ => ⟨fun h location mem => ?_, fun h location mem => ?_⟩
      · rcases List.mem_cons.mp mem with rfl | mem
        · simpa using new
        · exact h location mem
      · exact h location (List.mem_cons_of_mem _ mem)

/-! ## The instructions before a location -/

variable (program)

/-- Instructions of the block at position `block`, with their locations. -/
def blockEntries (block : Nat) (insts : List InstId) : List (InstId × Location) :=
  insts.zipIdx.map fun entry => (entry.1, ⟨block, entry.2⟩)

/-- The instructions before a location, in the order of the stream.  All of the blocks in front, and
of the block itself the instructions in front. -/
def entriesBefore (function : Function) (here : Location) : List (InstId × Location) :=
  ((program.body function).zipIdx.take here.block).flatMap
      (fun entry => blockEntries entry.2 entry.1)
    ++ (blockEntries here.block ((program.body function)[here.block]?.getD [])).take here.inst

/-- Locations of the instructions before a location that have a result.  It is computed from the
program alone, with no encoder in it. -/
def locationsBefore (function : Function) (here : Location) : Locations :=
  program.recordAll .empty (program.entriesBefore function here)

/-- The scope in which the instruction at a location is encoded.  It does not depend on what was
encoded before, only on the program. -/
def scopeAt (func : FuncId) (function : Function) (here : Location) : FunctionScope :=
  ⟨func, function.name, function.blockTable, program.locationsBefore function here⟩

variable {program} {func : FuncId} {function : Function}

theorem instAt?_eq_some_iff {location : Location} {id : InstId} :
    program.instAt? function location = some id ↔
      ∃ insts, (program.body function)[location.block]? = some insts
        ∧ insts[location.inst]? = some id := by
  simp [instAt?, Option.bind_eq_some_iff]

theorem mem_take_iff_getElem? {α : Type} {list : List α} {count : Nat} {a : α} :
    a ∈ list.take count ↔ ∃ index, index < count ∧ list[index]? = some a := by
  simp only [List.mem_iff_getElem?, List.getElem?_take]
  constructor
  · rintro ⟨index, h⟩
    split at h
    · next bound => exact ⟨index, bound, h⟩
    · cases h
  · rintro ⟨index, bound, h⟩
    exact ⟨index, by rwa [if_pos bound]⟩

theorem mem_take_zipIdx {α : Type} {list : List α} {count index : Nat} {a : α} :
    (a, index) ∈ list.zipIdx.take count ↔ index < count ∧ list[index]? = some a := by
  rw [mem_take_iff_getElem?]
  simp only [List.getElem?_zipIdx, Nat.zero_add, Option.map_eq_some_iff]
  constructor
  · rintro ⟨_, bound, _, found, h⟩
    cases h
    exact ⟨bound, found⟩
  · rintro ⟨bound, found⟩
    exact ⟨index, bound, a, found, rfl⟩

theorem getElem?_blockEntries {block index : Nat} {insts : List InstId} :
    (blockEntries block insts)[index]? = insts[index]?.map fun id => (id, ⟨block, index⟩) := by
  simp [blockEntries, List.getElem?_zipIdx, Function.comp_def]

/-- The entries of a block are its instructions with their places.  Debug instructions have no
place, and are not counted. -/
theorem mem_blockEntries {block : Nat} {insts : List InstId} {id : InstId} {location : Location} :
    (id, location) ∈ blockEntries block insts ↔
      location.block = block ∧ insts[location.inst]? = some id := by
  obtain ⟨there, index⟩ := location
  simp only [List.mem_iff_getElem?, getElem?_blockEntries, Option.map_eq_some_iff]
  constructor
  · rintro ⟨_, _, found, h⟩
    cases h
    exact ⟨rfl, found⟩
  · rintro ⟨rfl, found⟩
    exact ⟨index, id, found, rfl⟩

/-- **The instructions before a location** are those at an earlier one.  Locations are ordered by
block first and by instruction second. -/
theorem mem_entriesBefore {here there : Location} {id : InstId} :
    (id, there) ∈ program.entriesBefore function here ↔
      program.instAt? function there = some id ∧ there.Before here := by
  rw [entriesBefore, List.mem_append, List.mem_flatMap, instAt?_eq_some_iff]
  constructor
  · rintro (⟨⟨insts, block⟩, mem, inBlock⟩ | mem)
    · obtain ⟨bound, found⟩ := mem_take_zipIdx.mp mem
      obtain ⟨rfl, atIndex⟩ := mem_blockEntries.mp inBlock
      exact ⟨⟨insts, found, atIndex⟩, .inl bound⟩
    · obtain ⟨index, bound, found⟩ := mem_take_iff_getElem?.mp mem
      rw [getElem?_blockEntries, Option.map_eq_some_iff] at found
      obtain ⟨_, found, same⟩ := found
      cases same
      refine ⟨⟨_, ?_, found⟩, .inr ⟨rfl, bound⟩⟩
      cases block : (program.body function)[here.block]? with
      | none => simp [block] at found
      | some insts => rfl
  · rintro ⟨⟨insts, block, atIndex⟩, earlier | ⟨same, earlier⟩⟩
    · exact .inl ⟨(insts, there.block), mem_take_zipIdx.mpr ⟨earlier, block⟩,
        mem_blockEntries.mpr ⟨rfl, atIndex⟩⟩
    · refine .inr (mem_take_iff_getElem?.mpr ⟨there.inst, earlier, ?_⟩)
      rw [getElem?_blockEntries, ← same, block, Option.getD_some, atIndex]
      rfl

/-- **What is in scope at a location.**  The location that is answered is one of the instruction
itself, and an earlier one. -/
theorem find?_locationsBefore {here there : Location} {id : InstId}
    (h : (program.locationsBefore function here).find? id = some there) :
    program.instAt? function there = some id ∧ there.Before here
      ∧ program.hasResult id = true := by
  rcases find?_recordAll h with known | ⟨mem, hasResult⟩
  · cases known
  · obtain ⟨located, earlier⟩ := mem_entriesBefore.mp mem
    exact ⟨located, earlier, hasResult⟩

/-- An instruction is not in scope if it comes later, or if it has no result.  There is no other
cause: an instruction that comes before and has a result is found. -/
theorem find?_locationsBefore_eq_none_iff {here : Location} {id : InstId} :
    (program.locationsBefore function here).find? id = none ↔
      ∀ there, program.instAt? function there = some id → there.Before here →
        program.hasResult id = false := by
  rw [locationsBefore, find?_recordAll_eq_none_iff]
  constructor
  · rintro ⟨-, h⟩ there located earlier
    exact h there (mem_entriesBefore.mpr ⟨located, earlier⟩)
  · intro h
    refine ⟨rfl, fun there mem => ?_⟩
    obtain ⟨located, earlier⟩ := mem_entriesBefore.mp mem
    exact h there located earlier

/-! ## The scope as the encoder goes on -/

theorem scopeAt_start : program.scopeAt func function ⟨0, 0⟩ = .ofFunction func function := by
  simp [scopeAt, locationsBefore, entriesBefore, recordAll, FunctionScope.ofFunction]

/-- Behind an instruction its location is known, if it has a result.  This is the step that the
encoder takes behind each record. -/
theorem scopeAt_succ {block : Nat} {done rest : List InstId} {id : InstId}
    (h : (program.body function)[block]? = some (done ++ id :: rest)) :
    program.scopeAt func function ⟨block, done.length + 1⟩
      = { program.scopeAt func function ⟨block, done.length⟩ with
          locations := (program.scopeAt func function ⟨block, done.length⟩).locations.record id
            (program.hasResult id) ⟨block, done.length⟩ } := by
  have more : program.entriesBefore function ⟨block, done.length + 1⟩
      = program.entriesBefore function ⟨block, done.length⟩ ++ [(id, ⟨block, done.length⟩)] := by
    simp [entriesBefore, h, List.take_add_one, getElem?_blockEntries]
  simp [scopeAt, locationsBefore, more, recordAll]

/-- The end of a block is the beginning of the next one.  No location is forgotten between blocks,
so operands may refer to earlier ones. -/
theorem scopeAt_next {block : Nat} {insts : List InstId}
    (h : (program.body function)[block]? = some insts) :
    program.scopeAt func function ⟨block + 1, 0⟩
      = program.scopeAt func function ⟨block, insts.length⟩ := by
  have all : (blockEntries block insts).take insts.length = blockEntries block insts :=
    List.take_of_length_le (by simp [blockEntries])
  have same : program.entriesBefore function ⟨block + 1, 0⟩
      = program.entriesBefore function ⟨block, insts.length⟩ := by
    simp [entriesBefore, h, List.take_add_one, List.getElem?_zipIdx, all]
  simp [scopeAt, locationsBefore, same]

variable (program) in
/-- The record of the instruction at a location, in the scope of that location. -/
def encodeInstAt (word : WordSize) (func : FuncId) (function : Function) (here : Location)
    (id : InstId) : Encoding InstRecord := do
  let record ← program.encodeInst word (program.scopeAt func function here) id
  let inst ← (program.inst id : Except Dangling Inst)
  let _ ← (program.types.isVoid inst.type : Except Dangling Bool)
  return record

variable (program) in
/-- The records of the block at a position, each in the scope of its location. -/
def encodeBlockAt (word : WordSize) (func : FuncId) (function : Function) (position : Nat)
    (id : BlockId) : Encoding (List InstRecord) := do
  let block ← (program.block id : Except Dangling Block)
  let insts ← (program.emitted block : Except Dangling _)
  Encoding.count fun stats => { stats with
    skippedInstructions := stats.skippedInstructions + (block.insts.length - insts.length) }
  let count ← Encoding.sized word insts.length
  let records ← insts.zipIdx.mapM fun entry =>
    program.encodeInstAt word func function ⟨position, entry.2⟩ entry.1
  Encoding.count fun stats => { stats with instructions := stats.instructions + count }
  return records

variable {word : WordSize}

theorem emitted_eq_ok {block : Block} {insts : List InstId}
    (h : program.emitted block = .ok insts) : insts = block.insts.filter program.isEmitted := by
  refine filterM_eq_ok (fun id kept tested => ?_) h
  simp only [bind_eq_ok_iff, pure_eq_ok_iff] at tested
  obtain ⟨inst, found, rfl⟩ := tested
  rw [isEmitted, found]

theorem blockBody_of_emitted {id : BlockId} {block : Block} {insts : List InstId}
    (found : program.block id = .ok block) (h : program.emitted block = .ok insts) :
    program.blockBody id = insts := by
  rw [blockBody, found, emitted_eq_ok h]

theorem hasResult_of_isVoid {id : InstId} {inst : Inst} {isVoid : Bool}
    (found : program.inst id = .ok inst) (h : program.types.isVoid inst.type = .ok isVoid) :
    program.hasResult id = !isVoid := by
  simp only [hasResult, found, h]

theorem dangling_bind_congr {α β : Type} {answer : Except Dangling α} {next other : α → Encoding β}
    (h : ∀ a, answer = .ok a → next a = other a) :
    (liftM answer : Encoding α) >>= next = (liftM answer : Encoding α) >>= other := by
  cases answer with
  | ok a => exact (pure_bind a next).trans ((h a rfl).trans (pure_bind a other).symm)
  | error handle => rfl

/-! ## The promised number of records

The stream counts the records of a block in front of them, so the encoder compares the count with
what it has emitted at the end of the block.  There is one record for each instruction, whatever the
scope and the state are, so the two numbers are always the same: `encodeBlocks_cons` is the step of
the encoder without the comparison, and nothing behind it looks at the comparison again. -/

theorem sized_bind_congr {α : Type} {value : Nat} {next other : Nat → Encoding α}
    (h : next value = other value) :
    Encoding.sized word value >>= next = Encoding.sized word value >>= other := by
  rw [Encoding.sized, WordSize.fit]
  split
  · exact (pure_bind value next).trans (h.trans (pure_bind value other).symm)
  · rfl

/-- What follows the instructions of a block has as many records as they are.  It is what makes the
comparison that comes behind them superfluous. -/
theorem encodeInsts_bind_congr {α : Type} {block position : Nat} {insts : List InstId}
    {scope : FunctionScope} {next other : List InstRecord × FunctionScope → Encoding α}
    (h : ∀ records after, records.length = insts.length →
      next (records, after) = other (records, after)) :
    program.encodeInsts word block scope position insts >>= next
      = program.encodeInsts word block scope position insts >>= other := by
  induction insts generalizing scope position next other with
  | nil =>
    simp only [encodeInsts, pure_bind]
    exact h [] scope rfl
  | cons id rest ih =>
    simp only [encodeInsts, bind_assoc, pure_bind]
    refine bind_congr fun record => bind_congr fun inst => bind_congr fun isVoid => ih ?_
    intro records after length
    exact h (record :: records) after (congrArg (· + 1) length)

/-- The comparison of the emitted records with the promised ones changes nothing.  It is made by the
encoder all the same, and this is the equation without it. -/
theorem encodeBlocks_cons {scope : FunctionScope} {position : Nat} {id : BlockId}
    {rest : List BlockId} :
    program.encodeBlocks word scope position (id :: rest) = do
      let block ← (program.block id : Except Dangling Block)
      let insts ← (program.emitted block : Except Dangling _)
      Encoding.count fun stats => { stats with
        skippedInstructions := stats.skippedInstructions + (block.insts.length - insts.length) }
      let count ← Encoding.sized word insts.length
      let (records, scope) ← program.encodeInsts word position scope 0 insts
      Encoding.count fun stats => { stats with instructions := stats.instructions + count }
      return records :: (← program.encodeBlocks word scope (position + 1) rest) := by
  rw [encodeBlocks]
  refine bind_congr fun block => bind_congr fun insts => bind_congr fun _ =>
    sized_bind_congr (encodeInsts_bind_congr fun records after length => ?_)
  simp only [length, ne_eq, not_true_eq_false, if_false]

/-! ## Every instruction in its own scope

First one block from any point in it, by induction on what is left of the block; then all blocks, by
induction on those that are left. -/

variable (func) (word) in
/-- The instructions of a block are encoded in the scopes of their locations.  By induction on the
instructions that are left; the scope that is handed on is that of the next location. -/
theorem encodeInsts_eq {block : Nat} {done rest : List InstId}
    (h : (program.body function)[block]? = some (done ++ rest)) :
    program.encodeInsts word block (program.scopeAt func function ⟨block, done.length⟩) done.length
        rest
      = do
        let records ← (rest.zipIdx done.length).mapM fun entry =>
          program.encodeInstAt word func function ⟨block, entry.2⟩ entry.1
        return (records, program.scopeAt func function ⟨block, done.length + rest.length⟩) := by
  induction rest generalizing done with
  | nil => simp [encodeInsts]
  | cons id rest ih =>
    have next := @ih (done ++ [id]) (by simpa using h)
    rw [List.length_append, List.length_singleton] at next
    simp only [encodeInsts, List.zipIdx_cons, List.mapM_cons, encodeInstAt, bind_assoc, pure_bind]
    refine bind_congr fun record => dangling_bind_congr fun inst found =>
      dangling_bind_congr fun isVoid void => ?_
    have hasResult := hasResult_of_isVoid found void
    rw [scopeAt_succ h, hasResult] at next
    rw [next]
    simp only [encodeInstAt, bind_assoc, pure_bind, List.length_cons, Nat.add_assoc,
      Nat.add_comm 1]

theorem encodeInsts_all {block : Nat} {insts : List InstId}
    (h : (program.body function)[block]? = some insts) :
    program.encodeInsts word block (program.scopeAt func function ⟨block, 0⟩) 0 insts
      = do
        let records ← insts.zipIdx.mapM fun entry =>
          program.encodeInstAt word func function ⟨block, entry.2⟩ entry.1
        return (records, program.scopeAt func function ⟨block, insts.length⟩) := by
  have all : (program.body function)[block]? = some ([] ++ insts) := h
  have inPlace := encodeInsts_eq func word all
  rwa [List.length_nil, Nat.zero_add] at inPlace

variable (program) (func) (word) in
/-- **Every instruction is encoded in the scope of its location.**  By induction on the blocks that
are left.  With this the encoder is a map over locations, and no proof behind it has to carry a
scope along. -/
theorem encodeBlocks_eq {done rest : List BlockId} (h : function.blocks = done ++ rest) :
    program.encodeBlocks word (program.scopeAt func function ⟨done.length, 0⟩) done.length rest
      = (rest.zipIdx done.length).mapM fun entry =>
          program.encodeBlockAt word func function entry.2 entry.1 := by
  induction rest generalizing done with
  | nil => simp [encodeBlocks]
  | cons id rest ih =>
    have next := @ih (done ++ [id]) (by simpa using h)
    rw [List.length_append, List.length_singleton] at next
    rw [encodeBlocks_cons]
    simp only [List.zipIdx_cons, List.mapM_cons, encodeBlockAt, bind_assoc, pure_bind]
    refine dangling_bind_congr fun block found => dangling_bind_congr fun insts isEmitted =>
      bind_congr fun _ => bind_congr fun count => ?_
    have here : (program.body function)[done.length]? = some insts := by
      simp [body, h, blockBody_of_emitted found isEmitted]
    rw [encodeInsts_all here, ← scopeAt_next here]
    simp only [bind_assoc, pure_bind, next, encodeBlockAt]

theorem encodeBlocks_ofFunction :
    program.encodeBlocks word (.ofFunction func function) 0 function.blocks
      = function.blocks.zipIdx.mapM fun entry =>
          program.encodeBlockAt word func function entry.2 entry.1 := by
  have all : function.blocks = [] ++ function.blocks := rfl
  have inPlace := encodeBlocks_eq program func word all
  rwa [List.length_nil, scopeAt_start] at inPlace

end Program

end IrStream
