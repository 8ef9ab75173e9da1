import IrStream.Proofs.Document.Bodies
import Mathlib.Data.List.Forall2

/-!
# The program of a document

A program that is loaded from a document has the structure of the document: `Program.Loads` says
that there is a function for each entry, in it a block for each entry there, and in that an
instruction for each entry, all in the order in which they are listed.  An instruction does what its
entry asks for (`InstEntry.IsKind`) and has as many operands as the entry.

Instructions get their operands when all of them are there, so `Program.Opens` is what is known of
an instruction before.

## How the proof goes

Loading is a nest of loops — functions, blocks, instructions, operands — over a program that all of
them change.  For each loop there is one lemma that says what a run of it leaves behind, with the
name of the loop and `_spec` behind it, and each is proved by induction on the list that the loop
goes over.

What makes the inductions possible is that the body of a loop does not spoil what earlier rounds
have built.  That is said by *footprints* (`Program.Frame`, in `Program/Frame.lean`): a step names
the functions, blocks and instructions that it may change, and every fact about something outside of
its footprint survives.  So to each predicate belongs a lemma `keep`, and the induction step of a
`_spec` consists of the new entry, and of the old ones kept.

* `addBlocks_spec`, `addInsts_spec`, `fillBlocks_spec` — a body is opened: its blocks and its
  instructions are there, with their names, and without operands.
* `finishInst_spec` — one round gives an instruction its operands and its final type.  What it
  stores is exact (`settles_iff`), which other modules build on.
* `defineFunction_spec` — a function is loaded, and those before it are as they were.
* `declare_spec`, `load_spec` — the phases before the bodies declare the functions in the order of
  the entries, and the loop over the bodies finishes them.

Several parts of the loader are given names here (`openBody`, `Document.declare`, `resultOf`,
`returnOf`), each with an equation that says which part of the loader it is.
-/

set_option autoImplicit false

namespace IrStream

namespace InstEntry

/-- What an instruction does that is written like this. -/
inductive IsKind (entry : InstEntry) : InstKind → Prop
  /-- An allocation, of a type that the entry names. -/
  | alloca {allocated : TypeId} (op : entry.op = "alloca") : IsKind entry (.alloca allocated)
  /-- A pointer into an object, of a type that the entry names. -/
  | getElementPtr {source : TypeId} (op : entry.op = "getelementptr") :
      IsKind entry (.getElementPtr source)
  /-- A comparison.  The predicate alone decides what is compared. -/
  | compare {name : String} {comparison : Comparison} (op : entry.op = "icmp" ∨ entry.op = "fcmp")
      (predicate : entry.predicate = some name)
      (known : Comparison.ofName? name = some comparison) : IsKind entry (.compare comparison)
  /-- Any other mnemonic stands for itself. -/
  | mnemonic (op : entry.op ∉ ["alloca", "getelementptr", "icmp", "fcmp"]) :
      IsKind entry (.ofMnemonic entry.op)

/-- An operator that is written without a type gets the one of its first operand. -/
def Inferred (entry : InstEntry) : Prop :=
  entry.type = none ∧ ∃ op, InstKind.ofMnemonic entry.op = .binary op

/-- Whether an instruction that is written like this gets into the stream. -/
def isEmitted (entry : InstEntry) : Bool :=
  !(InstKind.ofMnemonic entry.op).isDebug

/-- How many operands an instruction gets: as many as are written, but an `alloca` without any gets
a count. -/
def operandCount (entry : InstEntry) : Nat :=
  match entry.op, entry.args with
  | "alloca", [] => 1
  | _, args => args.length

variable {entry : InstEntry} {kind : InstKind}

/-- The mnemonics of kinds that need more than a mnemonic. -/
theorem isEmitted_of_mem (h : entry.op ∈ ["alloca", "getelementptr", "icmp", "fcmp"]) :
    entry.isEmitted = true := by
  have emitted : ∀ op ∈ ["alloca", "getelementptr", "icmp", "fcmp"],
      (!(InstKind.ofMnemonic op).isDebug) = true := by decide +kernel
  exact emitted entry.op h

/-- Debug instructions are the ones that are left out of the stream. -/
theorem IsKind.isEmitted (h : entry.IsKind kind) : entry.isEmitted = !kind.isDebug := by
  cases h with
  | alloca op => exact isEmitted_of_mem (by simp [op])
  | getElementPtr op => exact isEmitted_of_mem (by simp [op])
  | compare op => exact isEmitted_of_mem (by rcases op with op | op <;> simp [op])
  | mnemonic => rfl

/-- An allocation needs a type, so no mnemonic alone makes one. -/
theorem ofMnemonic_ne_alloca {name : String} {allocated : TypeId} :
    InstKind.ofMnemonic name ≠ .alloca allocated := by
  unfold InstKind.ofMnemonic
  repeat' split
  all_goals simp

/-- Only one mnemonic allocates. -/
theorem IsKind.op_of_alloca {allocated : TypeId} (h : entry.IsKind (.alloca allocated)) :
    entry.op = "alloca" := by
  generalize same : InstKind.alloca allocated = kind at h
  cases h with
  | alloca op => exact op
  | getElementPtr => cases same
  | compare => cases same
  | mnemonic => exact absurd same.symm ofMnemonic_ne_alloca

/-- The mnemonics of kinds that need more are not those of operators. -/
theorem ofMnemonic_ne_binary_of_mem (h : entry.op ∈ ["alloca", "getelementptr", "icmp", "fcmp"]) :
    ¬ ∃ op, InstKind.ofMnemonic entry.op = .binary op := by
  have others : ∀ name ∈ ["alloca", "getelementptr", "icmp", "fcmp"],
      InstKind.ofMnemonic name = .other name := by decide +kernel
  rintro ⟨op, binary⟩
  cases (others entry.op h).symm.trans binary

/-- An operator is written with its name. -/
theorem IsKind.exists_binary_iff (h : entry.IsKind kind) :
    (∃ op, kind = .binary op) ↔ ∃ op, InstKind.ofMnemonic entry.op = .binary op := by
  cases h with
  | alloca op =>
    exact iff_of_false (by simp) (ofMnemonic_ne_binary_of_mem (by simp [op]))
  | getElementPtr op =>
    exact iff_of_false (by simp) (ofMnemonic_ne_binary_of_mem (by simp [op]))
  | compare op =>
    refine iff_of_false (by simp) (ofMnemonic_ne_binary_of_mem ?_)
    rcases op with op | op <;> simp [op]
  | mnemonic => exact Iff.rfl

/-- Whether a type is inferred can be said of the kind, which the entry determines. -/
theorem IsKind.inferred_iff (h : entry.IsKind kind) :
    entry.Inferred ↔ entry.type = none ∧ ∃ op, kind = .binary op := by
  rw [Inferred, h.exists_binary_iff]

/-- A float comparison is written like an integer comparison, and its predicate is looked up among
those of both. -/
theorem IsKind.compare_of_fcmp (h : entry.IsKind kind) (op : entry.op = "fcmp") :
    ∃ name comparison, entry.predicate = some name ∧ Comparison.ofName? name = some comparison
      ∧ kind = .compare comparison := by
  cases h with
  | alloca other => simp [op] at other
  | getElementPtr other => simp [op] at other
  | compare _ predicate known => exact ⟨_, _, predicate, known, rfl⟩
  | mnemonic other => simp [op] at other

end InstEntry

namespace Program

variable (program : Program)

/-- The instruction is the one of an entry, before it gets its operands.  If it is to have the type
of one of them, it has none so far. -/
def Opens (id : InstId) (entry : InstEntry) : Prop :=
  ∃ inst, program.inst id = .ok inst ∧ inst.name = entry.name ∧ entry.IsKind inst.kind
    ∧ (entry.Inferred → inst.type = .void)

/-- The instruction is the one of an entry. -/
def LoadsInst (id : InstId) (entry : InstEntry) : Prop :=
  ∃ inst, program.inst id = .ok inst ∧ inst.name = entry.name ∧ entry.IsKind inst.kind
    ∧ inst.operands.length = entry.operandCount

/-- The function is the one of an entry, without its blocks. -/
def Declares (id : FuncId) (entry : FunctionEntry) : Prop :=
  ∃ function, program.function id = .ok function ∧ function.name = entry.name
    ∧ function.blocks = []

/-- The block is the one of an entry. -/
def LoadsBlock (id : BlockId) (entry : BlockEntry) : Prop :=
  ∃ block, program.block id = .ok block ∧ block.label = entry.label
    ∧ List.Forall₂ program.LoadsInst block.insts entry.insts

/-- The function is the one of an entry. -/
def LoadsFunction (id : FuncId) (entry : FunctionEntry) : Prop :=
  ∃ function, program.function id = .ok function ∧ function.name = entry.name
    ∧ List.Forall₂ program.LoadsBlock function.blocks entry.blocks

/-- The functions are those of a document. -/
def Loads (document : Document) : Prop :=
  List.Forall₂ program.LoadsFunction program.functionIds document.functions

variable {program} {footprint : Footprint} {p q : Program}

/-! ## What was loaded stays

A fact about an entry is kept by every step whose footprint leaves the entry out. -/

/-- An instruction outside of the footprint stays open. -/
theorem Opens.keep {id : InstId} {entry : InstEntry} (h : p.Opens id entry)
    (frame : Frame footprint p q) (outside : ¬ footprint.inst id) : q.Opens id entry := by
  obtain ⟨inst, found, known⟩ := h
  exact ⟨inst, (frame.inst id outside).trans found, known⟩

/-- An instruction outside of the footprint stays loaded. -/
theorem LoadsInst.keep {id : InstId} {entry : InstEntry} (h : p.LoadsInst id entry)
    (frame : Frame footprint p q) (outside : ¬ footprint.inst id) : q.LoadsInst id entry := by
  obtain ⟨inst, found, known⟩ := h
  exact ⟨inst, (frame.inst id outside).trans found, known⟩

/-- A function outside of the footprint stays declared. -/
theorem Declares.keep {id : FuncId} {entry : FunctionEntry} (h : p.Declares id entry)
    (frame : Frame footprint p q) (outside : ¬ footprint.function id) : q.Declares id entry := by
  obtain ⟨function, found, known⟩ := h
  exact ⟨function, (frame.function id outside).trans found, known⟩

/-- Building one function does not touch another one. -/
theorem LoadsFunction.keep {id func : FuncId} {entry : FunctionEntry}
    (h : p.LoadsFunction id entry) (frame : Frame (.body p func) p q) (other : id ≠ func) :
    q.LoadsFunction id entry := by
  obtain ⟨function, found, named, blocks⟩ := h
  refine ⟨function, (frame.function id other).trans found, named, blocks.imp ?_⟩
  rintro listed blockEntry ⟨block, there, labelled, insts⟩
  refine ⟨block, ?_, labelled, insts.imp fun inst instEntry loads => loads.keep frame ?_⟩
  · exact (frame.block listed (Nat.not_le_of_lt (lt_size_of_block there))).trans there
  · obtain ⟨_, known, -⟩ := loads
    exact Nat.not_le_of_lt (lt_size_of_inst known)

end Program

namespace Loader

open Program

variable {p q r : Program}

/-- A loop changes no more than its rounds may. -/
theorem frame_forM {α : Type} {footprint : Footprint} {step : α → Loader PUnit} {list : List α}
    (each : ∀ a ∈ list, ∀ {r s}, Yields (step a) r () s → Frame footprint r s) {done : PUnit}
    (run : Yields (list.forM step) p done q) : Frame footprint p q := by
  induction list generalizing p with
  | nil =>
    cases yields_forM_nil_iff.mp run
    exact (SameBodies.refl _).frame
  | cons a rest ih =>
    obtain ⟨r, first, others⟩ := yields_forM_cons_iff.mp run
    exact (each a List.mem_cons_self first).trans
      (ih (fun b mem => each b (List.mem_cons_of_mem _ mem)) others)

/-! ## Blocks

A block is added at the end of its function, and its label, if there is one, comes into scope. -/

/-- What a new block does to the scope: it is defined if it has a label. -/
def scopeWithBlock (scope : Scope) (label : Option String) (id : BlockId) :
    Except ProgramError Scope :=
  match label with
  | some label => scope.defineBlock label id
  | none => .ok scope

/-- A block is added and enters the scope before the rest is added. -/
theorem addBlocks_cons {func : FuncId} {scope after : Scope} {entry : BlockEntry}
    {rest : List BlockEntry} {blocks : List (BlockId × BlockEntry)}
    (run : Yields (addBlocks func scope (entry :: rest)) p (after, blocks) q) :
    ∃ id r larger more, p.addBlock func entry.label = .ok (id, r)
      ∧ scopeWithBlock scope entry.label id = .ok larger
      ∧ Yields (addBlocks func larger rest) r (after, more) q ∧ blocks = (id, entry) :: more := by
  rw [addBlocks] at run
  simp only [yields_bind_iff, yields_get_iff, yields_dangling_iff, yields_set_iff] at run
  obtain ⟨_, _, ⟨rfl, rfl⟩, ⟨id, r⟩, _, ⟨added, rfl⟩, _, _, rfl, run⟩ := run
  split at run
  · next label labelled =>
    simp only [yields_bind_iff, yields_except_iff, yields_pure_iff] at run
    obtain ⟨larger, _, ⟨defined, rfl⟩, ⟨_, more⟩, _, others, same, rfl⟩ := run
    cases same
    exact ⟨id, _, larger, more, added, by rw [labelled]; exact defined, others, rfl⟩
  · next unlabelled =>
    simp only [yields_bind_iff, yields_pure_iff] at run
    obtain ⟨_, _, ⟨rfl, rfl⟩, ⟨_, more⟩, _, others, same, rfl⟩ := run
    cases same
    exact ⟨id, _, _, more, added, by rw [unlabelled]; rfl, others, rfl⟩

/-- The blocks of a function are new ones, one for each entry. -/
theorem addBlocks_spec {func : FuncId} {scope after : Scope} {entries : List BlockEntry}
    {blocks : List (BlockId × BlockEntry)}
    (run : Yields (addBlocks func scope entries) p (after, blocks) q) {function : Function}
    (found : p.function func = .ok function) :
    blocks.map (·.2) = entries ∧ (blocks.map (·.1)).Nodup
      ∧ (∀ block ∈ blocks, p.blocks.size ≤ block.1.index
        ∧ q.block block.1 = .ok ⟨func, block.2.label, []⟩)
      ∧ q.function func = .ok { function with blocks := function.blocks ++ blocks.map (·.1) }
      ∧ Frame (.body p func) p q := by
  induction entries generalizing p function scope blocks with
  | nil =>
    rw [addBlocks, yields_pure_iff] at run
    obtain ⟨same, rfl⟩ := run
    cases same
    exact ⟨rfl, List.nodup_nil, by simp, by simpa using found, (SameBodies.refl q).frame⟩
  | cons entry entries ih =>
    obtain ⟨id, r, larger, more, added, -, others, rfl⟩ := addBlocks_cons run
    obtain ⟨rfl, size, ⟨_, again, later⟩, block, first⟩ := addBlock_frame added
    cases found.symm.trans again
    obtain ⟨entries, distinct, new, listed, rest⟩ := ih others later
    -- the blocks behind this one are new after it was added, so none of them is this one
    have apart : ∀ other ∈ more, p.blocks.size < other.1.index := by
      intro other mem
      have := (new other mem).1
      omega
    have here := (rest.block ⟨p.blocks.size⟩ (by simp [Footprint.body, size])).trans block
    refine ⟨by simp [entries], List.nodup_cons.mpr ⟨?_, distinct⟩, ?_, by simpa using listed, ?_⟩
    · intro mem
      obtain ⟨other, mem, same⟩ := List.mem_map.mp mem
      exact Nat.lt_irrefl _ (same ▸ apart other mem)
    · rintro other mem
      rcases List.mem_cons.mp mem with rfl | mem
      · exact ⟨Nat.le_refl _, here⟩
      · exact ⟨Nat.le_of_lt (apart other mem), (new other mem).2⟩
    · exact first.trans (rest.widen (Footprint.body_within first.blocks first.insts))

/-! ## Instructions without operands

Operands may name instructions further down, so all instructions of a function are entered before
the first operand is looked at.  The predicate `Opened` collects the handles of a body on the way:
they are new, and no handle occurs twice, which the rounds rely on later. -/

/-- A key that is required is there, and asking for it changes nothing. -/
@[simp] theorem yields_requireKey_iff {α : Type} {op key : String} {value? : Option α} {value : α} :
    Yields (requireKey op key value?) p value q ↔ value? = some value ∧ q = p := by
  cases value? with
  | none => simp [requireKey]
  | some a => simp [requireKey, eq_comm]

/-- The kind of an instruction is the one that its entry asks for. -/
theorem kindOf_spec {entry : InstEntry} {kind : InstKind} (run : Yields (kindOf entry) p kind q) :
    entry.IsKind kind ∧ p.Grows q := by
  rw [kindOf] at run
  split at run
  case h_1 op =>
    simp only [yields_bind_iff, yields_requireKey_iff, yields_pure_iff] at run
    obtain ⟨_, _, ⟨-, rfl⟩, _, _, resolved, rfl, rfl⟩ := run
    exact ⟨.alloca op, (resolves_typeOf _).grows resolved⟩
  case h_2 op =>
    simp only [yields_bind_iff, yields_requireKey_iff, yields_pure_iff] at run
    obtain ⟨_, _, ⟨-, rfl⟩, _, _, resolved, rfl, rfl⟩ := run
    exact ⟨.getElementPtr op, (resolves_typeOf _).grows resolved⟩
  case h_3 op | h_4 op =>
    -- both kinds of comparison look up the same name in the same place
    simp only [yields_bind_iff, yields_requireKey_iff] at run
    obtain ⟨name, _, ⟨predicate, rfl⟩, run⟩ := run
    split at run
    · next known =>
      obtain ⟨rfl, rfl⟩ := yields_pure_iff.mp run
      exact ⟨.compare (by simp [op]) predicate known, .refl⟩
    · exact (yields_throw_iff.mp run).elim
  case h_5 notAlloca notOffset notInt notFloat =>
    obtain ⟨rfl, rfl⟩ := yields_pure_iff.mp run
    refine ⟨.mnemonic ?_, .refl⟩
    simp only [List.mem_cons, List.not_mem_nil, or_false, not_or]
    exact ⟨notAlloca, notOffset, notInt, notFloat⟩

/-- Instructions that were added, with their entries: they are new, and each is there once. -/
structure Opened (p q : Program) (insts : List (InstId × InstEntry)) : Prop where
  new : ∀ inst ∈ insts, p.insts.size ≤ inst.1.index
  distinct : (insts.map (·.1)).Nodup
  opens : ∀ inst ∈ insts, q.Opens inst.1 inst.2

/-- Two lists of instructions that are opened one after the other are opened together: what is done
for the second list stays outside of the entries of the first. -/
theorem Opened.append {first second : List (InstId × InstEntry)} (one : Opened p r first)
    (two : Opened r q second) {footprint : Footprint} (before : p.insts.size ≤ r.insts.size)
    (frame : Frame footprint r q) (outside : ∀ id, footprint.inst id → r.insts.size ≤ id.index) :
    Opened p q (first ++ second) := by
  have old : ∀ inst ∈ first, inst.1.index < r.insts.size := by
    intro inst mem
    obtain ⟨_, found, -⟩ := one.opens inst mem
    exact lt_size_of_inst found
  refine ⟨fun inst mem => ?_, ?_, fun inst mem => ?_⟩
  · rcases List.mem_append.mp mem with mem | mem
    · exact one.new inst mem
    · exact Nat.le_trans before (two.new inst mem)
  · rw [List.map_append, List.nodup_append]
    refine ⟨one.distinct, two.distinct, ?_⟩
    simp only [List.mem_map]
    rintro _ ⟨left, inFirst, rfl⟩ _ ⟨right, inSecond, rfl⟩ same
    have := old left inFirst
    have := two.new right inSecond
    rw [same] at *
    omega
  · rcases List.mem_append.mp mem with mem | mem
    · exact (one.opens inst mem).keep frame
        (mt (outside inst.1) (Nat.not_le_of_lt (old inst mem)))
    · exact two.opens inst mem

/-- What the result of an instruction does to the scope: it is defined if it has a name. -/
def scopeWith (scope : Scope) (name : Option String) (id : InstId) : Except ProgramError Scope :=
  match name with
  | some name => scope.defineValue name (.inst id)
  | none => .ok scope

/-- The result type of an instruction: the one it states, or that of its kind. -/
def resultOf (entry : InstEntry) (kind : InstKind) : Loader TypeId :=
  match entry.type with
  | some type => typeOf type
  | none => pure (defaultType kind)

/-- The type that is stated is resolved, and the default is there already. -/
theorem resolves_resultOf (entry : InstEntry) (kind : InstKind) :
    Resolves (resultOf entry kind) := by
  unfold resultOf
  split
  · exact resolves_typeOf _
  · exact .pure _

/-- The steps of adding an instruction, with the programs between them. -/
theorem addInst_steps {block : BlockId} {scope after : Scope} {entry : InstEntry} {id : InstId}
    (run : Yields (addInst block scope entry) p (after, id) q) :
    ∃ kind type r s, Yields (kindOf entry) p kind r ∧ Yields (resultOf entry kind) r type s
      ∧ s.addInst block kind type [] entry.name = .ok (id, q)
      ∧ scopeWith scope entry.name id = .ok after := by
  rw [addInst] at run
  obtain ⟨kind, r, asked, run⟩ := yields_bind_iff.mp run
  extract_lets add at run
  have added {type s} (run : Yields (add type) s (after, id) q) :
      s.addInst block kind type [] entry.name = .ok (id, q)
        ∧ scopeWith scope entry.name id = .ok after := by
    simp only [add, yields_bind_iff, yields_get_iff, yields_dangling_iff, yields_set_iff] at run
    obtain ⟨_, _, ⟨rfl, rfl⟩, ⟨id', r⟩, _, ⟨added, rfl⟩, _, _, rfl, run⟩ := run
    split at run
    · next name named =>
      simp only [yields_bind_iff, yields_except_iff, yields_pure_iff] at run
      obtain ⟨_, _, ⟨defined, rfl⟩, h, rfl⟩ := run
      cases h
      rw [named] at added ⊢
      exact ⟨added, defined⟩
    · next named =>
      obtain ⟨h, rfl⟩ := yields_pure_iff.mp run
      cases h
      rw [named] at added ⊢
      exact ⟨added, rfl⟩
  have split : Yields (resultOf entry kind >>= add) r (after, id) q := by
    rw [resultOf]
    cases stated : entry.type with
    | some type =>
      rw [stated] at run
      exact run
    | none =>
      rw [stated] at run
      exact run
  obtain ⟨type, s, resolved, rest⟩ := yields_bind_iff.mp split
  exact ⟨kind, type, r, s, asked, resolved, added rest⟩

/-- The two of these steps that later modules ask for: the operation, and what enters the scope. -/
theorem addInst_eq_ok {block : BlockId} {scope after : Scope} {entry : InstEntry} {id : InstId}
    (run : Yields (addInst block scope entry) p (after, id) q) :
    ∃ kind type r, entry.IsKind kind ∧ p.Grows r
      ∧ r.addInst block kind type [] entry.name = .ok (id, q)
      ∧ scopeWith scope entry.name id = .ok after := by
  obtain ⟨kind, type, r, s, asked, resolved, added⟩ := addInst_steps run
  obtain ⟨isKind, grows⟩ := kindOf_spec asked
  exact ⟨kind, type, s, isKind, grows.trans ((resolves_resultOf _ _).grows resolved), added⟩

/-- An instruction is added at the end of its block, and nothing else in the program changes. -/
theorem addInst_spec {block : BlockId} {scope after : Scope} {entry : InstEntry} {id : InstId}
    (run : Yields (addInst block scope entry) p (after, id) q) {owner : Block}
    (found : p.block block = .ok owner) :
    Opened p q [(id, entry)]
      ∧ q.block block = .ok { owner with insts := owner.insts ++ [id] }
      ∧ Frame (.filling p [block]) p q := by
  obtain ⟨kind, type, _, r, asked, resolved, added, -⟩ := addInst_steps run
  obtain ⟨isKind, grows⟩ := kindOf_spec asked
  have same := (grows.trans ((resolves_resultOf _ _).grows resolved)).sameBodies
  have untyped (inferred : entry.Inferred) : type = .void := by
    obtain ⟨none, op, rfl⟩ := isKind.inferred_iff.mp inferred
    rw [resultOf, none] at resolved
    cases (yields_pure_iff.mp resolved).1
    rfl
  obtain ⟨rfl, ⟨_, again, listed⟩, made, frame⟩ := addInst_frame added
  have sameSize : r.insts.size = p.insts.size := congrArg Array.size same.insts
  have sameBlock : r.block block = p.block block := by
    rw [Program.block, Program.block, same.blocks]
  rw [sameBlock, found] at again
  cases again
  refine ⟨⟨?_, by simp, ?_⟩, listed, ?_⟩
  · simp [sameSize]
  · simp only [List.mem_singleton, forall_eq]
    exact ⟨_, made, rfl, isKind, untyped⟩
  · exact same.frame.trans
      (frame.widen (Footprint.filling_within (Nat.le_of_eq sameSize.symm) fun _ h => h))

/-- The instructions of one block, by induction on the entries. -/
theorem addInsts_spec {block : BlockId} {scope after : Scope} {entries : List InstEntry}
    {insts : List (InstId × InstEntry)}
    (run : Yields (addInsts block scope entries) p (after, insts) q) {owner : Block}
    (found : p.block block = .ok owner) :
    insts.map (·.2) = entries ∧ Opened p q insts
      ∧ q.block block = .ok { owner with insts := owner.insts ++ insts.map (·.1) }
      ∧ Frame (.filling p [block]) p q := by
  induction entries generalizing p owner scope insts with
  | nil =>
    rw [addInsts, yields_pure_iff] at run
    obtain ⟨same, rfl⟩ := run
    cases same
    exact ⟨rfl, ⟨by simp, List.nodup_nil, by simp⟩, by simpa using found,
      (SameBodies.refl _).frame⟩
  | cons entry entries ih =>
    rw [addInsts] at run
    simp only [yields_bind_iff, yields_pure_iff] at run
    obtain ⟨⟨larger, id⟩, r, first, ⟨_, more⟩, _, others, same, rfl⟩ := run
    cases same
    obtain ⟨opened, listed, frame⟩ := addInst_spec first found
    obtain ⟨rfl, opened', listed', frame'⟩ := ih others listed
    refine ⟨rfl, opened.append opened' frame.insts frame' fun _ h => h, by simpa using listed',
      ?_⟩
    exact frame.trans (frame'.widen (Footprint.filling_within frame.insts fun _ h => h))

/-- The blocks get their instructions, and the answer has those of all of them. -/
theorem fillBlocks_spec {func : FuncId} {scope after : Scope}
    {blocks : List (BlockId × BlockEntry)} {insts : List (InstId × InstEntry)}
    (run : Yields (fillBlocks scope blocks) p (after, insts) q)
    (distinct : (blocks.map (·.1)).Nodup)
    (empty : ∀ block ∈ blocks, p.block block.1 = .ok ⟨func, block.2.label, []⟩) :
    Opened p q insts
      ∧ (∀ block ∈ blocks, ∃ own, own ⊆ insts ∧ own.map (·.2) = block.2.insts
        ∧ q.block block.1 = .ok ⟨func, block.2.label, own.map (·.1)⟩)
      ∧ Frame (.filling p (blocks.map (·.1))) p q := by
  induction blocks generalizing p scope insts with
  | nil =>
    rw [fillBlocks, yields_pure_iff] at run
    obtain ⟨same, rfl⟩ := run
    cases same
    exact ⟨⟨by simp, List.nodup_nil, by simp⟩, by simp, (SameBodies.refl _).frame⟩
  | cons block blocks ih =>
    obtain ⟨id, entry⟩ := block
    rw [fillBlocks] at run
    simp only [yields_bind_iff, yields_pure_iff] at run
    obtain ⟨⟨larger, own⟩, r, first, ⟨_, more⟩, _, others, same, rfl⟩ := run
    cases same
    obtain ⟨new, distinct⟩ := List.nodup_cons.mp distinct
    obtain ⟨entries, opened, filled, frame⟩ := addInsts_spec first (empty _ List.mem_cons_self)
    -- filling one block leaves the others as they were, which is to say empty
    have apart : ∀ other ∈ blocks, other.1 ≠ id := by
      intro other mem same
      exact new (List.mem_map.mpr ⟨other, mem, same⟩)
    obtain ⟨opened', listed, frame'⟩ := ih others distinct fun other mem =>
      (frame.block other.1 (by simpa [Footprint.filling] using apart other mem)).trans
        (empty other (List.mem_cons_of_mem _ mem))
    refine ⟨opened.append opened' frame.insts frame' fun _ h => h, fun other mem => ?_, ?_⟩
    · rcases List.mem_cons.mp mem with rfl | mem
      · refine ⟨own, List.subset_append_left own more, entries, ?_⟩
        rw [frame'.block _ new, filled, List.nil_append]
      · obtain ⟨some, within, entries, block⟩ := listed other mem
        exact ⟨some, List.subset_append_of_subset_right own within, entries, block⟩
    · refine (frame.widen (Footprint.filling_within (Nat.le_refl _) ?_)).trans
        (frame'.widen (Footprint.filling_within frame.insts ?_))
      · simp
      · exact fun _ => List.mem_cons_of_mem _

/-! ## Operands

An instruction is finished in a round: its operands are resolved, its type is settled, and both are
stored.  The type is settled from the operands only for an operator without a type, and then from
the first operand, as the program has it at that time.  That is exact, and so `settles_iff` is an
equivalence, in a chapter that otherwise says what follows from a run. -/

/-- A loop answers one value for each entry. -/
theorem length_mapM {α β : Type} {step : α → Loader β} {list : List α} {values : List β}
    (run : Yields (list.mapM step) p values q) : values.length = list.length := by
  induction list generalizing p values with
  | nil => rw [(yields_mapM_nil_iff.mp run).1]; rfl
  | cons a rest ih =>
    obtain ⟨value, r, more, -, others, rfl⟩ := yields_mapM_cons_iff.mp run
    rw [List.length_cons, List.length_cons, ih others]

/-- As many operands as the entry says, and resolving them only lets the program grow. -/
theorem operandsOf_spec {scope : Scope} {kind : InstKind} {entry : InstEntry}
    {operands : List Operand} (run : Yields (operandsOf scope kind entry) p operands q) :
    p.Grows q ∧ (entry.IsKind kind → operands.length = entry.operandCount) := by
  rw [operandsOf, yields_bind_iff] at run
  obtain ⟨written, r, resolved, run⟩ := run
  have length := length_mapM resolved
  have grows := (Resolves.mapM (resolves_operandOf scope) entry.args).grows resolved
  split at run
  · simp only [yields_bind_iff, yields_pure_iff] at run
    obtain ⟨id, _, added, rfl, rfl⟩ := run
    refine ⟨grows.trans ((Resolves.constInt _ _).grows added), fun isKind => ?_⟩
    rw [InstEntry.operandCount, isKind.op_of_alloca, List.length_eq_zero_iff.mp length.symm]
    rfl
  · next apart =>
    obtain ⟨rfl, rfl⟩ := yields_pure_iff.mp run
    refine ⟨grows, fun isKind => ?_⟩
    rw [InstEntry.operandCount]
    split
    · next op args =>
      cases isKind with
      | alloca => exact (apart _ (List.length_eq_zero_iff.mp (by simp [length, args])) rfl).elim
      | getElementPtr other => simp [op] at other
      | compare other => simp [op] at other
      | mnemonic other => simp [op] at other
    · exact length

end Loader

namespace Program

variable {p q : Program} {id : InstId} {inst : Inst} {entry : InstEntry} {operands : List Operand}

/-- The type that an instruction has behind its round: that of its first operand if it is an
operator without a type, and the operand has one. -/
def settledType (program : Program) (inst : Inst) (entry : InstEntry) (operands : List Operand) :
    Except Dangling TypeId :=
  match inst.kind, entry.type, operands with
  | .binary _, none, first :: _ => do
    return (← program.operandType? first).getD inst.type
  | _, _, _ => return inst.type

/-- An operator without a type gets the one of its first operand. -/
theorem settledType_of_binary {op : BinaryOp} {first : Operand} {rest : List Operand}
    (binary : inst.kind = .binary op) (untyped : entry.type = none) :
    p.settledType inst entry (first :: rest)
      = (do return (← p.operandType? first).getD inst.type) := by
  simp only [settledType, binary, untyped]

/-- Any other instruction keeps the type it has. -/
theorem settledType_of_other (other : ∀ op first rest, inst.kind = .binary op → entry.type = none →
    operands = first :: rest → False) : p.settledType inst entry operands = .ok inst.type := by
  unfold settledType
  split
  · next binary untyped => exact (other _ _ _ binary untyped rfl).elim
  · rfl

/-- To store an instruction that is there changes nothing. -/
theorem setInst_self (found : p.inst id = .ok inst) :
    { p with insts := p.insts.setIfInBounds id.index inst } = p := by
  have same : p.insts.setIfInBounds id.index inst = p.insts := by
    refine Array.ext_getElem? fun index => ?_
    rw [Array.getElem?_setIfInBounds]
    split
    · next here =>
      rw [← here, inst_eq_ok_iff.mp found, if_pos (lt_size_of_inst found)]
    · rfl
  rw [same]

/-- Setting a type replaces one entry of one arena. -/
theorem setInstType_eq_ok_iff (found : p.inst id = .ok inst) {type : TypeId} :
    p.setInstType id type = .ok q
      ↔ q = { p with insts := p.insts.setIfInBounds id.index { inst with type } } := by
  simp only [setInstType, found, bind_eq_ok_iff, pure_eq_ok_iff, Except.ok.injEq,
    exists_eq_left']

/-- Setting operands replaces one entry of one arena. -/
theorem setOperands_eq_ok_iff (found : p.inst id = .ok inst) :
    p.setOperands id operands = .ok q
      ↔ q = { p with insts := p.insts.setIfInBounds id.index { inst with operands } } := by
  simp only [setOperands, found, bind_eq_ok_iff, pure_eq_ok_iff, Except.ok.injEq,
    exists_eq_left']

end Program

namespace Loader

open Program

variable {p q r : Program}

/-- The whole effect of inferring is that the entry gets the type that is settled from its operands.
-/
theorem yields_inferType_iff {id : InstId} {inst : Inst} {entry : InstEntry}
    {operands : List Operand} (found : p.inst id = .ok inst) :
    Yields (inferType id inst.kind entry operands) p () q ↔
      ∃ type, p.settledType inst entry operands = .ok type
        ∧ q = { p with insts := p.insts.setIfInBounds id.index { inst with type } } := by
  unfold inferType
  split
  · next binary untyped =>
    simp only [settledType_of_binary binary untyped, yields_bind_iff, yields_get_iff,
      yields_dangling_iff, bind_eq_ok_iff, pure_eq_ok_iff]
    constructor
    · rintro ⟨_, _, ⟨rfl, rfl⟩, type?, _, ⟨typed, rfl⟩, run⟩
      refine ⟨_, ⟨type?, typed, rfl⟩, ?_⟩
      cases type? with
      | none => exact (yields_pure_iff.mp run).2.trans (setInst_self found).symm
      | some type =>
        simpa [setInstType_eq_ok_iff found] using run
    · rintro ⟨_, ⟨type?, typed, rfl⟩, rfl⟩
      refine ⟨_, _, ⟨rfl, rfl⟩, type?, _, ⟨typed, rfl⟩, ?_⟩
      cases type? with
      | none => exact yields_pure_iff.mpr ⟨rfl, setInst_self found⟩
      | some type => simp [setInstType_eq_ok_iff found]
  · next other =>
    simp [settledType_of_other other, setInst_self found]

/-- What a round stores. -/
theorem settles_iff {id : InstId} {inst : Inst} {entry : InstEntry} {operands : List Operand}
    (found : p.inst id = .ok inst) :
    (∃ r, Yields (inferType id inst.kind entry operands) p () r ∧ r.setOperands id operands = .ok q)
      ↔ ∃ type, p.settledType inst entry operands = .ok type
        ∧ q = { p with insts := p.insts.setIfInBounds id.index { inst with type, operands } } := by
  simp only [yields_inferType_iff found]
  constructor
  · rintro ⟨_, ⟨type, settled, rfl⟩, changed⟩
    refine ⟨type, settled, ?_⟩
    rw [setOperands_eq_ok_iff (setInst_frame found rfl).1] at changed
    simpa using changed
  · rintro ⟨type, settled, rfl⟩
    refine ⟨_, ⟨type, settled, rfl⟩, ?_⟩
    rw [setOperands_eq_ok_iff (setInst_frame found rfl).1]
    simp

/-- What happens when an instruction is completed, in the order in which it happens: its operands
are resolved, its type is settled, the operands are entered, and a name is only left to something
that has a result. -/
theorem finishInst_eq_ok {scope : Scope} {id : InstId} {entry : InstEntry}
    (run : Yields (finishInst scope (id, entry)) p () q) :
    ∃ inst operands r s, p.inst id = .ok inst
      ∧ Yields (operandsOf scope inst.kind entry) p operands r
      ∧ Yields (inferType id inst.kind entry operands) r () s
      ∧ s.setOperands id operands = .ok q
      ∧ ∀ {inst}, q.inst id = .ok inst → entry.name.isSome = true →
        q.types.isVoid inst.type = .ok false := by
  rw [finishInst] at run
  simp only [yields_bind_iff, yields_get_iff, yields_dangling_iff, yields_set_iff] at run
  obtain ⟨_, _, ⟨rfl, rfl⟩, inst, _, ⟨found, rfl⟩, operands, r, resolved, _, s, inferred, _, _,
    ⟨rfl, rfl⟩, _, _, ⟨changed, rfl⟩, _, t, rfl, run⟩ := run
  split at run
  · next name named =>
    simp only [yields_bind_iff, yields_get_iff, yields_dangling_iff] at run
    obtain ⟨_, _, ⟨rfl, rfl⟩, _, _, ⟨there, rfl⟩, _, _, ⟨rfl, rfl⟩, isVoid, _, ⟨known, rfl⟩, run⟩ :=
      run
    split at run
    · exact (yields_throw_iff.mp run).elim
    · next hasResult =>
      cases (yields_pure_iff.mp run).2
      refine ⟨inst, operands, r, _, found, resolved, inferred, changed, fun again _ => ?_⟩
      cases there.symm.trans again
      rw [known, Bool.eq_false_iff.mpr hasResult]
  · next unnamed =>
    cases (yields_pure_iff.mp run).2
    refine ⟨inst, operands, r, _, found, resolved, inferred, changed, fun _ named => ?_⟩
    obtain ⟨name, known⟩ := Option.isSome_iff_exists.mp named
    exact (unnamed name known).elim

/-- A round changes the one instruction that it is about. -/
theorem finishInst_settles {scope : Scope} {id : InstId} {entry : InstEntry}
    (run : Yields (finishInst scope (id, entry)) p () q) :
    ∃ inst operands r type, p.inst id = .ok inst
      ∧ Yields (operandsOf scope inst.kind entry) p operands r ∧ r.inst id = .ok inst
      ∧ r.settledType inst entry operands = .ok type
      ∧ q = { r with insts := r.insts.setIfInBounds id.index { inst with type, operands } } := by
  obtain ⟨inst, operands, r, s, found, resolved, inferred, changed, -⟩ := finishInst_eq_ok run
  have kept : r.inst id = .ok inst := by
    rwa [Program.inst, (operandsOf_spec resolved).1.sameBodies.insts]
  obtain ⟨type, settled, same⟩ := (settles_iff kept).mp ⟨s, inferred, changed⟩
  exact ⟨inst, operands, r, type, found, resolved, kept, settled, same⟩

/-- A round of the loop that gives instructions their operands. -/
theorem finishInst_spec {scope : Scope} {id : InstId} {entry : InstEntry}
    (run : Yields (finishInst scope (id, entry)) p () q) :
    Frame (.one id) p q ∧ (p.Opens id entry → q.LoadsInst id entry) := by
  obtain ⟨inst, operands, r, type, found, resolved, kept, -, same⟩ := finishInst_settles run
  obtain ⟨grows, length⟩ := operandsOf_spec resolved
  obtain ⟨made, frame⟩ := setInst_frame kept same
  refine ⟨grows.sameBodies.frame.trans frame, fun opens => ?_⟩
  obtain ⟨_, again, named, isKind, -⟩ := opens
  cases found.symm.trans again
  exact ⟨_, made, named, isKind, length isKind⟩

/-! ## Functions

A body is opened and then finished, and it is convenient to have the two halves apart: what holds
between them is `Program.Opens` of every instruction. -/

/-- Give a function its blocks, and those their instructions without operands. -/
def openBody : FuncId × FunctionEntry → Loader (Scope × List (InstId × InstEntry))
  | (id, entry) => do
    let function ← ((← get).function id : Except Dangling Function)
    let scope ← function.args.foldlM scopeArg (.ofFunction entry.name)
    let (scope, blocks) ← addBlocks id scope entry.blocks
    fillBlocks scope blocks

/-- A function is loaded by opening its body and finishing what was opened. -/
theorem defineFunction_eq (function : FuncId × FunctionEntry) :
    defineFunction function
      = openBody function >>= fun opened => opened.2.forM (finishInst opened.1) := by
  simp only [defineFunction, openBody, bind_assoc]

/-- What happens when a body is opened: the arguments enter the scope, blocks are added, and then
they are filled with instructions that have no operands yet. -/
theorem openBody_steps {id : FuncId} {entry : FunctionEntry} {after : Scope}
    {insts : List (InstId × InstEntry)}
    (run : Yields (openBody (id, entry)) p (after, insts) q) :
    ∃ function scope r larger blocks s, p.function id = .ok function
      ∧ Yields (function.args.foldlM scopeArg (.ofFunction entry.name)) p scope r
      ∧ Yields (addBlocks id scope entry.blocks) r (larger, blocks) s
      ∧ Yields (fillBlocks larger blocks) s (after, insts) q := by
  rw [openBody] at run
  simp only [yields_bind_iff, yields_get_iff, yields_dangling_iff] at run
  obtain ⟨_, _, ⟨rfl, rfl⟩, function, _, ⟨found, rfl⟩, scope, r, args, ⟨larger, blocks⟩, s, added,
    filled⟩ := run
  exact ⟨function, scope, r, larger, blocks, s, found, args, added, filled⟩

/-- A function has its blocks, and those have the instructions that are to be finished. -/
theorem openBody_spec {id : FuncId} {entry : FunctionEntry} {after : Scope}
    {insts : List (InstId × InstEntry)} {function : Function}
    (run : Yields (openBody (id, entry)) p (after, insts) q)
    (found : p.function id = .ok function) :
    Opened p q insts ∧ Frame (.body p id) p q
      ∧ ∃ blocks : List (BlockId × BlockEntry), blocks.map (·.2) = entry.blocks
        ∧ q.function id = .ok { function with blocks := function.blocks ++ blocks.map (·.1) }
        ∧ ∀ block ∈ blocks, ∃ own, own ⊆ insts ∧ own.map (·.2) = block.2.insts
          ∧ q.block block.1 = .ok ⟨id, block.2.label, own.map (·.1)⟩ := by
  obtain ⟨_, scope, r, larger, blocks, s, again, args, added, filled⟩ := openBody_steps run
  cases found.symm.trans again
  have same := (LeavesBodies.foldlM leavesBodies_scopeArg _ _).sameBodies args
  have kept : r.function id = .ok function := by rwa [Program.function, same.functions]
  obtain ⟨entries, distinct, new, listed, first⟩ := addBlocks_spec added kept
  obtain ⟨opened, filled, second⟩ :=
    fillBlocks_spec filled distinct fun block mem => (new block mem).2
  have toBlocks := first.widen (Footprint.body_within
    (Nat.le_of_eq (congrArg Array.size same.blocks.symm))
    (Nat.le_of_eq (congrArg Array.size same.insts.symm)))
  have before := same.frame.trans toBlocks
  refine ⟨⟨fun inst mem => Nat.le_trans before.insts (opened.new inst mem), opened.distinct,
    opened.opens⟩, before.trans (second.widen ?_), blocks, entries, ?_, filled⟩
  · refine Footprint.filling_within_body before.insts fun id mem => ?_
    obtain ⟨block, added, rfl⟩ := List.mem_map.mp mem
    rw [← same.blocks]
    exact (new block added).1
  · rw [second.function id False.elim, listed]

/-- Instructions that are finished are not what was there before. -/
theorem finishInsts_frame {scope : Scope} {insts : List (InstId × InstEntry)}
    (opened : Opened r p insts) {done : PUnit}
    (run : Yields (insts.forM (finishInst scope)) p done q) : Frame (.filling r []) p q :=
  frame_forM (fun inst mem _ _ round =>
    (finishInst_spec round).1.widen (Footprint.one_within_filling (opened.new inst mem))) run

/-- **A function is loaded**, and what was loaded before stays. -/
theorem defineFunction_spec {id : FuncId} {entry : FunctionEntry}
    (run : Yields (defineFunction (id, entry)) p () q) :
    Frame (.body p id) p q ∧ (p.Declares id entry → q.LoadsFunction id entry) := by
  rw [defineFunction_eq, yields_bind_iff] at run
  obtain ⟨⟨scope, insts⟩, r, run, finished⟩ := run
  obtain ⟨function, _, _, _, _, _, found, -⟩ := openBody_steps run
  obtain ⟨opened, first, blocks, entries, listed, filled⟩ := openBody_spec run found
  have second := finishInsts_frame opened finished
  have loads : ∀ inst ∈ insts, q.LoadsInst inst.1 inst.2 := by
    refine (yields_forM_each (fun inst r => r.Opens inst.1 inst.2)
      (fun inst r => r.LoadsInst inst.1 inst.2) ?_ ?_ ?_ opened.distinct opened.opens finished).1
    · intro inst r s opens round
      exact (finishInst_spec round).2 opens
    · intro inst other r s _ round apart opens
      exact opens.keep (finishInst_spec round).1 fun same => apart same
    · intro inst other r s _ round apart loads
      exact loads.keep (finishInst_spec round).1 fun same => apart same
  constructor
  · exact first.trans (second.widen (Footprint.filling_within_body (Nat.le_refl _) (by simp)))
  · rintro ⟨_, again, named, empty⟩
    cases found.symm.trans again
    refine ⟨{ function with blocks := function.blocks ++ blocks.map (·.1) }, ?_, named, ?_⟩
    · rw [second.function id False.elim, listed]
    · rw [empty, List.nil_append, ← entries, List.forall₂_map_left_iff, List.forall₂_map_right_iff,
        List.forall₂_same]
      intro block mem
      obtain ⟨own, within, written, here⟩ := filled block mem
      refine ⟨_, (second.block block.1 (by simp [Footprint.filling])).trans here, rfl, ?_⟩
      rw [← written, List.forall₂_map_left_iff, List.forall₂_map_right_iff, List.forall₂_same]
      exact fun inst mem => loads inst (within mem)

/-! ## Documents

Functions are declared first, so that bodies can call them in any order. -/

/-- The return type of a function; without one it is void. -/
def returnOf (entry : FunctionEntry) : Loader TypeId :=
  match entry.ret with
  | some ret => typeOf ret
  | none => pure .void

/-- The return type that is stated is resolved, and void is there already. -/
theorem resolves_returnOf (entry : FunctionEntry) : Resolves (returnOf entry) := by
  unfold returnOf
  split
  · exact resolves_typeOf _
  · exact .pure _

/-- What happens when a function is declared: parameters and result are read, the function type is
interned, the function is added with unnamed arguments, and these get their names. -/
theorem declareFunction_steps {entry : FunctionEntry} {answer : FuncId × FunctionEntry}
    (run : Yields (declareFunction entry) p answer q) :
    ∃ params r ret s type t id u function,
      Yields (typesOf (entry.params.map (·.type))) p params r
      ∧ Yields (returnOf entry) r ret s
      ∧ Yields (withTypes (·.func params ret entry.vararg)) s type t
      ∧ t.addFunction entry.name type = .ok (id, u) ∧ u.function id = .ok function
      ∧ Yields ((function.args.zip entry.params).forM nameArg) u () q ∧ answer = (id, entry) := by
  rw [declareFunction] at run
  obtain ⟨params, r, resolved, run⟩ := yields_bind_iff.mp run
  extract_lets add at run
  have split : Yields (returnOf entry >>= add) r answer q := by
    rw [returnOf]
    cases stated : entry.ret with
    | some ret =>
      rw [stated] at run
      exact run
    | none =>
      rw [stated] at run
      exact run
  obtain ⟨ret, s, typed, run⟩ := yields_bind_iff.mp split
  simp only [add, yields_bind_iff, yields_update_iff, yields_get_iff, yields_dangling_iff,
    yields_pure_iff] at run
  obtain ⟨type, t, made, id, u, added, _, _, ⟨rfl, rfl⟩, function, _, ⟨found, rfl⟩, _, _, named,
    rfl, rfl⟩ := run
  exact ⟨params, r, ret, s, type, t, id, _, function, resolved, typed, made, added, found, named,
    rfl⟩

/-- Of all that happens when a function is declared, one operation concerns bodies, and it adds an
empty one. -/
theorem declareFunction_eq_ok {entry : FunctionEntry} {answer : FuncId × FunctionEntry}
    (run : Yields (declareFunction entry) p answer q) :
    ∃ r s type id, p.SameBodies r ∧ r.addFunction entry.name type = .ok (id, s) ∧ s.SameBodies q
      ∧ answer = (id, entry) := by
  obtain ⟨params, r, ret, s, type, t, id, u, function, resolved, typed, made, added, -, named,
    rfl⟩ := declareFunction_steps run
  have first := (leavesBodies_typesOf _).sameBodies resolved
  have second := (resolves_returnOf entry).leavesBodies.sameBodies typed
  have third := (LeavesBodies.withTypes _).sameBodies made
  exact ⟨t, u, type, id, (first.trans second).trans third, added,
    (LeavesBodies.forM leavesBodies_nameArg _).sameBodies named, rfl⟩

/-- A declared function has the name and the result of its entry, and no blocks. -/
theorem declareFunction_spec {entry : FunctionEntry} {answer : FuncId × FunctionEntry}
    (run : Yields (declareFunction entry) p answer q) :
    answer = (⟨p.functions.size⟩, entry) ∧ q.functions.size = p.functions.size + 1
      ∧ (∀ id, id.index ≠ p.functions.size → q.function id = p.function id)
      ∧ q.Declares ⟨p.functions.size⟩ entry := by
  obtain ⟨r, s, type, id, before, added, behind, rfl⟩ := declareFunction_eq_ok run
  obtain ⟨params, ret, vararg, -, rfl, rfl⟩ := addFunction_eq_ok added
  have functions := behind.functions
  rw [before.functions] at functions ⊢
  refine ⟨rfl, by simp [functions], fun id other => ?_, ?_⟩
  · rw [Program.function, functions]
    exact resolve_push_of_ne other
  · rw [Declares, Program.function, functions]
    exact ⟨_, resolve_push_self rfl, rfl, rfl⟩

/-- Functions are declared in the order of their entries. -/
theorem declareFunctions_spec {entries : List FunctionEntry}
    {functions : List (FuncId × FunctionEntry)}
    (run : Yields (entries.mapM declareFunction) p functions q) :
    functions.map (·.1) = (List.range' p.functions.size entries.length).map FuncId.mk
      ∧ functions.map (·.2) = entries
      ∧ q.functions.size = p.functions.size + entries.length
      ∧ (∀ id, id.index < p.functions.size → q.function id = p.function id)
      ∧ ∀ function ∈ functions, q.Declares function.1 function.2 := by
  induction entries generalizing p functions with
  | nil =>
    obtain ⟨rfl, rfl⟩ := yields_mapM_nil_iff.mp run
    exact ⟨rfl, rfl, rfl, fun _ _ => rfl, by simp⟩
  | cons entry entries ih =>
    obtain ⟨_, r, more, first, others, rfl⟩ := yields_mapM_cons_iff.mp run
    obtain ⟨rfl, size, kept, declares⟩ := declareFunction_spec first
    obtain ⟨ids, listed, sizes, keeps, declared⟩ := ih others
    rw [size] at ids sizes keeps
    have still : ∀ id, id.index < p.functions.size + 1 → q.function id = r.function id := keeps
    refine ⟨?_, ?_, ?_, ?_, ?_⟩
    · simp [ids, List.range'_succ]
    · simp [listed]
    · rw [sizes, List.length_cons]
      omega
    · intro id old
      exact (still id (by omega)).trans (kept id (by omega))
    · intro function mem
      rcases List.mem_cons.mp mem with rfl | mem
      · obtain ⟨function, found, known⟩ := declares
        exact ⟨function, (still _ (Nat.lt_succ_self _)).trans found, known⟩
      · exact declared function mem

end Loader

namespace Document

/-- Load everything that a document lists but the bodies of its functions. -/
def declare (document : Document) : Loader (List (FuncId × FunctionEntry)) := do
  let structs ← document.structs.mapM Loader.declareStruct
  structs.forM Loader.defineStruct
  let globals ← document.globals.mapM Loader.declareGlobal
  let functions ← document.functions.mapM Loader.declareFunction
  globals.forM Loader.initializeGlobal
  return functions

/-- A document is loaded in two parts, and only the second one looks at bodies. -/
theorem load_eq_declare (document : Document) :
    document.load = document.declare >>= fun functions =>
      functions.forM Loader.defineFunction := by
  simp only [load, declare, bind_assoc, pure_bind]

end Document

namespace Loader

variable {p q : Program}

/-- The functions of a document are declared, in the order of their entries. -/
theorem declare_spec {document : Document} {layout : DataLayout}
    {functions : List (FuncId × FunctionEntry)}
    (run : Yields document.declare (.empty layout) functions q) :
    functions.map (·.1) = (List.range document.functions.length).map FuncId.mk
      ∧ functions.map (·.2) = document.functions
      ∧ q.functions.size = document.functions.length
      ∧ ∀ function ∈ functions, q.Declares function.1 function.2 := by
  rw [Document.declare] at run
  simp only [yields_bind_iff, yields_pure_iff] at run
  obtain ⟨structs, p₁, declared, _, p₂, defined, globals, p₃, added, _, p₄, opened, _, _,
    initialized, rfl, rfl⟩ := run
  have before : (Program.empty layout).SameBodies p₃ :=
    ((LeavesBodies.mapM leavesBodies_declareStruct _).sameBodies declared).trans
      (((LeavesBodies.forM leavesBodies_defineStruct _).sameBodies defined).trans
        ((LeavesBodies.mapM leavesBodies_declareGlobal _).sameBodies added))
  have same := (LeavesBodies.forM leavesBodies_initializeGlobal _).sameBodies initialized
  have none : p₃.functions.size = 0 := congrArg Array.size before.functions
  obtain ⟨ids, entries, size, -, declares⟩ := declareFunctions_spec opened
  rw [none, ← List.range_eq_range'] at ids
  rw [none, Nat.zero_add] at size
  refine ⟨ids, entries, (congrArg Array.size same.functions).trans size, fun function mem => ?_⟩
  rw [Program.Declares, Program.function, same.functions]
  exact declares function mem

/-- Handles that are counted from zero are different. -/
theorem nodup_declared {ids : List FuncId} {count : Nat}
    (same : ids = (List.range count).map FuncId.mk) : ids.Nodup := by
  rw [same]
  exact List.Pairwise.map FuncId.mk (fun _ _ apart same => apart (congrArg FuncId.index same))
    List.nodup_range

/-- Loading the whole document, from the program that is empty. -/
theorem load_spec {document : Document} {layout : DataLayout}
    (run : Yields document.load (.empty layout) () q) : q.Loads document := by
  rw [Document.load_eq_declare, yields_bind_iff] at run
  obtain ⟨functions, p, declared, bodies⟩ := run
  obtain ⟨ids, entries, size, ready⟩ := declare_spec declared
  have loads : ∀ function ∈ functions, q.LoadsFunction function.1 function.2 := by
    refine (yields_forM_each (fun function r => r.Declares function.1 function.2)
      (fun function r => r.LoadsFunction function.1 function.2) ?_ ?_ ?_ (nodup_declared ids) ready
      bodies).1
    · intro function r s declares round
      exact (defineFunction_spec round).2 declares
    · intro function other r s _ round apart declares
      exact declares.keep (defineFunction_spec round).1 fun same => apart same
    · intro function other r s _ round apart loads
      exact loads.keep (defineFunction_spec round).1 fun same => apart same
  have everything : Program.Frame ⟨fun _ => True, fun _ => True, fun _ => True⟩ p q :=
    frame_forM (fun _ _ _ _ round => (defineFunction_spec round).1.widen
      ⟨fun _ _ => trivial, fun _ _ => trivial, fun _ _ => trivial⟩) bodies
  have functionIds : q.functionIds = functions.map (·.1) := by
    rw [ids, Program.functionIds, everything.functions, size]
  rw [Program.Loads, functionIds, ← entries, List.forall₂_map_left_iff, List.forall₂_map_right_iff,
    List.forall₂_same]
  exact loads

end Loader

/-- **The program of a document** has the functions of the document. -/
theorem loads_of_toProgram {document : Document} {program : Program}
    (loaded : document.toProgram = .ok program) : program.Loads document := by
  simp only [Document.toProgram, bind_eq_ok_iff, pure_eq_ok_iff] at loaded
  obtain ⟨⟨_, q⟩, run, rfl⟩ := loaded
  exact Loader.load_spec run

end IrStream
