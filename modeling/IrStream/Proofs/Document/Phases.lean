import IrStream.Proofs.Document.Pending
import IrStream.Proofs.Program.Arranged

/-!
# The phases of loading

What a document declares is loaded first, then one function body after the other.  A body is opened,
which adds its instructions without operands, and then there is a round for each instruction that
finishes it.  `Document.Reaches` is where loading gets to between two rounds.

Whatever happens to bodies, constants and arguments stay what they are (`Program.KeepsValues`), so
an operand that is one of them keeps its type.

Some properties of a document depend on a moment in the middle of a run: which type an operand has
when it is read, which names are in scope, why a round fails.  To speak of such a moment, the run
has to be cut in two there.  `Reaches document func entry scope done todo p` does that.  It is
inductive, with one constructor for the moment in which a body has been opened and one for a round,
and it carries the run that led there, so that everything which is known of the phases can be asked
for:

* `Reaches.pending`, `Reaches.draft` — the invariants hold there;
* `Reaches.listed` — the instructions, finished or not, are those of the function and of the entry;
* `Reaches.finish_all` — further rounds lead to further moments;
* `exists_reaches` — in a document that loads, the body of every function is opened at some moment,
  and what comes behind leads from there to the program of the document.

The last one is how a statement about documents is reduced to one about rounds.
-/

set_option autoImplicit false

namespace IrStream

namespace Program

/-- Constants and arguments stay what they are.  So an operand that is resolved early has the same
meaning when the function is finished. -/
structure KeepsValues (p q : Program) : Prop where
  constant : ∀ {id constant}, p.constant id = .ok constant → q.constant id = .ok constant
  args : q.args = p.args

variable {p q r : Program}

theorem KeepsValues.refl (p : Program) : p.KeepsValues p :=
  ⟨id, rfl⟩

theorem KeepsValues.trans (first : p.KeepsValues q) (second : q.KeepsValues r) :
    p.KeepsValues r :=
  ⟨fun found => second.constant (first.constant found), second.args.trans first.args⟩

/-- New types and constants do not change old ones.  Interning appends to both arenas. -/
theorem Grows.keepsValues (grows : p.Grows q) : p.KeepsValues q := by
  induction grows with
  | refl => exact .refl p
  | readText _ _ ih | func _ _ _ _ ih => exact ⟨ih.constant, ih.args⟩
  | internConstant _ constant ih =>
    exact ⟨fun found => Constants.constant_intern_of_constant (ih.constant found) constant, ih.args⟩

theorem keepsValues_addBlock {func : FuncId} {label : Option String} {id : BlockId}
    (run : p.addBlock func label = .ok (id, q)) : p.KeepsValues q := by
  obtain ⟨_, -, -, rfl⟩ := addBlock_eq_ok run
  exact ⟨fun found => found, rfl⟩

theorem keepsValues_addInst {block : BlockId} {kind : InstKind} {type : TypeId}
    {operands : List Operand} {name : Option String} {id : InstId}
    (run : p.addInst block kind type operands name = .ok (id, q)) : p.KeepsValues q := by
  obtain ⟨_, -, -, rfl⟩ := addInst_eq_ok run
  exact ⟨fun found => found, rfl⟩

theorem keepsValues_setInst {id : InstId} {inst : Inst}
    (same : q = { p with insts := p.insts.setIfInBounds id.index inst }) : p.KeepsValues q := by
  subst same
  exact ⟨fun found => found, rfl⟩

end Program

namespace Loader

open Program

variable {p q r : Program} {scope after : Scope}

/-! ## Loops -/

/-- A loop over two lists in a row is two loops.  This is how a loop is cut at the round in
question. -/
theorem yields_forM_append_iff {α : Type} {step : α → Loader PUnit} {first second : List α}
    {done : PUnit} : Yields ((first ++ second).forM step) p done q ↔
      ∃ r, Yields (first.forM step) p () r ∧ Yields (second.forM step) r () q := by
  simp only [List.forM_eq_forM, List.forM_append, yields_bind_iff]
  constructor
  · rintro ⟨_, r, one, two⟩
    exact ⟨r, one, two⟩
  · rintro ⟨r, one, two⟩
    exact ⟨(), r, one, two⟩

/-- Entries that are told apart by a key: the one in the middle has none of the others.  Blocks and
functions are told apart by their handles. -/
theorem key_notMem_of_nodup {α κ : Type} {key : α → κ} {before after : List α} {a : α}
    (distinct : ((before ++ a :: after).map key).Nodup) :
    key a ∉ before.map key ∧ key a ∉ after.map key := by
  rw [List.map_append, List.map_cons, List.nodup_middle, List.nodup_cons, List.mem_append,
    not_or] at distinct
  exact distinct.1

theorem keepsValues_forM {α : Type} {step : α → Loader PUnit} {list : List α}
    (each : ∀ {a r s}, Yields (step a) r () s → r.KeepsValues s) {done : PUnit}
    (run : Yields (list.forM step) p done q) : p.KeepsValues q := by
  induction list generalizing p with
  | nil =>
    cases yields_forM_nil_iff.mp run
    exact .refl q
  | cons a rest ih =>
    obtain ⟨r, first, others⟩ := yields_forM_cons_iff.mp run
    exact (each first).trans (ih others)

/-! ## Opening a body

Opening a body adds blocks and instructions to one function.  The order of what it adds is known
from here: blocks as they are listed, and in each its instructions. -/

/-- To bring an argument into scope is to look at its name.  The program stays as it is, and an
argument without a name is not brought in. -/
theorem scopeArg_steps {id : ArgId} (run : Yields (scopeArg scope id) p after q) :
    q = p ∧ ∃ arg, p.arg id = .ok arg
      ∧ (match arg.name with
        | some name => scope.defineValue name (.arg id)
        | none => .ok scope) = .ok after := by
  rw [scopeArg] at run
  simp only [yields_bind_iff, yields_get_iff, yields_dangling_iff] at run
  obtain ⟨_, _, ⟨rfl, rfl⟩, arg, _, ⟨found, rfl⟩, run⟩ := run
  split at run
  · next named =>
    obtain ⟨defined, rfl⟩ := yields_except_iff.mp run
    exact ⟨rfl, arg, found, by rw [named]; exact defined⟩
  · next unnamed =>
    obtain ⟨rfl, rfl⟩ := yields_pure_iff.mp run
    exact ⟨rfl, arg, found, by rw [unnamed]⟩

theorem eq_of_scopeArgs {args : List ArgId}
    (run : Yields (args.foldlM scopeArg scope) p after q) : q = p := by
  induction args generalizing scope p with
  | nil => exact (yields_pure_iff.mp run).2
  | cons id rest ih =>
    rw [List.foldlM_cons, yields_bind_iff] at run
    obtain ⟨larger, r, first, others⟩ := run
    exact (ih others).trans (scopeArg_steps first).1

theorem keepsValues_addBlocks {func : FuncId} {entries : List BlockEntry}
    {blocks : List (BlockId × BlockEntry)}
    (run : Yields (addBlocks func scope entries) p (after, blocks) q) : p.KeepsValues q := by
  induction entries generalizing p scope blocks with
  | nil =>
    cases (yields_pure_iff.mp run).2
    exact .refl _
  | cons entry entries ih =>
    obtain ⟨id, r, larger, more, added, -, others, -⟩ := addBlocks_cons run
    exact (keepsValues_addBlock added).trans (ih others)

theorem keepsValues_addInst {block : BlockId} {entry : InstEntry} {id : InstId}
    (run : Yields (addInst block scope entry) p (after, id) q) : p.KeepsValues q := by
  obtain ⟨kind, type, r, s, asked, resolved, added, -⟩ := addInst_steps run
  have grows := (kindOf_spec asked).2.trans ((resolves_resultOf entry kind).grows resolved)
  exact grows.keepsValues.trans (Program.keepsValues_addInst added)

/-- Instructions are added behind those that are there. -/
theorem keepsValues_addInsts {block : BlockId} {entries : List InstEntry}
    {insts : List (InstId × InstEntry)}
    (run : Yields (addInsts block scope entries) p (after, insts) q) : p.KeepsValues q := by
  induction entries generalizing p scope insts with
  | nil =>
    cases (yields_pure_iff.mp run).2
    exact .refl _
  | cons entry entries ih =>
    rw [addInsts] at run
    simp only [yields_bind_iff, yields_pure_iff] at run
    obtain ⟨⟨larger, id⟩, r, first, ⟨_, more⟩, _, others, same, rfl⟩ := run
    cases same
    exact (keepsValues_addInst first).trans (ih others)

/-- Filling blocks is adding instructions, block by block. -/
theorem keepsValues_fillBlocks {blocks : List (BlockId × BlockEntry)}
    {insts : List (InstId × InstEntry)}
    (run : Yields (fillBlocks scope blocks) p (after, insts) q) : p.KeepsValues q := by
  induction blocks generalizing p scope insts with
  | nil =>
    cases (yields_pure_iff.mp run).2
    exact .refl _
  | cons block blocks ih =>
    obtain ⟨id, entry⟩ := block
    rw [fillBlocks] at run
    simp only [yields_bind_iff, yields_pure_iff] at run
    obtain ⟨⟨larger, own⟩, r, first, ⟨_, more⟩, _, others, same, rfl⟩ := run
    cases same
    exact (keepsValues_addInsts first).trans (ih others)

theorem keepsValues_openBody {function : FuncId × FunctionEntry}
    {insts : List (InstId × InstEntry)}
    (run : Yields (openBody function) p (after, insts) q) : p.KeepsValues q := by
  obtain ⟨id, entry⟩ := function
  obtain ⟨function, scope, r, larger, blocks, s, -, args, added, filled⟩ := openBody_steps run
  cases eq_of_scopeArgs args
  exact (keepsValues_addBlocks added).trans (keepsValues_fillBlocks filled)

/-- The instructions that are to be finished are those of the blocks, in order.  The second half
needs the blocks to be empty before and distinct, so that no block gets instructions twice. -/
theorem fillBlocks_order {func : FuncId} {blocks : List (BlockId × BlockEntry)}
    {insts : List (InstId × InstEntry)}
    (run : Yields (fillBlocks scope blocks) p (after, insts) q)
    (distinct : (blocks.map (·.1)).Nodup)
    (empty : ∀ block ∈ blocks, p.block block.1 = .ok ⟨func, block.2.label, []⟩) :
    insts.map (·.2) = blocks.flatMap (·.2.insts)
      ∧ insts.map (·.1) = (blocks.map (·.1)).flatMap q.instsOf := by
  induction blocks generalizing p scope insts with
  | nil =>
    cases (yields_pure_iff.mp run).1
    exact ⟨rfl, rfl⟩
  | cons block blocks ih =>
    obtain ⟨id, entry⟩ := block
    rw [fillBlocks] at run
    simp only [yields_bind_iff, yields_pure_iff] at run
    obtain ⟨⟨larger, own⟩, r, first, ⟨_, more⟩, _, others, same, rfl⟩ := run
    cases same
    obtain ⟨new, distinct⟩ := List.nodup_cons.mp distinct
    obtain ⟨entries, -, filled, frame⟩ := addInsts_spec first (empty _ List.mem_cons_self)
    have still : ∀ other ∈ blocks, r.block other.1 = .ok ⟨func, other.2.label, []⟩ := by
      intro other mem
      have apart : other.1 ≠ id := fun same => new (List.mem_map.mpr ⟨other, mem, same⟩)
      exact (frame.block other.1 (by simpa [Footprint.filling] using apart)).trans
        (empty other (List.mem_cons_of_mem _ mem))
    obtain ⟨written, listed⟩ := ih others distinct still
    have here := ((fillBlocks_spec others distinct still).2.2.block id new).trans filled
    refine ⟨by simp [entries, written], ?_⟩
    simp [listed, instsOf_of_block here]

/-- The instructions of a body belong to the entries of the function in order.  Both lists run
through the blocks in order and through the instructions of each. -/
theorem openBody_order {func : FuncId} {entry : FunctionEntry} {insts : List (InstId × InstEntry)}
    (run : Yields (openBody (func, entry)) p (after, insts) q) (declares : p.Declares func entry) :
    insts.map (·.2) = entry.blocks.flatMap (·.insts)
      ∧ insts.map (·.1) = (q.blocksOf func).flatMap q.instsOf := by
  obtain ⟨function, found, -, empty⟩ := declares
  obtain ⟨_, scope, r, larger, blocks, s, again, args, added, filled⟩ := openBody_steps run
  cases found.symm.trans again
  cases eq_of_scopeArgs args
  obtain ⟨entries, distinct, new, listed, -⟩ := addBlocks_spec added found
  have bodies : ∀ block ∈ blocks, s.block block.1 = .ok ⟨func, block.2.label, []⟩ :=
    fun block mem => (new block mem).2
  obtain ⟨written, order⟩ := fillBlocks_order filled distinct bodies
  have kept := ((fillBlocks_spec filled distinct bodies).2.2.function func False.elim).trans listed
  rw [blocksOf_of_function kept, empty, List.nil_append]
  exact ⟨by rw [written, ← entries, List.flatMap_map], order⟩

/-! ## Rounds -/

/-- A round sets operands and a type, and interns constants. -/
theorem keepsValues_finishInst {inst : InstId × InstEntry}
    (run : Yields (finishInst scope inst) p () q) : p.KeepsValues q := by
  obtain ⟨inst, operands, r, type, -, resolved, -, -, same⟩ := finishInst_settles run
  exact (operandsOf_spec resolved).1.keepsValues.trans (keepsValues_setInst same)

/-- Functions whose bodies are loaded get them, and nothing that was there before changes.  What a
body adds lies behind the sizes that the arenas had. -/
theorem frame_defineFunctions {functions : List (FuncId × FunctionEntry)} {done : PUnit}
    (run : Yields (functions.forM defineFunction) p done q) :
    Frame ⟨(· ∈ functions.map (·.1)), (p.blocks.size ≤ ·.index), (p.insts.size ≤ ·.index)⟩ p q := by
  induction functions generalizing p with
  | nil =>
    cases yields_forM_nil_iff.mp run
    exact (SameBodies.refl _).frame
  | cons function rest ih =>
    obtain ⟨r, first, others⟩ := yields_forM_cons_iff.mp run
    have frame := (defineFunction_spec first).1
    have within : (Footprint.body p function.1).Within
        ⟨(· ∈ (function :: rest).map (·.1)), (p.blocks.size ≤ ·.index), (p.insts.size ≤ ·.index)⟩ :=
      ⟨fun id same => same ▸ List.mem_cons_self, fun _ => id, fun _ => id⟩
    exact (frame.widen within).trans ((ih others).widen
      ⟨fun _ => List.mem_cons_of_mem _, fun _ => Nat.le_trans frame.blocks,
        fun _ => Nat.le_trans frame.insts⟩)

/-- An instruction stays as it is while other functions get their bodies.  Its handle is below the
size of the arena, outside the frame. -/
theorem inst_of_defineFunctions {functions : List (FuncId × FunctionEntry)} {done : PUnit}
    (run : Yields (functions.forM defineFunction) p done q) {id : InstId} {inst : Inst}
    (found : p.inst id = .ok inst) : q.inst id = .ok inst :=
  ((frame_defineFunctions run).inst id (Nat.not_le_of_lt (lt_size_of_inst found))).trans found

/-- Another function keeps its instructions.  Its blocks are listed in it, and no block of another
function is. -/
theorem body_of_defineFunctions {functions : List (FuncId × FunctionEntry)} {done : PUnit}
    (run : Yields (functions.forM defineFunction) p done q) (built : p.Built) {func : FuncId}
    (other : ∀ function ∈ functions, function.1 ≠ func) :
    (q.blocksOf func).flatMap q.instsOf = (p.blocksOf func).flatMap p.instsOf := by
  have frame := frame_defineFunctions run
  have function : q.function func = p.function func := by
    refine frame.function func fun mem => ?_
    obtain ⟨function, mem, same⟩ := List.mem_map.mp mem
    exact other function mem same
  rw [Program.blocksOf, Program.blocksOf, function]
  refine List.flatMap_congr fun block mem => ?_
  obtain ⟨stored, there⟩ := built.arranged.listedBlock func block mem
  rw [instsOf_of_block there, instsOf_of_block
    ((frame.block block (Nat.not_le_of_lt (lt_size_of_block there))).trans there)]

theorem keepsValues_defineFunction {function : FuncId × FunctionEntry}
    (run : Yields (defineFunction function) p () q) : p.KeepsValues q := by
  rw [defineFunction_eq, yields_bind_iff] at run
  obtain ⟨⟨scope, insts⟩, r, opened, finished⟩ := run
  exact (keepsValues_openBody opened).trans (keepsValues_forM keepsValues_finishInst finished)

end Loader

open Loader

/-! ## Between two rounds

The handles of `done` and `todo` together are those of the body, and a round moves one of them over.
-/

/-- Loading gets to where the instructions of a function are there, the first ones, `done`, with
their operands, and the others, `todo`, without. -/
inductive Document.Reaches (document : Document) (func : FuncId) (entry : FunctionEntry)
    (scope : Scope) : (done todo : List (InstId × InstEntry)) → Program → Prop
  | opens {before after : List (FuncId × FunctionEntry)} {insts : List (InstId × InstEntry)}
      {p q r : Program}
      (declared : Yields document.declare (.empty (document.layout.getD .standard))
        (before ++ (func, entry) :: after) p)
      (earlier : Yields (before.forM defineFunction) p () q)
      (opened : Yields (openBody (func, entry)) q (scope, insts) r) :
      Reaches document func entry scope [] insts r
  | finish {done todo : List (InstId × InstEntry)} {inst : InstId × InstEntry} {p q : Program}
      (reached : Reaches document func entry scope done (inst :: todo) p)
      (round : Yields (finishInst scope inst) p () q) :
      Reaches document func entry scope (done ++ [inst]) todo q

/-- A function has no blocks until its turn comes.  Loading the bodies in front of it does not touch
it. -/
theorem declares_of_earlier {document : Document} {layout : DataLayout} {func : FuncId}
    {entry : FunctionEntry} {before after : List (FuncId × FunctionEntry)} {p q : Program}
    (declared : Yields document.declare (.empty layout) (before ++ (func, entry) :: after) p)
    (earlier : Yields (before.forM defineFunction) p () q) : q.Declares func entry := by
  obtain ⟨ids, -, -, declares⟩ := declare_spec declared
  exact (declares (func, entry) (by simp)).keep (frame_defineFunctions earlier)
    (key_notMem_of_nodup (nodup_declared ids)).1

namespace Document.Reaches

variable {document : Document} {func : FuncId} {entry : FunctionEntry} {scope : Scope}
  {done todo : List (InstId × InstEntry)} {p q : Program}

/-- **What is not finished is pending**, and in the scope are names of what the function offers. -/
theorem pending (reached : document.Reaches func entry scope done todo p) :
    p.Pending func todo ∧ scope.Offered p func := by
  induction reached with
  | opens declared earlier opened =>
    obtain ⟨draft, none⟩ := declare_draft declared
    obtain ⟨draft, named⟩ := defineFunctions_named draft (namesResults_of_empty none) earlier
    obtain ⟨-, offered, pending⟩ := openBody_pending draft named opened
    exact ⟨pending, offered⟩
  | finish _ round ih =>
    obtain ⟨pending, offered⟩ := ih
    obtain ⟨keeps, fewer⟩ := finishInst_pending pending offered round
    exact ⟨fewer, offered.mono keeps⟩

theorem draft (reached : document.Reaches func entry scope done todo p) : p.Draft :=
  reached.pending.1.draft

/-- **The instructions of the function** are those that are listed, finished or not, and they
belong to the entries in the document in order. -/
theorem listed (reached : document.Reaches func entry scope done todo p) :
    (done ++ todo).map (·.2) = entry.blocks.flatMap (·.insts)
      ∧ (done ++ todo).map (·.1) = (p.blocksOf func).flatMap p.instsOf := by
  induction reached with
  | opens declared earlier opened =>
    exact openBody_order opened (declares_of_earlier declared earlier)
  | @finish done todo inst p q _ round ih =>
    have frame := (finishInst_spec round).1
    have blocks : q.blocksOf func = p.blocksOf func := by
      rw [Program.blocksOf, Program.blocksOf, frame.function func False.elim]
    have insts : q.instsOf = p.instsOf := by
      funext block
      rw [Program.instsOf, Program.instsOf, frame.block block False.elim]
    rw [List.append_assoc, List.singleton_append, blocks, insts]
    exact ih

/-- Rounds lead from one point to a later one.  The instructions that were finished on the way move
from the second list to the first. -/
theorem finish_all {more : List (InstId × InstEntry)}
    (reached : document.Reaches func entry scope done (more ++ todo) p) {answer : PUnit}
    (rounds : Yields (more.forM (finishInst scope)) p answer q) :
    document.Reaches func entry scope (done ++ more) todo q := by
  induction more generalizing done p with
  | nil =>
    cases yields_forM_nil_iff.mp rounds
    rwa [List.append_nil]
  | cons inst rest ih =>
    obtain ⟨r, first, others⟩ := yields_forM_cons_iff.mp rounds
    have later := ih (reached.finish first) others
    rwa [List.append_assoc] at later

end Document.Reaches

/-- **The body of every function has its turn** when a document is loaded: it is opened, then come
the rounds, and then the bodies of the functions behind it.  The statements about operands and
inferred types begin here: they are about a point of a run, and this says that the run comes through
it. -/
theorem exists_reaches {document : Document} {program : Program}
    (loaded : document.toProgram = .ok program) {number : Nat} {entry : FunctionEntry}
    (listed : document.functions[number]? = some entry) :
    ∃ scope insts, ∃ after : List (FuncId × FunctionEntry), ∃ p q,
      document.Reaches ⟨number⟩ entry scope [] insts p
      ∧ Yields (insts.forM (finishInst scope)) p () q
      ∧ Yields (after.forM defineFunction) q () program
      ∧ after.map (·.2) = document.functions.drop (number + 1)
      ∧ ∀ function ∈ after, function.1 ≠ ⟨number⟩ := by
  simp only [Document.toProgram, bind_eq_ok_iff, pure_eq_ok_iff] at loaded
  obtain ⟨⟨_, program⟩, run, rfl⟩ := loaded
  have run : Yields document.load (.empty (document.layout.getD .standard)) () program := run
  rw [Document.load_eq_declare, yields_bind_iff] at run
  obtain ⟨functions, p, declared, bodies⟩ := run
  obtain ⟨ids, entries, -, -⟩ := declare_spec declared
  obtain ⟨bound, rfl⟩ := List.getElem?_eq_some_iff.mp listed
  have bound' : number < functions.length := by
    rwa [← entries, List.length_map] at bound
  have here : functions[number] = (⟨number⟩, document.functions[number]) := by
    refine Prod.ext ?_ ?_
    · have id := congrArg (·[number]?) ids
      simpa [bound', bound] using id
    · have entry := congrArg (·[number]?) entries
      simpa [bound', bound] using entry
  -- the functions before this one, this one, and those behind it
  have split := (List.take_append_drop number functions).symm
  rw [List.drop_eq_getElem_cons bound', here] at split
  generalize functions.take number = before at split
  generalize behind : functions.drop (number + 1) = after at split
  rw [split] at declared bodies
  obtain ⟨q, earlier, bodies⟩ := yields_forM_append_iff.mp bodies
  obtain ⟨r, body, later⟩ := yields_forM_cons_iff.mp bodies
  rw [defineFunction_eq, yields_bind_iff] at body
  obtain ⟨⟨scope, insts⟩, s, opened, rounds⟩ := body
  refine ⟨scope, insts, after, s, r, .opens declared earlier opened, rounds, later, ?_, ?_⟩
  · rw [← behind, List.map_drop, entries]
  · have distinct := nodup_declared ids
    rw [split] at distinct
    exact fun function mem same =>
      (key_notMem_of_nodup distinct).2 (List.mem_map.mpr ⟨function, mem, same⟩)

end IrStream
