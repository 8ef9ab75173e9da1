import IrStream.Proofs.Reordering.OneToOne
import IrStream.Proofs.Reordering.Rounds

/-!
# Documents in any order

A document is loaded in five phases.  None of them depends on the order of the entries: structs are
given their bodies in any order (`Document.exists_loadStructs_of_reorders`), globals and functions
are declared in any order (`Loader.exists_declares_of_reorders`), and initializers and function
bodies are loaded in rounds that do not get in each other's way (`Loader.Rounds`).

So a document that lists the same entries in another order loads if the document does
(`Loader.exists_load_of_reorders`).  What is declared in the two programs is declared alike
(`Loader.Aligned`), and so are initializers and bodies, so the programs correspond, with entries of
the same name standing for each other (`loads_in_any_order`).

## Two different kinds of proof

That a document loads is a statement about one run, and that programs correspond is one about two.
They are shown one after the other, and the second one uses the first.

* **Loading.**  For each phase there is a condition under which it succeeds that does not mention
  the order.  It is shown to hold of the second document because it holds of the first.
* **Correspondence.**  Both runs are there now.  For an entry of the document, its round in the
  first run and its round in the second are taken out of the two loops (`TwinRounds.alike`) and
  compared: they begin in programs with the same declarations, so they do the same.  What happens
  afterwards to other entries does not change what this one got.

The handles that come out of the two runs are different, and so is the order in which types and
constants were interned.  No lemma ever says how.
-/

set_option autoImplicit false

namespace IrStream

open Loader Program

namespace Loader

variable {base base' p q r s t u : Program} {document other : Document}
  {globals globals' : List (GlobalId × GlobalEntry)}
  {functions functions' : List (FuncId × FunctionEntry)}

/-! ## What is ready when everything is declared

Before the loops begin, each global is without initializer and each function without blocks. -/

namespace Declarations

variable (listed : Declarations base p globals functions)
include listed

theorem blank : ∀ a ∈ globals, Blank a p := by
  intro a mem
  obtain ⟨type, _, _, -, -, -, found⟩ := listed.global a mem
  exact ⟨_, found, rfl⟩

/-- A function that is declared has no blocks yet. -/
theorem declares : ∀ a ∈ functions, p.Declares a.1 a.2 := by
  intro a mem
  obtain ⟨type, args, _, _, -, -, -, found, -⟩ := listed.function a mem
  exact ⟨_, found, rfl, rfl⟩

theorem nodup_globalIds : (globals.map (·.1)).Nodup := by
  refine listed.nodup_globals.of_map.map_on fun a mem b mem' same => ?_
  obtain ⟨_, _, _, -, -, -, found⟩ := listed.global a mem
  obtain ⟨_, _, _, -, -, -, found'⟩ := listed.global b mem'
  rw [same] at found
  exact List.inj_on_of_nodup_map listed.nodup_globals mem mem'
    (congrArg Global.name (Except.ok.inj (found.symm.trans found')))

theorem nodup_functionIds : (functions.map (·.1)).Nodup := by
  refine listed.nodup_functions.of_map.map_on fun a mem b mem' same => ?_
  obtain ⟨_, _, _, _, -, -, -, found, -⟩ := listed.function a mem
  obtain ⟨_, _, _, _, -, -, -, found', -⟩ := listed.function b mem'
  rw [same] at found
  exact List.inj_on_of_nodup_map listed.nodup_functions mem mem'
    (congrArg Function.name (Except.ok.inj (found.symm.trans found')))

end Declarations

/-- Two programs with the same declarations, of the same entries. -/
structure Aligned (base base' p q : Program) (globals globals' : List (GlobalId × GlobalEntry))
    (functions functions' : List (FuncId × FunctionEntry)) : Prop where
  /-- What the first program declares, by its own list. -/
  listed : Declarations base p globals functions
  /-- What the second program declares, by its own list. -/
  listed' : Declarations base' q globals' functions'
  /-- What has the same name is declared alike in the two programs. -/
  declared : p.Declared q
  /-- The first program is declared like itself. -/
  left : p.Declared p
  /-- The second program is declared like itself. -/
  right : q.Declared q
  /-- The lists have the same entries for globals. -/
  globals : (globals'.map (·.2)).Perm (globals.map (·.2))
  /-- The lists have the same entries for functions. -/
  functions : (functions'.map (·.2)).Perm (functions.map (·.2))

/-- Declaring the entries of a document in two orders aligns the programs. -/
theorem aligned_of_declares (opened : document.Opened base) (opened' : other.Opened base')
    (reorders : document.Reorders other) (declares : Declares document base globals functions p)
    (declares' : Declares other base' globals' functions' q) :
    Aligned base base' p q globals globals' functions functions' := by
  obtain ⟨listed, entries, entries'⟩ := declares.declarations opened.draft opened.none
  obtain ⟨listed', again, again'⟩ := declares'.declarations opened'.draft opened'.none
  have twins := opened.twins_of_reorders opened' reorders
  have globals : (globals'.map (·.2)).Perm (globals.map (·.2)) := by
    rw [entries, again]
    exact reorders.globals
  have functions : (functions'.map (·.2)).Perm (functions.map (·.2)) := by
    rw [entries', again']
    exact reorders.functions
  exact {
    listed := listed
    listed' := listed'
    declared := listed.declared listed' twins opened.known opened'.known globals functions
    left := listed.declared listed twins.regular.twins opened.known opened.known (.refl _) (.refl _)
    right := listed'.declared listed' twins.regular'.twins opened'.known opened'.known (.refl _)
      (.refl _)
    globals := globals
    functions := functions }

/-! ## Loops -/

/-- Initializing completes the program, and functions are declared as before. -/
theorem Declarations.afterInitializers (listed : Declarations base p globals functions)
    (declared : p.Declared p) (run : Yields (globals.forM initializeGlobal) p () r) :
    p.Completes r ∧ ∀ a ∈ functions, r.Declares a.1 a.2 := by
  obtain ⟨completes, -, -⟩ := (rounds_initializeGlobal declared).turns (.refl p)
    listed.nodup_globalIds listed.blank run
  have same := (LeavesBodies.forM leavesBodies_initializeGlobal _).sameBodies run
  refine ⟨completes, fun a mem => ?_⟩
  rw [Program.Declares, Program.function, same.functions]
  exact listed.declares a mem

namespace Aligned

variable (aligned : Aligned base base' p q globals globals' functions functions')
include aligned

/-- The order in which globals are initialized is free. -/
theorem initializers : TwinRounds Completes p q initializeGlobal Blank
    (fun id r s => s.global id = r.global id) (fun id other r s => SameInit r s id other)
    globals globals' where
  left := rounds_initializeGlobal aligned.left
  right := rounds_initializeGlobal aligned.right
  entries := aligned.globals
  distinct := aligned.listed.nodup_globalIds
  distinct' := aligned.listed'.nodup_globalIds
  ready := aligned.listed.blank
  ready' := aligned.listed'.blank
  along before before' blank blank' :=
    along_initializeGlobal (aligned.declared.complete before before') (blank.sameInit blank') _

variable (initialized : Yields (globals.forM initializeGlobal) p () r)
  (initialized' : Yields (globals'.forM initializeGlobal) q () s)
include initialized initialized'

/-- Globals that stand for each other have been initialized alike. -/
theorem sameInit {id other : GlobalId} (same : p.SameGlobal q id other) :
    SameInit r s id other := by
  obtain ⟨entry, mem, mem'⟩ :=
    (aligned.listed.sameGlobal_iff aligned.listed' aligned.globals).mp same
  obtain ⟨t, u, ⟨before, before'⟩, ⟨behind, behind'⟩, ⟨kept, kept'⟩, inits⟩ :=
    aligned.initializers.alike initialized initialized' mem mem'
  have declared := aligned.declared.complete before before'
  rw [SameInit, kept, kept']
  exact inits.imp fun related => optionRel_imp related
    (·.mono behind.later behind'.later declared.twins.types)

/-- The order in which function bodies are loaded is free. -/
theorem bodies : TwinRounds Fills r s defineFunction (fun listed t => t.Declares listed.1 listed.2)
    (fun func t u => Frame (others t func) t u)
    (fun f g t u => ∃ locals, SameBody locals f g t u) functions functions' := by
  obtain ⟨completes, ready⟩ := aligned.listed.afterInitializers aligned.left initialized
  obtain ⟨completes', ready'⟩ := aligned.listed'.afterInitializers aligned.right initialized'
  exact {
    left := rounds_defineFunction (aligned.left.complete completes completes)
    right := rounds_defineFunction (aligned.right.complete completes' completes')
    entries := aligned.functions
    distinct := aligned.listed.nodup_functionIds
    distinct' := aligned.listed'.nodup_functionIds
    ready := ready
    ready' := ready'
    along := fun before before' declares declares' => along_defineFunction
      ((aligned.declared.complete completes completes').complete before.toCompletes
        before'.toCompletes) (bodiless_of_declares declares declares') _ }

/-- Functions that stand for each other have been built alike. -/
theorem sameBody (run : Yields (functions.forM defineFunction) r () t)
    (run' : Yields (functions'.forM defineFunction) s () u) {f g : FuncId}
    (same : p.SameFunction q f g) : ∃ locals, SameBody locals f g t u := by
  obtain ⟨entry, mem, mem'⟩ :=
    (aligned.listed.sameFunction_iff aligned.listed' aligned.functions).mp same
  obtain ⟨v, w, -, ⟨behind, behind'⟩, ⟨frame, frame'⟩, locals, body⟩ :=
    (aligned.bodies initialized initialized').alike run run' mem mem'
  refine ⟨locals, body.keep behind behind' ⟨frame.function f fun apart => apart rfl,
    frame'.function g fun apart => apart rfl⟩ (fun related => ?_) fun related => ?_⟩
  · obtain ⟨bound, bound'⟩ := body.block_bound related
    exact ⟨frame.block _ (Nat.not_le_of_lt bound), frame'.block _ (Nat.not_le_of_lt bound')⟩
  · obtain ⟨bound, bound'⟩ := body.inst_bound related
    exact ⟨frame.inst _ (Nat.not_le_of_lt bound), frame'.inst _ (Nat.not_le_of_lt bound')⟩

end Aligned

/-! ## Documents -/

/-- The phases of loading. -/
theorem yields_load_iff {layout : DataLayout} {done : PUnit} :
    Yields document.load (.empty layout) done q ↔ ∃ base globals functions p r,
      Yields document.loadStructs (.empty layout) () base
        ∧ Declares document base globals functions p
        ∧ Yields (globals.forM initializeGlobal) p () r
        ∧ Yields (functions.forM defineFunction) r done q := by
  rw [document.load_eq]
  simp only [yields_bind_iff, Declares]
  constructor
  · rintro ⟨_, base, structs, globals, r, added, functions, p, opened, _, s, initialized, defined⟩
    exact ⟨base, globals, functions, p, s, structs, ⟨r, added, opened⟩, initialized, defined⟩
  · rintro ⟨base, globals, functions, p, s, structs, ⟨r, added, opened⟩, initialized, defined⟩
    exact ⟨(), base, structs, globals, r, added, functions, p, opened, (), s, initialized, defined⟩

section

variable (unique : (document.structs.map (·.1)).Nodup) (reorders : document.Reorders other)
  {layout : DataLayout}
include unique reorders

/-- **Whether a document loads** does not depend on its order. -/
theorem exists_load_of_reorders (run : Yields document.load (.empty layout) () p) :
    ∃ q, Yields other.load (.empty layout) () q := by
  obtain ⟨base, globals, functions, r, s, structs, declares, initialized, defined⟩ :=
    yields_load_iff.mp run
  obtain ⟨base', structs'⟩ := document.exists_loadStructs_of_reorders unique reorders structs
  have unique' := (reorders.structs.map (·.1)).nodup_iff.mpr unique
  have opened := (document.embodies_of_loadStructs unique structs).1
  have opened' := (other.embodies_of_loadStructs unique' structs').1
  obtain ⟨globals', functions', r', declares'⟩ :=
    exists_declares_of_reorders (opened.twins_of_reorders opened' reorders) opened.none opened'.none
      reorders ⟨globals, functions, r, declares⟩
  have aligned := aligned_of_declares opened opened' reorders declares declares'
  obtain ⟨s', initialized'⟩ := aligned.initializers.exists_forM initialized
  obtain ⟨q, defined'⟩ := (aligned.bodies initialized initialized').exists_forM defined
  exact ⟨q, yields_load_iff.mpr
    ⟨base', globals', functions', r', s', structs', declares', initialized', defined'⟩⟩

/-- What both documents load corresponds. -/
theorem corresponds_of_reorders (run : Yields document.load (.empty layout) () p)
    (run' : Yields other.load (.empty layout) () q) :
    p.Twins q ∧ ∃ locals, p.Corresponds (p.matchingAll q locals) q := by
  have built := (load_named run).1.built
  have built' := (load_named run').1.built
  obtain ⟨base, globals, functions, r, s, structs, declares, initialized, defined⟩ :=
    yields_load_iff.mp run
  obtain ⟨base', globals', functions', r', s', structs', declares', initialized', defined'⟩ :=
    yields_load_iff.mp run'
  have unique' := (reorders.structs.map (·.1)).nodup_iff.mpr unique
  have opened := (document.embodies_of_loadStructs unique structs).1
  have opened' := (other.embodies_of_loadStructs unique' structs').1
  have aligned := aligned_of_declares opened opened' reorders declares declares'
  obtain ⟨before, before'⟩ := aligned.initializers.grows initialized initialized'
  obtain ⟨fills, fills'⟩ := (aligned.bodies initialized initialized').grows defined defined'
  have grows := before.trans fills.toCompletes
  have grows' := before'.trans fills'.toCompletes
  have declared := aligned.declared.complete grows grows'
  refine ⟨declared.twins, corresponds_of_parts declared built built' ?_ (fun same => ?_)
    fun same => ?_⟩
  · exact (document.namedAlike_of_reorders unique reorders structs structs').mono
      (opened.twins_of_reorders opened' reorders)
      (aligned.listed.adds.types.interns.trans grows.later.types.interns)
      (aligned.listed'.adds.types.interns.trans grows'.later.types.interns)
  · have same := (grows.sameGlobal_iff grows').mp same
    exact (aligned.sameInit initialized initialized' same).fill
      (aligned.declared.complete before before').twins.types fills fills'
  · have same := (grows.sameFunction_iff grows').mp same
    exact aligned.sameBody initialized initialized' defined defined' same

end

end Loader

/-- The programs correspond, and what has the same name stands for each other. -/
structure Program.CorrespondsByName (m : Correspondence) (p q : Program) : Prop where
  /-- Whatever is paired has parts that are paired. -/
  corresponds : p.Corresponds m q
  /-- A name of a struct means the same in both programs, or nothing in either. -/
  struct : ∀ name, Option.Rel m.type (p.types.named? name) (q.types.named? name)
  /-- A name of a global means the same in both programs, or nothing in either. -/
  global : ∀ name, Option.Rel m.global (p.findGlobal? name) (q.findGlobal? name)
  /-- A name of a function means the same in both programs, or nothing in either. -/
  function : ∀ name, Option.Rel m.function (p.findFunction? name) (q.findFunction? name)

/-- A program is what loading leaves of the empty one. -/
theorem Document.toProgram_eq_ok_iff {document : Document} {program : Program} :
    document.toProgram = .ok program
      ↔ Yields document.load (.empty (document.layout.getD .standard)) () program := by
  simp only [toProgram, bind_eq_ok_iff, pure_eq_ok_iff]
  constructor
  · rintro ⟨⟨_, _⟩, run, rfl⟩
    exact run
  · exact fun run => ⟨((), program), run, rfl⟩

/-- **The order of the entries makes no difference.**  A document that lists the same structs,
globals and functions in another order loads if and only if the document does, and then the programs
are the same up to handles: what has the same name in both stands for each other, with fields,
initializers, signatures, argument names, blocks and instructions that do.  Documents that are read
from texts list each struct once (`Document.nodup_of_ofText`). -/
theorem loads_in_any_order {document other : Document} (unique : (document.structs.map (·.1)).Nodup)
    (reorders : document.Reorders other) :
    ((∃ q, other.toProgram = .ok q) ↔ ∃ p, document.toProgram = .ok p)
      ∧ ∀ {p q}, document.toProgram = .ok p → other.toProgram = .ok q →
        ∃ m, p.CorrespondsByName m q := by
  have unique' := (reorders.structs.map (·.1)).nodup_iff.mpr unique
  simp only [Document.toProgram_eq_ok_iff, reorders.layout]
  refine ⟨⟨?_, ?_⟩, fun {p q} run run' => ?_⟩
  · rintro ⟨q, run'⟩
    exact exists_load_of_reorders unique' reorders.symm run'
  · rintro ⟨p, run⟩
    exact exists_load_of_reorders unique reorders run
  · obtain ⟨twins, locals, corresponds⟩ := corresponds_of_reorders unique reorders run run'
    refine ⟨_, corresponds, fun name => ?_, twins.optionRel_findGlobal?,
      twins.optionRel_findFunction?⟩
    exact twins.types.optionRel_named? name

/-- A document whose entries refer to later ones. -/
def Document.forward : Document where
  layout := none
  structs := [
    ("Node", some ⟨[.text "%Edge", .text "i32"], false⟩),
    ("Edge", some ⟨[.text "ptr", .text "i8"], true⟩)]
  globals := [
    ⟨"first", .text "ptr", false, some (.text "@second")⟩,
    ⟨"second", .text "%Node", true, none⟩]
  functions := [
    ⟨"main", [⟨some "n", .text "i32"⟩], some (.text "i32"), false,
      [⟨some "entry", [
        ⟨some "r", "call", some (.text "i32"), [.text "%n", .text "i32 5", .text "@callee"], none,
          none, none⟩,
        ⟨none, "ret", none, [.text "%r"], none, none, none⟩]⟩]⟩,
    ⟨"callee", [⟨some "a", .text "i32"⟩, ⟨none, .text "i32"⟩], some (.text "i32"), false,
      [⟨none, [
        ⟨some "s", "add", none, [.text "%a", .text "i32 7"], none, none, none⟩,
        ⟨none, "ret", none, [.text "%s"], none, none, none⟩]⟩]⟩]

/-- The same entries, the last ones first. -/
def Document.backward : Document where
  layout := none
  structs := forward.structs.reverse
  globals := forward.globals.reverse
  functions := forward.functions.reverse

/-- A document and the one that lists its entries backwards.  Both are read, and the handles differ.
-/
theorem loads_in_any_order_backward :
    (Document.forward.structs.map (·.1)).Nodup
    ∧ Document.forward.Reorders Document.backward
    ∧ ∃ p q m, Document.forward.toProgram = .ok p ∧ Document.backward.toProgram = .ok q
      ∧ p.CorrespondsByName m q ∧ p.findFunction? "main" ≠ q.findFunction? "main" := by
  have unique : (Document.forward.structs.map (·.1)).Nodup := by decide
  have reorders : Document.forward.Reorders Document.backward :=
    ⟨rfl, List.reverse_perm _, List.reverse_perm _, List.reverse_perm _⟩
  have loads : (·.findFunction? "main") <$> Document.forward.toProgram = .ok (some ⟨0⟩) := by
    decide +kernel
  have loads' : (·.findFunction? "main") <$> Document.backward.toProgram = .ok (some ⟨1⟩) := by
    decide +kernel
  obtain ⟨p, run, main⟩ := map_eq_ok_iff.mp loads
  obtain ⟨exists_iff, corresponds⟩ := loads_in_any_order unique reorders
  obtain ⟨q, run'⟩ := exists_iff.mpr ⟨p, run⟩
  obtain ⟨_, again, main'⟩ := map_eq_ok_iff.mp loads'
  cases run'.symm.trans again
  obtain ⟨m, corresponds⟩ := corresponds run run'
  refine ⟨unique, reorders, p, q, m, run, run', corresponds, ?_⟩
  rw [← main, ← main']
  decide

end IrStream
