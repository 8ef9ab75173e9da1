import IrStream.Proofs.Document.Phases

/-!
# Names for results of type void

A document may not name the result of an instruction that has none (`ProgramError.namedVoidValue`).
It is a round that finds that out, when the instruction has its operands and its type; all other
steps of loading fail for other reasons, which is the judgment `Loader.Lenient`.  So a document is
refused because of such a name exactly if loading reaches a round that fails because of it
(`Document.refusesName_iff`).

To say exactly when loading fails *for one reason* is more than to say when it succeeds.  Loading
stops at its first fault, so every step in front of the one in question has to succeed, and every
step that might fail before has to be known to fail differently.  The module keeps the two apart.

* `Loader.Fails step before error` is one run that ends with that error.  It obeys two equations: a
  `do` block fails in its first step or behind it (`fails_bind_iff`), and a loop fails in one of its
  rounds, with those before it done (`fails_forM_iff`).
* `Spares` and `Lenient` say that an answer, or a step, never fails for this reason.  They compose
  like the other judgments on steps, and with `Lenient.fails_bind_iff` a lenient step at the front
  of a block is passed without looking at what it might fail with.

With these, `Document.load` is walked from its beginning to the rounds.  The phases before the
bodies are lenient, and so are the openings of bodies; what is left is one round, `finishInst`,
where the reason is read off (`fails_finishInst_iff`).
-/

set_option autoImplicit false

namespace IrStream

/-! ## Reasons to fail

One lemma for each operation of the program and of the types that the loader calls.  They are read
off the definitions: no operation but the last check of a round knows this error. -/

/-- If this fails, it is not because of a name for a result of type void. -/
def Spares {α : Type} (answer : Except ProgramError α) : Prop :=
  ∀ function name, answer ≠ .error (.namedVoidValue function name)

namespace Spares

variable {α β : Type}

theorem pure (value : α) : Spares (Pure.pure value) :=
  nofun

theorem throw {error : ProgramError}
    (other : ∀ function name, error ≠ .namedVoidValue function name) :
    Spares (MonadExcept.throw error : Except ProgramError α) := by
  rintro function name ⟨⟩
  exact other function name rfl

theorem dangling (answer : Except Dangling α) : Spares (liftM answer) := by
  cases answer with
  | ok => exact nofun
  | error => exact nofun

theorem bind {answer : Except ProgramError α} {next : α → Except ProgramError β}
    (first : Spares answer) (second : ∀ a, Spares (next a)) : Spares (answer >>= next) := by
  intro function name failed
  rcases bind_eq_error_iff.mp failed with failed | ⟨a, -, failed⟩
  · exact first function name failed
  · exact second a function name failed

theorem composes : Composes (Except ProgramError) Spares :=
  ⟨pure, bind⟩

end Spares

/-- A field is refused for what it is. -/
theorem spares_checkField (types : Types) (id : TypeId) (name : String) (field : TypeId) :
    Spares (types.checkField id name field) := by
  refine .bind (.dangling _) fun shape => ?_
  split
  · exact .throw nofun
  · exact .throw nofun
  · refine .bind (.dangling _) fun contained => ?_
    split
    · exact .throw nofun
    · exact .pure _

/-- A body is refused for one of its fields, or because the struct has no name. -/
theorem spares_setStructBody (types : Types) (id : TypeId) (fields : List TypeId) (packed : Bool) :
    Spares (types.setStructBody id fields packed) := by
  refine .bind (.dangling _) fun shape => ?_
  split
  · exact .throw nofun
  · exact .bind (Spares.composes.forM (spares_checkField types id _) fields) fun _ => .pure _

/-- A text that is not a type is refused for what is wrong with the text. -/
theorem spares_readText (types : Types) (text : List Char) : Spares (types.readText text).2 := by
  unfold Types.readText TypeArena.readText
  dsimp only
  split
  · exact .pure _
  · exact .throw nofun

namespace Program

variable (program : Program)

/-- An integer is refused for its type. -/
theorem spares_constInt (type : TypeId) (value : Int) : Spares (program.constInt type value) := by
  refine .bind (.dangling _) fun shape => ?_
  split
  · split
    · exact .bind (.throw nofun) fun _ => .pure _
    · exact .pure _
  · exact .throw nofun

/-- A global is refused for its name. -/
theorem spares_addGlobal (name : String) (type : TypeId) (threadLocal : Bool) :
    Spares (program.addGlobal name type threadLocal) := by
  unfold addGlobal
  dsimp only
  split
  · exact .bind (.throw nofun) fun _ => .pure _
  · exact .pure _

/-- A function is refused for its type or its name. -/
theorem spares_addFunction (name : String) (type : TypeId) :
    Spares (program.addFunction name type) := by
  refine .bind (.dangling _) fun shape => ?_
  split
  · split
    · exact .bind (.throw nofun) fun _ => .pure _
    · exact .pure _
  · exact .throw nofun

end Program

namespace Scope

variable (scope : Scope)

/-- A local is refused for its name. -/
theorem spares_defineValue (name : String) (value : Operand) :
    Spares (scope.defineValue name value) := by
  unfold defineValue
  split
  · exact .throw nofun
  · exact .pure _

/-- A block is refused for its label. -/
theorem spares_defineBlock (label : String) (block : BlockId) :
    Spares (scope.defineBlock label block) := by
  unfold defineBlock
  split
  · exact .throw nofun
  · exact .pure _

end Scope

namespace Loader

variable {α β : Type} {p q : Program} {scope : Scope}

/-! ## Steps that fail

A step fails for the reason in question, or it is lenient, or neither is known.  What a proof walks
along are lenient steps: they may fail, but then the document is refused for another reason, and so
they count as passed. -/

/-- The step fails for that reason. -/
def Fails (step : Loader α) (before : Program) (error : ProgramError) : Prop :=
  step.run before = .error error

/-- A block fails in its first step, or that succeeds and the rest fails. -/
theorem fails_bind_iff {step : Loader α} {next : α → Loader β} {error : ProgramError} :
    Fails (step >>= next) p error ↔
      Fails step p error ∨ ∃ a r, Yields step p a r ∧ Fails (next a) r error := by
  rw [Fails, StateT.run_bind, bind_eq_error_iff, Prod.exists]
  exact Iff.rfl

/-- A step behind one that succeeds. -/
theorem Yields.fails_bind_iff {step : Loader α} {next : α → Loader β} {a : α}
    {error : ProgramError} (run : Yields step p a q) :
    Fails (step >>= next) p error ↔ Fails (next a) q error := by
  rw [Fails, StateT.run_bind, run]
  exact Iff.rfl

/-- A loop fails in one of its rounds. -/
theorem fails_forM_iff {step : α → Loader PUnit} {list : List α} {error : ProgramError} :
    Fails (list.forM step) p error ↔ ∃ before a after q, list = before ++ a :: after
      ∧ Yields (before.forM step) p () q ∧ Fails (step a) q error := by
  induction list generalizing p with
  | nil => exact iff_of_false nofun (by simp)
  | cons a rest ih =>
    rw [List.forM_eq_forM, List.forM_cons, Loader.fails_bind_iff]
    constructor
    · rintro (failed | ⟨_, r, first, failed⟩)
      · exact ⟨[], a, rest, p, rfl, yields_forM_nil_iff.mpr rfl, failed⟩
      · obtain ⟨before, b, after, q, rfl, others, failed⟩ := ih.mp failed
        exact ⟨a :: before, b, after, q, rfl, yields_forM_cons_iff.mpr ⟨r, first, others⟩, failed⟩
    · rintro ⟨before, b, after, q, split, run, failed⟩
      cases before with
      | nil =>
        cases split
        cases yields_forM_nil_iff.mp run
        exact .inl failed
      | cons _ before =>
        cases split
        obtain ⟨r, first, others⟩ := yields_forM_cons_iff.mp run
        exact .inr ⟨(), r, first, ih.mpr ⟨before, b, after, q, rfl, others, failed⟩⟩

/-- The step finds no name for a result of type void. -/
def Lenient (step : Loader α) : Prop :=
  ∀ p, Spares (step.run p)

namespace Lenient

theorem pure (value : α) : Lenient (Pure.pure value : Loader α) :=
  nofun

theorem set (program : Program) : Lenient (MonadStateOf.set program : Loader PUnit) :=
  nofun

theorem except {answer : Except ProgramError α} (spares : Spares answer) :
    Lenient (liftM answer : Loader α) :=
  fun _ => .bind spares fun _ => .pure _

theorem update {step : Program → Except ProgramError (α × Program)}
    (spares : ∀ program, Spares (step program)) : Lenient (Loader.update step) := by
  intro p
  rw [run_update]
  exact spares p

theorem withTypes (step : Types → α × Types) : Lenient (Loader.withTypes step) :=
  nofun

theorem bind {step : Loader α} {next : α → Loader β} (first : Lenient step)
    (second : ∀ a, Lenient (next a)) : Lenient (step >>= next) :=
  fun p => .bind (first p) fun answer => second answer.1 answer.2

theorem composes : Composes Loader Lenient :=
  ⟨pure, bind⟩

theorem mapM {step : α → Loader β} (each : ∀ a, Lenient (step a)) (list : List α) :
    Lenient (list.mapM step) :=
  composes.mapM each list

theorem forM {step : α → Loader PUnit} (each : ∀ a, Lenient (step a)) (list : List α) :
    Lenient (list.forM step) :=
  composes.forM each list

theorem foldlM {step : β → α → Loader β} (each : ∀ b a, Lenient (step b a)) (start : β)
    (list : List α) : Lenient (list.foldlM step start) :=
  composes.foldlM each start list

end Lenient

/-- A name for a result of type void is only found behind a lenient step. -/
theorem Lenient.fails_bind_iff {step : Loader α} {next : α → Loader β} (lenient : Lenient step)
    {function name : String} : Fails (step >>= next) p (.namedVoidValue function name) ↔
      ∃ a r, Yields step p a r ∧ Fails (next a) r (.namedVoidValue function name) := by
  rw [Loader.fails_bind_iff]
  exact or_iff_right (lenient p function name)

/-- Resolving comes before results are named. -/
theorem Resolves.lenient {step : Loader α} (resolves : Resolves step) : Lenient step := by
  induction resolves with
  | pure value => exact .pure value
  | throw _ other => exact fun _ => .throw other
  | get => exact nofun
  | dangling answer => exact fun _ => .bind (.dangling answer) fun _ => .pure _
  | typeOfText text =>
    exact .bind nofun fun program => .bind (.set _) fun _ => .except (spares_readText _ text)
  | func => exact .withTypes _
  | constant => exact .update fun _ => .pure _
  | constInt type value => exact .update fun program => program.spares_constInt type value
  | bind _ _ first second => exact .bind first second

/-! ## Before the bodies

Structs, globals, the names of arguments and the signatures of functions are loaded before any
instruction has a type. -/

/-- Declaring a struct never fails. -/
theorem lenient_declareStruct (entry : String × Option StructEntry) :
    Lenient (declareStruct entry) :=
  .bind (.withTypes _) fun _ => .pure _

/-- A body is resolved and then set. -/
theorem lenient_defineStruct (entry : TypeId × Option StructEntry) :
    Lenient (defineStruct entry) := by
  obtain ⟨id, _ | body⟩ := entry
  · exact .pure _
  · exact .bind (resolves_typesOf body.fields).lenient fun fields => .update fun program =>
      .bind (spares_setStructBody _ _ _ _) fun _ => .pure _

/-- The type of a global is resolved, and its name is claimed. -/
theorem lenient_declareGlobal (entry : GlobalEntry) : Lenient (declareGlobal entry) :=
  .bind (resolves_typeOf entry.type).lenient fun _ =>
    .bind (.update fun program => program.spares_addGlobal _ _ _) fun _ => .pure _

/-- An initializer is an operand that has to be a constant. -/
theorem lenient_initializeGlobal (entry : GlobalId × GlobalEntry) :
    Lenient (initializeGlobal entry) := by
  obtain ⟨id, entry⟩ := entry
  unfold initializeGlobal
  dsimp only
  split
  · exact .pure _
  · refine .bind (resolves_operandOf _ _).lenient fun operand =>
      .bind (resolves_requireConstant _ _).lenient fun id => .bind nofun fun program =>
        .bind (Resolves.dangling _).lenient fun _ => .set _

theorem lenient_nameArg (entry : ArgId × ParamEntry) : Lenient (nameArg entry) := by
  obtain ⟨id, entry⟩ := entry
  unfold nameArg
  dsimp only
  split
  · exact .bind nofun fun program => .bind (Resolves.dangling _).lenient fun _ => .set _
  · exact .pure _

/-- A signature is resolved, and the name is claimed. -/
theorem lenient_declareFunction (entry : FunctionEntry) : Lenient (declareFunction entry) := by
  refine .bind (resolves_typesOf _).lenient fun params => ?_
  extract_lets add
  have adds (ret : TypeId) : Lenient (add ret) :=
    .bind (.withTypes _) fun type => .bind (.update fun program => program.spares_addFunction _ _)
      fun id => .bind nofun fun _ => .bind (Resolves.dangling _).lenient fun function =>
        .bind (.forM lenient_nameArg _) fun _ => .pure _
  split
  · exact .bind (resolves_typeOf _).lenient adds
  · exact .bind (.pure _) adds

/-- All phases before the bodies are loops of such steps. -/
theorem lenient_declare (document : Document) : Lenient document.declare :=
  .bind (.mapM lenient_declareStruct _) fun _ => .bind (.forM lenient_defineStruct _) fun _ =>
    .bind (.mapM lenient_declareGlobal _) fun _ => .bind (.mapM lenient_declareFunction _) fun _ =>
      .bind (.forM lenient_initializeGlobal _) fun _ => .pure _

/-! ## Bodies

A body is opened — blocks and instructions are entered — and then finished in rounds.  Only the
rounds are not lenient. -/

theorem lenient_scopeArg (scope : Scope) (id : ArgId) : Lenient (scopeArg scope id) := by
  refine .bind nofun fun program => .bind (Resolves.dangling _).lenient fun arg => ?_
  split
  · exact .except (scope.spares_defineValue _ _)
  · exact .pure _

/-- Blocks and labels fail for reasons of their own, and never for a result of type void. -/
theorem lenient_addBlocks (func : FuncId) (scope : Scope) (entries : List BlockEntry) :
    Lenient (addBlocks func scope entries) := by
  induction entries generalizing scope with
  | nil => exact .pure _
  | cons entry entries ih =>
    refine .bind nofun fun _ => .bind (Resolves.dangling _).lenient fun added =>
      .bind (.set _) fun _ => ?_
    split
    · exact .bind (.except (scope.spares_defineBlock _ _)) fun larger =>
        .bind (ih larger) fun _ => .pure _
    · exact .bind (.pure _) fun larger => .bind (ih larger) fun _ => .pure _

theorem resolves_requireKey (op key : String) (value? : Option α) :
    Resolves (requireKey op key value?) := by
  cases value? with
  | none => exact .throw _ nofun
  | some value => exact .pure value

/-- The kind of an instruction is read off its entry, and types that it mentions are resolved. -/
theorem resolves_kindOf (entry : InstEntry) : Resolves (kindOf entry) := by
  unfold kindOf
  split
  · exact .bind (resolves_requireKey _ _ _) fun _ => .bind (resolves_typeOf _) fun _ => .pure _
  · exact .bind (resolves_requireKey _ _ _) fun _ => .bind (resolves_typeOf _) fun _ => .pure _
  -- both kinds of comparison
  iterate 2
    refine .bind (resolves_requireKey _ _ _) fun name => ?_
    split
    · exact .pure _
    · exact .throw _ nofun
  · exact .pure _

/-- A name that is taken is refused here; whether a result may have one at all is only asked in the
second pass. -/
theorem lenient_addInst (block : BlockId) (scope : Scope) (entry : InstEntry) :
    Lenient (addInst block scope entry) := by
  refine .bind (resolves_kindOf entry).lenient fun kind => ?_
  extract_lets add
  have adds (type : TypeId) : Lenient (add type) := by
    refine .bind nofun fun _ => .bind (Resolves.dangling _).lenient fun added =>
      .bind (.set _) fun _ => ?_
    split
    · exact .bind (.except (scope.spares_defineValue _ _)) fun _ => .pure _
    · exact .pure _
  split
  · exact .bind (resolves_typeOf _).lenient adds
  · exact .bind (.pure _) adds

/-- Instructions of a block are added one by one. -/
theorem lenient_addInsts (block : BlockId) (scope : Scope) (entries : List InstEntry) :
    Lenient (addInsts block scope entries) := by
  induction entries generalizing scope with
  | nil => exact .pure _
  | cons entry entries ih =>
    exact .bind (lenient_addInst block scope entry) fun added => .bind (ih _) fun _ => .pure _

/-- Blocks of a function are filled one by one. -/
theorem lenient_fillBlocks (scope : Scope) (blocks : List (BlockId × BlockEntry)) :
    Lenient (fillBlocks scope blocks) := by
  induction blocks generalizing scope with
  | nil => exact .pure _
  | cons block blocks ih =>
    exact .bind (lenient_addInsts _ scope _) fun added => .bind (ih _) fun _ => .pure _

/-- All that happens to a function before its rounds. -/
theorem lenient_openBody (function : FuncId × FunctionEntry) : Lenient (openBody function) :=
  .bind nofun fun _ => .bind (Resolves.dangling _).lenient fun _ =>
    .bind (.foldlM lenient_scopeArg _ _) fun _ => .bind (lenient_addBlocks _ _ _) fun _ =>
      lenient_fillBlocks _ _

/-- Operands are resolved in the order in which they are written. -/
theorem resolves_operandsOf (scope : Scope) (kind : InstKind) (entry : InstEntry) :
    Resolves (operandsOf scope kind entry) := by
  refine .bind (.mapM (resolves_operandOf scope) entry.args) fun operands => ?_
  split
  · exact .bind (.constInt _ _) fun _ => .pure _
  · exact .pure _

/-- A type that is not written is taken from an operand, or is the default of the kind. -/
theorem lenient_inferType (id : InstId) (kind : InstKind) (entry : InstEntry)
    (operands : List Operand) : Lenient (inferType id kind entry operands) := by
  unfold inferType
  split
  · refine .bind nofun fun program => .bind (Resolves.dangling _).lenient fun type? => ?_
    split
    · exact .bind nofun fun _ => .bind (Resolves.dangling _).lenient fun _ => .set _
    · exact .pure _
  · exact .pure _

/-- **A round refuses a name** if the type that it leaves the instruction with is void. -/
theorem fails_finishInst_iff {id : InstId} {entry : InstEntry} {function name : String} :
    Fails (finishInst scope (id, entry)) p (.namedVoidValue function name) ↔
      scope.function = function ∧ entry.name = some name ∧ ∃ inst operands r type,
        p.inst id = .ok inst ∧ Yields (operandsOf scope inst.kind entry) p operands r
        ∧ r.settledType inst entry operands = .ok type ∧ r.types.isVoid type = .ok true := by
  have dangling {γ : Type} (answer : Except Dangling γ) : Lenient (liftM answer : Loader γ) :=
    (Resolves.dangling answer).lenient
  simp only [finishInst, Resolves.get.lenient.fails_bind_iff, (dangling _).fails_bind_iff,
    (Lenient.set _).fails_bind_iff, (resolves_operandsOf _ _ _).lenient.fails_bind_iff,
    (lenient_inferType _ _ _ _).fails_bind_iff, yields_get_iff, yields_dangling_iff,
    yields_set_iff]
  have kept {kind : InstKind} {operands : List Operand} {r : Program} {inst : Inst}
      (found : p.inst id = .ok inst)
      (resolved : Yields (operandsOf scope kind entry) p operands r) : r.inst id = .ok inst := by
    rwa [Program.inst, ((resolves_operandsOf scope kind entry).grows resolved).sameBodies.insts]
  constructor
  · rintro ⟨_, _, ⟨rfl, rfl⟩, inst, _, ⟨found, rfl⟩, operands, r, resolved, _, s, inferred, _, _,
      ⟨rfl, rfl⟩, q, _, ⟨changed, rfl⟩, _, _, rfl, failed⟩
    obtain ⟨type, settled, rfl⟩ := (settles_iff (kept found resolved)).mp ⟨_, inferred, changed⟩
    split at failed
    · next written named =>
      simp only [Resolves.get.lenient.fails_bind_iff, (dangling _).fails_bind_iff, yields_get_iff,
        yields_dangling_iff] at failed
      obtain ⟨_, _, ⟨rfl, rfl⟩, later, _, ⟨there, rfl⟩, _, _, ⟨rfl, rfl⟩, isVoid, _, ⟨known, rfl⟩,
        failed⟩ := failed
      cases there.symm.trans (Program.setInst_frame (kept found resolved) rfl).1
      split at failed
      · next void =>
        cases failed
        exact ⟨rfl, named, inst, operands, r, type, found, resolved, settled, void ▸ known⟩
      · cases failed
    · cases failed
  · rintro ⟨rfl, named, inst, operands, r, type, found, resolved, settled, void⟩
    obtain ⟨s, inferred, changed⟩ := (settles_iff (kept found resolved)).mpr ⟨type, settled, rfl⟩
    refine ⟨_, _, ⟨rfl, rfl⟩, inst, _, ⟨found, rfl⟩, operands, r, resolved, (), s, inferred, _, _,
      ⟨rfl, rfl⟩, _, _, ⟨changed, rfl⟩, (), _, rfl, ?_⟩
    simp only [named, Resolves.get.lenient.fails_bind_iff, (dangling _).fails_bind_iff,
      yields_get_iff, yields_dangling_iff]
    exact ⟨_, _, ⟨rfl, rfl⟩, _, _, ⟨(Program.setInst_frame (kept found resolved) rfl).1, rfl⟩, _, _,
      ⟨rfl, rfl⟩, true, _, ⟨void, rfl⟩, rfl⟩

end Loader

/-! ## Documents

A document is loaded up to some round, as `Document.Reaches` has it.  What the round does then is
what loading does, because a round that fails is the end of loading. -/

open Loader

namespace Document

variable {document : Document}

/-- A document is refused if loading it into the empty program fails. -/
theorem toProgram_eq_error_iff {error : ProgramError} : document.toProgram = .error error ↔
    Fails document.load (.empty (document.layout.getD .standard)) error := by
  rw [toProgram, bind_eq_error_iff]
  refine or_iff_left ?_
  rintro ⟨_, -, ⟨⟩⟩

/-- Loading does not get over a round that fails. -/
theorem Reaches.fails {func : FuncId} {entry : FunctionEntry} {scope : Scope}
    {done todo : List (InstId × InstEntry)} {p : Program} {error : ProgramError}
    (reached : document.Reaches func entry scope done todo p)
    (failed : Fails (todo.forM (finishInst scope)) p error) :
    document.toProgram = .error error := by
  induction reached with
  | opens declared earlier opened =>
    rw [toProgram_eq_error_iff, load_eq_declare, declared.fails_bind_iff, fails_forM_iff]
    refine ⟨_, _, _, _, rfl, earlier, ?_⟩
    rwa [defineFunction_eq, opened.fails_bind_iff]
  | finish _ round ih =>
    refine ih ?_
    rwa [List.forM_eq_forM, List.forM_cons, round.fails_bind_iff]

/-- **A document is refused because of a name for a result of type void** exactly if loading
reaches a round that is. -/
theorem refusesName_iff {function name : String} :
    document.toProgram = .error (.namedVoidValue function name) ↔
      ∃ func entry scope done inst todo p, document.Reaches func entry scope done (inst :: todo) p
        ∧ Fails (finishInst scope inst) p (.namedVoidValue function name) := by
  constructor
  · intro refused
    rw [toProgram_eq_error_iff, load_eq_declare, (lenient_declare document).fails_bind_iff]
      at refused
    obtain ⟨functions, p, declared, refused⟩ := refused
    obtain ⟨before, ⟨func, entry⟩, after, q, rfl, earlier, refused⟩ := fails_forM_iff.mp refused
    rw [defineFunction_eq, (lenient_openBody _).fails_bind_iff] at refused
    obtain ⟨⟨scope, insts⟩, r, opened, refused⟩ := refused
    obtain ⟨done, inst, todo, s, rfl, rounds, failed⟩ := fails_forM_iff.mp refused
    exact ⟨func, entry, scope, done, inst, todo, s,
      (Reaches.opens declared earlier opened).finish_all rounds, failed⟩
  · rintro ⟨func, entry, scope, done, inst, todo, p, reached, failed⟩
    refine reached.fails ?_
    rw [fails_forM_iff]
    exact ⟨[], inst, todo, p, rfl, yields_forM_nil_iff.mpr rfl, failed⟩

end Document

end IrStream
