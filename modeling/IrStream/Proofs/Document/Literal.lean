import IrStream.Proofs.Document.Numerals
import IrStream.Proofs.Document.Pending
import IrStream.Proofs.Document.TypedOperand
import IrStream.Proofs.Program.InPlace
import IrStream.Proofs.Program.Layered
import IrStream.Proofs.Types.RoundTrip

/-!
# Literals that were written

An integer or a floating-point number of a program is written as its type and its value.  Where the
text stands for an operand, it stands for that constant again, and nothing is added to the program
(`Program.SoundNumbers.readsAs`).

The type is one word, so the last space of the text stands between type and value, and the value
begins with no mark.  Reading the value answers a number whose low bits are stored already.

The three facts in that sentence are the three parts of the module.

* **Where the text is split.**  `IsValue` collects what the reader looks at before it decides that a
  text is a type and a literal: no mark in front, and none of the literals that stand for every
  type.  The texts of numbers are values in this sense, for every number (`isValue_intText`,
  `isValue_floatBitsText`).
* **Which number is read.**  `intLiteral?_intText` and `floatLiteral?_floatBitsText` invert the
  writers.  For an integer that is not the number that was given to `constInt` but the signed view
  of what was stored; for `i1` it is one of two words.
* **Which constant that is.**  Cutting the number to its width gives back the stored bits, so
  interning finds the entry (`readsAs_int`), and the arena of constants does not change.

What is asked of the program is `Program.SoundNumbers`: integers come from `constInt`, and
floating-point numbers have a floating-point type.  The operations alone do not give that, since any
constant can be interned, but a document can only ask for such numbers (`Draft.soundNumbers`).
-/

set_option autoImplicit false

namespace IrStream

open Relation (ReflTransGen)

/-! ## Values behind types

The reader looks for the last blank.  A type of numbers is spelled without one, and so is a value,
which makes the split the right one. -/

/-- The type of a number is written as one word. -/
theorem Types.Layered.isWord_text {shape : TypeShape} {types : Types} {id : TypeId}
    (layered : types.Layered) (found : types.shape id = .ok shape) (number : shape.IsNumber) :
    IsWord (types.text id).toList := by
  rw [layered.text_of_shape found]
  cases shape with
  | int bits =>
    rw [TypeShape.textWith, String.toList_append]
    exact List.forall_mem_append.mpr ⟨isWord_of_all (by decide), isWord_toString _⟩
  | float kind =>
    rw [TypeShape.textWith]
    exact isWord_of_all (by cases kind <;> decide)
  | _ => cases number

theorem trim_of_solid {text : List Char} (solid : ∀ c ∈ text, isBlank c = false) :
    trim text = text :=
  trim_eq_self_iff.mpr ⟨fun c mem => solid c (List.mem_of_mem_head? mem),
    fun c mem => solid c (List.mem_of_mem_getLast? mem)⟩

/-- The text begins with no mark, and is none of the literals that every type has: there is an `n`
in each of those. -/
structure IsValue (text : List Char) : Prop where
  /-- There is something to read. -/
  solid : text ≠ []
  /-- No blank, no mark of a name, and no `n` as in `null`, `undef` and `poison`. -/
  plain : ∀ c ∈ text, isBlank c = false ∧ c ∉ ['%', '@', 'n']

namespace IsValue

variable {text : List Char}

theorem isName_eq (value : IsValue text) : Loader.isName text = false := by
  have marks {rest : List Char} (c : Char) (spelled : text = c :: rest)
      (mark : c ∈ ['%', '@', 'n']) : False :=
    (value.plain c (spelled ▸ List.mem_cons_self)).2 mark
  unfold Loader.isName
  split
  · exact (marks '%' rfl (by decide)).elim
  · exact (marks '@' rfl (by decide)).elim
  · rfl

theorem ne_of_mem (value : IsValue text) {other : List Char} (letter : 'n' ∈ other) :
    text ≠ other := by
  rintro rfl
  exact (value.plain 'n' letter).2 (by decide)

end IsValue

namespace Loader

open Program (intConstantText)

variable {program : Program} {scope : Scope} {last : List Char} {type : TypeId} {id : ConstId}

/-- A number behind the text of its type is read like the number alone, once its type is known: no
mark at the front stops the reading of the type, which adds nothing to the arena. -/
theorem operandOfText_of_number (regular : program.types.Regular) {shape : TypeShape}
    (found : program.types.shape type = .ok shape) (number : shape.IsNumber)
    (value : IsValue last) {operand : Operand}
    (run : Yields (literal type last) program operand program) :
    Yields (operandOfText scope ((program.types.text type).toList ++ ' ' :: last)) program operand
      program := by
  have word := regular.layered.isWord_text found number
  have reads := regular.readText_number found number
  have unmarked : (program.types.text type).toList.head? ≠ some '%' := by
    intro head
    cases word '%' (List.mem_of_mem_head? head)
  have typed := yields_typeOfText (congrArg Prod.snd reads)
  rw [reads] at typed
  rw [operandOfText_of_type (congrArg Prod.snd reads)
    (trim_of_solid fun c mem => not_isBlank_of_isWordChar (word c mem)) unmarked value.solid
    (trim_of_solid fun c mem => (value.plain c mem).1)
    (fun mem => by cases (value.plain ' ' mem).1), value.isName_eq, if_neg Bool.false_ne_true,
    yields_bind_iff]
  exact ⟨type, program, typed, run⟩

/-- Where the text is none of the words that every type knows, only the branches of the two kinds of
numbers are left. -/
theorem literal_of_isValue (value : IsValue last) : literal type last = (do
    match ← ((← get).types.shape type : Except Dangling TypeShape) with
    | .int _ =>
      match intLiteral? last with
      | some value => return .const (← update (·.constInt type value))
      | none => throw (.malformedConstant (String.ofList last))
    | .float kind =>
      match floatLiteral? kind last with
      | some bits => constant (.float type (UInt64.ofNat bits))
      | none => throw (.malformedConstant (String.ofList last))
    | _ => throw (.malformedConstant (String.ofList last))) := by
  have other : (decide (last = "undef".toList) || decide (last = "poison".toList)) = false := by
    rw [decide_eq_false (value.ne_of_mem (by decide)),
      decide_eq_false (value.ne_of_mem (by decide))]
    rfl
  rw [literal]
  refine (if_neg (value.ne_of_mem (by decide))).trans ?_
  exact if_neg (Bool.eq_false_iff.mp other)

theorem yields_literal_int {bits : UInt32} {number : Int} (value : IsValue last)
    (found : program.types.shape type = .ok (.int bits)) (read : intLiteral? last = some number)
    (run : program.constInt type number = .ok (id, program)) :
    Yields (literal type last) program (.const id) program := by
  simp only [literal_of_isValue value, yields_bind_iff, yields_get_iff, yields_dangling_iff]
  refine ⟨program, program, ⟨rfl, rfl⟩, _, program, ⟨found, rfl⟩, ?_⟩
  dsimp only
  rw [read]
  simp only [yields_bind_iff, yields_update_iff, yields_pure_iff]
  exact ⟨id, program, run, rfl, rfl⟩

/-- A literal of a floating-point type is its bits, and a constant of them that is stored already is
found. -/
theorem yields_literal_float {kind : FloatKind} {bits : Nat} (value : IsValue last)
    (found : program.types.shape type = .ok (.float kind))
    (read : floatLiteral? kind last = some bits)
    (stored : program.internConstant (.float type (UInt64.ofNat bits)) = (id, program)) :
    Yields (literal type last) program (.const id) program := by
  simp only [literal_of_isValue value, yields_bind_iff, yields_get_iff, yields_dangling_iff]
  refine ⟨program, program, ⟨rfl, rfl⟩, _, program, ⟨found, rfl⟩, ?_⟩
  dsimp only
  rw [read]
  refine yields_update_iff.mpr ?_
  dsimp only
  rw [stored]

/-! ## Texts of numbers -/

theorem isValue_intText (number : Int) : IsValue (intText number).toList := by
  refine ⟨intText_ne_nil number, fun c mem => ?_⟩
  rcases isDigit_or_minus_of_mem_intText mem with digit | rfl
  · have word : TypeReader.isWordChar c = true := by
      rw [TypeReader.isWordChar, Char.isAlphanum, digit, Bool.or_true, Bool.true_or, Bool.true_or]
    refine ⟨not_isBlank_of_isWordChar word, fun mark => ?_⟩
    have letters : ∀ c ∈ ['%', '@', 'n'], c.isDigit = false := forall_mem_of_all (by decide)
    exact Bool.false_ne_true ((letters c mark).symm.trans digit)
  · decide

/-- Integers are read back from their decimal text as far as a literal may go, the least one
included: its digits alone would be too large. -/
theorem intLiteral?_intText {number : Int} (low : -2 ^ 127 ≤ number) (high : number < 2 ^ 127) :
    intLiteral? (intText number).toList = some number := by
  have letters {c : Char} (digit : c.isDigit = false) (sign : c ≠ '-') :
      c ∉ (intText number).toList := by
    intro mem
    rcases isDigit_or_minus_of_mem_intText mem with other | other
    · exact Bool.false_ne_true (digit.symm.trans other)
    · exact sign other
  have noTrue : (intText number).toList ≠ "true".toList := fun same =>
    letters (c := 't') rfl (by decide) (same ▸ by decide)
  have noFalse : (intText number).toList ≠ "false".toList := fun same =>
    letters (c := 'f') rfl (by decide) (same ▸ by decide)
  unfold intLiteral?
  rw [if_neg noTrue, if_neg noFalse]
  split
  · next spelled =>
    have letter : 'x' ∈ (intText number).toList := by simp [spelled]
    exact absurd letter (letters rfl (by decide))
  · exact signed?_intText low high

/-- The text of an integer constant is a value, which is read as a number with its bits. -/
theorem exists_intLiteral? {width : Nat} (positive : width ≠ 0) (narrow : width ≤ 128)
    (value : BitVec 128) :
    IsValue (intConstantText width (truncate value width)).toList
      ∧ ∃ number, intLiteral? (intConstantText width (truncate value width)).toList = some number
        ∧ truncate (BitVec.ofInt 128 number) width = truncate value width := by
  rw [intConstantText]
  split
  · next one =>
    subst one
    have small := toNat_truncate_lt value 1
    split
    · next zero =>
      rw [zero]
      exact ⟨⟨by decide, forall_mem_of_all (by decide)⟩, 0, by decide, by decide⟩
    · next other =>
      have unit : truncate value 1 = 1 := by
        have nonzero : (truncate value 1).toNat ≠ 0 := fun zero =>
          other (BitVec.eq_of_toNat_eq zero)
        refine BitVec.eq_of_toNat_eq (show _ = 1 from ?_)
        omega
      rw [unit]
      exact ⟨⟨by decide, forall_mem_of_all (by decide)⟩, 1, by decide, by decide⟩
  · obtain ⟨low, high⟩ := signExtend_bounds (truncate value width) width
    exact ⟨isValue_intText _, _, intLiteral?_intText low high,
      truncate_signExtend positive narrow value⟩

theorem toList_floatBitsText (bits : UInt64) :
    (floatBitsText bits).toList = '0' :: 'x' :: upperHex 16 bits.toNat := by
  rw [floatBitsText, String.toList_append, String.toList_ofList, String.toList_ofList,
    List.cons_append, List.cons_append, List.nil_append]

/-- Sixteen digits behind the prefix are the bits, whatever the kind. -/
theorem floatLiteral?_of_hex (kind : FloatKind) (digits : List Char) :
    floatLiteral? kind ('0' :: 'x' :: digits) = unsigned? 16 UInt64.size digits :=
  rfl

/-- The text of the bits begins with a zero and has nothing but hexadecimal digits behind it. -/
theorem isValue_floatBitsText (bits : UInt64) : IsValue (floatBitsText bits).toList := by
  have digits : ∀ digit : Fin 16, isBlank (upperHexDigit digit) = false
      ∧ upperHexDigit digit ∉ ['%', '@', 'n'] := by
    decide
  rw [toList_floatBitsText]
  refine ⟨List.cons_ne_nil _ _, fun c mem => ?_⟩
  rcases List.mem_cons.mp mem with rfl | mem
  · decide
  rcases List.mem_cons.mp mem with rfl | mem
  · decide
  obtain ⟨digit, small, rfl⟩ := exists_of_mem_upperHex mem
  exact digits ⟨digit, small⟩

theorem floatLiteral?_floatBitsText (kind : FloatKind) (bits : UInt64) :
    floatLiteral? kind (floatBitsText bits).toList = some bits.toNat := by
  rw [toList_floatBitsText, floatLiteral?_of_hex]
  exact unsigned?_upperHex (by decide) bits.toNat_lt bits.toNat_lt

end Loader

/-! ## Programs with such constants

`MadeInt` refers to the past of a program: at some time `constInt` answered this constant, and what
came since then were operations.  What it gives is a fact about the present
(`MadeInt.exists_truncate`). -/

/-- The constant is an integer of at least one bit or a floating-point number. -/
def Constant.IsNumber (program : Program) : Constant → Prop
  | .int type _ => program.types.shape type ≠ .ok (.int 0)
  | .float .. => True
  | _ => False

namespace Program

variable {program p q : Program} {id : ConstId} {type : TypeId}

/-- The constant was made by `constInt`, and whatever was done with the program since then. -/
def MadeInt (program : Program) (id : ConstId) : Prop :=
  ∃ (before after : Program) (type : TypeId) (value : Int), before.Built
    ∧ before.constInt type value = .ok (id, after) ∧ ReflTransGen Step after program

/-- Integers were made by `constInt`, and floating-point numbers have such a type. -/
structure SoundNumbers (program : Program) : Prop where
  /-- Nothing but the public operations made the program. -/
  built : program.Built
  /-- Bits above the width would be lost when the literal is written. -/
  int : ∀ {id type bits}, program.constant id = .ok (.int type bits) → program.MadeInt id
  /-- Any other type would not be read as a floating-point literal. -/
  float : ∀ {id type bits}, program.constant id = .ok (.float type bits) →
    ∃ kind, program.types.shape type = .ok (.float kind)

theorem Built.run (built : p.Built) (run : ReflTransGen Step p q) : q.Built := by
  induction run with
  | refl => exact built
  | tail _ step ih => exact ih.step step

theorem Step.constant_eq {constant : Constant} (step : Step p q)
    (found : p.constant id = .ok constant) : q.constant id = .ok constant := by
  rw [Program.constant] at found ⊢
  rcases step.stored.2 with same | ⟨added, -, same⟩
  · exact same ▸ found
  · exact same ▸ Constants.constant_intern_of_constant found added

/-- Constants and the types of numbers last. -/
theorem Built.keeps_run (built : p.Built) (run : ReflTransGen Step p q) {constant : Constant}
    (found : p.constant id = .ok constant) {shape : TypeShape}
    (there : p.types.shape type = .ok shape) (unnamed : shape.structName? = none) :
    q.constant id = .ok constant ∧ q.types.shape type = .ok shape := by
  induction run with
  | refl => exact ⟨found, there⟩
  | tail before step ih =>
    obtain ⟨found, there⟩ := ih
    have ptr := (built.run before).types.regular.has_ptr
    exact ⟨step.constant_eq found, (step.keeps ptr).types.shape_of_unnamed there unnamed⟩

/-- What `constInt` answers is stored, and no type changes. -/
theorem stored_of_constInt {before after : Program} {value : Int}
    (run : before.constInt type value = .ok (id, after)) :
    ∃ bits, before.types.shape type = .ok (.int bits) ∧ bits.toNat ≤ maxIntBits
      ∧ after.types = before.types
      ∧ after.constant id = .ok (.int type (truncate (BitVec.ofInt 128 value) bits.toNat)) := by
  obtain ⟨bits, found, same⟩ := constInt_eq_ok run
  have narrow : bits.toNat ≤ maxIntBits := by
    rw [constInt_of_int found] at run
    split at run
    · cases run
    · next within => exact Nat.le_of_not_lt within
  cases same
  exact ⟨bits, found, narrow, rfl, Constants.constant_intern⟩

/-- The bits of an integer that `constInt` made are those of some value, cut to its type. -/
theorem MadeInt.exists_truncate (made : program.MadeInt id) : ∃ type bits value,
    program.types.shape type = .ok (.int bits) ∧ bits.toNat ≤ maxIntBits
      ∧ program.constant id = .ok (.int type (truncate value bits.toNat)) := by
  obtain ⟨before, after, type, value, built, run, since⟩ := made
  obtain ⟨bits, found, narrow, types, stored⟩ := stored_of_constInt run
  have later := built.step (.constInt run)
  obtain ⟨kept, shape⟩ := later.keeps_run since stored (types ▸ found) rfl
  exact ⟨type, bits, _, shape, narrow, kept⟩

/-- An integer is written as its type, a space and its value. -/
theorem constantText_int {bits : UInt32} (found : program.types.shape type = .ok (.int bits))
    (value : BitVec 128) : program.constantText (.int type value)
      = .ok (program.types.text type ++ " " ++ intConstantText bits.toNat value) := by
  rw [constantText, constantBody, constantBodyWithin, found]
  rfl

theorem constantText_float (bits : UInt64) : program.constantText (.float type bits)
    = .ok (program.types.text type ++ " " ++ floatBitsText bits) := by
  rw [constantText, constantBody, constantBodyWithin]
  rfl

/-- The text is an operand of every scope, and stands for a constant that is stored already. -/
def ReadsAs (program : Program) (text : String) (id : ConstId) : Prop :=
  ∀ scope, Loader.Yields (Loader.operandOf scope (.text text)) program (.const id) program

namespace SoundNumbers

variable (sound : program.SoundNumbers)
include sound

/-- An integer constant is written with its type in front, and is read back as the entry that it is.
-/
theorem readsAs_int {bits : UInt32} {value : BitVec 128}
    (found : program.types.shape type = .ok (.int bits)) (positive : bits ≠ 0)
    (narrow : bits.toNat ≤ maxIntBits)
    (stored : program.constant id = .ok (.int type (truncate value bits.toNat))) :
    program.ReadsAs (program.types.text type ++ " "
      ++ intConstantText bits.toNat (truncate value bits.toNat)) id := by
  intro scope
  have some : bits.toNat ≠ 0 := fun zero => positive (UInt32.toNat_inj.mp zero)
  obtain ⟨written, number, read, same⟩ := Loader.exists_intLiteral? some narrow value
  have run : program.constInt type number = .ok (id, program) := by
    rw [constInt_of_int found, if_neg (Nat.not_lt.mpr narrow), same,
      sound.built.internConstant_of_constant stored]
  rw [Loader.operandOf, String.toList_append, String.toList_append, List.append_assoc]
  exact Loader.operandOfText_of_number sound.built.types.regular found positive written
    (Loader.yields_literal_int written found read run)

/-- So is a floating-point constant, whatever its bits are. -/
theorem readsAs_float {kind : FloatKind} {bits : UInt64}
    (found : program.types.shape type = .ok (.float kind))
    (stored : program.constant id = .ok (.float type bits)) :
    program.ReadsAs (program.types.text type ++ " " ++ floatBitsText bits) id := by
  intro scope
  have written := Loader.isValue_floatBitsText bits
  have run : program.internConstant (.float type (UInt64.ofNat bits.toNat)) = (id, program) := by
    rw [UInt64.ofNat_toNat, sound.built.internConstant_of_constant stored]
  rw [Loader.operandOf, String.toList_append, String.toList_append, List.append_assoc]
  exact Loader.operandOfText_of_number sound.built.types.regular found trivial written
    (Loader.yields_literal_float written found (Loader.floatLiteral?_floatBitsText kind bits) run)

/-- **The text of a number is read as the number**, and nothing is added to the program. -/
theorem readsAs {constant : Constant} (stored : program.constant id = .ok constant)
    (number : constant.IsNumber program) :
    ∃ text, program.constantText constant = .ok text ∧ program.ReadsAs text id := by
  cases constant with
  | int type bits =>
    obtain ⟨type, bits, value, found, narrow, same⟩ := (sound.int stored).exists_truncate
    cases stored.symm.trans same
    have positive : bits ≠ 0 := by
      rintro rfl
      exact number found
    exact ⟨_, constantText_int found _, sound.readsAs_int found positive narrow stored⟩
  | float type bits =>
    obtain ⟨kind, found⟩ := sound.float stored
    exact ⟨_, constantText_float bits, sound.readsAs_float found stored⟩
  | _ => cases number

end SoundNumbers

/-! ## Loaded programs

A draft has proper integers, and a proper integer is what `constInt` answers for its own bits. -/

/-- Bits that fit are not cut. -/
theorem truncate_of_lt {bits : BitVec 128} {width : Nat} (small : bits.toNat < 2 ^ width) :
    truncate bits width = bits := by
  refine BitVec.eq_of_toNat_eq ?_
  rw [truncate, BitVec.toNat_setWidth, BitVec.toNat_setWidth, Nat.mod_eq_of_lt small,
    Nat.mod_eq_of_lt bits.isLt]

theorem Draft.soundNumbers (draft : program.Draft) : program.SoundNumbers where
  built := draft.built
  int {id type bits} stored := by
    obtain ⟨width, found, narrow, small⟩ := draft.typed stored
    refine ⟨program, program, type, bits.toNat, draft.built, ?_, .refl⟩
    rw [constInt_of_int found, if_neg (Nat.not_lt.mpr narrow), BitVec.ofInt_natCast,
      BitVec.ofNat_toNat, BitVec.setWidth_eq, truncate_of_lt small,
      draft.built.internConstant_of_constant stored]
  float stored := draft.typed stored

end Program

/-- **Literals that were written are read back.**  The text of an integer of at least one bit, or of
a floating-point number, stands for that constant in every scope, and reading it adds nothing.
This is so in every program whose integers were made by `constInt` and whose floating-point numbers
have such a type, as they are in the program of a document. -/
theorem literals_read_back :
    (∀ {program : Program}, program.SoundNumbers → ∀ {id constant},
      program.constant id = .ok constant → constant.IsNumber program →
        ∃ text, program.constantText constant = .ok text ∧ program.ReadsAs text id)
    ∧ ∀ {document : Document} {program : Program}, document.toProgram = .ok program →
      program.SoundNumbers :=
  ⟨fun sound _ _ stored number => sound.readsAs stored number,
    fun loaded => (named_of_toProgram loaded).1.soundNumbers⟩

/-- A document with the least integer of the widest type, and with a fraction. -/
def Document.extremes : Document where
  layout := none
  structs := []
  globals := [
    ⟨"low", .text "i128", false, some (.text "i128 -170141183460469231731687303715884105728")⟩,
    ⟨"half", .text "double", false, some (.text "double 0.5")⟩]
  functions := []

/-- The program that the document stands for. -/
def Program.extremes : Program where
  layout := .standard
  types := ⟨#[.void, .int 1, .int 8, .int 32, .int 64, .ptr 0, .int 128, .float .double]⟩
  constants := ⟨#[.int ⟨6⟩ (1 <<< 127), .float ⟨7⟩ 0x3FE0000000000000]⟩
  globals := #[⟨"low", ⟨6⟩, false, some ⟨0⟩⟩, ⟨"half", ⟨7⟩, false, some ⟨1⟩⟩]
  functions := #[]
  blocks := #[]
  insts := #[]
  args := #[]

/-- The least integer of 128 bits, and a double. -/
theorem literals_read_back_extremes :
    Document.extremes.toProgram = .ok Program.extremes
      ∧ Program.extremes.ReadsAs "i128 -170141183460469231731687303715884105728" ⟨0⟩
      ∧ Program.extremes.ReadsAs "double 0x3FE0000000000000" ⟨1⟩ := by
  have loaded : Document.extremes.toProgram = .ok Program.extremes := by decide +kernel
  have sound := literals_read_back.2 loaded
  have low : Program.extremes.constant ⟨0⟩ = .ok (.int ⟨6⟩ (1 <<< 127)) := rfl
  have half : Program.extremes.constant ⟨1⟩ = .ok (.float ⟨7⟩ 0x3FE0000000000000) := rfl
  obtain ⟨_, written, reads⟩ := literals_read_back.1 sound low
    (show Program.extremes.types.shape ⟨6⟩ ≠ .ok (.int 0) from nofun)
  obtain ⟨_, written', reads'⟩ := literals_read_back.1 sound half trivial
  have first : Program.extremes.constantText (.int ⟨6⟩ (1 <<< 127))
      = .ok "i128 -170141183460469231731687303715884105728" := by decide +kernel
  have second : Program.extremes.constantText (.float ⟨7⟩ 0x3FE0000000000000)
      = .ok "double 0x3FE0000000000000" := by decide +kernel
  cases first.symm.trans written
  cases second.symm.trans written'
  exact ⟨loaded, reads, reads'⟩

end IrStream
