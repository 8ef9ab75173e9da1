import IrStream.Proofs.Document.Naming
import IrStream.Proofs.Pairing.Constants

/-!
# Operands behind types

The text of a constant is a type and a literal, and a name may stand behind a type as well.  But how
an operand begins decides what it is, before a type is looked for.  No type begins with the mark of
a symbol, with that of a text without a model, or like a label (`Types.begins_of_readText`), so
these are told from typed operands.  The mark of local names is also the one of named structs,
though: an operand behind a type that begins with one is not read as such, and the whole text is
taken for the name of a value.  `typed_operands` has both halves.

The first half says what is found for each of the two literals that every type has, and for each
name.  It rests on two observations about texts.  A text that is read as a type begins with a
character of a type, which is a fact about the reader of types and is proved by looking at the first
thing that the reader does (`base_of_unlike`).  And what is read as a type may have spaces in it,
but the last space of the whole text is the one that stands behind it, since what follows has none.

The second half takes no more than the first character.

## Statements

* `Types.begins_of_readText`: **no type** begins with one of those marks.
* `operandOfText_of_type`: what is looked at behind a type.
* `operandOfText_of_typed_name`: a type in front of a name is passed over, and does not even have to
  be that of the value.
* `typed_operands`: both halves.
* `typed_operands_named`: a struct, and an undefined value of it that is not found.
-/

set_option autoImplicit false

namespace IrStream

/-! ## How types begin

The two lemmas about the reader say what it does to a text that begins with none of the characters
of a type: it fails at once, and the arena is as before. -/

namespace TypeReader

variable {item : TypeReader Types TypeId} {types : Types} {text chars : List Char}

/-- A word that begins like a label is no type, and neither is no word. -/
theorem ofWord_of_unlike (unlike : ∀ c ∈ chars.head?, c = 'l') :
    ofWord chars types text = (types, none) := by
  cases chars with
  | nil => rfl
  | cons c rest =>
    cases unlike c rfl
    have heads : ∀ kind ∈ FloatKind.all, kind.name.toList.head? ≠ some 'l' := by decide
    have noFormat : FloatKind.ofName? (String.ofList ('l' :: rest)) = none := by
      rw [FloatKind.ofName?, List.find?_eq_none]
      intro kind mem same
      refine heads kind mem ?_
      rw [beq_iff_eq.mp same, String.toList_ofList]
      rfl
    rw [ofWord, noFormat]
    · rfl
    · nofun

/-- No type begins with an exclamation mark, an at sign or the first letter of `label`. -/
theorem base_of_unlike (unlike : ∀ c ∈ (trimStart text).head?, c ∈ ['!', '@', 'l']) :
    base item types text = (types, none) := by
  have apart {other : Char} (differs : other ∉ ['!', '@', 'l']) :
      ∀ first ∈ (trimStart text).head?, first ≠ other := by
    rintro first mem rfl
    exact differs (unlike first mem)
  have first : ∀ c ∈ ((trimStart text).takeWhile isWordChar).head?, c = 'l' := by
    rw [List.head?_takeWhile]
    intro c mem
    obtain ⟨head, isWord⟩ := Option.filter_eq_some_iff.mp mem
    have marked : c = '!' ∨ c = '@' ∨ c = 'l' := by simpa using unlike c head
    obtain rfl | rfl | same := marked
    · cases isWord
    · cases isWord
    · exact same
  have word : word types text = (types, some ((trimStart text).takeWhile isWordChar,
      (trimStart text).dropWhile isWordChar)) := rfl
  generalize (trimStart text).takeWhile isWordChar = chars at first word
  have other {known : List Char} (differs : known ≠ [] ∧ known.head? ≠ some 'l') :
      chars ≠ known := by
    rintro rfl
    obtain ⟨c, rest, rfl⟩ := List.exists_cons_of_ne_nil differs.1
    exact differs.2 (congrArg some (first c rfl))
  rw [base,
    branch_of_absent (take?_of_ne (by decide : "<\x7b".toList = ['<', '\x7b']) (apart (by decide))),
    branch_of_absent (take?_of_ne (by decide : "\x7b".toList = ['\x7b']) (apart (by decide))),
    branch_of_absent (take?_of_ne (by decide : "[".toList = ['[']) (apart (by decide))),
    branch_of_absent (take?_of_ne (by decide : "%".toList = ['%']) (apart (by decide))),
    bind_of_eq word, if_neg (other (by decide)), if_neg (other (by decide))]
  exact ofWord_of_unlike first

end TypeReader

/-- **No type** begins with the mark of a symbol or of a text without a model, or like a label. -/
theorem Types.begins_of_readText {types : Types} {text : List Char} {type : TypeId}
    (reads : (types.readText text).2 = .ok type) :
    ∃ c ∈ (trimStart text).head?, c ∉ ['!', '@', 'l'] := by
  by_contra! unlike
  have failed : TypeReader.typeWithin (text.length + 1) types text = (types, none) := by
    rw [TypeReader.typeWithin]
    simp only [Bind.bind, TypeReader.base_of_unlike unlike]
  simp only [Types.readText, TypeArena.readText, TypeArena.read, failed] at reads
  cases reads

namespace Loader

variable {program : Program} {scope : Scope} {text last : List Char} {type : TypeId}

/-! ## Operands behind types

The types that the text spells are interned before the literal is looked at, so the program behind
has them in every case. -/

/-- A type that is read is answered, and its arena is kept. -/
theorem yields_typeOfText (reads : (program.types.readText text).2 = .ok type) :
    Yields (typeOfText text) program type
      { program with types := (program.types.readText text).1 } := by
  simp only [typeOfText, yields_bind_iff, yields_get_iff, yields_set_iff, yields_except_iff]
  exact ⟨_, _, ⟨rfl, rfl⟩, (), _, rfl, reads, rfl⟩

theorem literal_undef (type : TypeId) : literal type "undef".toList = constant (.undef type) := by
  rw [literal, if_neg (by decide), if_pos (by decide)]

theorem literal_null (type : TypeId) : literal type "null".toList = constant (.null type) := by
  rw [literal, if_pos rfl]

/-- The text stands for a constant, which is stored in a program that has the types that are written
there. -/
def Constructs (scope : Scope) (program : Program) (type text : List Char) (constant : Constant) :
    Prop :=
  ∃ id after, Yields (operandOfText scope text) program (.const id) after
    ∧ after.types = (program.types.readText type).1 ∧ after.constant id = .ok constant

/-- What stands behind a type is looked at if the type begins with no mark. -/
theorem operandOfText_of_type (reads : (program.types.readText text).2 = .ok type)
    (trimmed : trim text = text) (unmarked : text.head? ≠ some '%') (solid : last ≠ [])
    (ends : trim last = last) (word : ' ' ∉ last) :
    operandOfText scope (text ++ ' ' :: last) = if isName last then named scope last else
      typeOfText text >>= fun type => literal type last := by
  obtain ⟨c, begins, plain⟩ := Types.begins_of_readText reads
  rw [trimStart_of_trim trimmed] at begins
  obtain ⟨rest, rfl⟩ := List.head?_eq_some_iff.mp begins
  refine operandOfText_typed ?_ trimmed solid ends word
  simp only [List.head?_cons, ne_eq, Option.some.injEq, List.mem_cons, List.not_mem_nil, or_false,
    not_or] at unmarked plain ⊢
  exact ⟨plain.1, unmarked, plain.2⟩

/-- A literal behind a type stands for the constant that is read from it, and the program has the
types of the text by then. -/
theorem constructs_of_literal (reads : (program.types.readText text).2 = .ok type)
    (trimmed : trim text = text) (unmarked : text.head? ≠ some '%') (solid : last ≠ [])
    (ends : trim last = last) (word : ' ' ∉ last) (plain : isName last = false)
    {stored : Constant} (reading : literal type last = constant stored) :
    Constructs scope program text (text ++ ' ' :: last) stored := by
  let typed : Program := { program with types := (program.types.readText text).1 }
  refine ⟨(typed.internConstant stored).1, (typed.internConstant stored).2, ?_, rfl,
    Constants.constant_intern⟩
  rw [operandOfText_of_type reads trimmed unmarked solid ends word, plain,
    if_neg Bool.false_ne_true, yields_bind_iff]
  refine ⟨type, _, yields_typeOfText reads, ?_⟩
  rw [reading]
  exact yields_update_iff.mpr rfl

/-- A type in front of the name of a value is passed over. -/
theorem operandOfText_of_typed_name (reads : (program.types.readText text).2 = .ok type)
    (trimmed : trim text = text) (unmarked : text.head? ≠ some '%') {name : List Char}
    (word : ' ' ∉ name) :
    operandOfText scope (text ++ " %".toList ++ name) = operandOfText scope ('%' :: name) := by
  have begins : ∀ c ∈ (text ++ [' ']).head?, isBlank c = false := by
    obtain ⟨c, begins, -⟩ := Types.begins_of_readText reads
    rw [trimStart_of_trim trimmed] at begins
    obtain ⟨rest, rfl⟩ := List.head?_eq_some_iff.mp begins
    exact (trim_eq_self_iff.mp trimmed).1
  have shorter : ' ' ∉ trimEnd name := fun mem =>
    word (List.IsPrefix.mem mem (List.rdropWhile_prefix isBlank name))
  have ends : trim ('%' :: trimEnd name) = '%' :: trimEnd name := by
    rw [trim, trimStart_cons rfl, trimEnd_cons rfl, trimEnd_trimEnd]
  calc operandOfText scope (text ++ " %".toList ++ name)
      = operandOfText scope ((text ++ [' ']) ++ '%' :: name) := by simp
    _ = operandOfText scope ((text ++ [' ']) ++ '%' :: trimEnd name) :=
      operandOfText_trimEnd begins name
    _ = operandOfText scope (text ++ ' ' :: '%' :: trimEnd name) := by simp
    _ = named scope ('%' :: trimEnd name) := by
      rw [operandOfText_of_type reads trimmed unmarked (List.cons_ne_nil _ _) ends
        (by simp [shorter]), isName, if_pos rfl]
    _ = operandOfText scope ('%' :: trimEnd name) :=
      (operandOfText_name (.inl rfl) (trimEnd_trimEnd name)).symm
    _ = operandOfText scope ('%' :: name) := (@operandOfText_trimEnd scope [] (by simp) name).symm

end Loader

/-- **Operands behind types.**  The constants and the names of values that stand behind a type are
found, if the type begins with no mark.  If it begins with one, the type and what stands behind it
are looked up as the name of one value. -/
theorem typed_operands (program : Program) (scope : Scope) (text : List Char) (type : TypeId)
    (reads : (program.types.readText text).2 = .ok type) (trimmed : trim text = text) :
    (text.head? ≠ some '%' →
      Loader.Constructs scope program text (text ++ " undef".toList) (.undef type)
      ∧ Loader.Constructs scope program text (text ++ " null".toList) (.null type)
      ∧ ∀ name, ' ' ∉ name → Loader.operandOfText scope (text ++ " %".toList ++ name)
        = Loader.operandOfText scope ('%' :: name))
    ∧ ∀ rest behind, text = '%' :: rest → behind ≠ [] → trimEnd behind = behind →
      Loader.Fetches (Loader.operandOfText scope (text ++ ' ' :: behind)) program
        (fun operand after => scope.values.lookup (String.ofList (rest ++ ' ' :: behind))
          = some operand ∧ after = program)
        (.unknownValue scope.function (String.ofList (rest ++ ' ' :: behind))) := by
  refine ⟨fun unmarked => ⟨?_, ?_, fun name word => ?_⟩, ?_⟩
  · exact Loader.constructs_of_literal reads trimmed unmarked (by decide) (by decide) (by decide)
      (by decide) (Loader.literal_undef type)
  · exact Loader.constructs_of_literal reads trimmed unmarked (by decide) (by decide) (by decide)
      (by decide) (Loader.literal_null type)
  · exact Loader.operandOfText_of_typed_name reads trimmed unmarked word
  · rintro rest behind rfl solid ends
    have whole : trimEnd (rest ++ ' ' :: behind) = rest ++ ' ' :: behind := by
      have split : rest ++ ' ' :: behind = (rest ++ [' ']) ++ behind := by simp
      rw [split, trimEnd_append (ends.symm ▸ solid), ends]
    exact Loader.fetches_value whole

/-- A program with a named struct. -/
def Program.withPair : Program :=
  { Program.empty .standard with types := (Types.initial.declareStruct "Pair").2 }

/-- A constant of the struct is taken for a value of the function. -/
theorem typed_operands_named :
    (Program.withPair.types.readText "%Pair".toList).2 = .ok ⟨6⟩
      ∧ (Loader.operandOfText (.ofFunction "f") "%Pair undef".toList).run Program.withPair
        = .error (.unknownValue "f" "Pair undef")
      ∧ Loader.Constructs (.ofFunction "f") Program.withPair "i32".toList "i32 undef".toList
        (.undef .i32) := by
  have named : (Program.withPair.types.readText "%Pair".toList).2 = .ok ⟨6⟩ := by decide +kernel
  have plain : (Program.withPair.types.readText "i32".toList).2 = .ok .i32 := by decide +kernel
  refine ⟨named, ?_, ?_⟩
  · refine ((typed_operands _ (.ofFunction "f") _ _ named (by decide)).2 _ "undef".toList rfl
      (by decide) (by decide)).fails ?_
    rintro operand after ⟨found, -⟩
    cases found
  · exact ((typed_operands _ (.ofFunction "f") _ _ plain (by decide)).1 (by decide)).1

end IrStream
