import IrStream.Proofs.Document.Step
import IrStream.Proofs.Types.Words
import Mathlib.Data.List.DropRight
import Mathlib.Data.List.TakeDrop

/-!
# The forms of operand texts

What an operand text stands for is decided by how it begins and, if that does not decide it, by what
stands behind its last space.  There is one equation for each form.  An operand is looked at without
the blanks at its ends; a text that is put together from parts without such blanks has none itself
(`trim_append`).

The reader of operands is a chain of attempts.  Each form is recognised only if those before it were
not, so an equation for a late form has to say of a text that it has none of the earlier ones.  The
equations are stated once here, with hypotheses about the first characters that are easy to check,
and the modules about literals, names and types build on them without opening the reader again.

* `operandOfText_name` — a text that begins with `%` or `@` is a name, *whatever* else is in it.
* `operandOfText_label` — the word `label` and a name of a block.
* `operandOfText_plain` — neither of these, and no text without a model either.
* `operandOfText_typed` — of such a text, the last space stands between a type and what is behind
  it.
-/

set_option autoImplicit false

namespace IrStream

/-! ## Blanks at the ends

`trim` drops blanks in front and behind.  It is never computed in what follows; a text without
blanks at its ends is known by its first and its last character. -/

/-- Nothing is dropped exactly if the first entry stays.  Trimming is dropping blanks, from one end
and then from the other. -/
theorem dropWhile_eq_self_iff_head {α : Type} {p : α → Bool} {list : List α} :
    list.dropWhile p = list ↔ ∀ a ∈ list.head?, p a = false := by
  cases list with
  | nil => simp
  | cons a rest =>
    rw [List.dropWhile_cons]
    split
    · next passed =>
      refine iff_of_false (fun same => ?_) fun none => by simp [none a rfl] at passed
      have longer := (List.dropWhile_suffix p (l := rest)).length_le
      rw [same, List.length_cons] at longer
      omega
    · next stays => simpa using stays

theorem trimEnd_eq_self_iff {text : List Char} :
    trimEnd text = text ↔ ∀ c ∈ text.getLast?, isBlank c = false := by
  rw [trimEnd, ← List.head?_reverse, ← dropWhile_eq_self_iff_head, List.reverse_eq_iff]

/-- A text has no blanks at its ends if it neither begins nor ends with one.  In this form the
condition can be read off the characters. -/
theorem trim_eq_self_iff {text : List Char} :
    trim text = text ↔ (∀ c ∈ text.head?, isBlank c = false)
      ∧ ∀ c ∈ text.getLast?, isBlank c = false := by
  rw [← dropWhile_eq_self_iff_head, ← trimEnd_eq_self_iff, trim]
  constructor
  · intro same
    have shorter : (trimEnd (trimStart text)).length ≤ (trimStart text).length := by
      rw [trimEnd, List.length_reverse]
      exact (List.dropWhile_suffix _).length_le.trans_eq List.length_reverse
    have start : trimStart text = text :=
      (List.dropWhile_suffix _).eq_of_length_le (by rwa [same] at shorter)
    exact ⟨start, by rwa [start] at same⟩
  · rintro ⟨start, end'⟩
    rw [show trimStart text = text from start, end']

/-- Something may stand before a text without blanks at its ends, if it has none at its own.  A mark
in front of a name is an example. -/
theorem trim_append {before text : List Char} (solid : before ≠ []) (one : trim before = before)
    (two : trim text = text) : trim (before ++ text) = before ++ text := by
  rw [trim_eq_self_iff] at one two ⊢
  obtain ⟨c, rest, rfl⟩ := List.exists_cons_of_ne_nil solid
  refine ⟨one.1, fun last mem => ?_⟩
  rw [List.getLast?_append, Option.mem_def, Option.or_eq_some_iff] at mem
  rcases mem with mem | ⟨-, mem⟩
  · exact two.2 last mem
  · exact one.2 last mem

theorem trimStart_of_trim {text : List Char} (trimmed : trim text = text) :
    trimStart text = text :=
  dropWhile_eq_self_iff_head.mpr (trim_eq_self_iff.mp trimmed).1

theorem trimEnd_of_trim {text : List Char} (trimmed : trim text = text) : trimEnd text = text :=
  trimEnd_eq_self_iff.mpr (trim_eq_self_iff.mp trimmed).2

theorem trimEnd_trimEnd (text : List Char) : trimEnd (trimEnd text) = trimEnd text :=
  List.rdropWhile_idempotent isBlank text

theorem trimEnd_append {before after : List Char} (solid : trimEnd after ≠ []) :
    trimEnd (before ++ after) = before ++ trimEnd after := by
  rw [trimEnd, Ne, List.reverse_eq_nil_iff] at solid
  rw [trimEnd, trimEnd, List.reverse_append, List.dropWhile_append, if_neg (by simpa using solid),
    List.reverse_append, List.reverse_reverse]

theorem trimEnd_cons {c : Char} (solid : isBlank c = false) (rest : List Char) :
    trimEnd (c :: rest) = c :: trimEnd rest := by
  rw [trimEnd, List.reverse_cons, List.dropWhile_append,
    List.dropWhile_cons_of_neg (by simp [solid])]
  split
  · next none =>
    rw [trimEnd, List.isEmpty_iff.mp none]
    rfl
  · rw [List.reverse_append]
    rfl

namespace Loader

variable {scope : Scope} {text : List Char}

/-! ## Names -/

/-- A local name is looked up as it is, behind its mark.  Only the one mark is taken away. -/
theorem named_local (name : List Char) :
    named scope ('%' :: name) = (match scope.values.lookup (String.ofList name) with
      | some value => return value
      | none => throw (.unknownValue scope.function (String.ofList name))) :=
  rfl

/-- A symbol is a global or a function.  All marks are taken away, and globals come before
functions. -/
theorem run_named_symbol (name : List Char) (program : Program) :
    (named scope ('@' :: name)).run program =
      match program.findGlobal? (String.ofList (name.dropWhile (· == '@'))) with
      | some id => (constant (.global id)).run program
      | none =>
        match program.findFunction? (String.ofList (name.dropWhile (· == '@'))) with
        | some id => (constant (.function id)).run program
        | none => .error (.unknownSymbol (String.ofList (name.dropWhile (· == '@')))) := by
  rw [named, List.dropWhile_cons_of_pos rfl, StateT.run_bind, StateT.run_get, pure_bind]
  · cases program.findGlobal? (String.ofList (name.dropWhile (· == '@'))) with
    | some id => rfl
    | none =>
      dsimp only
      rw [StateT.run_bind, StateT.run_get, pure_bind]
      cases program.findFunction? (String.ofList (name.dropWhile (· == '@'))) with
      | some id => rfl
      | none => rfl
  · simp

/-! ## Forms -/

/-- An operand that is neither a text that programs have no model of nor a label.  What is left to
be seen is whether a name or a type stands in front. -/
theorem operandOfText_plain (trimmed : trim text = text) (modelled : ∀ rest, text ≠ '!' :: rest)
    (value : TypeReader.stripPrefix? "label ".toList text = none) :
    operandOfText scope text = if isName text then named scope text else
      match splitLastSpace? text with
      | none => throw (.malformedOperand (String.ofList text))
      | some (typeText, last) => if isName last then named scope last else
        typeOfText typeText >>= fun type => literal type last := by
  unfold operandOfText
  rw [trimmed]
  dsimp only
  split
  · next rest => exact absurd rfl (modelled rest)
  · generalize TypeReader.stripPrefix? "label ".toList text = label at value
    subst value
    rfl

/-- A text that begins with the mark of a name is a name.  A local name may have blanks inside,
which is the reason why no type can begin with a mark. -/
theorem operandOfText_name {c : Char} {name : List Char} (mark : c = '%' ∨ c = '@')
    (ends : trimEnd name = name) : operandOfText scope (c :: name) = named scope (c :: name) := by
  have solid : isBlank c = false := by rcases mark with rfl | rfl <;> rfl
  have whole : trim (c :: name) = c :: name := by
    rw [trim, trimStart_cons solid, trimEnd_cons solid, ends]
  rcases mark with rfl | rfl
  · rw [operandOfText_plain whole (fun _ => by simp) rfl, isName, if_pos rfl]
  · rw [operandOfText_plain whole (fun _ => by simp) rfl, isName, if_pos rfl]

/-- The label of a block.  The word tells it from a value of the same name. -/
theorem operandOfText_label {name : List Char} (trimmed : trim name = name) :
    operandOfText scope ("label %".toList ++ name) =
      match scope.blocks.lookup (String.ofList (name.dropWhile (· == '%'))) with
      | some block => return .block block
      | none =>
        throw (.unknownBlock scope.function (String.ofList (name.dropWhile (· == '%')))) := by
  have whole : trim ("label %".toList ++ name) = "label %".toList ++ name :=
    trim_append (by decide) (by decide) trimmed
  have label : trim ('%' :: name) = '%' :: name :=
    trim_append (List.cons_ne_nil '%' []) rfl trimmed
  have rest : TypeReader.stripPrefix? "label ".toList ("label %".toList ++ name)
      = some ('%' :: name) := TypeReader.stripPrefix?_append "label ".toList ('%' :: name)
  unfold operandOfText
  rw [whole]
  dsimp only
  split
  · next same => cases same
  · rw [rest]
    dsimp only
    rw [label, List.dropWhile_cons_of_pos rfl]
    rfl

/-- The last space is the one in front of the last word.  Types have blanks inside, so the first one
would be wrong. -/
theorem splitLastSpace?_append (before : List Char) {last : List Char} (word : ' ' ∉ last) :
    splitLastSpace? (before ++ ' ' :: last) = some (before, last) := by
  have turned : (before ++ ' ' :: last).reverse = last.reverse ++ ' ' :: before.reverse := by simp
  have apart : ∀ c ∈ last.reverse, (c != ' ') = true := by
    intro c mem
    exact bne_iff_ne.mpr fun same => word (same ▸ List.mem_reverse.mp mem)
  rw [splitLastSpace?, turned, List.span_eq_takeWhile_dropWhile,
    List.takeWhile_append_of_pos apart, List.dropWhile_append_of_pos apart]
  simp

/-- A type, and behind it a name or a literal.  The type begins with none of the characters that
other forms begin with. -/
theorem operandOfText_typed {c : Char} {rest last : List Char}
    (plain : c ∉ ['!', '%', '@', 'l']) (trimmed : trim (c :: rest) = c :: rest)
    (solid : last ≠ []) (ends : trim last = last) (word : ' ' ∉ last) :
    operandOfText scope (c :: rest ++ ' ' :: last) = if isName last then named scope last else
      typeOfText (c :: rest) >>= fun type => literal type last := by
  simp only [List.mem_cons, List.not_mem_nil, or_false, not_or] at plain
  obtain ⟨notRaw, notLocal, notSymbol, notLabel⟩ := plain
  have whole : trim (c :: rest ++ ' ' :: last) = c :: rest ++ ' ' :: last := by
    rw [trim_eq_self_iff] at trimmed ends ⊢
    refine ⟨trimmed.1, fun other mem => ends.2 other ?_⟩
    obtain ⟨first, more, rfl⟩ := List.exists_cons_of_ne_nil solid
    rwa [List.getLast?_append_cons, List.getLast?_cons_cons] at mem
  have notName : isName (c :: rest ++ ' ' :: last) = false := by
    rw [List.cons_append]
    unfold isName
    split
    · next same => exact absurd (List.head_eq_of_cons_eq same) notLocal
    · next same => exact absurd (List.head_eq_of_cons_eq same) notSymbol
    · rfl
  rw [operandOfText_plain whole (fun _ same => notRaw (List.head_eq_of_cons_eq same))
    (if_neg fun same => notLabel same.symm), notName, splitLastSpace?_append _ word]
  rfl

/-- Blanks behind a name are ignored. -/
theorem operandOfText_trimEnd {before : List Char} (solid : ∀ c ∈ before.head?, isBlank c = false)
    (name : List Char) :
    operandOfText scope (before ++ '%' :: name)
      = operandOfText scope (before ++ '%' :: trimEnd name) := by
  have ends (name : List Char) : trim (before ++ '%' :: name) = before ++ '%' :: trimEnd name := by
    have begins : trimStart (before ++ '%' :: name) = before ++ '%' :: name := by
      cases before with
      | nil => exact trimStart_cons rfl name
      | cons c rest => exact trimStart_cons (solid c rfl) _
    have marked : trimEnd ('%' :: name) = '%' :: trimEnd name := trimEnd_cons rfl name
    rw [trim, begins, trimEnd_append (by simp [marked]), marked]
  unfold operandOfText
  rw [ends, ends, trimEnd_trimEnd]

end Loader

end IrStream
