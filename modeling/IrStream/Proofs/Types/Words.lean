import IrStream.Types.Reading
import Mathlib.Data.List.TakeWhile

/-!
# Reading words that were written

What the steps of `TypeReader` take from a text that begins, behind blanks, with something that was
written there: a token, a word that what follows does not continue (`Stops`), the decimal digits of
a number.  What they leave is described up to blanks at its front, since every later step passes
over these.

The lemmas of this module are stated for use from the left.  Each has a hypothesis of the form
`trimStart text = … ++ rest`, which says what stands next, and a conclusion that says what the step
answers and what is left.  A proof about a longer text is a chain of them: what one leaves is what
the next one is told.

Most tokens need nothing else.  A word is the exception.  It has no end of its own, so it is taken
for as long as characters of words follow, and two words with nothing between them would be read as
one.

## What there is

* `trimStart_cons`, `trimStart_space`, `trimStart_of_isWord`: blanks at the front, one character at
  a time.
* `bounded?_toString`: **a number is read back** from its digits, if it is below the limit.
* `take?_of_eq`, `take?_of_ne`, `expect_of_eq`: tokens that stand next, and tokens that do not.
* `branch_of_taken`, `branch_of_absent`: the two ways through an alternative.  With them the reader
  is followed through its cases without unfolding any of it.
* `word_of_eq`, `number_of_eq`: words and numbers, each up to where it stops.
-/

set_option autoImplicit false

namespace IrStream

/-- A text of characters that words are made of. -/
def IsWord (text : List Char) : Prop :=
  ∀ c ∈ text, TypeReader.isWordChar c = true

/-- Behind blanks, the text does not begin with a character of a word. -/
def Stops (text : List Char) : Prop :=
  ∀ c ∈ (trimStart text).head?, TypeReader.isWordChar c = false

/-! ## Blanks -/

theorem trimStart_cons {c : Char} (solid : isBlank c = false) (rest : List Char) :
    trimStart (c :: rest) = c :: rest := by
  rw [trimStart, List.dropWhile_cons_of_neg (by simp [solid])]

theorem trimStart_space (rest : List Char) : trimStart (' ' :: rest) = trimStart rest :=
  List.dropWhile_cons_of_pos rfl

theorem trimStart_trimStart (text : List Char) : trimStart (trimStart text) = trimStart text := by
  induction text with
  | nil => rfl
  | cons c rest ih =>
    by_cases blank : isBlank c = true
    · have passed : trimStart (c :: rest) = trimStart rest := List.dropWhile_cons_of_pos blank
      rw [passed, ih]
    · have solid : isBlank c = false := Bool.not_eq_true _ ▸ blank
      rw [trimStart_cons solid, trimStart_cons solid]

theorem head?_cons_ne {c other : Char} (differs : c ≠ other) (rest : List Char) :
    (c :: rest).head? ≠ some other :=
  fun same => differs (Option.some.inj same)

theorem length_trimStart_le (text : List Char) : (trimStart text).length ≤ text.length :=
  (List.dropWhile_suffix _).length_le

/-- Letters, digits and the other characters of words are not blank. -/
theorem not_isBlank_of_isWordChar {c : Char} (word : TypeReader.isWordChar c = true) :
    isBlank c = false := by
  have value : c.val.toNat = c.toNat := rfl
  have known : (48 ≤ c.toNat ∧ c.toNat ≤ 57) ∨ (65 ≤ c.toNat ∧ c.toNat ≤ 90)
      ∨ (97 ≤ c.toNat ∧ c.toNat ≤ 122) ∨ c.toNat = 95 ∨ c.toNat = 46 := by
    delta TypeReader.isWordChar Char.isAlphanum Char.isAlpha Char.isUpper Char.isLower
      Char.isDigit at word
    simp only [Bool.or_eq_true, Bool.and_eq_true, decide_eq_true_eq, beq_iff_eq,
      UInt32.le_iff_toNat_le, value] at word
    rcases word with (((⟨low, high⟩ | ⟨low, high⟩) | ⟨low, high⟩) | rfl) | rfl
    · exact .inr (.inl ⟨low, high⟩)
    · exact .inr (.inr (.inl ⟨low, high⟩))
    · exact .inl ⟨low, high⟩
    · exact .inr (.inr (.inr (.inl rfl)))
    · exact .inr (.inr (.inr (.inr rfl)))
  rw [← Bool.not_eq_true]
  simp only [isBlank, Bool.or_eq_true, Bool.and_eq_true, decide_eq_true_eq, beq_iff_eq]
  omega

/-- No word begins with a blank. -/
theorem trimStart_of_isWord {chars : List Char} (isWord : IsWord chars) (solid : chars ≠ [])
    (rest : List Char) : trimStart (chars ++ rest) = chars ++ rest := by
  obtain ⟨c, more, rfl⟩ := List.exists_cons_of_ne_nil solid
  exact trimStart_cons (not_isBlank_of_isWordChar (isWord c List.mem_cons_self)) _

theorem stops_cons {c : Char} (solid : isBlank c = false)
    (ends : TypeReader.isWordChar c = false) (rest : List Char) : Stops (c :: rest) := by
  rw [Stops, trimStart_cons solid]
  rintro _ ⟨⟩
  exact ends

theorem stops_nil : Stops [] := nofun

/-- Not even with its blanks does a text that stops continue a word. -/
theorem Stops.head {text : List Char} (stops : Stops text) :
    ∀ c ∈ text.head?, TypeReader.isWordChar c = false := by
  cases text with
  | nil => nofun
  | cons c rest =>
    rintro _ ⟨⟩
    by_cases blank : isBlank c = true
    · rw [← Bool.not_eq_true]
      intro word
      exact Bool.false_ne_true ((not_isBlank_of_isWordChar word).symm.trans blank)
    · rw [Stops, trimStart_cons (Bool.not_eq_true _ ▸ blank)] at stops
      exact stops c rfl

/-! ## Numbers -/

/-- The value of a decimal digit. -/
theorem digitValue?_of_isDigit {c : Char} (digit : c.isDigit = true) :
    digitValue? c = some (c.toNat - '0'.toNat) ∧ c.toNat - '0'.toNat < 10 := by
  obtain ⟨low, high⟩ : '0' ≤ c ∧ c ≤ '9' := by
    simpa [Char.isDigit, Char.le_def, UInt32.le_iff_toNat_le] using digit
  refine ⟨if_pos (by simp [low, high]), ?_⟩
  have bound : c.toNat ≤ 57 := high
  have zero : '0'.toNat = 48 := rfl
  omega

/-- On decimal digits the reader computes what the library does. -/
theorem continueNatural?_eq {digits : List Char} (known : ∀ c ∈ digits, c.isDigit = true)
    (value : Nat) : continueNatural? 10 value digits = some (Nat.ofDigitChars 10 digits value) := by
  induction digits generalizing value with
  | nil => rfl
  | cons c rest ih =>
    obtain ⟨first, others⟩ := List.forall_mem_cons.mp known
    obtain ⟨digit, small⟩ := digitValue?_of_isDigit first
    rw [continueNatural?, digit]
    dsimp only
    rw [if_pos small, ih others, Nat.mul_comm]
    rfl

theorem isDigit_of_mem_toString {c : Char} {number : Nat} (mem : c ∈ (toString number).toList) :
    c.isDigit = true := by
  rw [show (toString number).toList = Nat.toDigits 10 number from Nat.toList_repr] at mem
  exact Nat.isDigit_of_mem_toDigits (by decide) (Nat.le_refl 10) mem

/-- **A number is read back** from its digits. -/
theorem bounded?_toString {number limit : Nat} (small : number < limit) :
    bounded? 10 limit (toString number).toList = some number := by
  have digits : (toString number).toList = Nat.toDigits 10 number := Nat.toList_repr
  have read : natural? 10 (toString number).toList = some number := by
    rw [natural?, if_neg, continueNatural?_eq fun c mem => isDigit_of_mem_toString mem, digits,
      Nat.ofDigitChars_toDigits (by decide) (Nat.le_refl 10)]
    rw [digits, List.isEmpty_iff]
    exact Nat.toDigits_ne_nil
  rw [bounded?, read, Option.filter_some, if_pos (by simpa using small)]

/-- What is no digit of any base is in no numeral. -/
theorem not_mem_of_continueNatural? {digits : List Char} {base value result : Nat} {c : Char}
    (known : continueNatural? base value digits = some result) (unread : digitValue? c = none) :
    c ∉ digits := by
  induction digits generalizing value with
  | nil => nofun
  | cons d rest ih =>
    rw [continueNatural?] at known
    split at known
    · next digit read =>
      split at known
      · intro mem
        rcases List.mem_cons.mp mem with rfl | mem
        · cases unread.symm.trans read
        · exact ih known mem
      · cases known
    · cases known

theorem not_mem_of_bounded? {digits : List Char} {limit value : Nat} {c : Char}
    (known : bounded? 10 limit digits = some value) (unread : digitValue? c = none) :
    c ∉ digits := by
  obtain ⟨read, -⟩ := Option.filter_eq_some_iff.mp known
  rw [natural?] at read
  split at read
  · cases read
  · exact not_mem_of_continueNatural? read unread

/-- What is decided for one character after the other. -/
theorem forall_mem_of_all {P : Char → Prop} [DecidablePred P] {text : List Char}
    (every : text.all (decide <| P ·) = true) : ∀ c ∈ text, P c :=
  fun c mem => of_decide_eq_true (List.all_eq_true.mp every c mem)

theorem isWord_of_all {text : List Char} (every : text.all TypeReader.isWordChar = true) :
    IsWord text :=
  List.all_eq_true.mp every

theorem isWord_toString (number : Nat) : IsWord (toString number).toList := by
  intro c mem
  rw [TypeReader.isWordChar, Char.isAlphanum, isDigit_of_mem_toString mem, Bool.or_true,
    Bool.true_or, Bool.true_or]

theorem toString_ne_nil (number : Nat) : (toString number).toList ≠ [] := by
  rw [show (toString number).toList = Nat.toDigits 10 number from Nat.toList_repr]
  exact Nat.toDigits_ne_nil

namespace TypeReader

variable {α β : Type} {types after : Types} {text rest left : List Char}

theorem isWord_takeWhile (text : List Char) : IsWord (text.takeWhile isWordChar) :=
  fun _ mem => List.mem_takeWhile_imp mem

/-! ## Steps -/

theorem bind_of_eq {step : TypeReader Types α} {next : α → TypeReader Types β} {a : α}
    (run : step types text = (after, some (a, left))) :
    (step >>= next) types text = next a after left := by
  simp only [Bind.bind, run]

theorem interning_of_eq {shape : TypeShape} {id : TypeId} (made : types.intern shape = (id, after))
    (text : List Char) : interning shape types text = (after, some (id, text)) := by
  change ((types.intern shape).2, some ((types.intern shape).1, text)) = _
  rw [made]

theorem declared_eq (name : String) :
    declared name types text = (types, (types.named? name).map fun id => (id, text)) := rfl

theorem stripPrefix?_append (token rest : List Char) :
    stripPrefix? token (token ++ rest) = some rest := by
  induction token with
  | nil => rfl
  | cons c token ih => rw [List.cons_append, stripPrefix?, if_pos rfl, ih]

/-- A token that stands next is taken. -/
theorem take?_of_eq {token : String} (next : trimStart text = token.toList ++ rest) :
    take? token types text = (types, some (true, rest)) := by
  rw [take?, next, stripPrefix?_append]

/-- A token that does not stand next is not taken. -/
theorem take?_of_ne {token : String} {c : Char} {chars : List Char}
    (spelled : token.toList = c :: chars)
    (other : ∀ first ∈ (trimStart text).head?, first ≠ c) :
    take? token types text = (types, some (false, text)) := by
  have failed : stripPrefix? token.toList (trimStart text) = none := by
    rw [spelled]
    cases next : trimStart text with
    | nil => rfl
    | cons first rest =>
      rw [next] at other
      exact if_neg (other first rfl).symm
  rw [take?, failed]

/-- The first branch is taken where a token stands, -/
theorem branch_of_taken {token : String}
    (taken : take? token types text = (types, some (true, rest)))
    (yes no : TypeReader Types α) :
    (do if ← take? token then yes else no : TypeReader Types α) types text = yes types rest := by
  rw [bind_of_eq taken, if_pos rfl]

/-- and the second one where it does not. -/
theorem branch_of_absent {token : String}
    (absent : take? token types text = (types, some (false, text))) (yes no : TypeReader Types α) :
    (do if ← take? token then yes else no : TypeReader Types α) types text = no types text := by
  rw [bind_of_eq absent, if_neg Bool.false_ne_true]

theorem expect_of_eq {token : String} (next : trimStart text = token.toList ++ rest) :
    expect token types text = (types, some ((), rest)) := by
  rw [expect, bind_of_eq (take?_of_eq next)]
  rfl

/-- A word is taken up to where it stops. -/
theorem word_of_eq {chars : List Char} (next : trimStart text = chars ++ rest)
    (isWord : IsWord chars)
    (ends : ∀ c ∈ rest.head?, isWordChar c = false) :
    word types text = (types, some (chars, rest)) := by
  have stopped : rest.takeWhile isWordChar = [] ∧ rest.dropWhile isWordChar = rest := by
    cases rest with
    | nil => exact ⟨rfl, rfl⟩
    | cons c more =>
      have last : ¬ isWordChar c = true := by simp [ends c rfl]
      exact ⟨List.takeWhile_cons_of_neg last, List.dropWhile_cons_of_neg last⟩
  rw [word, next, List.takeWhile_append_of_pos isWord, List.dropWhile_append_of_pos isWord,
    stopped.1, stopped.2, List.append_nil]

/-- The digits of a number are taken for it. -/
theorem number_of_eq {value limit : Nat} (next : trimStart text = (toString value).toList ++ rest)
    (ends : ∀ c ∈ rest.head?, isWordChar c = false) (small : value < limit) :
    number limit types text = (types, some (value, rest)) := by
  rw [number, bind_of_eq (word_of_eq next (isWord_toString value) ends), bounded?_toString small]
  rfl

end TypeReader

end IrStream
