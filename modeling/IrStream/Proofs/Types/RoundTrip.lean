import IrStream.Proofs.Types.Legible

/-!
# Reading types that were written

The text of a type spells the type: reading it answers the handle it was made for and interns
nothing (`Types.Regular.readText_text`).  So types with the same text are the same, and a text that
was read can be replaced by the one that its type is written with.

The induction is on types, and what it says is about a text that goes on behind the type.  A
function type stands *behind* the type it returns, so what is said of a type is how far reading has
got at the first parameter list that is not its own (`TypeReader.Heads`).

The reader interns what it reads, and here it never finds anything new: the type is in the arena,
with all its parts, and interning a shape that is there answers its handle and leaves the arena
alone (`interning_of_shape`).  So the arena is the same before each step as before the first one,
and the lemmas have no later arenas in them.

There is one lemma for each form of type, and each of them follows the text from left to right.

* Scalars, pointers and named structs are words or begin with a mark (`base_int`, `base_ptr`,
  `base_named` and so on).  What follows must not continue the word.
* Unnamed structs and arrays have brackets around them, and lists inside (`base_struct`,
  `base_array`).
* Lists are read back entry by entry (`listItems_of_eq`), with commas between them, blanks around
  them or not, and the mark of vararg functions at the end.
* Function types are treated last, by `Heads.func`.

The induction goes down the handles.  Parts are stored first, and texts of parts are shorter, so the
depth that the reader has left is enough.
-/

set_option autoImplicit false

namespace IrStream

/-! ## Beginnings

What a text begins with decides what is read, so this is said of the texts of all types at once. -/

/-- Whether a text begins with a character that begins no blank, no end of a list and no entry of a
list but a type.  In front of such a character the reader of a list has to read a type. -/
def startsType : List Char → Bool
  | [] => false
  | c :: _ => !isBlank c && !(['.', ',', ')', '\x7d'].contains c)

theorem startsType_iff {text : List Char} : startsType text = true ↔
    ∃ c rest, text = c :: rest ∧ isBlank c = false ∧ c ≠ '.' ∧ c ≠ ',' ∧ c ≠ ')' ∧ c ≠ '\x7d' := by
  cases text with
  | nil => simp [startsType]
  | cons c rest => simp [startsType]

/-- What follows a beginning does not matter to it.  Only the first character counts. -/
theorem startsType_append {text : List Char} (starts : startsType text = true) (rest : List Char) :
    startsType (text ++ rest) = true := by
  cases text with
  | nil => cases starts
  | cons c more => exact starts

/-- No type begins with a blank, so passing over blanks stops at it. -/
theorem trimStart_of_startsType {text : List Char} (starts : startsType text = true)
    (rest : List Char) : trimStart (text ++ rest) = text ++ rest := by
  obtain ⟨c, more, rfl, solid, -⟩ := startsType_iff.mp starts
  exact trimStart_cons solid _

namespace Types

variable {types : Types} {id : TypeId}

/-- The brackets of a struct without a name.  The packed form has angle brackets around the braces.
-/
def openToken (packed : Bool) : String :=
  if packed then "<\x7b" else "\x7b"

def closeToken (packed : Bool) : String :=
  if packed then "\x7d>" else "\x7d"

/-- What stands between them.  The blanks belong to the fields, since an empty struct has none. -/
def spaced (fields : List String) : List Char :=
  if fields = [] then [] else ' ' :: (commaSeparated fields).toList ++ [' ']

/-- A struct with fields has a blank behind the opening bracket and one before the closing one, and
a struct without fields has none.  So the text is three pieces, and they are read back one by one.
-/
theorem toList_structText (fields : List String) (packed : Bool) :
    (structText fields packed).toList
      = (openToken packed).toList ++ (spaced fields ++ (closeToken packed).toList) := by
  cases fields <;> cases packed <;>
    simp [structText, openToken, spaced, closeToken, String.toList_append]

theorem startsType_openToken (packed : Bool) : startsType (openToken packed).toList = true := by
  cases packed <;> decide

theorem startsType_name (kind : FloatKind) : startsType kind.name.toList = true := by
  cases kind <;> decide

/-- The text of a type begins as types do, by cases on what its shape is spelled with.  A function
type begins as the type it returns, which is why this goes by the order of the arena. -/
theorem Regular.startsType (regular : types.Regular) (has : types.Has id) :
    startsType (types.text id).toList = true := by
  induction bound : id.index using Nat.strong_induction_on generalizing id with
  | _ index ih =>
    subst bound
    obtain ⟨shape, found⟩ := has.exists_shape
    rw [regular.layered.text_of_shape found]
    cases shape with
    | void => exact (by decide : startsType "void".toList = true)
    | int bits =>
      rw [TypeShape.textWith, String.toList_append]
      exact startsType_append (by decide) _
    | ptr addrSpace =>
      rw [TypeShape.textWith]
      split
      · decide
      · rw [String.toList_append, String.toList_append, List.append_assoc]
        exact startsType_append (by decide) _
    | float kind => exact startsType_name kind
    | func params ret vararg =>
      rw [TypeShape.textWith, String.toList_append, String.toList_append, String.toList_append,
        List.append_assoc, List.append_assoc]
      -- a function is spelled with what it returns first, and that is stored below it
      have below := regular.layered found rfl ret List.mem_cons_self
      have has := regular.complete found ret List.mem_cons_self
      exact startsType_append (ih ret.index below has rfl) _
    | struct body =>
      obtain ⟨name, fields, packed, hasBody⟩ := body
      cases name with
      | some name =>
        rw [TypeShape.textWith, String.toList_append]
        exact startsType_append (by decide) _
      | none =>
        rw [TypeShape.textWith, toList_structText]
        exact startsType_append (startsType_openToken packed) _
    | array elem length =>
      rw [TypeShape.textWith, String.toList_append, String.toList_append, String.toList_append,
        String.toList_append, List.append_assoc, List.append_assoc, List.append_assoc]
      exact startsType_append (by decide) _

end Types

/-! ## Lists

The reader of lists asks three questions at every entry: whether the list ends here, whether it is
the mark of vararg functions that stands here, and behind an entry whether there is a comma.  Each
question is a token that is there or is not, and `startsType` answers all of them for the text of a
type: it begins neither like the end of a list nor like the mark.

What a list of fields and a list of parameters have in common is `entries`.  The blanks around the
fields of a struct are the only difference, and they are passed over before the first entry and
behind the last one. -/

namespace TypeReader

variable {types : Types} {item : TypeReader Types TypeId} {text rest tail : List Char}

/-- The item reads the text of the type behind blanks, if what follows continues neither a word nor
the type.  What follows is said by `Stops` and by the parenthesis: a parameter list would belong to
the type. -/
def ReadsBack (types : Types) (item : TypeReader Types TypeId) (id : TypeId) : Prop :=
  ∀ text rest, trimStart text = (types.text id).toList ++ rest → Stops rest →
    (trimStart rest).head? ≠ some '(' →
    ∃ left, item types text = (types, some (id, left)) ∧ trimStart left = trimStart rest

/-- What stands between the brackets of a list.  The mark of a vararg list is an entry like the
others, and the last. -/
def entries (types : Types) (ids : List TypeId) (vararg : Bool) : List String :=
  ids.map types.text ++ (if vararg then ["..."] else [])

theorem toList_entries_dots :
    (commaSeparated (entries types [] true)).toList = ['.', '.', '.'] :=
  (by decide : "...".toList = ['.', '.', '.'])

/-- A token that ends a list.  Both are closing brackets, with an angle bracket behind the brace in
a packed struct. -/
def Closes (close : String) : Prop :=
  ∃ c rest, close.toList = c :: rest ∧ (c = ')' ∨ c = '\x7d')

/-- There is a comma between the first entry and the others, if there are others.  One entry alone
has no comma. -/
theorem commaSeparated_cons {first : String} {rest : List String} (more : rest ≠ []) :
    commaSeparated (first :: rest) = first ++ ", " ++ commaSeparated rest := by
  cases rest with
  | nil => exact absurd rfl more
  | cons second rest => rfl

/-- Behind the last entry the list ends.  The reader looks for the end before it looks for a comma.
-/
theorem take?_close {close : String} (next : trimStart text = close.toList ++ rest) {α : Type}
    (value : α) (other : TypeReader Types α) :
    (do if ← take? close then return value
        other : TypeReader Types α) types text = (types, some (value, rest)) := by
  rw [bind_of_eq (take?_of_eq next)]
  rfl

/-- A token that begins otherwise is not the end of a list.  A type, a comma and a mark begin with
other characters. -/
theorem Closes.absent {close token : String} (closes : Closes close) {first : Char}
    {chars : List Char} (begins : token.toList = first :: chars)
    (other : first ≠ ')' ∧ first ≠ '\x7d') (next : trimStart text = token.toList ++ rest) :
    take? close types text = (types, some (false, text)) := by
  obtain ⟨c, closing, spelled, same⟩ := closes
  refine take?_of_ne spelled ?_
  rw [next, begins]
  rintro _ ⟨⟩ rfl
  exact same.elim other.1 other.2

/-- Behind any other entry it goes on.  The comma is no end, so the first attempt leaves the text as
it is. -/
theorem take?_comma {close : String} (closes : Closes close)
    (next : trimStart text = ",".toList ++ rest) {α : Type} (value : α)
    (other : TypeReader Types α) :
    (do if ← take? close then return value
        expect ","
        other : TypeReader Types α) types text = other types rest := by
  rw [bind_of_eq (closes.absent rfl (by decide) next)]
  exact bind_of_eq (expect_of_eq next)

/-- The end of a list continues neither a word nor the type before it.  So the last entry is read to
where it ends and no further. -/
theorem stops_close {close : String} (closes : Closes close)
    (ends : trimStart tail = close.toList ++ rest) :
    Stops tail ∧ (trimStart tail).head? ≠ some '(' := by
  obtain ⟨c, chars, spelled, same⟩ := closes
  rw [Stops, ends, spelled]
  rcases same with rfl | rfl
  · exact ⟨by rintro _ ⟨⟩; rfl, head?_cons_ne (by decide) _⟩
  · exact ⟨by rintro _ ⟨⟩; rfl, head?_cons_ne (by decide) _⟩

/-- No type begins like the vararg mark.  The reader looks for the mark before it looks for a type.
-/
theorem take?_dots {spelled : List Char} (starts : startsType spelled = true)
    (next : trimStart text = spelled ++ rest) :
    take? "..." types text = (types, some (false, text)) := by
  obtain ⟨c, chars, rfl, -, apart, -⟩ := startsType_iff.mp starts
  refine take?_of_ne (rfl : "...".toList = '.' :: _) ?_
  rw [next]
  rintro _ ⟨⟩
  exact apart

/-- No type begins like the end of a list. -/
theorem take?_close_of_startsType {close : String} (closes : Closes close) {spelled : List Char}
    (starts : startsType spelled = true) (next : trimStart text = spelled ++ rest) :
    take? close types text = (types, some (false, text)) := by
  obtain ⟨first, chars, rfl, -, -, -, round, curly⟩ := startsType_iff.mp starts
  obtain ⟨c, closing, spelled, same⟩ := closes
  refine take?_of_ne spelled ?_
  rw [next]
  rintro _ ⟨⟩ rfl
  exact same.elim round curly

/-- A list of types begins as its first type does.  So a list that is not empty is told from one
that is by its first character. -/
theorem startsType_entries {ids : List TypeId} {vararg : Bool}
    (starts : ∀ id ∈ ids, startsType (types.text id).toList = true) (more : ids ≠ []) :
    startsType (commaSeparated (entries types ids vararg)).toList = true := by
  cases ids with
  | nil => exact absurd rfl more
  | cons id rest =>
    have first := starts id List.mem_cons_self
    rw [entries, List.map_cons, List.cons_append]
    by_cases last : rest.map types.text ++ (if vararg then ["..."] else []) = []
    · rw [last]
      exact first
    · rw [commaSeparated_cons last, String.toList_append, String.toList_append, List.append_assoc]
      exact startsType_append first _

/-- No list begins with a blank. -/
theorem trimStart_entries {ids : List TypeId} {vararg : Bool}
    (starts : ∀ id ∈ ids, startsType (types.text id).toList = true)
    (some_entry : entries types ids vararg ≠ []) (tail : List Char) :
    trimStart ((commaSeparated (entries types ids vararg)).toList ++ tail)
      = (commaSeparated (entries types ids vararg)).toList ++ tail := by
  by_cases more : ids = []
  · subst more
    cases vararg with
    | false => exact absurd rfl some_entry
    | true =>
      rw [toList_entries_dots]
      exact trimStart_cons (by decide) _
  · exact trimStart_of_startsType (startsType_entries starts more) tail

/-- A list has at least as many characters as entries, if no entry is empty.  The reader takes as
many turns as the text has characters, so the turns do not run out before the entries do. -/
theorem length_le_commaSeparated {texts : List String} (solid : ∀ text ∈ texts, text.toList ≠ []) :
    texts.length ≤ (commaSeparated texts).toList.length := by
  induction texts with
  | nil => exact Nat.zero_le _
  | cons text rest ih =>
    obtain ⟨first, others⟩ := List.forall_mem_cons.mp solid
    have positive := List.length_pos_iff.mpr first
    by_cases last : rest = []
    · subst last
      exact positive
    · rw [commaSeparated_cons last, String.toList_append, String.toList_append]
      have := ih others
      simp only [List.length_append, List.length_cons]
      omega

/-- **The entries of a list are read back** up to the token that ends the list.  By induction on the
types that are left; with none left the vararg mark is the last entry, if there is one. -/
theorem listItems_of_eq {close : String} (closes : Closes close) {ids : List TypeId} {vararg : Bool}
    (some_entry : entries types ids vararg ≠ []) (reads : ∀ id ∈ ids, ReadsBack types item id)
    (starts : ∀ id ∈ ids, startsType (types.text id).toList = true) {turns : Nat}
    (enough : ids.length < turns) {items : List TypeId}
    (next : trimStart text = (commaSeparated (entries types ids vararg)).toList ++ tail)
    (ends : trimStart tail = close.toList ++ rest) :
    listItems item close turns items false types text
      = (types, some ((items ++ ids, vararg), rest)) := by
  induction ids generalizing text turns items with
  | nil =>
    obtain ⟨turns, rfl⟩ := Nat.exists_eq_add_one_of_ne_zero (Nat.ne_zero_of_lt enough)
    cases vararg with
    | false => exact absurd rfl some_entry
    | true =>
      have dots : trimStart text = "...".toList ++ tail := next
      rw [listItems, bind_of_eq (take?_of_eq dots), List.append_nil]
      exact take?_close ends _ _
  | cons id more ih =>
    obtain ⟨turns, rfl⟩ := Nat.exists_eq_add_one_of_ne_zero (Nat.ne_zero_of_lt enough)
    obtain ⟨first, others⟩ := List.forall_mem_cons.mp reads
    obtain ⟨begins, startOthers⟩ := List.forall_mem_cons.mp starts
    have split : entries types (id :: more) vararg = types.text id :: entries types more vararg :=
      rfl
    rw [split] at next
    -- the last entry ends at the closing mark, any other one at a comma
    by_cases last : entries types more vararg = []
    · obtain ⟨rfl, rfl⟩ : more = [] ∧ vararg = false := by
        cases more <;> cases vararg <;> simp_all [entries]
      obtain ⟨stops, alone⟩ := stops_close closes ends
      obtain ⟨left, read, same⟩ := first text tail next stops alone
      rw [listItems, branch_of_absent (take?_dots begins next), bind_of_eq read]
      exact take?_close (same.trans ends) _ _
    · rw [commaSeparated_cons last, String.toList_append, String.toList_append,
        List.append_assoc, List.append_assoc] at next
      have comma (rest : List Char) : trimStart (", ".toList ++ rest) = ", ".toList ++ rest :=
        trimStart_cons rfl _
      obtain ⟨left, read, same⟩ := first text _ next (stops_cons rfl rfl _)
        (by rw [comma]; exact head?_cons_ne (by decide) _)
      rw [listItems, branch_of_absent (take?_dots begins next), bind_of_eq read]
      have goes : trimStart left = ",".toList
          ++ (' ' :: ((commaSeparated (entries types more vararg)).toList ++ tail)) :=
        same.trans (comma _)
      refine (take?_comma closes goes _ _).trans ?_
      have bound : more.length < turns := Nat.lt_of_succ_lt_succ enough
      have begun : trimStart (' ' :: ((commaSeparated (entries types more vararg)).toList ++ tail))
          = (commaSeparated (entries types more vararg)).toList ++ tail :=
        (trimStart_space _).trans (trimStart_entries startOthers last tail)
      rw [ih last others startOthers bound begun, List.append_assoc, List.singleton_append]

/-- **A list is read back**, with blanks around its entries or without.  An empty list is its
closing token, and then nothing may stand before it. -/
theorem list_of_eq {close : String} (closes : Closes close) {ids : List TypeId} {vararg : Bool}
    (reads : ∀ id ∈ ids, ReadsBack types item id)
    (starts : ∀ id ∈ ids, startsType (types.text id).toList = true)
    (next : trimStart text = (commaSeparated (entries types ids vararg)).toList ++ tail)
    (ends : trimStart tail = close.toList ++ rest)
    (empty : entries types ids vararg = [] → trimStart tail = tail) :
    list item close types text = (types, some ((ids, vararg), rest)) := by
  by_cases none : entries types ids vararg = []
  · obtain ⟨rfl, rfl⟩ : ids = [] ∧ vararg = false := by
      cases ids <;> cases vararg <;> simp_all [entries]
    have closed : trimStart text = close.toList ++ rest := by
      rw [next, ← ends, empty none]
      rfl
    rw [list]
    exact take?_close closed _ _
  · have solid : ∀ text ∈ entries types ids vararg, text.toList ≠ [] := by
      intro text mem
      rcases List.mem_append.mp mem with mem | mem
      · obtain ⟨id, listed, rfl⟩ := List.mem_map.mp mem
        intro nil
        have := starts id listed
        rw [nil] at this
        cases this
      · cases vararg with
        | false => cases mem
        | true =>
          cases List.mem_singleton.mp mem
          decide
    -- every entry has a character, and that is why the length of the text is enough turns
    have long : ids.length < text.length + 1 := by
      have counted : ids.length ≤ (entries types ids vararg).length := by simp [entries]
      have written := length_le_commaSeparated solid
      have shorter := length_trimStart_le text
      rw [next, List.length_append] at shorter
      omega
    -- a list with an entry does not end at once, be the entry a type or the mark
    have opened : take? close types text = (types, some (false, text)) := by
      by_cases more : ids = []
      · subst more
        cases vararg with
        | false => exact absurd rfl none
        | true =>
          have mark : trimStart text = "...".toList ++ tail := next
          exact closes.absent rfl (by decide) mark
      · exact take?_close_of_startsType closes (startsType_entries starts more) next
    rw [list, bind_of_eq opened]
    exact listItems_of_eq closes none reads starts long next ends

/-! ## Types without parameter lists

A type that is no function is read by `base`, which looks for four tokens and then for a word.
There is one lemma for each of the six things it can find.  In each of them the shape that is read
is the shape that is stored, and interning it answers the handle under which it is stored: that is
where the arena has to be regular, so that no other handle has the shape. -/

variable {id : TypeId} {shape : TypeShape}

/-- Interning the shape of a type that has no name answers the type and leaves the arena as it was.
A regular arena holds each shape without a name once. -/
theorem interning_of_shape (regular : types.Regular) (found : types.shape id = .ok shape)
    (unnamed : shape.structName? = none) (text : List Char) :
    interning shape types text = (types, some (id, text)) := by
  exact interning_of_eq (regular.canonical.intern_of_shape found unnamed) text

/-- The type begins with none of the tokens that `base` looks for.  All of them begin with
characters that no word has. -/
theorem base_of_word {chars : List Char} (next : trimStart text = chars ++ rest)
    (isWord : IsWord chars) (solid : chars ≠ []) (ends : ∀ c ∈ rest.head?, isWordChar c = false) :
    base item types text = (do
      if chars = "void".toList then
        return .void
      else if chars = "ptr".toList then
        if ← take? "addrspace(" then
          let space ← number UInt64.size
          let space ← require (if space < UInt32.size then some space else none)
          expect ")"
          interning (.ptr (UInt32.ofNat space))
        else
          return .ptr
      else
        ofWord chars : TypeReader Types TypeId) types rest := by
  obtain ⟨c, more, rfl⟩ := List.exists_cons_of_ne_nil solid
  have first := isWord c List.mem_cons_self
  -- none of the four tokens begins with a character of words
  have apart {other : Char} (ends : isWordChar other = false) :
      ∀ first ∈ (trimStart text).head?, first ≠ other := by
    rw [next]
    rintro _ ⟨⟩ rfl
    exact Bool.false_ne_true (ends.symm.trans first)
  rw [base,
    branch_of_absent (take?_of_ne (by decide : "<\x7b".toList = ['<', '\x7b']) (apart rfl)),
    branch_of_absent (take?_of_ne (by decide : "\x7b".toList = ['\x7b']) (apart rfl)),
    branch_of_absent (take?_of_ne (by decide : "[".toList = ['[']) (apart rfl)),
    branch_of_absent (take?_of_ne (by decide : "%".toList = ['%']) (apart rfl)),
    bind_of_eq (word_of_eq next isWord ends)]

/-- The word for void is looked for before any other word.  It is a handle that every arena has, so
nothing is interned. -/
theorem base_void (next : trimStart text = "void".toList ++ rest) (stops : Stops rest) :
    base item types text = (types, some (.void, rest)) := by
  rw [base_of_word next (isWord_of_all (by decide)) (by decide) stops.head, if_pos rfl]
  rfl

/-- The width is all of the digits behind the letter.  A width of zero would not be read. -/
theorem base_int (regular : types.Regular) {bits : UInt32}
    (found : types.shape id = .ok (.int bits)) (positive : bits ≠ 0)
    (next : trimStart text = ("i" ++ toString bits.toNat).toList ++ rest) (stops : Stops rest) :
    base item types text = (types, some (id, rest)) := by
  have spelled : ("i" ++ toString bits.toNat).toList = 'i' :: (toString bits.toNat).toList := by
    rw [String.toList_append, (by decide : "i".toList = ['i'])]
    rfl
  rw [spelled] at next
  have isWord : IsWord ('i' :: (toString bits.toNat).toList) :=
    List.forall_mem_cons.mpr ⟨by decide, isWord_toString bits.toNat⟩
  have noVoid : 'i' :: (toString bits.toNat).toList ≠ "void".toList := by
    rw [(by decide : "void".toList = ['v', 'o', 'i', 'd'])]
    rintro ⟨⟩
  have noPtr : 'i' :: (toString bits.toNat).toList ≠ "ptr".toList := by
    rw [(by decide : "ptr".toList = ['p', 't', 'r'])]
    rintro ⟨⟩
  -- the names of floating-point types are looked up first, and none of them begins like a width
  have noFloat :
      FloatKind.ofName? (String.ofList ('i' :: (toString bits.toNat).toList)) = none := by
    refine List.find?_eq_none.mpr fun kind _ => ?_
    rw [beq_iff_eq]
    intro same
    have head : kind.name.toList.head? ≠ some 'i' := by cases kind <;> decide
    rw [same, String.toList_ofList] at head
    exact head rfl
  rw [base_of_word next isWord (by simp) stops.head, if_neg noVoid, if_neg noPtr, ofWord, noFloat]
  have small : bits.toNat < UInt32.size := bits.toNat_lt
  have large : 0 < bits.toNat := by
    rcases Nat.eq_zero_or_pos bits.toNat with zero | positive'
    · exact absurd (UInt32.toNat_inj.mp zero) positive
    · exact positive'
  -- the digits are read back as the width, which is below the bound because it was stored
  have read : (bounded? 10 UInt32.size (toString bits.toNat).toList).filter (0 < ·)
      = some bits.toNat := by
    rw [bounded?_toString small, Option.filter_some, if_pos (by simpa using large)]
  dsimp only
  rw [read]
  refine (bind_of_eq (rfl : require (some bits.toNat) types rest = _)).trans ?_
  rw [UInt32.ofNat_toNat]
  exact interning_of_shape regular found rfl rest

/-- The words of floating-point types are looked up, and a regular arena has each of these types
once. -/
theorem base_float (regular : types.Regular) {kind : FloatKind}
    (found : types.shape id = .ok (.float kind)) (next : trimStart text = kind.name.toList ++ rest)
    (stops : Stops rest) : base item types text = (types, some (id, rest)) := by
  have isWord : IsWord kind.name.toList := isWord_of_all (by cases kind <;> decide)
  have other : kind.name.toList ≠ [] ∧ kind.name.toList ≠ "void".toList
      ∧ kind.name.toList ≠ "ptr".toList := by
    cases kind <;> decide
  rw [base_of_word next isWord other.1 stops.head, if_neg other.2.1, if_neg other.2.2]
  unfold ofWord
  rw [String.ofList_toList, FloatKind.ofName?_name]
  exact interning_of_shape regular found rfl rest

/-- The address space is left out where it is zero, so there are two texts to read. -/
theorem base_ptr (regular : types.Regular) {addrSpace : UInt32}
    (found : types.shape id = .ok (.ptr addrSpace))
    (next : trimStart text = (types.text id).toList ++ rest) (stops : Stops rest) :
    base item types text = (types, some (id, rest)) := by
  have isWord : IsWord "ptr".toList := isWord_of_all (by decide)
  have other : "ptr".toList ≠ [] ∧ "ptr".toList ≠ "void".toList := by decide
  rw [regular.layered.text_of_shape found, TypeShape.textWith] at next
  by_cases zero : addrSpace = 0
  · subst zero
    rw [if_pos rfl] at next
    have standard : types.shape .ptr = .ok (.ptr 0) := regular.basic rfl
    -- behind the word there is no word character, so in particular not the first one of the mark
    have absent : take? "addrspace(" types rest = (types, some (false, rest)) := by
      obtain ⟨chars, spelled⟩ : ∃ chars, "addrspace(".toList = 'a' :: chars :=
        ⟨_, (by decide : "addrspace(".toList
          = ['a', 'd', 'd', 'r', 's', 'p', 'a', 'c', 'e', '('])⟩
      refine take?_of_ne spelled fun first mem same => ?_
      subst same
      exact Bool.false_ne_true (stops _ mem).symm
    rw [base_of_word next isWord other.1 stops.head, if_neg other.2, if_pos rfl, bind_of_eq absent,
      regular.canonical found standard rfl]
    rfl
  · rw [if_neg zero, String.toList_append, String.toList_append,
      (by decide : "ptr addrspace(".toList = "ptr".toList ++ (' ' :: "addrspace(".toList)),
      List.append_assoc, List.append_assoc, List.append_assoc, List.cons_append] at next
    have small : addrSpace.toNat < UInt32.size := addrSpace.toNat_lt
    have fits : addrSpace.toNat < UInt64.size := Nat.lt_trans small (by decide)
    have opened (rest : List Char) :
        trimStart (' ' :: ("addrspace(".toList ++ rest)) = "addrspace(".toList ++ rest := by
      rw [trimStart_space]
      exact trimStart_of_startsType (by decide) rest
    have digits (rest : List Char) :
        trimStart ((toString addrSpace.toNat).toList ++ rest)
          = (toString addrSpace.toNat).toList ++ rest :=
      trimStart_of_isWord (isWord_toString _) (toString_ne_nil _) rest
    have closed : trimStart (")".toList ++ rest) = ")".toList ++ rest := by
      rw [(by decide : ")".toList = [')'])]
      exact trimStart_cons rfl _
    rw [base_of_word next isWord other.1 (by rintro _ ⟨⟩; rfl), if_neg other.2, if_pos rfl,
      branch_of_taken (take?_of_eq (opened _)), bind_of_eq (number_of_eq (digits _) ?_ fits),
      if_pos small]
    · refine (bind_of_eq (rfl : require (some addrSpace.toNat) types _ = _)).trans ?_
      rw [bind_of_eq (expect_of_eq closed), UInt32.ofNat_toNat]
      exact interning_of_shape regular found rfl rest
    · rw [(by decide : ")".toList = [')'])]
      rintro _ ⟨⟩
      rfl

/-- A named struct is a mark and a word.  The reader stops at the end of the word, and the name is
known. -/
theorem base_named (regular : types.Regular) {name : String} (found : types.shape id = .ok shape)
    (named : shape.structName? = some name) (isWord : IsWord name.toList)
    (next : trimStart text = ("%" ++ name).toList ++ rest) (stops : Stops rest) :
    ∃ left, base item types text = (types, some (id, left)) ∧ trimStart left = trimStart rest := by
  have percent : "%".toList = ['%'] := by decide
  have apart {other : Char} (differs : '%' ≠ other) :
      ∀ first ∈ (trimStart text).head?, first ≠ other := by
    rw [next, String.toList_append, percent]
    rintro _ ⟨⟩
    exact differs
  rw [String.toList_append, List.append_assoc] at next
  -- without a name, the blanks behind the mark are passed over
  obtain ⟨left, read, same⟩ : ∃ left, word types (name.toList ++ rest)
      = (types, some (name.toList, left)) ∧ trimStart left = trimStart rest := by
    by_cases solid : name.toList = []
    · refine ⟨trimStart rest, word_of_eq ?_ isWord stops, trimStart_trimStart rest⟩
      rw [solid]
      rfl
    · exact ⟨rest, word_of_eq (trimStart_of_isWord isWord solid rest) isWord stops.head, rfl⟩
  refine ⟨left, ?_, same⟩
  rw [base,
    branch_of_absent
      (take?_of_ne (by decide : "<\x7b".toList = ['<', '\x7b']) (apart (by decide))),
    branch_of_absent (take?_of_ne (by decide : "\x7b".toList = ['\x7b']) (apart (by decide))),
    branch_of_absent (take?_of_ne (by decide : "[".toList = ['[']) (apart (by decide))),
    branch_of_taken (take?_of_eq next)]
  refine (bind_of_eq read).trans ?_
  rw [String.ofList_toList, declared_eq, regular.names found named]
  rfl

theorem closes_closeToken (packed : Bool) : Closes (Types.closeToken packed) := by
  cases packed
  · exact ⟨'\x7d', _, (by decide : "\x7d".toList = ['\x7d']), .inr rfl⟩
  · exact ⟨'\x7d', _, (by decide : "\x7d>".toList = ['\x7d', '>']), .inr rfl⟩

/-- The fields of a struct are read back.  The blanks are passed over before the first field and
before the closing bracket. -/
theorem list_of_spaced (regular : types.Regular) {fields : List TypeId} (packed : Bool)
    (has : ∀ field ∈ fields, types.Has field)
    (reads : ∀ field ∈ fields, ReadsBack types item field) :
    list item (Types.closeToken packed) types
        (Types.spaced (fields.map types.text) ++ ((Types.closeToken packed).toList ++ rest))
      = (types, some ((fields, false), rest)) := by
  have starts : ∀ field ∈ fields, startsType (types.text field).toList = true :=
    fun field mem => regular.startsType (has field mem)
  have inside : fields.map types.text = entries types fields false := (List.append_nil _).symm
  have close : trimStart ((Types.closeToken packed).toList ++ rest)
      = (Types.closeToken packed).toList ++ rest := by
    obtain ⟨c, chars, spelled, same⟩ := closes_closeToken packed
    rw [spelled]
    rcases same with rfl | rfl <;> exact trimStart_cons rfl _
  rw [inside, Types.spaced]
  by_cases none : entries types fields false = []
  · rw [if_pos none, List.nil_append]
    refine list_of_eq (closes_closeToken packed) reads starts ?_ close fun _ => close
    rw [close, none]
    rfl
  · have begun : trimStart (' ' :: (commaSeparated (entries types fields false)).toList ++ [' ']
          ++ ((Types.closeToken packed).toList ++ rest))
        = (commaSeparated (entries types fields false)).toList
          ++ (' ' :: ((Types.closeToken packed).toList ++ rest)) := by
      rw [List.cons_append, List.cons_append, trimStart_space, List.append_assoc,
        trimStart_entries starts none]
      rfl
    rw [if_neg none]
    exact list_of_eq (closes_closeToken packed) reads starts begun
      ((trimStart_space _).trans close) fun empty => absurd empty none

/-- A struct is its fields between the brackets that say whether it is packed. -/
theorem base_struct (regular : types.Regular) {fields : List TypeId} {packed : Bool}
    (found : types.shape id = .ok (.struct ⟨none, fields, packed, true⟩))
    (reads : ∀ field ∈ fields, ReadsBack types item field)
    (next : trimStart text = (types.text id).toList ++ rest) :
    base item types text = (types, some (id, rest)) := by
  have listed :=
    @list_of_spaced types item rest regular fields packed (regular.complete found) reads
  rw [regular.layered.text_of_shape found, TypeShape.textWith, Types.toList_structText,
    List.append_assoc, List.append_assoc] at next
  rw [base]
  cases packed with
  | true =>
    rw [branch_of_taken (take?_of_eq (show trimStart text = "<\x7b".toList ++ _ from next))]
    refine (bind_of_eq listed).trans ?_
    exact interning_of_shape regular found rfl rest
  | false =>
    have curly : trimStart text = "\x7b".toList ++ _ := next
    have apart : ∀ first ∈ (trimStart text).head?, first ≠ '<' := by
      rw [curly, (by decide : "\x7b".toList = ['\x7b'])]
      rintro _ ⟨⟩
      decide
    rw [branch_of_absent (take?_of_ne (by decide : "<\x7b".toList = ['<', '\x7b']) apart),
      branch_of_taken (take?_of_eq curly)]
    refine (bind_of_eq listed).trans ?_
    exact interning_of_shape regular found rfl rest

/-- An array is its length and its elements.  The letter between them is a word of its own, with a
blank on either side. -/
theorem base_array (regular : types.Regular) {elem : TypeId} {length : UInt64}
    (found : types.shape id = .ok (.array elem length)) (reads : ReadsBack types item elem)
    (next : trimStart text = (types.text id).toList ++ rest) :
    base item types text = (types, some (id, rest)) := by
  have starts := regular.startsType (regular.complete found elem List.mem_cons_self)
  have square : "[".toList = ['['] := by decide
  have close : "]".toList = [']'] := by decide
  have cross : " x ".toList = [' ', 'x', ' '] := by decide
  have apart {other : Char} (differs : '[' ≠ other) :
      ∀ first ∈ (trimStart text).head?, first ≠ other := by
    rw [next, regular.layered.text_of_shape found, TypeShape.textWith]
    simp only [String.toList_append, square]
    rintro _ ⟨⟩
    exact differs
  rw [regular.layered.text_of_shape found, TypeShape.textWith] at next
  simp only [String.toList_append, List.append_assoc] at next
  rw [cross, close] at next
  have digits (rest : List Char) : trimStart ((toString length.toNat).toList ++ rest)
      = (toString length.toNat).toList ++ rest :=
    trimStart_of_isWord (isWord_toString _) (toString_ne_nil _) rest
  have small : length.toNat < UInt64.size := length.toNat_lt
  obtain ⟨left, read, same⟩ := reads (' ' :: ((types.text elem).toList ++ ([']'] ++ rest)))
    ([']'] ++ rest) ((trimStart_space _).trans (trimStart_of_startsType starts _))
    (stops_cons rfl rfl rest)
    (by rw [List.cons_append, trimStart_cons rfl]; exact head?_cons_ne (by decide) _)
  have closed : trimStart left = "]".toList ++ rest := by
    rw [same, close]
    exact trimStart_cons rfl rest
  rw [base,
    branch_of_absent
      (take?_of_ne (by decide : "<\x7b".toList = ['<', '\x7b']) (apart (by decide))),
    branch_of_absent (take?_of_ne (by decide : "\x7b".toList = ['\x7b']) (apart (by decide))),
    branch_of_taken (take?_of_eq next),
    bind_of_eq (number_of_eq (digits _) (by rintro _ ⟨⟩; rfl) small)]
  -- the cross between length and element is read as a word, blanks before it are passed over
  have word : word types ([' ', 'x', ' '] ++ ((types.text elem).toList ++ ([']'] ++ rest)))
      = (types, some (['x'], ' ' :: ((types.text elem).toList ++ ([']'] ++ rest)))) :=
    word_of_eq (trimStart_space _) (isWord_of_all (by decide)) (by rintro _ ⟨⟩; rfl)
  rw [bind_of_eq word]
  simp only [bne_self_eq_false, Bool.false_eq_true, if_false]
  rw [bind_of_eq read, bind_of_eq (expect_of_eq closed), UInt64.ofNat_toNat]
  exact interning_of_shape regular found rfl rest

/-! ## Types with parameter lists

The text of a function that returns a function has the parameter lists of both behind the text of
what is returned at last, the inner one first.  So the reader does not recurse into the type that is
returned.  It reads a base and then applies parameter lists to it, as many as there are, and the
types in between are never read as types on their own.

`Heads` describes a point on this way: the number of lists that are passed when reading has got to
the type in question.  It is the number of nested returns, and a type that is a base has none. -/

/-- How far reading gets at a type with something behind it: it begins with a base, and `turns`
parameter lists later it has got to the type itself.  It says so for every larger number of turns,
so that the lists can be counted from the inside out. -/
def Heads (types : Types) (depth : Nat) (id : TypeId) : Prop :=
  ∀ text rest, trimStart text = (types.text id).toList ++ rest → Stops rest →
    ∃ first left turns last,
      base (typeWithin depth) types text = (types, some (first, left))
        ∧ trimStart last = trimStart rest ∧ last.length + turns ≤ left.length
        ∧ ∀ more, parameterLists (typeWithin depth) (turns + more) first types left
            = parameterLists (typeWithin depth) more id types last

/-- A type that is a base has no parameter lists to get over.  With no turn the reader is where it
was. -/
theorem Heads.of_base {depth : Nat}
    (reads : ∀ text rest, trimStart text = (types.text id).toList ++ rest → Stops rest →
      ∃ left, base (typeWithin depth) types text = (types, some (id, left))
        ∧ trimStart left = trimStart rest) :
    Heads types depth id := by
  intro text rest next stops
  obtain ⟨left, read, same⟩ := reads text rest next stops
  exact ⟨id, left, 0, left, read, same, Nat.le_refl _, fun more => by rw [Nat.zero_add]⟩

/-- Where no further list opens, reading stops at the type.  The turns that are needed are no more
than the characters of the text. -/
theorem Heads.readsBack {depth : Nat} (heads : Heads types depth id) :
    ReadsBack types (typeWithin (depth + 1)) id := by
  intro text rest next stops alone
  obtain ⟨first, left, turns, last, read, same, shorter, run⟩ := heads text rest next stops
  refine ⟨last, ?_, same⟩
  obtain ⟨more, counted⟩ : ∃ more, left.length + 1 = turns + (more + 1) :=
    ⟨left.length - turns, by omega⟩
  -- what follows does not open a list, so the turn behind the last list is the last one
  have closed : take? "(" types last = (types, some (false, last)) := by
    refine take?_of_ne (by decide : "(".toList = ['(']) ?_
    rw [same]
    rintro _ known rfl
    exact alone known
  rw [typeWithin]
  refine (bind_of_eq read).trans ?_
  rw [counted, run, parameterLists, bind_of_eq closed]
  rfl

/-- The parameters of a function are written as a list of entries. -/
theorem paramsText_map (params : List TypeId) (vararg : Bool) :
    Types.paramsText (params.map types.text) vararg
      = commaSeparated (entries types params vararg) := by
  cases vararg
  · exact congrArg commaSeparated (List.append_nil _).symm
  · rfl

/-- A function type is one list further than the type that it returns.  The list is one turn, and it
makes a function type of what was read. -/
theorem Heads.func (regular : types.Regular) {depth : Nat} {params : List TypeId} {ret : TypeId}
    {vararg : Bool} (found : types.shape id = .ok (.func params ret vararg))
    (heads : Heads types depth ret)
    (reads : ∀ param ∈ params, ReadsBack types (typeWithin depth) param) :
    Heads types depth id := by
  intro text rest next stops
  have opening : "(".toList = ['('] := by decide
  have gap : " (".toList = [' ', '('] := by decide
  have close : ")".toList = [')'] := by decide
  have closes : Closes ")" := ⟨')', [], close, .inl rfl⟩
  have parts := regular.complete found
  have starts : ∀ param ∈ params, startsType (types.text param).toList = true :=
    fun param mem => regular.startsType (parts param (List.mem_cons_of_mem ret mem))
  have closed : trimStart (")".toList ++ rest) = ")".toList ++ rest := by
    rw [close]
    exact trimStart_cons rfl rest
  rw [regular.layered.text_of_shape found, TypeShape.textWith, paramsText_map] at next
  simp only [String.toList_append, List.append_assoc, gap, List.cons_append, List.nil_append]
    at next
  generalize inside : (commaSeparated (entries types params vararg)).toList ++ (")".toList ++ rest)
    = behind at next
  have begun : trimStart (' ' :: '(' :: behind) = '(' :: behind :=
    (trimStart_space _).trans (trimStart_cons rfl _)
  -- the result is read up to the bracket, which is where its own parameter lists end
  obtain ⟨first, left, turns, last, read, same, shorter, run⟩ :=
    heads text (' ' :: '(' :: behind) next (by rw [Stops, begun]; rintro _ ⟨⟩; rfl)
  rw [begun] at same
  have opened : take? "(" types last = (types, some (true, behind)) :=
    take?_of_eq (by rw [same, opening]; rfl)
  have listed : list (typeWithin depth) ")" types behind
      = (types, some ((params, vararg), rest)) := by
    refine list_of_eq closes reads starts ?_ closed fun _ => closed
    rw [← inside]
    by_cases none : entries types params vararg = []
    · rw [none]
      exact closed
    · exact trimStart_entries starts none _
  -- one list more is passed, and it has taken at least the two brackets from the text
  refine ⟨first, left, turns + 1, rest, read, rfl, ?_, fun more => ?_⟩
  · have written := congrArg List.length inside
    have passed := length_trimStart_le last
    rw [same] at passed
    simp only [List.length_append, List.length_cons] at written passed
    omega
  · rw [Nat.add_assoc, Nat.add_comm 1, run, parameterLists, branch_of_taken opened]
    refine (bind_of_eq listed).trans ?_
    exact bind_of_eq (interning_of_shape regular found rfl rest)

/-- A list is at least as long as each of its entries.  This is where the depth comes from: a part
has a text no longer than the whole. -/
theorem length_le_of_mem_commaSeparated {texts : List String} {text : String} (mem : text ∈ texts) :
    text.toList.length ≤ (commaSeparated texts).toList.length := by
  induction texts with
  | nil => cases mem
  | cons first rest ih =>
    by_cases last : rest = []
    · subst last
      cases List.mem_singleton.mp mem
      exact Nat.le_refl _
    · rw [commaSeparated_cons last, String.toList_append, String.toList_append,
        List.length_append, List.length_append]
      rcases List.mem_cons.mp mem with rfl | mem
      · omega
      · have := ih mem
        omega

/-- A field is no longer than all of the fields with the commas and blanks between them. -/
theorem length_text_le_spaced {fields : List TypeId} {field : TypeId} (mem : field ∈ fields) :
    (types.text field).toList.length ≤ (Types.spaced (fields.map types.text)).length := by
  have listed : types.text field ∈ fields.map types.text := List.mem_map_of_mem mem
  rw [Types.spaced, if_neg (List.ne_nil_of_mem listed), List.length_append, List.length_cons]
  have := length_le_of_mem_commaSeparated listed
  omega

/-- **Reading gets at every legible type**, where brackets may be as deep as its text is long.  By
recursion on the order of the arena: parts come before what they are parts of, and struct names end
it. -/
theorem heads (regular : types.Regular) (known : types.LiteralsKnown) {depth : Nat}
    (has : types.Has id) (legible : types.Legible id)
    (enough : (types.text id).toList.length ≤ depth) : Heads types depth id := by
  induction bound : id.index using Nat.strong_induction_on generalizing id depth with
  | _ index ih =>
    subst bound
    obtain ⟨shape, found⟩ := has.exists_shape
    -- a part is stored below the type it is a part of, unless the type has a name
    have head (child : TypeId) (unnamed : shape.structName? = none) (mem : child ∈ shape.children)
        {depth : Nat} (shorter : (types.text child).toList.length ≤ depth) :
        Heads types depth child :=
      ih child.index (regular.layered found unnamed child mem) (regular.complete found child mem)
        (legible.part found unnamed mem) shorter rfl
    -- a part with a shorter text is read one level of brackets further in
    have part (child : TypeId) (unnamed : shape.structName? = none) (mem : child ∈ shape.children)
        (shorter : (types.text child).toList.length < (types.text id).toList.length) :
        ReadsBack types (typeWithin depth) child := by
      obtain ⟨depth, rfl⟩ := Nat.exists_eq_add_one_of_ne_zero (show depth ≠ 0 by omega)
      exact (head child unnamed mem (by omega)).readsBack
    have written := regular.layered.text_of_shape found
    obtain ⟨positive, words⟩ := legible id shape .refl found
    cases shape with
    | void =>
      refine .of_base fun text rest next stops => ⟨rest, ?_, rfl⟩
      have standard : types.shape .void = .ok .void := regular.basic rfl
      rw [written] at next
      rw [base_void next stops, regular.canonical found standard rfl]
    | int bits =>
      refine .of_base fun text rest next stops => ⟨rest, ?_, rfl⟩
      have large : bits ≠ 0 := fun zero => positive (congrArg TypeShape.int zero)
      rw [written] at next
      exact base_int regular found large next stops
    | ptr addrSpace =>
      exact .of_base fun text rest next stops => ⟨rest, base_ptr regular found next stops, rfl⟩
    | float kind =>
      refine .of_base fun text rest next stops => ⟨rest, ?_, rfl⟩
      rw [written] at next
      exact base_float regular found next stops
    -- the result comes first and is read at the same level, only the parameters stand in brackets
    | func params ret vararg =>
      rw [TypeShape.textWith] at written
      refine .func regular found (head ret rfl List.mem_cons_self ?_) fun param mem =>
        part param rfl (List.mem_cons_of_mem ret mem) ?_
      · rw [written] at enough
        simp only [String.toList_append, List.length_append] at enough
        omega
      · have listed : types.text param ∈ entries types params vararg :=
          List.mem_append_left _ (List.mem_map_of_mem mem)
        have shorter := length_le_of_mem_commaSeparated listed
        rw [written, paramsText_map]
        simp only [String.toList_append, List.length_append]
        have gap : " (".toList.length = 2 := by decide
        omega
    | struct body =>
      obtain ⟨name, fields, packed, hasBody⟩ := body
      cases name with
      | some name =>
        refine .of_base fun text rest next stops => ?_
        rw [written] at next
        exact base_named regular found rfl (words name rfl) next stops
      | none =>
        obtain ⟨-, rfl⟩ : _ ∧ hasBody = true := known found rfl
        refine .of_base fun text rest next stops => ⟨rest, ?_, rfl⟩
        refine base_struct regular found (fun field mem => part field rfl mem ?_) next
        have shorter := @length_text_le_spaced types fields field mem
        have mark : 0 < (Types.openToken packed).toList.length := by cases packed <;> decide
        rw [written, TypeShape.textWith, Types.toList_structText]
        simp only [List.length_append]
        omega
    | array elem length =>
      refine .of_base fun text rest next stops => ⟨rest, ?_, rfl⟩
      refine base_array regular found (part elem rfl List.mem_cons_self ?_) next
      have mark : "[".toList.length = 1 := by decide
      rw [written, TypeShape.textWith]
      simp only [String.toList_append, List.length_append]
      omega

end TypeReader

/-! ## Whole texts

Behind a text that is read whole there is nothing, so there is no list that could open and no word
that could go on.  The witness is a function type that has every kind of entry: a pointer, an array
of named structs and the mark of vararg functions. -/

/-- Values of the type are integers of at least one bit or floating-point numbers. -/
def TypeShape.IsNumber : TypeShape → Prop
  | int bits => bits ≠ 0
  | float _ => True
  | _ => False

namespace Types

variable {types : Types} {id : TypeId}

/-- Reading a whole text is reading a type and finding nothing behind it. -/
theorem Regular.readText_of_heads (regular : types.Regular) (has : types.Has id)
    (heads : TypeReader.Heads types (types.text id).toList.length id) :
    types.readText (types.text id).toList = (types, .ok id) := by
  obtain ⟨left, read, same⟩ :=
    heads.readsBack (types.text id).toList []
      ((trimStart_of_startsType (regular.startsType has) []).symm ▸ by rw [List.append_nil])
      stops_nil nofun
  have finished : (trimStart left).isEmpty = true := by
    rw [same]
    rfl
  rw [readText, TypeArena.readText, TypeArena.read, read]
  dsimp only
  rw [finished]
  rfl

/-- **The text of a type is read as the type** it was made for, and nothing is interned. -/
theorem Regular.readText_text (regular : types.Regular) (known : types.LiteralsKnown)
    (has : types.Has id) (legible : types.Legible id) :
    types.readText (types.text id).toList = (types, .ok id) :=
  regular.readText_of_heads has
    (TypeReader.heads regular known has legible (Nat.le_refl _))

/-- The types of numbers are read as well, whatever else is in the arena. -/
theorem Regular.readText_number (regular : types.Regular) {shape : TypeShape}
    (found : types.shape id = .ok shape) (number : shape.IsNumber) :
    types.readText (types.text id).toList = (types, .ok id) := by
  refine regular.readText_of_heads (has_of_shape found)
    (.of_base fun text rest next stops => ⟨rest, ?_, rfl⟩)
  rw [regular.layered.text_of_shape found] at next
  cases shape with
  | int bits => exact TypeReader.base_int regular found number next stops
  | float kind => exact TypeReader.base_float regular found next stops
  | _ => cases number

/-- What is read from a text can be written legibly. -/
theorem Regular.legible_of_readText (regular : types.Regular) {text : List Char}
    (accepted : (types.readText text).2 = .ok id) :
    (types.readText text).1.Has id ∧ (types.readText text).1.Legible id := by
  have after := regular.interns (regular.readText_writes text).interns
  rcases regular.twins.readText text with ⟨first, second, read, -, same⟩ | ⟨failed, -⟩
  · cases accepted.symm.trans read
    exact ⟨same.has, after.legible_of_readable same.readable⟩
  · cases accepted.symm.trans failed

/-- An arena with a vararg function of a pointer and of four named structs in an array. -/
def buffers : Types :=
  (((Types.initial.declareStruct "io.Buf").2.array ⟨6⟩ 4).2.func [.ptr, ⟨7⟩] .void true).2

theorem constructed_buffers : buffers.Constructed := by
  have declared : (Types.initial.declareStruct "io.Buf").2.Constructed := .declareStruct .initial _
  refine .func (declared.array ?_ 4) ?_ ?_ true <;> decide +kernel

/-- The only name that the function mentions is a word, and there are no integers. -/
theorem legible_buffers : buffers.Legible ⟨8⟩ := by
  have regular := constructed_buffers.built.regular
  have func : buffers.shape ⟨8⟩ = .ok (.func [.ptr, ⟨7⟩] .void true) := by decide +kernel
  have array : buffers.shape ⟨7⟩ = .ok (.array ⟨6⟩ 4) := by decide +kernel
  have named : buffers.term ⟨6⟩ = .named "io.Buf" := regular.term_of_named? (by decide +kernel)
  refine regular.legible_of_readable ?_
  rw [regular.layered.term_of_shape func, TypeShape.termWith, List.map_cons, List.map_singleton,
    regular.layered.term_of_shape array, TypeShape.termWith, named,
    regular.layered.term_of_shape (regular.basic (rfl : Types.initial.shape .ptr = .ok (.ptr 0))),
    regular.layered.term_of_shape (regular.basic (rfl : Types.initial.shape .void = .ok .void))]
  have word : IsWord "io.Buf".toList := isWord_of_all (by decide)
  refine .func (List.forall_mem_cons.mpr ⟨.ptr 0, ?_⟩) .void
  exact List.forall_mem_singleton.mpr (.array (.named word))

/-- **Reading inverts writing**: in an arena of the constructors, the text of a legible type is read
as that type and the arena stays as it was.  So legible types with the same text are the same, and
reading the text of what was read answers it again. -/
theorem readText_inverts_text {types : Types} (constructed : types.Constructed) :
    (∀ id, types.Has id → types.Legible id →
      types.readText (types.text id).toList = (types, .ok id))
    ∧ (∀ id other, types.Has id → types.Legible id → types.Has other → types.Legible other →
      types.text id = types.text other → id = other)
    ∧ ∀ text id after, types.readText text = (after, .ok id) →
      after.readText (after.text id).toList = (after, .ok id) := by
  have regular := constructed.built.regular
  have back (id : TypeId) (has : types.Has id) (legible : types.Legible id) :
      types.readText (types.text id).toList = (types, .ok id) :=
    regular.readText_text constructed.literalsKnown has legible
  refine ⟨back, fun id other has legible has' legible' same => ?_, fun text id after read => ?_⟩
  · have first := back id has legible
    rw [same, back other has' legible'] at first
    cases first
    rfl
  · obtain rfl : (types.readText text).1 = after := congrArg Prod.fst read
    have grown := Constructed.readText constructed text
    obtain ⟨has, legible⟩ := regular.legible_of_readText (congrArg Prod.snd read)
    exact grown.built.regular.readText_text grown.literalsKnown has legible

/-- A function type of variable arity, with a named struct in an array. -/
theorem readText_inverts_text_buffers :
    buffers.text ⟨8⟩ = "void (ptr, [4 x %io.Buf], ...)"
    ∧ buffers.readText "void (ptr, [4 x %io.Buf], ...)".toList = (buffers, .ok ⟨8⟩) := by
  have written : buffers.text ⟨8⟩ = "void (ptr, [4 x %io.Buf], ...)" := by decide +kernel
  refine ⟨written, ?_⟩
  rw [← written]
  exact (readText_inverts_text constructed_buffers).1 ⟨8⟩ (by decide +kernel) legible_buffers

end Types

end IrStream
