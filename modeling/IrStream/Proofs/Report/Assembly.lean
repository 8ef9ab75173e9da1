import IrStream.Proofs.Report.Lines
import IrStream.Proofs.Types.Parsing

/-!
# Assembler output loses nothing

`Assembly.read?` reads the source that `EncodedModule.assembly` writes.  It cuts the source into
statements, and then asks of each only how it begins: the bytes stand behind `.byte`, the width of a
word follows from the first `.p2align`, and the names of the globals are the operands between the
label of their table and the next `.globl`.

What makes this enough is that a name is one symbol for the reader, whatever characters it has.
Between quotes there is a backslash in front of every quote and every backslash, so a quoted name is
part of one statement, and line ends or directives inside it are not seen (`isStatement_symbol`,
`name?_symbol`).

Main statement: reading answers the bytes, the globals and the word size that were written, so the
text tells modules apart (`assembly_lossless`).

## The reader

Nothing in the program reads this format, so the reader is a definition of this module, and it would
prove nothing if it were made to fit.  It is as simple as a reader can be.  It knows where a
statement ends, it knows the escapes between quotes, it knows a few directives and one label, and it
ignores everything else, comments and sections included.

* **Symbols.**  A name that is plain is written as it is, any other one between quotes.  Reading
  undoes both, and the first character tells which it was.
* **Bytes.**  Sixteen of them on a line, each as a numeral of base sixteen, with commas between
  them.
* **The source.**  The lines are listed in `sourceLines`; each of them is a statement, also one with
  line ends in it, so cutting gives the same list back (`statements_assembly`).
* **Reading.**  What stands behind a directive, in all statements that begin with it.

A name is the only thing in the source that is not under the control of the writer, and everything
that could go wrong goes wrong there.
-/

set_option autoImplicit false

namespace IrStream

/-- What is read for each thing written is read of all of them.  Bytes, names and lines are all read
back in this way. -/
theorem mapM_map_eq_some {α β : Type} {write : α → β} {read : β → Option α} {list : List α}
    (inverse : ∀ a ∈ list, read (write a) = some a) : (list.map write).mapM read = some list := by
  induction list with
  | nil => rfl
  | cons a rest ih =>
    rw [List.map_cons, List.mapM_cons, inverse a List.mem_cons_self,
      ih fun other mem => inverse other (List.mem_cons_of_mem a mem)]
    rfl

namespace TypeReader

/-- A text that begins otherwise than the token has no rest behind it. -/
theorem stripPrefix?_append_of_apart {token front : List Char}
    (apart : ¬ token <+: front ∧ ¬ front <+: token) (rest : List Char) :
    stripPrefix? token (front ++ rest) = none := by
  cases stripped : stripPrefix? token (front ++ rest) with
  | none => rfl
  | some left =>
    have same := eq_append_of_stripPrefix? stripped
    rcases List.prefix_or_prefix_of_prefix (List.prefix_append front rest)
      (same ▸ List.prefix_append token left) with within | within
    exacts [absurd within apart.2, absurd within apart.1]

end TypeReader

namespace Assembly

open TypeReader (stripPrefix? stripPrefix?_append stripPrefix?_append_of_apart)

/-! ## Directives -/

theorem toList_directive (name argument : String) :
    (directive name argument).toList = (directive name "").toList ++ argument.toList := by
  simp [directive]

/-- What stands behind a directive, if the statement is one with that name.  The tabs around the
name belong to the directive. -/
def argument? (name : String) (statement : List Char) : Option (List Char) :=
  stripPrefix? (directive name "").toList statement

theorem argument?_directive (name argument : String) :
    argument? name (directive name argument).toList = some argument.toList := by
  rw [argument?, toList_directive name argument, stripPrefix?_append]

/-- Directives with different names begin differently.  So a reader that looks for one of them
passes over the other. -/
theorem argument?_directive_of_apart {name other : String} (argument : String)
    (apart : ¬ (directive name "").toList <+: (directive other "").toList
      ∧ ¬ (directive other "").toList <+: (directive name "").toList) :
    argument? name (directive other argument).toList = none := by
  rw [argument?, toList_directive other argument]
  exact stripPrefix?_append_of_apart apart _

theorem head?_directive (name argument : String) :
    (directive name argument).toList.head? = some '\t' := by
  simp [directive]

theorem isStatement_directive {name argument : String}
    (front : IsStatement (directive name "").toList) (back : IsStatement argument.toList) :
    IsStatement (directive name argument).toList := by
  rw [toList_directive]
  exact front.append back

/-! ## Symbols -/

/-- The text that ends with the closing quote, and what its characters stand for.  A backslash makes
the next character stand for itself. -/
def unquoted? : List Char → Option (List Char)
  | [] => none
  | c :: rest =>
    if c = '"' then (if rest.isEmpty then some [] else none)
    else if c = '\\' then
      match rest with
      | [] => none
      | escaped :: rest => (unquoted? rest).map (escaped :: ·)
    else (unquoted? rest).map (c :: ·)

/-- The name that a symbol stands for.  Without a quote in front the text is the name. -/
def name? (text : List Char) : Option String :=
  match text with
  | '"' :: rest => (unquoted? rest).map String.ofList
  | _ => if isPlain text then some (String.ofList text) else none

/-- A character is read back from what is written for it between quotes, with or without a
backslash. -/
theorem unquoted?_escapedChar (c : Char) (rest : List Char) :
    unquoted? (escapedChar c ++ rest) = (unquoted? rest).map (c :: ·) := by
  rw [escapedChar]
  split
  · next backslash =>
    subst backslash
    rfl
  · next other =>
    split
    · next quote =>
      subst quote
      rfl
    · next plain =>
      rw [List.singleton_append, unquoted?.eq_def]
      dsimp only
      rw [if_neg plain, if_neg other]

/-- An escaped name is read back, up to the closing quote.  By induction on the name; the closing
quote is the first that has no backslash before it. -/
theorem unquoted?_escaped (name : List Char) :
    unquoted? (name.flatMap escapedChar ++ ['"']) = some name := by
  induction name with
  | nil => rfl
  | cons c name ih =>
    rw [List.flatMap_cons, List.append_assoc, unquoted?_escapedChar, ih, Option.map_some]

theorem toList_symbol_of_plain {name : String} (plain : isPlain name.toList = true) :
    (symbol name).toList = name.toList := by
  rw [symbol, if_pos plain]

theorem toList_symbol_of_not_plain {name : String} (quoted : isPlain name.toList ≠ true) :
    (symbol name).toList = '"' :: (name.toList.flatMap escapedChar ++ ['"']) := by
  rw [symbol, if_neg quoted]
  simp

/-- Characters of plain names are no quotes and no line ends.  They are letters, digits and a few
marks. -/
theorem unquoted_of_isPlain {name : List Char} (plain : isPlain name = true) :
    ∀ c ∈ name, c ≠ '\n' ∧ c ≠ '"' := by
  intro c mem
  have all : name.all isSymbolChar = true := by
    cases name with
    | nil => rfl
    | cons first rest => exact (Bool.and_eq_true_iff.mp plain).2
  have known := List.all_eq_true.mp all c mem
  constructor
  · rintro rfl
    cases known
  · rintro rfl
    cases known

/-- **A symbol is read as its name.**  A plain name is written as it is and has no quote in front,
so the two forms are told apart. -/
theorem name?_symbol (name : String) : name? (symbol name).toList = some name := by
  by_cases plain : isPlain name.toList = true
  · rw [toList_symbol_of_plain plain, name?, if_pos plain, String.ofList_toList]
    intro rest spelled
    have quote : '"' ∈ name.toList := by
      rw [spelled]
      exact List.mem_cons_self
    exact (unquoted_of_isPlain plain '"' quote).2 rfl
  · rw [toList_symbol_of_not_plain plain, name?, unquoted?_escaped, Option.map_some,
      String.ofList_toList]

/-- What is written for a name does not lead out of the quotes.  A quote in the name has a backslash
before it, and a line end between quotes ends nothing. -/
theorem run_escaped (name : List Char) :
    (name.flatMap escapedChar).foldlM Quoting.next .inside = some .inside := by
  induction name with
  | nil => rfl
  | cons c name ih =>
    have one : (escapedChar c).foldlM Quoting.next .inside = some .inside := by
      rw [escapedChar]
      split
      · rfl
      · next other =>
        split
        · rfl
        · next plain => simp [Quoting.next, plain, other]
    rw [List.flatMap_cons, List.foldlM_append, one]
    exact ih

/-- **A symbol is part of one statement**, whatever its name.  It closes the quotes that it opens.
-/
theorem isStatement_symbol (name : String) : IsStatement (symbol name).toList := by
  by_cases plain : isPlain name.toList = true
  · rw [toList_symbol_of_plain plain]
    exact isStatement_of_unquoted (unquoted_of_isPlain plain)
  · have opened : (symbol name).toList.foldlM Quoting.next .outside
        = (name.toList.flatMap escapedChar ++ ['"']).foldlM Quoting.next .inside := by
      rw [toList_symbol_of_not_plain plain]
      rfl
    rw [IsStatement, opened, List.foldlM_append, run_escaped]
    rfl

/-! ## Bytes -/

/-- The byte that a numeral of base sixteen spells. -/
def byte? : List Char → Option UInt8
  | '0' :: 'x' :: digits => (bounded? 16 UInt8.size digits).map UInt8.ofNat
  | _ => none

theorem digitValue?_hexDigit {value : Nat} (small : value < 16) :
    digitValue? (hexDigit value) = some value := by
  have every : ∀ value : Fin 16, digitValue? (hexDigit value) = some value.val := by decide
  exact every ⟨value, small⟩

theorem toList_byteText (byte : UInt8) : (byteText byte).toList
    = '0' :: 'x' :: [hexDigit (byte.toNat / 16), hexDigit (byte.toNat % 16)] := by
  simp [byteText]

/-- A byte is read back from its two hexadecimal digits.  The leading zero is written, so there are
always two. -/
theorem byte?_byteText (byte : UInt8) : byte? (byteText byte).toList = some byte := by
  have high : byte.toNat / 16 < 16 := by
    have := byte.toNat_lt
    omega
  have low : byte.toNat % 16 < 16 := Nat.mod_lt _ (by decide)
  have read : natural? 16 [hexDigit (byte.toNat / 16), hexDigit (byte.toNat % 16)]
      = some byte.toNat := by
    simp only [natural?, List.isEmpty_cons, Bool.false_eq_true, if_false, continueNatural?,
      digitValue?_hexDigit high, digitValue?_hexDigit low, high, low, if_true]
    congr 1
    omega
  rw [toList_byteText, byte?, bounded?, read, Option.filter_some,
    if_pos (decide_eq_true byte.toNat_lt), Option.map_some, UInt8.ofNat_toNat]

/-- Between the characters of bytes there is nothing to cut at.  So a line of bytes is one line, and
its commas are those between bytes. -/
theorem solid_byteText (byte : UInt8) :
    ∀ c ∈ (byteText byte).toList, c ≠ '\n' ∧ c ≠ '"' ∧ c ≠ ',' := by
  have digits : ∀ value : Fin 16, hexDigit value ≠ '\n' ∧ hexDigit value ≠ '"'
      ∧ hexDigit value ≠ ',' := by
    decide
  have high : byte.toNat / 16 < 16 := by
    have := byte.toNat_lt
    omega
  have low : byte.toNat % 16 < 16 := Nat.mod_lt _ (by decide)
  rw [toList_byteText]
  simp only [List.forall_mem_cons]
  exact ⟨by decide, by decide, digits ⟨_, high⟩, digits ⟨_, low⟩, nofun⟩

/-- Texts with commas between them are cut apart again.  No entry is empty and none has a comma, so
the pieces are the entries. -/
theorem cut_joinCommas {texts : List String}
    (each : ∀ text ∈ texts, text.toList ≠ [] ∧ ',' ∉ text.toList) :
    cut ',' (joinCommas texts).toList = texts.map String.toList := by
  rw [cut]
  induction texts with
  | nil => rfl
  | cons text rest ih =>
    obtain ⟨some, free⟩ := each text List.mem_cons_self
    cases rest with
    | nil =>
      rw [joinCommas]
      exact pieces_of_run (run_of_not_mem free) some
    | cons next others =>
      have spelled : (joinCommas (text :: next :: others)).toList
          = text.toList ++ ',' :: (joinCommas (next :: others)).toList := by
        simp [joinCommas]
      rw [spelled, pieces_append (run_of_not_mem free) (if_pos rfl),
        ih fun other mem => each other (List.mem_cons_of_mem text mem)]
      rfl

/-- A character of a list with commas is a comma or stands in an entry. -/
theorem mem_toList_joinCommas {texts : List String} {c : Char}
    (mem : c ∈ (joinCommas texts).toList) : c = ',' ∨ ∃ text ∈ texts, c ∈ text.toList := by
  induction texts with
  | nil => cases mem
  | cons text rest ih =>
    cases rest with
    | nil => exact .inr ⟨text, List.mem_cons_self, mem⟩
    | cons next others =>
      simp only [joinCommas, String.toList_append, List.mem_append] at mem
      rcases mem with (mem | mem) | mem
      · exact .inr ⟨text, List.mem_cons_self, mem⟩
      · exact .inl (List.mem_singleton.mp mem)
      · exact (ih mem).imp_right fun ⟨other, listed, inside⟩ =>
          ⟨other, List.mem_cons_of_mem text listed, inside⟩

/-- Bytes that are cut into lines are the same bytes in a row.  The count bounds the number of
lines; there is at least one byte on each. -/
theorem flatten_chunks {length : Nat} (positive : 0 < length) {count : Nat} {bytes : List UInt8}
    (enough : bytes.length ≤ count) : (chunks length count bytes).flatten = bytes := by
  induction count generalizing bytes with
  | zero =>
    rw [List.length_eq_zero_iff.mp (Nat.le_zero.mp enough)]
    rfl
  | succ count ih =>
    cases bytes with
    | nil => rfl
    | cons byte rest =>
      have fewer : ((byte :: rest).drop length).length ≤ count := by
        rw [List.length_drop]
        omega
      rw [chunks, List.flatten_cons, ih fewer, List.take_append_drop]
      exact nofun

/-- The number of lines of a dump is the number of bytes over the length of a line, rounded up. -/
theorem length_chunks {length : Nat} (positive : 0 < length) {count : Nat} {bytes : List UInt8}
    (enough : bytes.length ≤ count) :
    (chunks length count bytes).length = (bytes.length + (length - 1)) / length := by
  have none : (0 + (length - 1)) / length = 0 := Nat.div_eq_of_lt (by omega)
  induction count generalizing bytes with
  | zero =>
    rw [List.length_eq_zero_iff.mp (Nat.le_zero.mp enough)]
    exact none.symm
  | succ count ih =>
    cases bytes with
    | nil => exact none.symm
    | cons byte rest =>
      have fewer : ((byte :: rest).drop length).length ≤ count := by
        rw [List.length_drop]
        omega
      have split : (byte :: rest).length + (length - 1) = rest.length + length := by
        rw [List.length_cons]
        omega
      rw [chunks, List.length_cons, ih fewer, split, Nat.add_div_right _ positive,
        List.length_drop, List.length_cons]
      · by_cases long : length ≤ rest.length + 1
        · congr 2
          omega
        · rw [Nat.sub_eq_zero_of_le (by omega), none, Nat.div_eq_of_lt (by omega)]
      · exact nofun

/-! ## The source -/

/-- The line of a global in the table. -/
def tableLine (word : WordSize) (name : String) : String :=
  directive (addressDirective word) (symbol name)

/-- The line that ends a table begins with this directive.  No line of the table begins so. -/
def opensLabel (line : List Char) : Bool :=
  (argument? ".globl" line).isSome

/-- What stands between the label of the table of globals and the next `.globl`.  A reader of the
text finds the table in this way, without counting. -/
def tableOf (source : List (List Char)) : List (List Char) :=
  ((source.dropWhile (· ≠ (labelLine globalsLabel).toList)).drop 1).takeWhile (!opensLabel ·)

/-! ### Its lines -/

/-- The lines in front of the bytes. -/
def openLines : List String :=
  [directive ".section" (streamSection ++ ",\"a\",@progbits"), directive ".globl" startLabel,
    labelLine startLabel]

/-- The lines from the bytes to the label of the table. -/
def closeLines (word : WordSize) : List String :=
  [directive ".globl" stopLabel, labelLine stopLabel, "",
    directive ".section" ".data.rel.ro,\"aw\",@progbits", directive ".globl" globalsLabel,
    directive ".p2align" (addressAlign word)]

/-- The lines behind the table. -/
def countLines (count : Nat) : List String :=
  [directive ".globl" countLabel, directive ".p2align" "3", labelLine countLabel,
    directive ".quad" (toString count)]

/-- Lines of bytes and counts have no quotes, and are on one line.  Each is a directive, digits,
letters and commas. -/
theorem unquoted_of_mem_byteLines {bytes : List UInt8} {line : String}
    (mem : line ∈ byteLines bytes) : ∀ c ∈ line.toList, c ≠ '\n' ∧ c ≠ '"' := by
  obtain ⟨chunk, -, rfl⟩ := List.mem_map.mp mem
  have front : ∀ c ∈ (directive ".byte" "").toList, c ≠ '\n' ∧ c ≠ '"' :=
    forall_mem_of_all (by decide)
  intro c mem
  rw [toList_directive] at mem
  rcases List.mem_append.mp mem with mem | mem
  · exact front c mem
  rcases mem_toList_joinCommas mem with rfl | ⟨text, listed, inside⟩
  · decide
  · obtain ⟨byte, -, rfl⟩ := List.mem_map.mp listed
    obtain ⟨line, quote, -⟩ := solid_byteText byte c inside
    exact ⟨line, quote⟩

/-- The lines that count the globals are directives and a numeral: they open no quotes and do not
break. -/
theorem unquoted_of_mem_countLines {count : Nat} {line : String} (mem : line ∈ countLines count) :
    ∀ c ∈ line.toList, c ≠ '\n' ∧ c ≠ '"' := by
  have digits : ∀ c ∈ (directive ".quad" (toString count)).toList, c ≠ '\n' ∧ c ≠ '"' := by
    have front : ∀ c ∈ (directive ".quad" "").toList, c ≠ '\n' ∧ c ≠ '"' :=
      forall_mem_of_all (by decide)
    intro c mem
    rw [toList_directive] at mem
    rcases List.mem_append.mp mem with mem | mem
    · exact front c mem
    have digit := isDigit_of_mem_toString mem
    constructor
    · rintro rfl
      cases digit
    · rintro rfl
      cases digit
  revert line
  simp only [countLines, List.forall_mem_cons]
  exact ⟨forall_mem_of_all (by decide), forall_mem_of_all (by decide),
    forall_mem_of_all (by decide), digits, nofun⟩

theorem isStatement_tableLine (word : WordSize) (name : String) :
    IsStatement (tableLine word name).toList := by
  rw [tableLine]
  refine isStatement_directive ?_ (isStatement_symbol name)
  cases word <;> decide

/-- The label of the table stands on no line before.  So the first line that is this label begins
the table. -/
theorem ne_label_of_mem {bytes : List UInt8} {word : WordSize} {line : String}
    (mem : line ∈ openLines ++ (byteLines bytes ++ closeLines word)) :
    line.toList ≠ (labelLine globalsLabel).toList := by
  have opened : ∀ line ∈ openLines, line.toList ≠ (labelLine globalsLabel).toList := by decide
  have closed : ∀ line ∈ closeLines word, line.toList ≠ (labelLine globalsLabel).toList := by
    cases word <;> decide
  rcases List.mem_append.mp mem with mem | mem
  · exact opened line mem
  rcases List.mem_append.mp mem with mem | mem
  · obtain ⟨chunk, -, rfl⟩ := List.mem_map.mp mem
    intro same
    have first := head?_directive ".byte" (joinCommas (chunk.map byteText))
    rw [same] at first
    cases first
  · exact closed line mem

end Assembly

open Assembly

namespace EncodedModule

variable (encoded : EncodedModule)

/-- The lines that the source is put together from. -/
def sourceLines : List String :=
  streamLines encoded.bytes ++ [""] ++ globalLines encoded.word encoded.globals

theorem sourceLines_eq : encoded.sourceLines
    = openLines ++ (byteLines encoded.bytes ++ closeLines encoded.word) ++ labelLine globalsLabel
      :: (encoded.globals.map (tableLine encoded.word) ++ countLines encoded.globals.length) := by
  simp [sourceLines, streamLines, globalLines, openLines, closeLines, countLines, tableLine]

/-- **The table of a source** is the lines of its globals.  Behind the label come the lines of the
globals, and none of them opens a label. -/
theorem tableOf_sourceLines : tableOf (encoded.sourceLines.map String.toList)
    = encoded.globals.map fun name => (tableLine encoded.word name).toList := by
  have front : ∀ line ∈ (openLines ++ (byteLines encoded.bytes ++ closeLines encoded.word)).map
      String.toList, decide (line ≠ (labelLine globalsLabel).toList) = true := by
    intro line mem
    obtain ⟨written, listed, rfl⟩ := List.mem_map.mp mem
    exact decide_eq_true (ne_label_of_mem listed)
  have entries : ∀ line ∈ encoded.globals.map fun name => (tableLine encoded.word name).toList,
      (!opensLabel line) = true := by
    intro line mem
    obtain ⟨name, -, rfl⟩ := List.mem_map.mp mem
    have apart : argument? ".globl" (tableLine encoded.word name).toList = none := by
      rw [tableLine]
      cases encoded.word with
      | four => exact argument?_directive_of_apart _ (by decide)
      | eight => exact argument?_directive_of_apart _ (by decide)
    rw [opensLabel, apart]
    rfl
  have close : opensLabel (directive ".globl" countLabel).toList = true := by decide
  have back : (encoded.globals.map (tableLine encoded.word)
      ++ countLines encoded.globals.length).map String.toList
        = (encoded.globals.map fun name => (tableLine encoded.word name).toList)
          ++ (countLines encoded.globals.length).map String.toList := by
    rw [List.map_append, List.map_map]
    rfl
  rw [sourceLines_eq, List.map_append, List.map_cons, back, tableOf,
    List.dropWhile_append_of_pos front, List.dropWhile_cons_of_neg (by simp), List.drop_one,
    List.tail_cons]
  refine (List.takeWhile_append_of_pos entries).trans ?_
  rw [countLines, List.map_cons, List.takeWhile_cons_of_neg (by simp [close]), List.append_nil]

/-- **Each line of a source is a statement**, also one with line ends in it.  Such a line is one of
a global, and the line end stands between its quotes. -/
theorem isStatement_of_mem_sourceLines {line : String} (mem : line ∈ encoded.sourceLines) :
    IsStatement line.toList := by
  have opened : ∀ line ∈ openLines, IsStatement line.toList := by decide
  have closed : ∀ line ∈ closeLines encoded.word, IsStatement line.toList := by
    cases encoded.word <;> decide
  simp only [sourceLines_eq, List.mem_append, List.mem_cons] at mem
  rcases mem with (mem | mem | mem) | rfl | mem | mem
  · exact opened line mem
  · exact isStatement_of_unquoted (unquoted_of_mem_byteLines mem)
  · exact closed line mem
  · decide
  · obtain ⟨name, -, rfl⟩ := List.mem_map.mp mem
    exact isStatement_tableLine encoded.word name
  · exact isStatement_of_unquoted (unquoted_of_mem_countLines mem)

/-- The statements of a source are the lines that it was put together from. -/
theorem statements_assembly :
    statements encoded.assembly.toList = encoded.sourceLines.map String.toList :=
  statements_unlines fun _ mem => encoded.isStatement_of_mem_sourceLines mem

end EncodedModule

/-! ## Reading -/

namespace Assembly

/-- What stands behind a directive, in each of the statements with it.  They are in the order of the
source. -/
def arguments (name : String) (source : List (List Char)) : List (List Char) :=
  source.filterMap (argument? name)

/-- The word size with that alignment.  The table of addresses is aligned to the size of one. -/
def wordOfAlign? (align : List Char) : Option WordSize :=
  [.four, .eight].find? fun word => (addressAlign word).toList = align

/-- The bytes, the names of the globals and the word size that a source is about.  The bytes are
behind `.byte`, the names in the lines of the table, and the word size in its alignment. -/
def read? (text : String) : Option (List UInt8 × List String × WordSize) := do
  let source := statements text.toList
  let bytes ← ((arguments ".byte" source).flatMap (cut ',')).mapM byte?
  let word ← (arguments ".p2align" source).head?.bind wordOfAlign?
  let globals ← (tableOf source).mapM fun line => do
    name? (← argument? (addressDirective word) line)
  return (bytes, globals, word)

theorem arguments_map_append (name : String) (first second : List String) :
    arguments name ((first ++ second).map String.toList)
      = arguments name (first.map String.toList) ++ arguments name (second.map String.toList) := by
  rw [List.map_append, arguments, List.filterMap_append]
  rfl

/-- Directives with another name have no such arguments. -/
theorem arguments_map_directive {α : Type} (name other : String) (argument : α → String)
    (list : List α)
    (apart : ¬ (directive name "").toList <+: (directive other "").toList
      ∧ ¬ (directive other "").toList <+: (directive name "").toList) :
    arguments name ((list.map fun a => directive other (argument a)).map String.toList) = [] := by
  rw [List.map_map, arguments, List.filterMap_map, List.filterMap_eq_nil_iff]
  exact fun a _ => argument?_directive_of_apart (argument a) apart

/-- The bytes are the bytes of the lines of bytes. -/
theorem mapM_byte? (bytes : List UInt8) :
    ((arguments ".byte" ((byteLines bytes).map String.toList)).flatMap (cut ',')).mapM byte?
      = some bytes := by
  have operands : arguments ".byte" ((byteLines bytes).map String.toList)
      = (chunks bytesPerLine bytes.length bytes).map
        fun chunk => (joinCommas (chunk.map byteText)).toList := by
    rw [byteLines, List.map_map, arguments, List.filterMap_map]
    exact (congrArg (List.filterMap · _) (funext fun chunk => argument?_directive ".byte" _)).trans
      (congrFun List.filterMap_eq_map' _)
  have cuts (chunk : List UInt8) : cut ',' (joinCommas (chunk.map byteText)).toList
      = chunk.map fun byte => (byteText byte).toList := by
    rw [cut_joinCommas, List.map_map]
    · rfl
    · intro text mem
      obtain ⟨byte, -, rfl⟩ := List.mem_map.mp mem
      refine ⟨by simp [toList_byteText], fun comma => ?_⟩
      exact (solid_byteText byte ',' comma).2.2 rfl
  rw [operands, List.flatMap_map]
  simp only [cuts]
  rw [← List.map_flatMap, List.flatMap_id', flatten_chunks (by decide) (Nat.le_refl _)]
  exact mapM_map_eq_some fun byte _ => byte?_byteText byte

end Assembly

namespace EncodedModule

variable (encoded : EncodedModule)

/-- Only the lines of bytes have that directive.  All other lines are labels or have directives that
begin otherwise. -/
theorem arguments_byte : arguments ".byte" (encoded.sourceLines.map String.toList)
    = arguments ".byte" ((byteLines encoded.bytes).map String.toList) := by
  have opened : arguments ".byte" (openLines.map String.toList) = [] := by decide
  have closed : arguments ".byte" ((closeLines encoded.word).map String.toList) = [] := by
    cases encoded.word <;> decide
  have label : arguments ".byte" ([labelLine globalsLabel].map String.toList) = [] := by decide
  have entries : arguments ".byte" ((encoded.globals.map (tableLine encoded.word)).map
      String.toList) = [] := by
    cases encoded.word with
    | four => exact arguments_map_directive ".byte" ".long" symbol encoded.globals (by decide)
    | eight => exact arguments_map_directive ".byte" ".quad" symbol encoded.globals (by decide)
  have count : arguments ".byte" ((countLines encoded.globals.length).map String.toList) = [] := by
    rw [arguments, List.filterMap_eq_nil_iff, List.forall_mem_map, countLines]
    simp only [List.forall_mem_cons]
    exact ⟨by decide, by decide, by decide, argument?_directive_of_apart _ (by decide), nofun⟩
  rw [sourceLines_eq, ← List.singleton_append]
  simp only [arguments_map_append, opened, closed, label, entries, count, List.nil_append,
    List.append_nil]

/-- The first alignment is that of the table.  There may be others behind it, but none before. -/
theorem head?_arguments_p2align :
    (arguments ".p2align" (encoded.sourceLines.map String.toList)).head?
      = some (addressAlign encoded.word).toList := by
  have opened : arguments ".p2align" (openLines.map String.toList) = [] := by decide
  have bytes : arguments ".p2align" ((byteLines encoded.bytes).map String.toList) = [] :=
    arguments_map_directive ".p2align" ".byte" (fun chunk : List UInt8 =>
      joinCommas (chunk.map byteText)) _ (by decide)
  have closed : arguments ".p2align" ((closeLines encoded.word).map String.toList)
      = [(addressAlign encoded.word).toList] := by
    cases encoded.word <;> decide
  rw [sourceLines_eq]
  simp only [arguments_map_append, opened, bytes, closed, List.nil_append, List.singleton_append,
    List.head?_cons]

/-- **Reading a source** answers the bytes, the names and the word size that it was written for.  It
is the three look-ups one after the other. -/
theorem read?_assembly :
    Assembly.read? encoded.assembly = some (encoded.bytes, encoded.globals, encoded.word) := by
  have word : wordOfAlign? (addressAlign encoded.word).toList = some encoded.word := by
    cases encoded.word <;> decide
  have names : (encoded.globals.map fun name => (tableLine encoded.word name).toList).mapM
      (fun line => do name? (← argument? (addressDirective encoded.word) line))
        = some encoded.globals := by
    refine mapM_map_eq_some fun name _ => ?_
    rw [tableLine, argument?_directive]
    exact name?_symbol name
  rw [Assembly.read?, statements_assembly, arguments_byte, mapM_byte?, head?_arguments_p2align,
    tableOf_sourceLines]
  dsimp only [Option.bind_eq_bind, Option.bind_some]
  rw [word]
  exact congrArg (Option.bind · _) names

end EncodedModule

/-- **Assembler output loses nothing.**  A reader that knows the escapes between double quotes gets
the bytes, the names of the globals in their order and the word size back from the text, so two
modules have the same text only if they agree in all three. -/
theorem assembly_lossless :
    (∀ encoded : EncodedModule,
      Assembly.read? encoded.assembly = some (encoded.bytes, encoded.globals, encoded.word))
    ∧ ∀ first second : EncodedModule, first.assembly = second.assembly ↔
      first.bytes = second.bytes ∧ first.globals = second.globals ∧ first.word = second.word := by
  refine ⟨EncodedModule.read?_assembly, fun first second => ⟨fun same => ?_, ?_⟩⟩
  · have read := first.read?_assembly
    rw [same, second.read?_assembly] at read
    simp only [Option.some.injEq, Prod.mk.injEq] at read
    exact ⟨read.1.symm, read.2.1.symm, read.2.2.symm⟩
  · rintro ⟨bytes, globals, word⟩
    rw [EncodedModule.assembly, EncodedModule.assembly, bytes, globals, word]

end IrStream
