import IrStream.Proofs.Program.Built

/-!
# Arenas that look their entries up in maps

`Types` and `Constants` find an entry again by searching the arena, so what they find cannot
disagree with what they store.  An arena that is meant to be fast keeps maps beside its entries
instead: one from shapes without a name to handles, one from the names of structs to handles, and
one from constants to handles.  Interning looks into the map and never at the entries.  Then two
things are stored that say the same, and it has to be proved that they go on saying it.

That is what this file is about.

* `IsIndex` is what a map has to say of an array: under each key the handle that a search for the
  key finds.  It is kept when an entry is pushed and entered under its key, and when an entry is
  replaced by one with the same key.  All three maps are instances of it, with different keys.
* `IndexedTypes` and `IndexedConstants` are the arenas with their maps.  A named struct is entered
  under its name alone, which is why giving it a body does not touch a map.
* Reading a type from text runs on any arena.  `TypeReader.Tracks` relates two runs of it that are
  answered alike; from it, reading a text does on the arena with maps what it does on the one
  without (`TypeReader.readText_tracks`), for texts that are no type as well.
* `IndexedTypes.Indexes.performAll` and `IndexedConstants.Indexes.internAll` are about calls in a
  row, whatever they are, from an arena with maps that agree: the answers are the same, failures
  included, the entries are the same, and the maps agree with them afterwards.

Main statement: the arenas of any program that was built are arenas that calls on the ones with
maps leave, and the maps agree with them (`Program.Built.exists_indexed`).  So whatever is proved
of the arenas of programs is true of arenas that never search.
-/

set_option autoImplicit false

namespace IrStream

/-! ## A map beside an array

Entries have keys, but not all of them: only shapes without a name are found by their shape.  The
map may have been made in any way.  All that is asked is that looking up a key in it is as good as
searching for the key. -/

section IsIndex

variable {α κ ι : Type} [BEq κ] [LawfulBEq κ] {handle : Nat → ι} {key : α → Option κ}
  {map : List (κ × ι)} {entries : Array α}

/-- Under each key the map has the handle of the first entry with that key.  And under a key that no
entry has it has nothing. -/
def IsIndex (handle : Nat → ι) (key : α → Option κ) (map : List (κ × ι)) (entries : Array α) :
    Prop :=
  ∀ k, map.lookup k = (entries.findIdx? (key · == some k)).map handle

omit [LawfulBEq κ] in
theorem isIndex_empty : IsIndex handle key [] #[] := fun _ => by simp

/-- An entry whose key is new is entered under it.  The entry is the first one with its key. -/
theorem IsIndex.push_keyed (index : IsIndex handle key map entries) {entry : α} {k : κ}
    (keyed : key entry = some k) (fresh : map.lookup k = none) :
    IsIndex handle key ((k, handle entries.size) :: map) (entries.push entry) := by
  intro other
  rw [List.lookup_cons, Array.findIdx?_push, keyed]
  by_cases same : other = k
  · subst same
    have absent : entries.findIdx? (key · == some other) = none :=
      Option.map_eq_none_iff.mp ((index other).symm.trans fresh)
    rw [absent, beq_self_eq_true, beq_self_eq_true]
    rfl
  · rw [beq_false_of_ne same, beq_false_of_ne fun h => same (Option.some.inj h).symm, index other,
      if_neg Bool.false_ne_true, Option.or_none]

omit [LawfulBEq κ] in
/-- An entry without a key is not entered. -/
theorem IsIndex.push_keyless (index : IsIndex handle key map entries) {entry : α}
    (keyless : key entry = none) : IsIndex handle key map (entries.push entry) := by
  intro other
  have differs : (key entry == some other) = false := by rw [keyless]; rfl
  rw [Array.findIdx?_push, differs, if_neg Bool.false_ne_true, Option.or_none, index other]

omit [LawfulBEq κ] in
/-- Searching for keys looks at nothing but keys.  So an entry may be replaced by one that is found
in the same way. -/
theorem IsIndex.of_sameKeys (index : IsIndex handle key map entries) {others : Array α}
    (same : others.map key = entries.map key) : IsIndex handle key map others := by
  intro k
  have test : (key · == some k) = (· == some k) ∘ key := rfl
  rw [index k, test, ← Array.findIdx?_map, ← Array.findIdx?_map, same]

end IsIndex

/-! ## Types

The two maps are told apart by their keys: a shape is its own key in the first one if it has no
name, and its name is its key in the second one if it has one. -/

/-- A shape that is found by what it is.  A struct with a name is not such a shape, since its body
may change. -/
def TypeShape.literal? (shape : TypeShape) : Option TypeShape :=
  match shape.structName? with
  | some _ => none
  | none => some shape

/-- A type arena with a map of the shapes without a name and a map of the names.  This is how an
implementation finds a shape without a search. -/
structure IndexedTypes where
  /-- The entries, which are the same as without maps. -/
  types : Types
  /-- Where to find the shapes without a name. -/
  literals : List (TypeShape × TypeId)
  /-- Where to find the named structs. -/
  names : List (String × TypeId)

namespace IndexedTypes

def empty : IndexedTypes :=
  ⟨⟨#[]⟩, [], []⟩

/-- The handle that stands for a shape already, from the map that the shape belongs to.  A shape
without a name is looked up by itself, and a named struct by its name. -/
def find? (indexed : IndexedTypes) (shape : TypeShape) : Option TypeId :=
  match shape.structName? with
  | some name => indexed.names.lookup name
  | none => indexed.literals.lookup shape

/-- Append a shape and enter it into the map that it belongs to.  The arena and the map are changed
together. -/
def enter (indexed : IndexedTypes) (shape : TypeShape) : IndexedTypes :=
  let id : TypeId := ⟨indexed.types.size⟩
  let types : Types := ⟨indexed.types.shapes.push shape⟩
  match shape.structName? with
  | some name => { indexed with types, names := (name, id) :: indexed.names }
  | none => { indexed with types, literals := (shape, id) :: indexed.literals }

/-- The handle of a shape, and the arena that has it. -/
def intern (indexed : IndexedTypes) (shape : TypeShape) : TypeId × IndexedTypes :=
  match indexed.find? shape with
  | some id => (id, indexed)
  | none => (⟨indexed.types.size⟩, indexed.enter shape)

instance : TypeArena IndexedTypes where
  intern := intern
  named? indexed name := indexed.names.lookup name

/-- The arena that every program begins with: its types are interned one after the other. -/
def initial : IndexedTypes :=
  Types.initial.shapes.foldl (fun indexed shape => (indexed.intern shape).2) empty

/-- Give the named struct `id` a body, in place of the one it may have.  The check is that of the
arena, and the maps stay as they are. -/
def setStructBody (indexed : IndexedTypes) (id : TypeId) (fields : List TypeId) (packed : Bool) :
    Except ProgramError IndexedTypes := do
  return { indexed with types := ← indexed.types.setStructBody id fields packed }

/-- The maps say what is in the arena. -/
structure Agrees (indexed : IndexedTypes) : Prop where
  /-- Literal shapes are found by the shape. -/
  literals : IsIndex TypeId.mk TypeShape.literal? indexed.literals indexed.types.shapes
  /-- Named structs are found by the name, whatever their bodies are. -/
  names : IsIndex TypeId.mk TypeShape.structName? indexed.names indexed.types.shapes

namespace Agrees

variable {indexed : IndexedTypes} (agrees : indexed.Agrees)
include agrees

theorem lookup_eq_named? (name : String) :
    indexed.names.lookup name = indexed.types.named? name :=
  agrees.names name

/-- **The maps find** what a search of the arena finds. -/
theorem find?_eq (shape : TypeShape) : indexed.find? shape = indexed.types.find? shape := by
  rw [find?, Types.find?]
  cases named : shape.structName? with
  | some name => exact agrees.names name
  | none =>
    have test : (fun entry : TypeShape => entry.literal? == some shape) = (· == shape) := by
      funext entry
      rw [TypeShape.literal?]
      split
      · next taken =>
        have apart : entry ≠ shape := by
          rintro rfl
          exact Option.some_ne_none _ (taken.symm.trans named)
        rw [beq_false_of_ne apart]
        rfl
      · exact Option.some_beq_some
    rw [agrees.literals shape, test]

theorem enter {shape : TypeShape} (fresh : indexed.find? shape = none) :
    (indexed.enter shape).types = ⟨indexed.types.shapes.push shape⟩
      ∧ (indexed.enter shape).Agrees := by
  rw [find?] at fresh
  cases named : shape.structName? with
  | some name =>
    rw [named] at fresh
    simp only [IndexedTypes.enter, named]
    exact ⟨trivial, agrees.literals.push_keyless (by rw [TypeShape.literal?, named]),
      agrees.names.push_keyed named fresh⟩
  | none =>
    rw [named] at fresh
    simp only [IndexedTypes.enter, named]
    exact ⟨trivial, agrees.literals.push_keyed (by rw [TypeShape.literal?, named]) fresh,
      agrees.names.push_keyless named⟩

/-- **Interning** answers the same handle, makes the same entries, and keeps the maps. -/
theorem intern (shape : TypeShape) :
    (indexed.intern shape).1 = (indexed.types.intern shape).1
      ∧ (indexed.intern shape).2.types = (indexed.types.intern shape).2
      ∧ (indexed.intern shape).2.Agrees := by
  rw [IndexedTypes.intern, Types.intern, ← agrees.find?_eq]
  cases known : indexed.find? shape with
  | some id => exact ⟨rfl, rfl, agrees⟩
  | none =>
    obtain ⟨entries, kept⟩ := agrees.enter known
    exact ⟨rfl, entries, kept⟩

/-- A body changes neither the name of a struct nor, since it has a name, what it is found by. -/
theorem setStructBody {id : TypeId} {fields : List TypeId} {packed : Bool} {after : Types}
    (run : indexed.types.setStructBody id fields packed = .ok after) :
    IndexedTypes.Agrees { indexed with types := after } := by
  simp only [Types.setStructBody, bind_eq_ok_iff, dangling_eq_ok_iff] at run
  obtain ⟨shape, found, run⟩ := run
  split at run
  · simp at run
  · next name named =>
    simp only [bind_eq_ok_iff, pure_eq_ok_iff] at run
    obtain ⟨-, -, rfl⟩ := run
    have kept {κ : Type} {key : TypeShape → Option κ}
        (same : key (.struct ⟨some name, fields, packed, true⟩) = key shape) :
        (indexed.types.shapes.setIfInBounds id.index
          (.struct ⟨some name, fields, packed, true⟩)).map key = indexed.types.shapes.map key := by
      obtain ⟨bound, here⟩ := Array.getElem?_eq_some_iff.mp (Types.shape_eq_ok_iff.mp found)
      rw [Array.map_setIfInBounds, same, ← here]
      exact Array.ext_getElem? fun i => by
        rw [Array.getElem?_setIfInBounds]
        split
        · next there => simp [← there, bound]
        · rfl
    have literal : shape.literal? = none := by rw [TypeShape.literal?, named]
    exact ⟨agrees.literals.of_sameKeys (kept literal.symm),
      agrees.names.of_sameKeys (kept named.symm)⟩

end Agrees

theorem agrees_empty : empty.Agrees :=
  ⟨isIndex_empty, isIndex_empty⟩

end IndexedTypes

/-! ## Reading on two arenas

A reader asks its arena for nothing but handles.  So two arenas on which the same questions have the
same answers are read into alike, whatever the reader is.  `R` is any relation between them that
interning keeps. -/

/-- Related arenas answer alike, and stay related. -/
structure TypeArena.Alike {A B : Type} [TypeArena A] [TypeArena B] (R : A → B → Prop) : Prop where
  /-- The handle is the same, and the arenas afterwards are related. -/
  intern : ∀ {a b}, R a b → ∀ shape, (TypeArena.intern a shape).1 = (TypeArena.intern b shape).1
    ∧ R (TypeArena.intern a shape).2 (TypeArena.intern b shape).2
  /-- A name has the same handle in both, or none in either. -/
  named? : ∀ {a b}, R a b → ∀ name, TypeArena.named? a name = TypeArena.named? b name

namespace TypeReader

variable {A B : Type} {R : A → B → Prop} {α β : Type}

/-- On related arenas the steps answer the same, or both fail, and leave related arenas.  It is a
judgment on the readers, so it is proved by following how they are made. -/
def Tracks (R : A → B → Prop) (left : TypeReader A α) (right : TypeReader B α) : Prop :=
  ∀ ⦃a b⦄, R a b → ∀ text, R (left a text).1 (right b text).1
    ∧ (left a text).2 = (right b text).2

namespace Tracks

theorem pure (value : α) : Tracks R (Pure.pure value) (Pure.pure value) :=
  fun _ _ related _ => ⟨related, rfl⟩

theorem fail : Tracks R (TypeReader.fail : TypeReader A α) TypeReader.fail :=
  fun _ _ related _ => ⟨related, rfl⟩

theorem bind {left : TypeReader A α} {right : TypeReader B α} {next : α → TypeReader A β}
    {next' : α → TypeReader B β} (first : Tracks R left right)
    (second : ∀ value, Tracks R (next value) (next' value)) :
    Tracks R (left >>= next) (right >>= next') := by
  intro a b related text
  have both := first related text
  simp only [Bind.bind]
  generalize left a text = here, right b text = there at both
  obtain ⟨after, answer⟩ := here
  obtain ⟨after', _⟩ := there
  obtain ⟨related, rfl⟩ := both
  cases answer with
  | none => exact ⟨related, rfl⟩
  | some taken => exact second taken.1 related taken.2

theorem ite {condition : Prop} [Decidable condition] {left other : TypeReader A α}
    {right other' : TypeReader B α} (yes : Tracks R left right) (no : Tracks R other other') :
    Tracks R (if condition then left else other) (if condition then right else other') := by
  split
  · exact yes
  · exact no

end Tracks

theorem tracks_require (value : Option α) :
    Tracks R (require value : TypeReader A α) (require value) := by
  cases value with
  | none => exact .fail
  | some value => exact .pure value

/-! ### Words and lists

These steps do not even look at the arena. -/

theorem tracks_take? (token : String) :
    Tracks R (take? token : TypeReader A Bool) (take? token) := by
  intro a b related text
  rw [take?, take?]
  split
  · exact ⟨related, rfl⟩
  · exact ⟨related, rfl⟩

theorem tracks_expect (token : String) :
    Tracks R (expect token : TypeReader A Unit) (expect token) :=
  (tracks_take? token).bind fun _ => .ite .fail (.pure _)

theorem tracks_word : Tracks R (word : TypeReader A (List Char)) word :=
  fun _ _ related _ => ⟨related, rfl⟩

theorem tracks_number (limit : Nat) :
    Tracks R (number limit : TypeReader A Nat) (number limit) :=
  tracks_word.bind fun _ => tracks_require _

/-- An alternative that begins with a token. -/
theorem tracks_ifTake {left other : TypeReader A α} {right other' : TypeReader B α}
    (token : String) (takes : Tracks R left right) (passes : Tracks R other other') :
    Tracks R (do if ← take? token then left else other)
      (do if ← take? token then right else other') :=
  (tracks_take? token).bind fun _ => .ite takes passes

variable {item : TypeReader A TypeId} {item' : TypeReader B TypeId} (tracks : Tracks R item item')
include tracks

/-- By induction on the turns that are left: a list is read item by item, and each item is read in
step. -/
theorem tracks_listItems (close : String) (turns : Nat) (items : List TypeId) (vararg : Bool) :
    Tracks R (listItems item close turns items vararg)
      (listItems item' close turns items vararg) := by
  induction turns generalizing items vararg with
  | zero => exact .fail
  | succ turns ih =>
    have rest (items : List TypeId) (vararg : Bool) : Tracks R
        (do if ← take? close then return (items, vararg)
            expect ","
            listItems item close turns items vararg)
        (do if ← take? close then return (items, vararg)
            expect ","
            listItems item' close turns items vararg) :=
      tracks_ifTake close (.pure _) ((tracks_expect ",").bind fun _ => ih items vararg)
    rw [listItems, listItems]
    refine (tracks_take? "...").bind fun dots => ?_
    cases dots with
    | true => exact rest items true
    | false => exact tracks.bind fun id => rest (items ++ [id]) vararg

theorem tracks_list (close : String) : Tracks R (list item close) (list item' close) :=
  tracks_ifTake close (.pure _) fun _ _ related text =>
    tracks_listItems tracks close (text.length + 1) [] false related text

omit tracks

/-! ### Types -/

variable [TypeArena A] [TypeArena B] (alike : TypeArena.Alike R)
include alike

theorem tracks_interning (shape : TypeShape) :
    Tracks R (interning shape : TypeReader A TypeId) (interning shape) := by
  intro a b related text
  obtain ⟨same, kept⟩ := alike.intern related shape
  exact ⟨kept, congrArg (fun id => some (id, text)) same⟩

theorem tracks_declared (name : String) :
    Tracks R (declared name : TypeReader A TypeId) (declared name) :=
  fun _ _ related text =>
    ⟨related, congrArg (Option.map fun id => (id, text)) (alike.named? related name)⟩

theorem tracks_ofWord (chars : List Char) :
    Tracks R (ofWord chars : TypeReader A TypeId) (ofWord chars) := by
  unfold ofWord
  split
  · exact tracks_interning alike _
  · split
    · exact (tracks_require _).bind fun bits => tracks_interning alike _
    · exact .fail

include tracks

/-- Every way a type can begin, with the readers of its parts in step. -/
theorem tracks_base : Tracks R (base item) (base item') := by
  rw [base, base]
  refine tracks_ifTake _ ((tracks_list tracks _).bind fun _ => tracks_interning alike _) ?_
  refine tracks_ifTake _ ((tracks_list tracks _).bind fun _ => tracks_interning alike _) ?_
  refine tracks_ifTake _ ?array (tracks_ifTake _ ?named ?other)
  case array =>
    have elem (length : Nat) : Tracks R
        (do let elem ← item
            expect "]"
            interning (.array elem (UInt64.ofNat length)))
        (do let elem ← item'
            expect "]"
            interning (.array elem (UInt64.ofNat length))) :=
      tracks.bind fun _ => (tracks_expect "]").bind fun _ => tracks_interning alike _
    exact (tracks_number _).bind fun length => tracks_word.bind fun _ =>
      .ite (.bind .fail fun _ => elem length) (elem length)
  case named => exact tracks_word.bind fun _ => tracks_declared alike _
  case other =>
    refine tracks_word.bind fun name => .ite (.pure _) (.ite ?_ (tracks_ofWord alike name))
    refine tracks_ifTake _ ?_ (.pure _)
    exact (tracks_number _).bind fun _ => (tracks_require _).bind fun _ =>
      (tracks_expect ")").bind fun _ => tracks_interning alike _

theorem tracks_parameterLists (turns : Nat) (ret : TypeId) :
    Tracks R (parameterLists item turns ret) (parameterLists item' turns ret) := by
  induction turns generalizing ret with
  | zero => exact .fail
  | succ turns ih =>
    rw [parameterLists, parameterLists]
    exact tracks_ifTake "(" ((tracks_list tracks ")").bind fun _ =>
      (tracks_interning alike _).bind fun ret => ih ret) (.pure ret)

omit tracks

theorem tracks_typeWithin (depth : Nat) :
    Tracks R (typeWithin depth : TypeReader A TypeId) (typeWithin depth) := by
  induction depth with
  | zero => exact .fail
  | succ depth ih =>
    exact (tracks_base ih alike).bind fun ret _ _ related text =>
      tracks_parameterLists ih alike (text.length + 1) ret related text

/-- **A text is read alike** into arenas that answer alike, whether it is a type or not. -/
theorem readText_tracks {a : A} {b : B} (related : R a b) (text : List Char) :
    R (TypeArena.readText a text).1 (TypeArena.readText b text).1
      ∧ (TypeArena.readText a text).2 = (TypeArena.readText b text).2 := by
  have both := tracks_typeWithin alike (text.length + 1) related text
  simp only [TypeArena.readText, TypeArena.read]
  generalize typeWithin (text.length + 1) a text = here,
    typeWithin (text.length + 1) b text = there at both
  obtain ⟨after, answer⟩ := here
  obtain ⟨after', _⟩ := there
  obtain ⟨related, rfl⟩ := both
  cases answer with
  | none => exact ⟨related, rfl⟩
  | some taken => exact ⟨related, rfl⟩

end TypeReader

/-! ## Calls in a row -/

/-- What calls answer one after the other, and the state they leave. -/
def performAll {State Call Answer : Type} (perform : State → Call → Answer × State) :
    State → List Call → List Answer × State
  | state, [] => ([], state)
  | state, call :: calls =>
    let (answer, state) := perform state call
    let (answers, state) := performAll perform state calls
    (answer :: answers, state)

/-- States that every call answers and leaves alike are answered and left alike by all of them. -/
theorem performAll_related {State Other Call Answer : Type} {R : State → Other → Prop}
    {perform : State → Call → Answer × State} {perform' : Other → Call → Answer × Other}
    (step : ∀ {state other}, R state other → ∀ call,
      (perform state call).1 = (perform' other call).1
        ∧ R (perform state call).2 (perform' other call).2)
    {state : State} {other : Other} (related : R state other) (calls : List Call) :
    (performAll perform state calls).1 = (performAll perform' other calls).1
      ∧ R (performAll perform state calls).2 (performAll perform' other calls).2 := by
  induction calls generalizing state other with
  | nil => exact ⟨rfl, related⟩
  | cons call calls ih =>
    obtain ⟨answer, related⟩ := step related call
    obtain ⟨answers, related⟩ := ih related
    exact ⟨congrArg₂ List.cons answer answers, related⟩

/-- A call that changes a type arena. -/
inductive TypeCall where
  /-- Intern a shape, or declare a struct, which is to intern one without a body. -/
  | intern (shape : TypeShape)
  /-- Give a named struct a body. -/
  | setStructBody (id : TypeId) (fields : List TypeId) (packed : Bool)
  /-- Read a text as a type, whether or not it is one. -/
  | readText (text : List Char)

/-- What a call answers, and the arena it leaves.  A body that is refused leaves the arena as it
was; a text that is no type leaves the types that were complete before the text went wrong. -/
def Types.perform (types : Types) : TypeCall → Except ProgramError TypeId × Types
  | .intern shape => (.ok (types.intern shape).1, (types.intern shape).2)
  | .setStructBody id fields packed =>
    match types.setStructBody id fields packed with
    | .ok after => (.ok id, after)
    | .error error => (.error error, types)
  | .readText text => ((types.readText text).2, (types.readText text).1)

/-- The same calls on an arena with maps. -/
def IndexedTypes.perform (indexed : IndexedTypes) :
    TypeCall → Except ProgramError TypeId × IndexedTypes
  | .intern shape => (.ok (indexed.intern shape).1, (indexed.intern shape).2)
  | .setStructBody id fields packed =>
    match indexed.setStructBody id fields packed with
    | .ok after => (.ok id, after)
    | .error error => (.error error, indexed)
  | .readText text => ((TypeArena.readText indexed text).2, (TypeArena.readText indexed text).1)

namespace IndexedTypes

/-- An arena with maps that agree, and the same entries without them. -/
def Indexes (indexed : IndexedTypes) (types : Types) : Prop :=
  indexed.types = types ∧ indexed.Agrees

theorem alike_indexes : TypeArena.Alike Indexes where
  intern := by
    rintro indexed _ ⟨rfl, agrees⟩ shape
    obtain ⟨same, entries, kept⟩ := agrees.intern shape
    exact ⟨same, entries, kept⟩
  named? := by
    rintro indexed _ ⟨rfl, agrees⟩ name
    exact agrees.lookup_eq_named? name

/-- **One call** is answered alike, and the maps agree with what it leaves. -/
theorem Indexes.perform {indexed : IndexedTypes} {types : Types} (indexes : indexed.Indexes types)
    (call : TypeCall) : (indexed.perform call).1 = (types.perform call).1
      ∧ (indexed.perform call).2.Indexes (types.perform call).2 := by
  cases call with
  | intern shape =>
    obtain ⟨same, kept⟩ := alike_indexes.intern indexes shape
    exact ⟨congrArg Except.ok same, kept⟩
  | readText text =>
    obtain ⟨kept, same⟩ := TypeReader.readText_tracks alike_indexes indexes text
    exact ⟨same, kept⟩
  | setStructBody id fields packed =>
    obtain ⟨rfl, agrees⟩ := indexes
    rw [IndexedTypes.perform, Types.perform, IndexedTypes.setStructBody]
    cases run : indexed.types.setStructBody id fields packed with
    | ok after => exact ⟨rfl, rfl, agrees.setStructBody run⟩
    | error error => exact ⟨rfl, rfl, agrees⟩

/-- **Any calls** are answered alike, and the maps agree with what they leave.  By induction on the
calls; the answers are compared as well as the arenas. -/
theorem Indexes.performAll {indexed : IndexedTypes} {types : Types}
    (indexes : indexed.Indexes types) (calls : List TypeCall) :
    (IrStream.performAll IndexedTypes.perform indexed calls).1
        = (IrStream.performAll Types.perform types calls).1
      ∧ (IrStream.performAll IndexedTypes.perform indexed calls).2.Indexes
        (IrStream.performAll Types.perform types calls).2 :=
  performAll_related Indexes.perform indexes calls

/-- The six basic types are entered like any other. -/
theorem indexes_initial : initial.Indexes Types.initial := by
  have each (shapes : List TypeShape) : ∀ {indexed types}, Indexes indexed types →
      Indexes (shapes.foldl (fun indexed shape => (indexed.intern shape).2) indexed)
        (shapes.foldl (fun types shape => (types.intern shape).2) types) := by
    induction shapes with
    | nil => exact id
    | cons shape shapes ih => exact fun indexes => ih (alike_indexes.intern indexes shape).2
  have filled := each Types.initial.shapes.toList ⟨rfl, agrees_empty⟩
  have same : Types.initial.shapes.toList.foldl (fun types shape => (types.intern shape).2) ⟨#[]⟩
      = Types.initial := by decide +kernel
  rw [Array.foldl_toList] at filled
  exact same ▸ filled

end IndexedTypes

/-! ## Constants

Every constant is its own key, and no constant is ever replaced. -/

/-- A constant arena with a map of the constants. -/
structure IndexedConstants where
  /-- The constants by their handles. -/
  constants : Constants
  /-- The handle of each constant, by the constant. -/
  handles : List (Constant × ConstId)

namespace IndexedConstants

def empty : IndexedConstants :=
  ⟨.empty, []⟩

/-- The handle of a constant, and the arena that has it. -/
def intern (indexed : IndexedConstants) (constant : Constant) : ConstId × IndexedConstants :=
  match indexed.handles.lookup constant with
  | some id => (id, indexed)
  | none =>
    let id : ConstId := ⟨indexed.constants.size⟩
    (id, ⟨⟨indexed.constants.entries.push constant⟩, (constant, id) :: indexed.handles⟩)

/-- The map says what is in the arena, which has the entries of `constants`. -/
def Indexes (indexed : IndexedConstants) (constants : Constants) : Prop :=
  indexed.constants = constants
    ∧ IsIndex ConstId.mk some indexed.handles indexed.constants.entries

theorem indexes_empty : empty.Indexes .empty :=
  ⟨rfl, isIndex_empty⟩

variable {indexed : IndexedConstants} {constants : Constants}

/-- **Interning** answers the same handle, makes the same entries, and keeps the map. -/
theorem Indexes.intern (indexes : indexed.Indexes constants) (constant : Constant) :
    (indexed.intern constant).1 = (constants.intern constant).1
      ∧ (indexed.intern constant).2.Indexes (constants.intern constant).2 := by
  obtain ⟨rfl, index⟩ := indexes
  have found : indexed.handles.lookup constant = indexed.constants.find? constant := by
    rw [index constant, Constants.find?]
    simp only [Option.some_beq_some]
  rw [IndexedConstants.intern, Constants.intern, ← found]
  cases known : indexed.handles.lookup constant with
  | some id => exact ⟨rfl, rfl, index⟩
  | none => exact ⟨rfl, rfl, index.push_keyed rfl known⟩

/-- **Any constants** get the same handles, and the map agrees with what is left. -/
theorem Indexes.internAll (indexes : indexed.Indexes constants) (interned : List Constant) :
    (performAll IndexedConstants.intern indexed interned).1
        = (performAll Constants.intern constants interned).1
      ∧ (performAll IndexedConstants.intern indexed interned).2.Indexes
        (performAll Constants.intern constants interned).2 :=
  performAll_related Indexes.intern indexes interned

end IndexedConstants

/-! ## The arenas of programs -/

/-- The state after one call more. -/
theorem performAll_append {State Call Answer : Type} (perform : State → Call → Answer × State)
    (state : State) (calls : List Call) (last : Call) :
    (performAll perform state (calls ++ [last])).2
      = (perform (performAll perform state calls).2 last).2 := by
  induction calls generalizing state with
  | nil => rfl
  | cons call calls ih => exact ih (perform state call).2

namespace Program

variable {program after : Program}

/-- An operation makes at most one call to each of the arenas.  Some make none, and those that read
a text make one that interns several shapes. -/
theorem Step.arenas (step : Step program after) :
    (after.types = program.types ∨ ∃ call, after.types = (program.types.perform call).2)
      ∧ (after.constants = program.constants
        ∨ ∃ constant, after.constants = (program.constants.intern constant).2) := by
  cases step with
  | setLayout => exact ⟨.inl rfl, .inl rfl⟩
  | types step =>
    refine ⟨.inr ?_, .inl rfl⟩
    cases step with
    | intern shape => exact ⟨.intern shape, rfl⟩
    | readText text => exact ⟨.readText text, rfl⟩
    | @setStructBody _ id fields packed parts run =>
      exact ⟨.setStructBody id fields packed, by rw [Types.perform, run]⟩
  | @internConstant constant => exact ⟨.inl rfl, .inr ⟨constant, rfl⟩⟩
  | constInt run =>
    obtain ⟨bits, -, same⟩ := constInt_eq_ok run
    cases same
    exact ⟨.inl rfl, .inr ⟨_, rfl⟩⟩
  | addGlobal inRange run =>
    obtain ⟨-, rfl⟩ := addGlobal_eq_ok run
    exact ⟨.inl rfl, .inl rfl⟩
  | setInitializer inRange run =>
    obtain ⟨global, -, rfl⟩ := setInitializer_eq_ok run
    exact ⟨.inl rfl, .inl rfl⟩
  | addFunction run =>
    obtain ⟨params, ret, vararg, -, -, rfl⟩ := addFunction_eq_ok run
    exact ⟨.inl rfl, .inl rfl⟩
  | setArgName run =>
    obtain ⟨arg, -, rfl⟩ := setArgName_eq_ok run
    exact ⟨.inl rfl, .inl rfl⟩
  | addBlock run =>
    obtain ⟨function, -, -, rfl⟩ := addBlock_eq_ok run
    exact ⟨.inl rfl, .inl rfl⟩
  | addInst kindInRange typeInRange inRange run =>
    obtain ⟨owner, -, -, rfl⟩ := addInst_eq_ok run
    exact ⟨.inl rfl, .inl rfl⟩
  | setOperands inRange run =>
    obtain ⟨inst, -, rfl⟩ := setOperands_eq_ok run
    exact ⟨.inl rfl, .inl rfl⟩
  | setInstType inRange run =>
    obtain ⟨inst, -, rfl⟩ := setInstType_eq_ok run
    exact ⟨.inl rfl, .inl rfl⟩

/-- **The arenas of a program** are those that some calls make of the ones that every program begins
with.  Made with maps, they have the same entries, and the maps agree with them. -/
theorem Built.exists_indexed (built : program.Built) : ∃ calls interned,
    (performAll IndexedTypes.perform .initial calls).2.Indexes program.types
      ∧ (performAll IndexedConstants.intern .empty interned).2.Indexes program.constants := by
  induction built with
  | empty layout => exact ⟨[], [], IndexedTypes.indexes_initial, IndexedConstants.indexes_empty⟩
  | @step program after built step ih =>
    obtain ⟨calls, interned, types, constants⟩ := ih
    obtain ⟨typeCall, constantCall⟩ := step.arenas
    have laterTypes : ∃ calls, (performAll IndexedTypes.perform .initial calls).2.Indexes
        after.types := by
      rcases typeCall with same | ⟨call, same⟩
      · exact ⟨calls, same ▸ types⟩
      · refine ⟨calls ++ [call], ?_⟩
        rw [performAll_append, same]
        exact (types.perform call).2
    have laterConstants : ∃ interned,
        (performAll IndexedConstants.intern .empty interned).2.Indexes after.constants := by
      rcases constantCall with same | ⟨constant, same⟩
      · exact ⟨interned, same ▸ constants⟩
      · refine ⟨interned ++ [constant], ?_⟩
        rw [performAll_append, same]
        exact (constants.intern constant).2
    obtain ⟨calls, types⟩ := laterTypes
    obtain ⟨interned, constants⟩ := laterConstants
    exact ⟨calls, interned, types, constants⟩

end Program

end IrStream
