import IrStream.Proofs.Types.Legible

/-!
# Types with the same term

In an arena whose literals are known no two handles have the same term
(`Types.Regular.eq_of_term_eq`), so handles of two arenas that have the same term stand for each
other one to one.  What they stand for is alike as well: either both have the same name, or both
have none, and then their parts have the same terms (`Types.SameTerm.shapes`).

Terms make it possible to compare arenas that have nothing to do with each other.  Two programs of
one document in two orders have no handle in common, and no record of which handle came from where;
but a type that is written somewhere in the document has its term in both.  That the comparison is
one to one is what the uniqueness of terms gives.

The proof of uniqueness is by induction on the term.  Two handles with the same term have shapes
with the same name, and then they are the same entry because a name is stored once; or with parts of
the same terms, and then the parts are the same handles by induction, so the shapes are equal, and
no shape without a name is stored twice.

## Statements

* `alike_of_termWith_eq`: shapes without names and with the same term are alike, down to the terms
  of their parts.
* `Regular.eq_of_term_eq`: **no two handles have the same term.**
* `SameTerm.shapes`: what two handles with the same term stand for, in two arenas.

The converse of the second statement holds by definition, so a handle and its term determine each
other.  That is why terms can be used wherever handles are too arbitrary to be compared.
-/

set_option autoImplicit false

namespace IrStream

theorem forall₂_imp_of_mem {α β : Type} {R S : α → β → Prop} {as : List α} {bs : List β}
    (related : List.Forall₂ R as bs) (h : ∀ a ∈ as, ∀ b ∈ bs, R a b → S a b) :
    List.Forall₂ S as bs :=
  List.forall₂_iff_zip.mpr ⟨related.length_eq, fun mem =>
    h _ (List.of_mem_zip mem).1 _ (List.of_mem_zip mem).2 ((List.forall₂_iff_zip.mp related).2 mem)⟩

/-- What a readable term is made of is readable. -/
theorem TypeTerm.Readable.children {shape : TypeShape} {term : TypeId → TypeTerm}
    (readable : (shape.termWith term).Readable) (unnamed : shape.structName? = none) :
    ∀ child ∈ shape.children, (term child).Readable := by
  cases shape with
  | func params ret vararg =>
    cases readable with
    | func spelled returned =>
      exact List.forall_mem_cons.mpr ⟨returned, List.forall_mem_map.mp spelled⟩
  | struct shape =>
    obtain ⟨name, fields, packed, hasBody⟩ := shape
    cases name with
    | some name => cases unnamed
    | none =>
      cases readable with
      | struct spelled => exact List.forall_mem_map.mp spelled
  | array elem length =>
    cases readable with
    | array spelled => exact List.forall_mem_singleton.mpr spelled
  | _ => exact List.forall_mem_nil _

namespace TypeShape

variable {shape other : TypeShape} {first second : TypeId → TypeTerm}

/-- The term of a shape says whether the shape has a name, and which one. -/
theorem structName?_of_termWith_eq (same : other.termWith second = shape.termWith first) :
    other.structName? = shape.structName? := by
  cases shape with
  | struct shape =>
    obtain ⟨name, fields, packed, hasBody⟩ := shape
    cases other with
    | struct other =>
      obtain ⟨name', fields', packed', hasBody'⟩ := other
      cases name <;> cases name' <;> simp_all [termWith, structName?]
    | _ => cases name <;> cases same
  | _ =>
    cases other with
    | struct other =>
      obtain ⟨name', fields', packed', hasBody'⟩ := other
      cases name' <;> cases same
    | _ => rfl

/-- Lists of parts with the same terms. -/
theorem forall₂_of_map_eq {ids others : List TypeId} (same : others.map second = ids.map first) :
    List.Forall₂ (fun id other => second other = first id) ids others := by
  have equal : List.Forall₂ Eq (ids.map first) (others.map second) :=
    List.forall₂_eq_eq_eq ▸ same.symm
  rw [List.forall₂_map_left_iff, List.forall₂_map_right_iff] at equal
  exact equal.imp fun _ _ => Eq.symm

theorem termWith_struct {body : StructShape} (literal : (struct body).IsLiteral) :
    (struct body).termWith first = .struct (body.fields.map first) body.packed := by
  obtain ⟨_, fields, packed, _⟩ := body
  obtain ⟨rfl, rfl⟩ := literal
  rfl

/-- Literals with the same term are alike, down to the terms of their parts. -/
theorem alike_of_termWith_eq (same : other.termWith second = shape.termWith first)
    (literal : shape.IsLiteral) (literal' : other.IsLiteral) :
    shape.Alike (fun id other => second other = first id) other := by
  -- a term tells which constructor made it, except that names of structs are terms of their own
  cases shape with
  | struct shape =>
    obtain ⟨_, fields, packed, _⟩ := shape
    obtain ⟨rfl, rfl⟩ := literal
    cases other with
    | struct other =>
      obtain ⟨_, fields', packed', _⟩ := other
      obtain ⟨rfl, rfl⟩ := literal'
      simp only [termWith, TypeTerm.struct.injEq] at same
      obtain ⟨parts, rfl⟩ := same
      exact .struct none _ true (forall₂_of_map_eq parts)
    | _ => cases same
  | func params ret vararg =>
    cases other with
    | func params' ret' vararg' =>
      simp only [termWith, TypeTerm.func.injEq] at same
      obtain ⟨parameters, result, rfl⟩ := same
      exact .func _ (forall₂_of_map_eq parameters) result
    | struct other =>
      rw [termWith_struct literal'] at same
      cases same
    | _ => cases same
  | array elem length =>
    cases other with
    | array elem' length' =>
      simp only [termWith, TypeTerm.array.injEq] at same
      obtain ⟨part, rfl⟩ := same
      exact .array _ part
    | struct other =>
      rw [termWith_struct literal'] at same
      cases same
    | _ => cases same
  | _ =>
    cases other with
    | struct other =>
      rw [termWith_struct literal'] at same
      cases same
    | _ => cases same <;> constructor

/-- Only the parts of two shapes have to be related for the shapes to be alike. -/
theorem Alike.imp_of_mem {R S : TypeId → TypeId → Prop} (alike : shape.Alike R other)
    (h : ∀ a ∈ shape.children, ∀ b ∈ other.children, R a b → S a b) : shape.Alike S other := by
  cases alike with
  | void => exact .void
  | int bits => exact .int bits
  | ptr addrSpace => exact .ptr addrSpace
  | float kind => exact .float kind
  | func vararg params ret =>
    refine .func vararg (forall₂_imp_of_mem params fun a mem b mem' => ?_)
      (h _ List.mem_cons_self _ List.mem_cons_self ret)
    exact h a (List.mem_cons_of_mem _ mem) b (List.mem_cons_of_mem _ mem')
  | struct name packed hasBody fields =>
    exact .struct name packed hasBody (forall₂_imp_of_mem fields h)
  | array length elem =>
    exact .array length (h _ List.mem_cons_self _ List.mem_cons_self elem)

/-- Shapes that are alike by equality are equal. -/
theorem Alike.eq (alike : shape.Alike Eq other) : other = shape := by
  cases alike with
  | func vararg params ret =>
    rw [List.forall₂_eq_eq_eq] at params
    rw [params, ret]
  | struct name packed hasBody fields =>
    rw [List.forall₂_eq_eq_eq] at fields
    rw [fields]
  | array length elem => rw [elem]
  | _ => rfl

end TypeShape

namespace Types

variable {types left right : Types} {id other : TypeId} {shape shape' : TypeShape}

/-- **No two handles have the same term.** -/
theorem Regular.eq_of_term_eq (regular : types.Regular) (known : types.LiteralsKnown)
    (has : types.Has id) (has' : types.Has other) (same : types.term other = types.term id) :
    other = id := by
  -- the parts of a literal have smaller handles, so they are told apart by the induction
  induction bound : id.index using Nat.strong_induction_on generalizing id other with
  | _ index ih =>
    subst bound
    obtain ⟨shape, found⟩ := has.exists_shape
    obtain ⟨shape', found'⟩ := has'.exists_shape
    rw [regular.layered.term_of_shape found, regular.layered.term_of_shape found'] at same
    have names := TypeShape.structName?_of_termWith_eq same
    cases named : shape.structName? with
    | some name =>
      rw [named] at names
      exact Option.some.inj ((regular.names found' names).symm.trans (regular.names found named))
    | none =>
      rw [named] at names
      have alike := TypeShape.alike_of_termWith_eq same (known found named) (known found' names)
      have equal : shape.Alike Eq shape' := alike.imp_of_mem fun child mem child' mem' same =>
        (ih child.index (regular.layered found named child mem)
          (regular.complete found child mem) (regular.complete found' child' mem') same rfl).symm
      cases equal.eq
      exact regular.canonical found' found names

/-- Types with the same term have the same name, or both have none and are alike. -/
theorem SameTerm.shapes (same : SameTerm left right id other) (twins : left.Twins right)
    (known : left.LiteralsKnown) (known' : right.LiteralsKnown)
    (found : left.shape id = .ok shape) (found' : right.shape other = .ok shape') :
    shape'.structName? = shape.structName?
      ∧ (shape.structName? = none → shape.Alike (SameTerm left right) shape') := by
  have terms := same.same
  have readable := same.readable
  rw [twins.regular.layered.term_of_shape found] at terms readable
  rw [twins.regular'.layered.term_of_shape found'] at terms
  have names := TypeShape.structName?_of_termWith_eq terms
  refine ⟨names, fun unnamed => ?_⟩
  rw [unnamed] at names
  refine (TypeShape.alike_of_termWith_eq terms (known found unnamed)
    (known' found' names)).imp_of_mem fun child mem child' mem' same => ?_
  exact ⟨twins.regular.complete found child mem, twins.regular'.complete found' child' mem', same,
    readable.children unnamed child mem⟩

end Types

end IrStream
