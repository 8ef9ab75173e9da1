import IrStream.Types.Arena

/-!
# Types as text

Types are written the way assembly listings write them: `i32`, `ptr addrspace(1)`, `[4 x i8]`,
`{ i32, ptr }`, `<{ i8, i32 }>`, `void (ptr, ...)`, and a named struct as `%` and its name.

A named struct is written without its fields, so a text is finite although types may reach
themselves: below an unnamed type there are only types that were interned before it.
-/

set_option autoImplicit false

namespace IrStream

namespace Types

/-- The text of a handle outside the arena. -/
def badText (id : TypeId) : String :=
  "<bad type " ++ toString id.index ++ ">"

/-- Text between `{` and `}` of a struct without a name, and around it the marks of a packed
one. -/
def structText (fields : List String) (packed : Bool) : String :=
  let body :=
    match fields with
    | [] => "\x7b\x7d"
    | fields => "\x7b " ++ commaSeparated fields ++ " \x7d"
  if packed then "<" ++ body ++ ">" else body

/-- Text between the parentheses of a function type. -/
def paramsText (params : List String) (vararg : Bool) : String :=
  commaSeparated (if vararg then params ++ ["..."] else params)

/-- Text of a type with at most `depth` layers of unnamed types. -/
def textWithin (types : Types) : (depth : Nat) → TypeId → String
  | 0, id => badText id
  | depth + 1, id =>
    match types.shape? id with
    | none => badText id
    | some .void => "void"
    | some (.int bits) => "i" ++ toString bits.toNat
    | some (.ptr addrSpace) =>
      if addrSpace = 0 then "ptr" else "ptr addrspace(" ++ toString addrSpace.toNat ++ ")"
    | some (.float kind) => kind.name
    | some (.func params ret vararg) =>
      types.textWithin depth ret ++ " ("
        ++ paramsText (params.map (types.textWithin depth)) vararg ++ ")"
    | some (.struct shape) =>
      match shape.name with
      | some name => "%" ++ name
      | none => structText (shape.fields.map (types.textWithin depth)) shape.packed
    | some (.array elem length) =>
      "[" ++ toString length.toNat ++ " x " ++ types.textWithin depth elem ++ "]"

/-- Text of a type.  A handle outside the arena is written `<bad type N>`. -/
def text (types : Types) (id : TypeId) : String :=
  types.textWithin (types.size + 1) id

end Types

end IrStream
