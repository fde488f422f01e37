import AmLang.Emit.State
/-!
# Emitting conversions, calls of the runtime, and arithmetic

The pieces of expression emission that do not look into subexpressions.

| From              | To                | C                                  |
|-------------------|-------------------|------------------------------------|
| `null`            | `T?`              | `AML_NONE(K)` or `NULL`            |
| primitive         | primitive         | a C cast                           |
| primitive         | `K?`              | `AML_SOME(K, v)`                   |
| `K?`              | primitive         | `v.value` (after narrowing)        |
| primitive, `K?`   | reference         | `aml_box_*`, owned                 |
| reference         | primitive, `K?`   | `aml_unbox_*`, throws on mismatch  |
| reference         | reference         | unchanged                          |

Integer arithmetic wraps: it is computed in an unsigned type of at least 32 bits and converted
back. Division and remainder check the divisor first and map `MIN / -1` to the wrapped result.
-/

namespace AmLang

namespace EmitM

/-- The runtime's family of a primitive for boxing and formatting. -/
def boxSuffix (k : Prim) : String :=
  if k.isSigned then "int"
  else if k.isUnsigned then "uint"
  else if k.isFloating then "double"
  else if k == .bool then "bool"
  else "char"

/-- The C type a boxing function of a family takes. -/
def boxArgType (k : Prim) : String :=
  match boxSuffix k with
  | "int" => "int64_t"
  | "uint" => "uint64_t"
  | "double" => "double"
  | "bool" => "bool"
  | _ => "uint16_t"

/-- A primitive value boxed into an owned object; a nullable one gives null when empty. -/
def box (value : String) (t : Ty) : EmitM String := do
  let k := t.prim?.getD .int
  let call := "aml_box_" ++ boxSuffix k
  let arg := "(" ++ boxArgType k ++ ")"
  let temp ← ownedTemp
  if t.nullable then
    emitLine (temp ++ " = " ++ value ++ ".has ? " ++ call ++ "(" ++ arg ++ value ++ ".value) : NULL;")
  else emitLine (temp ++ " = " ++ call ++ "(" ++ arg ++ "(" ++ value ++ "));")
  pure temp

/-- An object unboxed into a primitive; a nullable target takes null as empty. A mismatch
throws. -/
def unbox (value : String) (target : Ty) : EmitM String := do
  let k := target.prim?.getD .int
  let call := "(" ++ k.cType ++ ")aml_unbox_" ++ boxSuffix k ++ "(" ++ value ++ ")"
  let result ← valueTemp target
  if !target.nullable then
    emitLine (result ++ " = " ++ call ++ ";")
    emitPendingCheck
    return result
  emitLine ("if (" ++ value ++ " != NULL) \x7b")
  pushIndent
  emitLine (result ++ " = AML_SOME(" ++ k.name ++ ", " ++ call ++ ");")
  emitPendingCheck
  popIndent
  emitLine "\x7d else \x7b"
  emitLine ("    " ++ result ++ " = AML_NONE(" ++ k.name ++ ");")
  emitLine "\x7d"
  pure result

/-- Converts `value` of type `source` to `target`. -/
def coerce (value : String) (source target : Ty) : EmitM String := do
  if source.equal target || target.isUnit || source.isNever then return value
  if source.isNull then return target.zeroValue
  match source, target with
  | .prim a an, .prim b bn =>
    let toC := b.cType
    let same := a == b
    if !an && !bn then pure (if same then value else "((" ++ toC ++ ")(" ++ value ++ "))")
    else if !an then pure ("AML_SOME(" ++ b.name ++ ", (" ++ toC ++ ")(" ++ value ++ "))")
    else if !bn then pure (if same then value ++ ".value" else "((" ++ toC ++ ")" ++ value ++ ".value)")
    else if same then pure value
    else
      let result ← valueTemp target
      emitLine (result ++ " = " ++ value ++ ".has ? AML_SOME(" ++ b.name ++ ", (" ++ toC ++ ")" ++
        value ++ ".value) : AML_NONE(" ++ b.name ++ ");")
      pure result
  | .prim .., _ => box value source
  | _, .prim .. => unbox value target
  | _, _ => pure value

/-- Binds a call's result to a temporary (owned for references) and leaves when it threw;
nothing for `Unit` and `Never`. -/
def finishCall (call : String) (result : Ty) (canThrow : Bool) : EmitM String := do
  let value ← if result.isUnit || result.isNever then do
      emitLine (call ++ ";")
      pure ""
    else if result.isReference then do
      let v ← ownedTemp
      emitLine (v ++ " = " ++ call ++ ";")
      pure v
    else do
      let v ← valueTemp result
      emitLine (v ++ " = " ++ call ++ ";")
      pure v
  if canThrow then emitPendingCheck
  pure value

/-- Arguments after an optional first one, joined by commas. -/
def joinArgs (first : String) (args : List String) : String :=
  ", ".intercalate ((if first.isEmpty then [] else [first]) ++ args)

/-- The unsigned type integer arithmetic of a kind is computed in. -/
def wrapType (k : Prim) : String := if k == .long || k == .ulong then "uint64_t" else "uint32_t"

/-- Arithmetic on two converted operands of type `t`. -/
def arithmetic (op : BinaryOp) (left right : String) (t : Ty) : EmitM String := do
  let c := t.cType
  let k := t.prim?.getD .int
  if k.isFloating then
    if op == .mod then
      return (if k == .float then "fmodf(" else "fmod(") ++ left ++ ", " ++ right ++ ")"
    return "(" ++ left ++ " " ++ op.symbol ++ " " ++ right ++ ")"
  let wide := wrapType k
  if op != .div && op != .mod then
    return "((" ++ c ++ ")((" ++ wide ++ ")(" ++ left ++ ") " ++ op.symbol ++ " (" ++ wide ++ ")(" ++
      right ++ ")))"
  let divisor ← valueTemp t
  emitLine (divisor ++ " = " ++ right ++ ";")
  emitLine ("if (!aml_check_divisor((int64_t)" ++ divisor ++ ")) \x7b")
  pushIndent
  emitUnwind
  popIndent
  emitLine "\x7d"
  if !k.isSigned then return "(" ++ left ++ " " ++ op.symbol ++ " " ++ divisor ++ ")"
  if op == .div then
    return "(" ++ divisor ++ " == -1 ? (" ++ c ++ ")(0u - (" ++ wide ++ ")(" ++ left ++ ")) : (" ++ c ++
      ")(" ++ left ++ " / " ++ divisor ++ "))"
  pure ("(" ++ divisor ++ " == -1 ? (" ++ c ++ ")0 : (" ++ c ++ ")(" ++ left ++ " % " ++ divisor ++ "))")

/-- The negation of a converted operand of type `t`: `0u - v` in the unsigned type of an integer
kind, converted back. -/
def negation (t : Ty) (v : String) : String :=
  let k := t.prim?.getD .int
  if k.isFloating then "(-" ++ v ++ ")"
  else "((" ++ t.cType ++ ")(0u - (" ++ wrapType k ++ ")(" ++ v ++ ")))"

/-- The runtime suffix of a primitive family in formatting and comparison functions. -/
def familySuffix : StringifyKind → String
  | .signed => "int"
  | .unsigned => "uint"
  | .float => "double"
  | .bool => "bool"
  | _ => "char"

/-- The C type the runtime takes for a primitive family. -/
def familyArgType : StringifyKind → String
  | .signed => "int64_t"
  | .unsigned => "uint64_t"
  | .float => "double"
  | .bool => "bool"
  | _ => "uint16_t"

/-- `toString`, `equals` or `hashCode` of a non-null primitive receiver. -/
def plainPrimitiveMethod (name receiver : String) (receiverType : Ty) (args : List String) :
    EmitM String := do
  let family := StringifyKind.ofType receiverType
  let converted := "(" ++ familyArgType family ++ ")(" ++ receiver ++ ")"
  if name == "toString" then
    let result ← ownedTemp
    emitLine (result ++ " = aml_string_from_" ++ familySuffix family ++ "(" ++ converted ++ ");")
    return result
  if name == "equals" then
    return "aml_prim_equals_" ++ familySuffix family ++ "(" ++ converted ++ ", " ++ args.headD "" ++ ")"
  match family with
  | .signed | .unsigned => pure ("aml_hash_int((int64_t)(" ++ receiver ++ "))")
  | .float => pure ("aml_hash_double((double)(" ++ receiver ++ "))")
  | .bool => pure ("((" ++ receiver ++ ") ? 1231 : 1237)")
  | _ => pure ("((int32_t)(" ++ receiver ++ "))")

/-- A method of `Object` called on a primitive, a nullable primitive, or a generic parameter's
value that turned out to be a reference. -/
def primitiveMethod (f : FunctionId) (receiver : String) (receiverType : Ty) (args : List String) :
    EmitM String := do
  let l ← layout
  let fs := l.table.fn f
  let name := fs.name
  if receiverType.isReference then
    if name == "toString" then
      return ← finishCall ("aml_to_string(" ++ receiver ++ ")") (SymbolTable.stringType false) true
    if name == "equals" then
      return ← finishCall ("aml_equals(" ++ receiver ++ ", " ++ args.headD "" ++ ")") Ty.bool true
    let pointer := Layout.pointerType (l.signature f []) false
    return ← finishCall ("(" ++ receiver ++ " == NULL ? 0 : ((" ++ pointer ++ ")aml_vslot(" ++
      receiver ++ ", " ++ toString (fs.slot.getD 0) ++ "))(" ++ receiver ++ "))") Ty.int true
  if receiverType.isNullablePrimitive then
    let inner := receiverType.withNullable false
    if name == "equals" then
      let boxed ← box receiver receiverType
      return ← finishCall ("aml_equals(" ++ boxed ++ ", " ++ args.headD "" ++ ")") Ty.bool true
    if name == "toString" then
      let result ← ownedTemp
      emitLine ("if (" ++ receiver ++ ".has) \x7b")
      pushIndent
      let text ← plainPrimitiveMethod name (receiver ++ ".value") inner args
      emitLine (result ++ " = " ++ text ++ ";")
      emitLine (text ++ " = NULL;")
      popIndent
      emitLine "\x7d else \x7b"
      emitLine ("    " ++ result ++ " = " ++ (← stringLiteral "null") ++ ";")
      emitLine "\x7d"
      return result
    let result ← valueTemp Ty.int
    emitLine ("if (" ++ receiver ++ ".has) \x7b")
    pushIndent
    emitLine (result ++ " = " ++ (← plainPrimitiveMethod name (receiver ++ ".value") inner args) ++ ";")
    popIndent
    emitLine "\x7d"
    return result
  plainPrimitiveMethod name receiver receiverType args

/-- The C of an instance field reached through `receiver` from `object`, or the storage of a
static field or namespace variable. -/
def fieldAccess (object : String) (receiver : Option Ty) (f : FieldId) : EmitM String := do
  let l ← layout
  let fd := l.table.field f
  if fd.isStatic then return fd.cName
  let some o := fd.owner | return fd.cName
  let k := l.table.cls o
  let ownerName :=
    if k.isBuiltin || !k.isGeneric then k.cName
    else match receiver.bind fun r => Ty.ancestor l.env (r.withNullable false) o with
      | some v => l.className v.type
      | none => k.cName
  pure ("((" ++ ownerName ++ "*)" ++ object ++ ")->" ++ l.memberFieldName f)

/-- A piece of a string being built: literal text, or a value with its type. -/
structure Piece where
  text : String := ""
  expr : Option TypedExpr := none
  value : String := ""
  type : Option Ty := none

/-- Appends a value of type `t` to a string buffer, by the type's family. -/
def appendValue (buf : String) (t : Ty) (value : String) : EmitM Unit :=
  match StringifyKind.ofType t with
  | .string => emitLine ("aml_strbuf_append_string(&" ++ buf ++ ", " ++ value ++ ");")
  | .signed => emitLine ("aml_strbuf_append_int(&" ++ buf ++ ", (int64_t)(" ++ value ++ "));")
  | .unsigned => emitLine ("aml_strbuf_append_uint(&" ++ buf ++ ", (uint64_t)(" ++ value ++ "));")
  | .float => emitLine ("aml_strbuf_append_double(&" ++ buf ++ ", (double)(" ++ value ++ "));")
  | .bool => emitLine ("aml_strbuf_append_bool(&" ++ buf ++ ", " ++ value ++ ");")
  | .char => emitLine ("aml_strbuf_append_char(&" ++ buf ++ ", " ++ value ++ ");")
  | _ => pure ()

/-- Appends an evaluated piece to a string buffer; a nullable primitive appends `null` when it
is empty. -/
def appendPiece (buf : String) (p : Piece) : EmitM Unit := do
  match p.type with
  | none =>
    if !p.text.isEmpty then
      emitLine ("aml_strbuf_append_cstr(&" ++ buf ++ ", " ++ cStringLiteral p.text ++ ", " ++
        toString p.text.length ++ ");")
  | some t =>
    if t.isNullablePrimitive then
      emitLine ("if (" ++ p.value ++ ".has) \x7b")
      pushIndent
      appendValue buf (t.withNullable false) (p.value ++ ".value")
      popIndent
      emitLine "\x7d else \x7b"
      emitLine ("    aml_strbuf_append_cstr(&" ++ buf ++ ", \"null\", 4);")
      emitLine "\x7d"
    else appendValue buf t p.value

/-- A piece after its value is known: `null` becomes text, and an object becomes its owned
`toString`. -/
def settlePiece (p : Piece) : EmitM Piece := do
  match p.type with
  | none => pure p
  | some t =>
    if t.isNull then return { p with text := "null", type := none }
    if StringifyKind.ofType t == .object then
      let v ← finishCall ("aml_to_string(" ++ p.value ++ ")") (SymbolTable.stringType false) true
      return { p with value := v, type := some (SymbolTable.stringType false) }
    pure p

/-- Builds an owned string from evaluated pieces. -/
def finishString (pieces : List Piece) : EmitM String := do
  let buf ← valueTempC "aml_StrBuf" "{0}"
  emitLine ("aml_strbuf_init(&" ++ buf ++ ");")
  for p in pieces do appendPiece buf p
  let result ← ownedTemp
  emitLine (result ++ " = aml_strbuf_finish(&" ++ buf ++ ");")
  pure result

end EmitM

end AmLang
