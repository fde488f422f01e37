import AmLang.Check.Tree
import AmLang.Generic.Instances
import AmLang.Text.Bytes
/-!
# The layout of the C program

Which C definitions a program gets, which unit's file holds each, and how its entities are named
and typed in C. Every non-generic class and every instance of a generic one gets a struct and a
descriptor; every function with a body gets a definition, once per instance for generic ones;
every namespace variable and static field gets storage. Mocks are left to the unit that declares
them.

| Entity                  | C name                         |
|-------------------------|--------------------------------|
| class `App.Counter`     | `am_App_Counter`               |
| its descriptor          | `am_App_Counter__class`        |
| instance `Box<Int>`     | `am_Box__Int`                  |
| method `Box<Int>.get`   | `am_Box__Int__get`             |
| constructor number 1    | `am_App_Counter__init_1`       |
| field `count`           | `f_count`, in the struct       |
| static field, variable  | `am_App_Counter__s_max`, `am_g_App_limit` |
| local `x` numbered 7    | `l_x_7`                        |
| a unit's initializer    | `<module>__init`               |

| Type                    | C type                         |
|-------------------------|--------------------------------|
| `Unit`, `Never`         | `void`                         |
| `Int`, `Long`, …        | `int32_t`, `int64_t`, …        |
| `Bool`, `Char`          | `bool`, `uint16_t`             |
| `Int?`, any primitive   | `aml_opt_Int`                  |
| classes, arrays, lambdas | `aml_Object*`                 |
-/

namespace AmLang

/-- Everything the C of a program is generated from. -/
structure Program where
  table : SymbolTable
  instances : Instances
  units : Array CheckedUnit
  /-- The C file stem of each unit. -/
  moduleNames : Array String
  /-- The program's `main`. -/
  main : Option FunctionId
deriving Inhabited

/-- The characters of a path after its last `/` or `\`: the name of the file. -/
def fileName (path : List Char) : List Char :=
  (path.reverse.takeWhile fun c => c != '/' && c != '\\').reverse

/-- A file name without its extension: the characters before its last `.`, unless there is no
dot or the last one starts the name. -/
def dropExtension (name : List Char) : List Char :=
  let ext := name.reverse.takeWhile (· != '.')
  match name.reverse.drop ext.length with
  | _ :: front@(_ :: _) => front.reverse
  | _ => name

/-- The C file stem of a unit's path, before repeated stems are numbered: the file name without
its extension, other characters than ASCII letters and digits as `_`, `m_` before a stem that is
empty or starts with a digit, and `_mod` after the names of the fixed files. -/
def moduleStem (file : String) : String :=
  let clean := String.ofList ((dropExtension (fileName file.toList)).map fun c =>
    if c.toNat < 128 && c.isAlphanum then c else '_')
  let clean := if clean.isEmpty || (clean.toList.headD ' ').isDigit then "m_" ++ clean else clean
  if clean == "aml_program" || clean == "aml_main" || clean == "aml_runtime" then clean ++ "_mod"
  else clean

/-- The name of the `count`-th unit of a stem: the stem itself for the first, and `_2`, `_3`, …
after it for the next ones. -/
def numberedStem (stem : String) (count : Nat) : String :=
  if count == 1 then stem else stem ++ "_" ++ toString count

/-- Names the next unit, given the names so far and how many units of each stem came before. -/
def nameNext (acc : List String × List (String × Nat)) (file : String) :
    List String × List (String × Nat) :=
  let (names, seen) := acc
  let stem := moduleStem file
  let count := ((seen.find? (·.1 == stem)).map (·.2)).getD 0 + 1
  (names ++ [numberedStem stem count], (stem, count) :: seen.filter (·.1 != stem))

/-- The C file stems of units with these paths: each unit's `moduleStem`, with `_2`, `_3`, …
after the second, third, … unit of one stem. -/
def moduleNamesFor (files : List String) : List String :=
  (files.foldl nameNext ([], [])).1

/-- A class that gets a descriptor: a non-generic class or interface, or an instance of a generic
one, with what the instance puts in for the class's parameters. -/
structure EmittedClass where
  cls : ClassId
  type : Ty
  cName : String
  subst : Subst
deriving Inhabited

/-- A function that gets a definition: what its instance puts in for the parameters, and for
members the type of the receiver. -/
structure EmittedFunction where
  fn : FunctionId
  cName : String
  subst : Subst
  selfType : Option Ty
deriving Inhabited

/-- A member of a class struct: the field, its type in the instance, and its name in C. -/
structure StructMember where
  field : FieldId
  type : Ty
  name : String

/-- A function's parameter and result types in an instance, and whether it takes a receiver. -/
structure CSignature where
  params : List Ty
  result : Ty
  hasSelf : Bool

/-- The program with the definitions of each unit. -/
structure Layout where
  program : Program
  env : ClassEnv
  classes : Array (Array EmittedClass)
  functions : Array (Array EmittedFunction)
  storage : Array (Array FieldId)
deriving Inhabited

namespace Layout

/-- The symbol table. -/
def table (l : Layout) : SymbolTable := l.program.table

/-- Whether a function gets a definition: not abstract, and with a body, or native, or a
constructor made without a declaration. -/
def hasBody (f : FunctionSymbol) : Bool :=
  if f.flags.isAbstract then false
  else match f.decl with
    | none => f.flags.isConstructor
    | some d => match d.kind with
      | .function _ _ _ _ body flags => body.isSome || flags.isNative
      | _ => false

/-- The definition of a function for one unit. -/
def addFunction (l : Layout) (unit : Nat) (ef : EmittedFunction) : Layout :=
  { l with functions := l.functions.modify unit (·.push ef) }

/-- The C name of a class instance type: the class's own, or its instance's. -/
def className (l : Layout) (t : Ty) : String :=
  match t with
  | .obj c args _ =>
    let k := l.table.cls c
    if !k.isGeneric then k.cName
    else ((l.program.instances.findClass? l.table c args).map (·.cName)).getD k.cName
  | _ => ""

/-- The descriptor of a reference type, for casts and type tests. -/
def descriptorOf (l : Layout) : Ty → String
  | .array .. => "&aml_Array__class"
  | .func .. => "&aml_Closure__class"
  | t => "&" ++ l.className t ++ "__class"

/-- The C name of a method or constructor seen through a view of its owner. -/
def memberName (l : Layout) (f : FunctionId) (view : Option Ty) : String :=
  let fs := l.table.fn f
  match fs.owner with
  | some o =>
    let k := l.table.cls o
    if fs.isBuiltin || !k.isGeneric || fs.flags.isStatic then fs.cName
    else match view with
      | some v => l.className v ++ fs.cName.drop k.cName.length
      | none => fs.cName
  | none => fs.cName

/-- The view of a function's owner from a receiver type: the owner's own type when it is not
generic, else the receiver seen as the owner. -/
def ownerView (l : Layout) (f : FunctionId) (receiver : Option Ty) : Option Ty :=
  let fs := l.table.fn f
  match fs.owner with
  | none => none
  | some o =>
    let k := l.table.cls o
    if !k.isGeneric then some (k.selfType o)
    else match receiver with
      | some r => (Ty.ancestor l.env (r.withNullable false) o).map (·.type)
      | none => none

/-- The C name of a called function reached through `receiver`, with the generic function's
own arguments `fnArgs`. A generic function without an instance for these arguments is an
internal error, with this message. -/
def functionName (l : Layout) (f : FunctionId) (receiver : Option Ty) (fnArgs : List Ty) :
    Except String String :=
  let fs := l.table.fn f
  if fs.isBuiltin then .ok fs.cName
  else if fs.isGeneric then
    let ownerGeneric := (fs.owner.map fun o => (l.table.cls o).isGeneric).getD false
    let classArgs := if ownerGeneric && receiver.isSome then
        match l.ownerView f receiver with
        | some (.obj _ args _) => args
        | _ => []
      else []
    match l.program.instances.findFunction? l.env f classArgs fnArgs with
    | some inst => .ok inst.cName
    | none => .error ("no instance of generic function '" ++ fs.qualifiedName ++ "'")
  else if fs.owner.isNone || fs.flags.isStatic then .ok fs.cName
  else .ok (l.memberName f (l.ownerView f receiver))

end Layout

/-- The C type of a primitive. -/
def Prim.cType : Prim → String
  | .byte => "int8_t"
  | .short => "int16_t"
  | .int => "int32_t"
  | .long => "int64_t"
  | .ubyte => "uint8_t"
  | .ushort => "uint16_t"
  | .uint => "uint32_t"
  | .ulong => "uint64_t"
  | .float => "float"
  | .double => "double"
  | .bool => "bool"
  | .char => "uint16_t"
  | .unit => "void"

/-- The C type of a concrete type. -/
def Ty.cType : Ty → String
  | .prim .unit _ => "void"
  | .prim k true => "aml_opt_" ++ k.name
  | .prim k false => k.cType
  | .never => "void"
  | .param .. | .error => ""
  | _ => "aml_Object*"

/-- The zero value of a type: nothing for `Unit` and `Never`. -/
def Ty.zeroValue (t : Ty) : String :=
  if t.isUnit || t.isNever then ""
  else match t with
    | .prim k true => "AML_NONE(" ++ k.name ++ ")"
    | .prim .bool false => "false"
    | .prim _ false => "0"
    | _ => "NULL"

/-- The initializer of a temporary holding a value of type `t`. -/
def Ty.tempInit (t : Ty) : String :=
  match t with
  | .prim _ true => "{0}"
  | .prim .bool false => "false"
  | .prim _ false => "0"
  | _ => "NULL"

/-- The initializer of storage of type `t`. -/
def Ty.storageInit (t : Ty) : String :=
  if t.isNullablePrimitive then "{0}" else t.zeroValue

/-- The C name of a local: `l_<name>_<number>`. -/
def LocalSymbol.cName (l : LocalSymbol) : String := "l_" ++ l.name ++ "_" ++ toString l.id

/-- The octal escape of a byte. -/
def octalEscape (b : UInt8) : String :=
  let n := b.toNat
  "\\" ++ String.ofList [Char.ofNat (48 + n / 64 % 8), Char.ofNat (48 + n / 8 % 8),
    Char.ofNat (48 + n % 8)]

/-- How a byte is written inside a C string literal: quotes, backslashes, `?` and the usual
control characters escaped, other bytes outside printable ASCII in octal. -/
def cEscape (b : UInt8) : String :=
  match b.toNat with
  | 34 => "\\\""
  | 92 => "\\\\"
  | 10 => "\\n"
  | 9 => "\\t"
  | 13 => "\\r"
  | 63 => "\\?"
  | n => if n < 32 || n ≥ 127 then octalEscape b else String.singleton (Char.ofNat n)

/-- A C string literal of the bytes of `text`, each written by `cEscape`. -/
def cStringLiteral (text : String) : String :=
  "\"" ++ String.join (text.toList.map fun c => cEscape (Bytes.byteOf c)) ++ "\""

namespace Layout

/-- The C type of a type. -/
def cType (_ : Layout) (t : Ty) : String := t.cType

/-- The name of a field in its owner's struct: its C name, with `_k` when `k` fields of the
same name come before it in the layout. -/
def memberFieldName (l : Layout) (f : FieldId) : String :=
  let fd := l.table.field f
  match fd.owner with
  | none => fd.cName
  | some o =>
    if (l.table.cls o).isBuiltin then fd.cName
    else
      let earlier := ((l.table.allFields o).takeWhile (· != f)).filter fun g =>
        (l.table.field g).name == fd.name
      if earlier.isEmpty then fd.cName else fd.cName ++ "_" ++ toString earlier.length

/-- The struct members of a class instance type, ancestors' fields first, each with its type in
the instance. -/
def structMembers (l : Layout) (t : Ty) : List StructMember :=
  match t.classOf? with
  | none => []
  | some c => (l.table.allFields c).map fun f =>
    let fd := l.table.field f
    let ft := fd.type.getD .error
    let ft := match fd.owner.bind fun o => Ty.ancestor l.env (t.withNullable false) o with
      | some v => ft.substitute (v.type.substOf l.env)
      | none => ft
    ⟨f, ft, l.memberFieldName f⟩

/-- The struct definition of a class instance type. -/
def structDefinition (l : Layout) (t : Ty) (cName : String) : String :=
  "typedef struct " ++ cName ++ " \x7b\n    aml_Object header;\n" ++
    String.join ((l.structMembers t).map fun m => "    " ++ m.type.cType ++ " " ++ m.name ++ ";\n") ++
    "\x7d " ++ cName ++ ";\n"

/-- A function's signature in the instance given by `s`. -/
def signature (l : Layout) (f : FunctionId) (s : Subst) : CSignature :=
  let fs := l.table.fn f
  { params := fs.params.map (·.substitute s),
    result := if fs.flags.isConstructor then Ty.unit else fs.result.substitute s,
    hasSelf := fs.isInstance || fs.flags.isConstructor }

/-- Parameter types after an optional receiver, or `void`. -/
def parameterList (self : Option String) (params : List String) : String :=
  match self.toList ++ params with
  | [] => "void"
  | ps => ", ".intercalate ps

/-- `R name(aml_Object* self, P0, P1)` without parameter names. -/
def prototype (l : Layout) (ef : EmittedFunction) : String :=
  let sig := l.signature ef.fn ef.subst
  sig.result.cType ++ " " ++ ef.cName ++ "(" ++
    parameterList (if sig.hasSelf then some "aml_Object* self" else none)
      (sig.params.map Ty.cType) ++ ")"

/-- The function pointer type `R (*)(aml_Object*, P0)` of a dispatched call; `env` adds the
closure environment parameter. -/
def pointerType (sig : CSignature) (env : Bool) : String :=
  sig.result.cType ++ " (*)(" ++
    parameterList (if sig.hasSelf || env then some "aml_Object*" else none)
      (sig.params.map Ty.cType) ++ ")"

/-! ## Collecting the definitions -/

/-- Adds the constructors and methods of an emitted class. Static methods of a generic class are
added once, with the class. -/
def addMembers (l : Layout) (c : ClassId) (ec : EmittedClass) : Layout := Id.run do
  let k := l.table.cls c
  if k.isInterface then return l
  let unit := k.unit.getD 0
  let mut l := l
  for ctor in k.constructors do
    if hasBody (l.table.fn ctor) then
      l := l.addFunction unit ⟨ctor, l.memberName ctor (some ec.type), ec.subst, some ec.type⟩
  let key := match ec.type with
    | .obj _ args _ => argsKey l.env args
    | _ => ""
  for f in k.methodOrder do
    let fs := l.table.fn f
    if !hasBody fs then continue
    if fs.flags.isStatic && k.isGeneric then continue
    let self := if fs.flags.isStatic then none else some ec.type
    if fs.isGeneric then
      for inst in l.program.instances.ofFunction f do
        if !fs.flags.isStatic && argsKey l.env inst.classArgs != key then continue
        l := l.addFunction unit ⟨f, inst.cName, inst.subst l.table, self⟩
    else
      l := l.addFunction unit ⟨f, l.memberName f (some ec.type), ec.subst, self⟩
  return l

/-- Adds a function, or each instance of a generic one. -/
def addFunctionInstances (l : Layout) (unit : Nat) (f : FunctionId) (self : Option Ty) : Layout :=
  let fs := l.table.fn f
  if fs.isGeneric then
    (l.program.instances.ofFunction f).foldl
      (fun l inst => l.addFunction unit ⟨f, inst.cName, inst.subst l.table, self⟩) l
  else l.addFunction unit ⟨f, fs.cName, [], self⟩

/-- Adds a class: itself, or each of its instances, and their members. -/
def collectClass (l : Layout) (c : ClassId) : Layout := Id.run do
  let k := l.table.cls c
  let unit := k.unit.getD 0
  if !k.isGeneric then
    let ec : EmittedClass := ⟨c, k.selfType c, k.cName, []⟩
    let l := l.addMembers c ec
    return { l with classes := l.classes.modify unit (·.push ec) }
  let mut l := l
  for inst in l.program.instances.ofClass c do
    let ec : EmittedClass := ⟨c, inst.type, inst.cName, inst.type.substOf l.env⟩
    l := l.addMembers c ec
    l := { l with classes := l.classes.modify unit (·.push ec) }
  for f in k.methodOrder do
    let fs := l.table.fn f
    if fs.flags.isStatic && hasBody fs then l := l.addFunctionInstances unit f none
  return l

/-- Whether a declaration of unit `u` belongs to the program's units. -/
def ownUnit (p : Program) (u : Option Nat) : Option Nat :=
  u.filter (· < p.units.size)

/-- The layout of a program. -/
def ofProgram (p : Program) : Layout := Id.run do
  let n := p.units.size
  let t := p.table
  let mut l : Layout := {
    program := p, env := t.env, classes := Array.replicate n #[],
    functions := Array.replicate n #[], storage := Array.replicate n #[] }
  for (k, c) in t.classes.zipIdx do
    if k.isBuiltin || k.isMock then continue
    if (ownUnit p k.unit).isNone then continue
    l := l.collectClass c
  for (fs, f) in t.functions.zipIdx do
    if fs.owner.isSome || fs.isBuiltin then continue
    let some u := ownUnit p fs.unit | continue
    l := l.addFunctionInstances u f none
  for (fd, f) in t.fields.zipIdx do
    let some u := ownUnit p fd.unit | continue
    match fd.owner with
    | some o =>
      let k := t.cls o
      if !fd.isStatic || k.isBuiltin || k.isMock then continue
    | none => pure ()
    l := { l with storage := l.storage.modify u (·.push f) }
  return l

/-- The log line of a layout. -/
def journalLine (l : Layout) : Log.Line :=
  let classes := l.classes.foldl (· + ·.size) 0
  let functions := l.functions.foldl (· + ·.size) 0
  Log.debug "codegen" ("layout: " ++ toString classes ++ " classes, " ++ toString functions ++
    " functions in " ++ toString l.program.units.size ++ " units")

end Layout

end AmLang
