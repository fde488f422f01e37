import AmLang.Symbols.Symbol
import AmLang.Feature.Filter
/-!
# The symbol table

The whole program's declarations: every class, function and field in creation order, the
namespaces that name them, the names each unit imports, and the declarations that feature
filtering removed (so that a lookup that fails can say why).

A new table holds only the built-in namespace `Am.Lang`, which every unit sees:

| built-in    | members                                                       |
|-------------|---------------------------------------------------------------|
| `Object`    | `toString`, `equals`, `hashCode` (virtual slots 0 to 2)       |
| `String`    | `length`, `charAt`, `substring`, `isEmpty`, and the overrides |
| `Exception` | the field `message`, constructors `()` and `(message: String)` |
| `print`     | one overload each for String, Int, Long, ULong, Double, Bool, Char, Object? |
| `println`   | the same overloads as `print`                                 |
| `assert`    | `(condition: Bool)`, `(condition: Bool, message: String)`     |

`Object`, `String` and `Exception` are the classes 0, 1 and 2.
-/

namespace AmLang

/-- The namespace of the built-in declarations. -/
def langNamespace : String := "Am.Lang"

/-- The class `Object`, root of every class. -/
def objectClass : ClassId := 0

/-- The class `String`. -/
def stringClass : ClassId := 1

/-- The class `Exception`. -/
def exceptionClass : ClassId := 2

/-- The declarations of a whole program. -/
structure SymbolTable where
  classes : Array ClassSymbol := #[]
  functions : Array FunctionSymbol := #[]
  fields : Array FieldSymbol := #[]
  namespaces : Std.TreeMap String NamespaceSymbol := ∅
  /-- Classes and interfaces by qualified name. -/
  classIndex : Std.TreeMap String ClassId := ∅
  /-- Each unit's imports. -/
  imports : Std.TreeMap Nat ImportTable := ∅
  /-- Declarations removed by feature filtering, in the order they were reported. -/
  excluded : List Feature.Exclusion := []
deriving Inhabited

namespace SymbolTable

/-! ## Access -/

/-- The class with an id. -/
def cls (t : SymbolTable) (c : ClassId) : ClassSymbol := t.classes.getD c default

/-- The function with an id. -/
def fn (t : SymbolTable) (f : FunctionId) : FunctionSymbol := t.functions.getD f default

/-- The field with an id. -/
def field (t : SymbolTable) (f : FieldId) : FieldSymbol := t.fields.getD f default

/-- What the type relations see of the classes. -/
def env (t : SymbolTable) : ClassEnv := t.classes.map (·.toClassHeader)

/-- Changes one class. -/
def modifyClass (t : SymbolTable) (c : ClassId) (f : ClassSymbol → ClassSymbol) : SymbolTable :=
  { t with classes := t.classes.modify c f }

/-- Changes one function. -/
def modifyFunction (t : SymbolTable) (i : FunctionId) (f : FunctionSymbol → FunctionSymbol) :
    SymbolTable :=
  { t with functions := t.functions.modify i f }

/-- Changes one field. -/
def modifyField (t : SymbolTable) (i : FieldId) (f : FieldSymbol → FieldSymbol) : SymbolTable :=
  { t with fields := t.fields.modify i f }

/-- Adds a class; returns its id. -/
def addClass (t : SymbolTable) (c : ClassSymbol) : ClassId × SymbolTable :=
  (t.classes.size, { t with classes := t.classes.push c })

/-- Adds a function; returns its id. -/
def addFunction (t : SymbolTable) (f : FunctionSymbol) : FunctionId × SymbolTable :=
  (t.functions.size, { t with functions := t.functions.push f })

/-- Adds a field; returns its id. -/
def addField (t : SymbolTable) (f : FieldSymbol) : FieldId × SymbolTable :=
  (t.fields.size, { t with fields := t.fields.push f })

/-! ## Namespaces and lookup -/

/-- The namespace named `name`, created empty if it is missing. -/
def ensureNamespace (t : SymbolTable) (name : String) : SymbolTable :=
  if t.namespaces.contains name then t
  else { t with namespaces := t.namespaces.insert name { name } }

/-- The namespace named `name`. -/
def findNamespace? (t : SymbolTable) (name : String) : Option NamespaceSymbol :=
  t.namespaces.get? name

/-- Changes a namespace, creating it first if it is missing. -/
def modifyNamespace (t : SymbolTable) (name : String) (f : NamespaceSymbol → NamespaceSymbol) :
    SymbolTable :=
  let t := t.ensureNamespace name
  { t with namespaces := t.namespaces.modify name f }

/-- The class or interface with a qualified name. -/
def findClass? (t : SymbolTable) (qualified : String) : Option ClassId :=
  t.classIndex.get? qualified

/-- The overload set `name` of namespace `ns`. -/
def findFunctions? (t : SymbolTable) (ns name : String) : Option (List FunctionId) :=
  (t.findNamespace? ns).bind (·.functions.get? name)

/-- The variable `name` of namespace `ns`. -/
def findGlobal? (t : SymbolTable) (ns name : String) : Option FieldId :=
  (t.findNamespace? ns).bind (·.globals.get? name)

/-- Makes a class findable by its qualified name and by its simple name in its namespace. -/
def registerClass (t : SymbolTable) (c : ClassId) : SymbolTable :=
  let k := t.cls c
  let t := { t with classIndex := t.classIndex.insert k.qualifiedName c }
  t.modifyNamespace k.ns fun n => { n with classes := n.classes.insert k.name c }

/-- The built-in namespace. -/
def lang (t : SymbolTable) : NamespaceSymbol := (t.findNamespace? langNamespace).getD default

/-- A unit's imports; none for a unit without any. -/
def importsOf (t : SymbolTable) (unit : Nat) : ImportTable := (t.imports.get? unit).getD {}

/-- The first excluded declaration with this simple or qualified name. -/
def findExcluded? (t : SymbolTable) (name : String) : Option Feature.Exclusion :=
  t.excluded.find? fun e => e.name == name || e.qualifiedName == name

/-- The type `String`, nullable or not. -/
def stringType (nullable : Bool) : Ty := .obj stringClass [] nullable

/-- The type `Object`, nullable or not. -/
def objectType (nullable : Bool) : Ty := .obj objectClass [] nullable

/-! ## Classes and their fields -/

/-- A class and its superclasses in order, each once. -/
def superChain (t : SymbolTable) (c : ClassId) : List ClassId :=
  go (t.classes.size + 1) (some c) []
where
  go : Nat → Option ClassId → List ClassId → List ClassId
    | 0, _, acc => acc.reverse
    | _ + 1, none, acc => acc.reverse
    | fuel + 1, some c, acc =>
      if acc.contains c then acc.reverse else go fuel (t.cls c).superId? (c :: acc)

/-- The instance field named `name` of a class or its nearest ancestor that has one. -/
def findField? (t : SymbolTable) (c : ClassId) (name : String) : Option FieldId :=
  (t.superChain c).findSome? fun k => (t.cls k).fields.find? fun f => (t.field f).name == name

/-- The static field named `name` of a class or its nearest ancestor that has one. -/
def findStaticField? (t : SymbolTable) (c : ClassId) (name : String) : Option FieldId :=
  (t.superChain c).findSome? fun k =>
    (t.cls k).staticFields.find? fun f => (t.field f).name == name

/-- The instance fields of an object of the class, in layout order: ancestors' fields first. -/
def allFields (t : SymbolTable) (c : ClassId) : List FieldId :=
  (t.superChain c).reverse.flatMap fun k => (t.cls k).fields

/-- A field's position in the class's layout, if it has one. -/
def fieldIndex? (t : SymbolTable) (c : ClassId) (f : FieldId) : Option Nat :=
  (t.allFields c).idxOf? f

/-- Whether class `c` is `other` or has it as an ancestor class or interface. -/
def derivesFrom (t : SymbolTable) (c other : ClassId) : Bool := t.env.derives c other

/-! ## The built-ins -/

/-- A built-in function of `Am.Lang`, as a method of `owner` or a free function. -/
def builtinFunction (t : SymbolTable) (owner : Option ClassId) (name : String)
    (params : List (String × Ty)) (result : Ty) (cName : String) : FunctionSymbol :=
  { name, ns := langNamespace, owner
    qualifiedName := match owner with
      | some c => (t.cls c).qualifiedName ++ "." ++ name
      | none => langNamespace ++ "." ++ name
    paramNames := params.map (·.1), params := params.map (·.2), result, isBuiltin := true
    cName }

/-- Adds a built-in method and lists it among its class's methods. -/
def addBuiltinMethod (t : SymbolTable) (c : ClassId) (f : FunctionSymbol) :
    FunctionId × SymbolTable :=
  let (i, t) := t.addFunction f
  (i, t.modifyClass c (·.addMethod f.name i))

/-- Adds a built-in method that overrides the method in slot `slot` of `Object`. -/
def addBuiltinOverride (t : SymbolTable) (c : ClassId) (base slot : Nat) (f : FunctionSymbol) :
    SymbolTable :=
  let f := { f with
    flags := { f.flags with isOverride := true }, overrides := some base, slot := some slot }
  let (i, t) := t.addBuiltinMethod c f
  t.modifyClass c fun k => { k with vtable := k.vtable.set slot i }

/-- A built-in class of `Am.Lang`. -/
def builtinClass (name cName : String) : ClassSymbol :=
  { name, qualifiedName := langNamespace ++ "." ++ name, ns := langNamespace, isBuiltin := true,
    resolved := true, cName }

/-- A built-in free function with one overload per parameter list. -/
def addBuiltinOverloads (t : SymbolTable) (name : String)
    (overloads : List (List (String × Ty) × String)) : SymbolTable :=
  let add := fun (t : SymbolTable) ((params, cName) : List (String × Ty) × String) =>
    let (i, t) := t.addFunction (t.builtinFunction none name params Ty.unit cName)
    t.modifyNamespace langNamespace fun n =>
      { n with functions := n.functions.insert name ((n.functions.getD name []) ++ [i]) }
  overloads.foldl add t

/-- The table holding only the built-ins. -/
def builtins : SymbolTable := Id.run do
  let mut t : SymbolTable := {}
  t := t.ensureNamespace ""
  let (_, t1) := t.addClass { builtinClass "Object" "aml_Object" with isRoot := true }
  let (_, t2) := t1.addClass { builtinClass "String" "aml_String" with
    superclass := some (objectType false) }
  let (_, t3) := t2.addClass { builtinClass "Exception" "aml_Exception" with
    superclass := some (objectType false) }
  t := t3
  let str := stringType false
  let objOpt := objectType true
  -- Object: the three virtual slots every class inherits
  let objSlots := [("toString", [], str), ("equals", [("other", objOpt)], Ty.bool),
    ("hashCode", [], Ty.int)]
  for (name, params, result) in objSlots do
    let slot := (t.cls objectClass).vtable.length
    let f := { t.builtinFunction (some objectClass) name params result
      ("aml_Object__" ++ name) with slot := some slot }
    let (i, t') := t.addBuiltinMethod objectClass f
    t := t'.modifyClass objectClass fun k => { k with vtable := k.vtable ++ [i] }
  let ctor := t.builtinFunction (some objectClass) "new" [] Ty.unit "aml_Object__init_0"
  let (i, t') := t.addFunction { ctor with flags := { isConstructor := true } }
  t := t'.modifyClass objectClass fun k => { k with constructors := k.constructors ++ [i] }
  let baseTable := (t.cls objectClass).vtable
  -- String
  t := t.modifyClass stringClass fun k => { k with vtable := baseTable }
  let strMethods := [("length", [], Ty.int), ("charAt", [("index", Ty.int)], .prim .char false),
    ("substring", [("start", Ty.int), ("end", Ty.int)], str), ("isEmpty", [], Ty.bool)]
  for (name, params, result) in strMethods do
    let (_, t') := t.addBuiltinMethod stringClass
      (t.builtinFunction (some stringClass) name params result ("aml_String__" ++ name))
    t := t'
  for ((name, params, result), slot) in objSlots.zipIdx do
    t := t.addBuiltinOverride stringClass (baseTable.getD slot 0) slot
      (t.builtinFunction (some stringClass) name params result ("aml_String__" ++ name))
  -- Exception
  t := t.modifyClass exceptionClass fun k => { k with vtable := baseTable }
  let (m, t') := t.addField {
    name := "message", qualifiedName := langNamespace ++ ".Exception.message",
    ns := langNamespace, type := some str, isVal := true, owner := some exceptionClass,
    cName := "f_message" }
  t := t'.modifyClass exceptionClass fun k => { k with fields := [m] }
  for (params, cName) in [([], "aml_Exception__init_0"), ([("message", str)], "aml_Exception__init_1")] do
    let f := t.builtinFunction (some exceptionClass) "new" params Ty.unit cName
    let (i, t') := t.addFunction { f with flags := { isConstructor := true } }
    t := t'.modifyClass exceptionClass fun k => { k with constructors := k.constructors ++ [i] }
  t := t.addBuiltinOverride exceptionClass (baseTable.getD 0 0) 0
    (t.builtinFunction (some exceptionClass) "toString" [] str "aml_Exception__toString")
  t := t.ensureNamespace langNamespace
  for c in [objectClass, stringClass, exceptionClass] do
    t := t.registerClass c
  -- free functions
  let printed := [("String", str), ("Int", Ty.int), ("Long", .prim .long false),
    ("ULong", .prim .ulong false), ("Double", .prim .double false), ("Bool", Ty.bool),
    ("Char", .prim .char false), ("Object", objOpt)]
  for name in ["print", "println"] do
    t := t.addBuiltinOverloads name
      (printed.map fun (k, ty) => ([("value", ty)], "aml_" ++ name ++ "_" ++ k))
  t := t.addBuiltinOverloads "assert"
    [([("condition", Ty.bool)], "aml_assert_0"),
     ([("condition", Ty.bool), ("message", str)], "aml_assert_1")]
  return t

end SymbolTable

end AmLang
