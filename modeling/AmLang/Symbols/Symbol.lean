import Std.Data.TreeMap
import AmLang.Types.Conversion
import AmLang.Syntax.Ast
/-!
# Symbols

The named entities of a program: classes and interfaces, functions (free functions, methods,
constructors and tests), and fields (instance fields, static fields and namespace variables).
Symbols refer to each other by their index in the symbol table (`ClassId`, `FunctionId`,
`FieldId`), and to the declaration they were made from by a copy of it and its `DeclSite`.

A class symbol extends the `ClassHeader` that the type relations read, with its members and, once
declarations are resolved, its dispatch tables: the `vtable` lists the implementation of every
virtual slot (ancestors' slots first) and `itables` choose an implementation for each method of
every interface the class implements.
-/

namespace AmLang

/-- A function is named by its position in the table's function list. -/
abbrev FunctionId := Nat

/-- A field is named by its position in the table's field list. -/
abbrev FieldId := Nat

/-- Where a declaration stands: the unit that holds it, and the positions of the declarations that
lead to it, from the unit's top level down (a namespace's or class's members are counted within
it). -/
structure DeclSite where
  unit : Nat
  path : List Nat
deriving BEq, Repr, Inhabited

/-- An instance field, a static field, or a namespace variable. -/
structure FieldSymbol where
  name : String
  qualifiedName : String
  ns : String
  type : Option Ty := none
  isVal : Bool := false
  isStatic : Bool := false
  /-- The class that declares it; none for a namespace variable. -/
  owner : Option ClassId := none
  decl : Option Decl := none
  site : Option DeclSite := none
  /-- The unit that declares it; none for a built-in. -/
  unit : Option Nat := none
  /-- The C name of its storage. -/
  cName : String := ""
deriving Inhabited

/-- A free function, method, constructor or test. -/
structure FunctionSymbol where
  name : String
  qualifiedName : String
  ns : String
  owner : Option ClassId := none
  generics : List String := []
  paramNames : List String := []
  params : List Ty := []
  result : Ty := Ty.unit
  flags : FunctionFlags := {}
  isBuiltin : Bool := false
  decl : Option Decl := none
  site : Option DeclSite := none
  unit : Option Nat := none
  /-- Its slot in the owner's dispatch table, if it is virtual. -/
  slot : Option Nat := none
  /-- The method it overrides. -/
  overrides : Option FunctionId := none
  /-- Its C name, unique in the program before generic instances are named. -/
  cName : String := ""
deriving Inhabited

namespace FunctionSymbol

/-- Whether the function takes a receiver. -/
def isInstance (f : FunctionSymbol) : Bool :=
  f.owner.isSome && !f.flags.isStatic && !f.flags.isConstructor

/-- Whether the function has generic parameters of its own. -/
def isGeneric (f : FunctionSymbol) : Bool := !f.generics.isEmpty

/-- The function as `name<T>(Int, String): Bool`, for messages; the result is left out when it
is `Unit`. -/
def signature (env : ClassEnv) (f : FunctionSymbol) : String :=
  f.name ++ (if f.generics.isEmpty then "" else "<" ++ ", ".intercalate f.generics ++ ">") ++
    "(" ++ ", ".intercalate (f.params.map (·.display env)) ++ ")" ++
    (if f.result.isUnit then "" else ": " ++ f.result.display env)

end FunctionSymbol

/-- An interface a class implements, as a type in terms of the class's generic parameters, with
the implementation chosen for each slot of the interface's dispatch table (none when the class
has none). -/
structure InterfaceImpl where
  iface : Ty
  methods : List (Option FunctionId)
deriving Inhabited

/-- A class, interface, built-in class or mock. -/
structure ClassSymbol extends ClassHeader where
  ns : String := ""
  isInterface : Bool := false
  isAbstract : Bool := false
  isBuiltin : Bool := false
  isMock : Bool := false
  /-- For a mock: the class it stands in for. -/
  mockTarget : Option ClassId := none
  /-- Own instance fields, in declaration order. -/
  fields : List FieldId := []
  staticFields : List FieldId := []
  /-- Own methods by name, each name with its overloads in declaration order. -/
  methods : Std.TreeMap String (List FunctionId) := ∅
  /-- Own methods in declaration order. -/
  methodOrder : List FunctionId := []
  constructors : List FunctionId := []
  vtable : List FunctionId := []
  itables : List InterfaceImpl := []
  decl : Option Decl := none
  site : Option DeclSite := none
  unit : Option Nat := none
  cName : String := ""
  /-- Set once declaration resolution has completed the class. -/
  resolved : Bool := false
deriving Inhabited

namespace ClassSymbol

/-- Whether the class has generic parameters. -/
def isGeneric (c : ClassSymbol) : Bool := !c.generics.isEmpty

/-- The class of the superclass. -/
def superId? (c : ClassSymbol) : Option ClassId := c.superclass.bind Ty.classOf?

/-- The classes a class names as its superclass and interfaces, superclass first. -/
def parents (c : ClassSymbol) : List ClassId := c.superId?.toList ++ c.interfaces.filterMap Ty.classOf?

/-- The class's own type, with its generic parameters as arguments. -/
def selfType (c : ClassSymbol) (id : ClassId) : Ty :=
  .obj id (c.generics.map fun g => .param g false) false

/-- Adds a method to the overloads of its name and to the declaration order. -/
def addMethod (c : ClassSymbol) (name : String) (f : FunctionId) : ClassSymbol :=
  { c with
    methods := c.methods.insert name ((c.methods.getD name []) ++ [f])
    methodOrder := c.methodOrder ++ [f] }

end ClassSymbol

/-- The classes, functions and variables declared in one namespace. Blocks of one namespace in
different files share it. -/
structure NamespaceSymbol where
  name : String
  classes : Std.TreeMap String ClassId := ∅
  functions : Std.TreeMap String (List FunctionId) := ∅
  globals : Std.TreeMap String FieldId := ∅
deriving Inhabited

/-- The names one unit imports. An imported overload set is named by its namespace and name. -/
structure ImportTable where
  classes : Std.TreeMap String ClassId := ∅
  functions : Std.TreeMap String (String × String) := ∅
  globals : Std.TreeMap String FieldId := ∅
  /-- Namespaces imported whole, in import order. -/
  wildcards : List String := []
deriving Inhabited

/-- `App.Core.Counter` as the C identifier `App_Core_Counter`. -/
def cIdentifier (qualified : String) : String := qualified.map fun c => if c == '.' then '_' else c

end AmLang
