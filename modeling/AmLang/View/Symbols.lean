import AmLang.Data.Json
import AmLang.Symbols.Table
/-!
# Symbol table views

Classes, functions and fields of a symbol table as JSON, for tools that inspect declarations.
Types are written by their key (qualified class names); a missing type or an empty dispatch slot
is written `<null>`.
-/

namespace AmLang

namespace SymbolTable

/-- The names of the set flags, in the order given. -/
def flagNames (flags : List (String × Bool)) : List String :=
  flags.filterMap fun (n, b) => if b then some n else none

/-- A field as JSON. -/
def fieldJson (t : SymbolTable) (f : FieldId) : Json :=
  let fd := t.field f
  .obj [("name", .str fd.name), ("qualified", .str fd.qualifiedName),
    ("type", .str ((fd.type.map (·.key t.env)).getD "<null>")), ("val", .bool fd.isVal),
    ("static", .bool fd.isStatic), ("c_name", .str fd.cName)]

/-- A function as JSON. -/
def functionJson (t : SymbolTable) (f : FunctionId) : Json :=
  let fs := t.fn f
  .obj [("sig", .str (fs.signature t.env)), ("qualified", .str fs.qualifiedName),
    ("c_name", .str fs.cName), ("slot", .int ((fs.slot.map Int.ofNat).getD (-1))),
    ("overrides", Json.opt (fun o => .str (t.fn o).cName) fs.overrides),
    ("flags", Json.strs (flagNames [("static", fs.flags.isStatic),
      ("override", fs.flags.isOverride), ("abstract", fs.flags.isAbstract),
      ("suspend", fs.flags.isSuspend), ("native", fs.flags.isNative), ("test", fs.flags.isTest),
      ("constructor", fs.flags.isConstructor)]))]

/-- A class as JSON; with `withFieldIndex`, each own field's position in the object layout. -/
def classJson (t : SymbolTable) (withFieldIndex : Bool) (c : ClassId) : Json :=
  let k := t.cls c
  let slotName := fun (f : Option FunctionId) => Json.str ((f.map fun f => (t.fn f).cName).getD "<null>")
  let fieldIndex := if withFieldIndex then
      [("field_index", .arr ((k.fields ++ k.staticFields).map fun f =>
        .arr [.str (t.field f).name, .int (((t.fieldIndex? c f).map Int.ofNat).getD (-1))]))]
    else []
  .obj ([("qualified", .str k.qualifiedName), ("ns", .str k.ns), ("c_name", .str k.cName),
    ("flags", Json.strs (flagNames [("interface", k.isInterface), ("abstract", k.isAbstract),
      ("builtin", k.isBuiltin), ("root", k.isRoot), ("resolved", k.resolved)])),
    ("generics", Json.strs k.generics),
    ("super", Json.opt (fun s => .str (s.key t.env)) k.superclass),
    ("interfaces", .arr (k.interfaces.map fun i => .str (i.key t.env))),
    ("fields", .arr (k.fields.map t.fieldJson)),
    ("static_fields", .arr (k.staticFields.map t.fieldJson)),
    ("constructors", .arr (k.constructors.map t.functionJson)),
    ("methods", .arr (k.methodOrder.map t.functionJson))] ++ fieldIndex ++
    [("vtable", .arr (k.vtable.map fun f => slotName (some f))),
     ("itables", .arr (k.itables.map fun i =>
       .obj [("iface", .str (i.iface.key t.env)), ("methods", .arr (i.methods.map slotName))]))])

/-- The classes (built-ins only with `builtins`), free functions and namespace variables of a
table as JSON fields. -/
def contentsJson (t : SymbolTable) (builtins withFieldIndex : Bool) : List (String × Json) :=
  let ids := fun (n : Nat) => List.range n
  [("classes", .arr (((ids t.classes.size).filter fun c => builtins || !(t.cls c).isBuiltin).map
      (t.classJson withFieldIndex))),
   ("functions", .arr (((ids t.functions.size).filter fun f =>
      (t.fn f).owner.isNone && (builtins || !(t.fn f).isBuiltin)).map t.functionJson)),
   ("globals", .arr (((ids t.fields.size).filter fun f =>
      (t.field f).owner.isNone && (t.field f).unit.isSome).map t.fieldJson))]

end SymbolTable

end AmLang
