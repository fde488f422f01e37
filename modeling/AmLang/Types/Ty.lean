/-!
# Semantic types

The types that checking assigns to expressions and declarations. Unlike a `TypeExpr`, which
records what was written, a `Ty` names the class it stands for by its index in the program's
class list and carries concrete generic arguments.

Every type has a nullable flag. The type of `null` is always nullable; the error type (stands
after a reported error) and the never type (the type of `throw`) never are, and neither is
`Unit`. `Ty.withNullable` keeps those four as they are, so no operation here breaks that rule.

## Main definitions

* `Prim` — the primitive types, in the order that decides which are integral and numeric.
* `Ty` — primitive, class or interface, array, function, generic parameter, null, error, never.
* `Ty.equal` — structural equality including every nullable flag.
* `ClassHeader` — what the type relations need to know about a class; `Ty.render` prints a type
  with simple or qualified class names.
-/

namespace AmLang

/-- The primitive types: signed integers from narrow to wide, unsigned integers from narrow to
wide, the two floating types, then `Bool`, `Char` and `Unit`. -/
inductive Prim where
  | byte
  | short
  | int
  | long
  | ubyte
  | ushort
  | uint
  | ulong
  | float
  | double
  | bool
  | char
  | unit
deriving Repr, BEq, DecidableEq, Inhabited

namespace Prim

/-- The position of a primitive in the fixed order. -/
def index : Prim → Nat
  | .byte => 0
  | .short => 1
  | .int => 2
  | .long => 3
  | .ubyte => 4
  | .ushort => 5
  | .uint => 6
  | .ulong => 7
  | .float => 8
  | .double => 9
  | .bool => 10
  | .char => 11
  | .unit => 12

/-- The primitive's name in source. -/
def name : Prim → String
  | .byte => "Byte"
  | .short => "Short"
  | .int => "Int"
  | .long => "Long"
  | .ubyte => "UByte"
  | .ushort => "UShort"
  | .uint => "UInt"
  | .ulong => "ULong"
  | .float => "Float"
  | .double => "Double"
  | .bool => "Bool"
  | .char => "Char"
  | .unit => "Unit"

/-- Every primitive, in order. -/
def all : List Prim :=
  [.byte, .short, .int, .long, .ubyte, .ushort, .uint, .ulong, .float, .double, .bool, .char,
   .unit]

/-- The primitive a source name stands for. -/
def ofName? (s : String) : Option Prim := all.find? (·.name == s)

/-- The eight integer types. -/
def isIntegral (k : Prim) : Bool := k.index ≤ 7

/-- The integer and floating types. -/
def isNumeric (k : Prim) : Bool := k.index ≤ 9

/-- `Byte`, `Short`, `Int` and `Long`. -/
def isSigned (k : Prim) : Bool := k.index ≤ 3

/-- `UByte`, `UShort`, `UInt` and `ULong`. -/
def isUnsigned (k : Prim) : Bool := 4 ≤ k.index && k.index ≤ 7

/-- `Float` and `Double`. -/
def isFloating (k : Prim) : Bool := k == .float || k == .double

/-- The width rank of an integer type within its chain (8, 16, 32, 64 bits as 0 to 3). -/
def rank? : Prim → Option Nat
  | .byte | .ubyte => some 0
  | .short | .ushort => some 1
  | .int | .uint => some 2
  | .long | .ulong => some 3
  | _ => none

/-- The cost of widening one primitive to another, if the conversion is implicit: none for the
same type, one for `Float` to `Double`, and one per rank step from an integer type to a wider one
of the same signedness, or from an unsigned type to a strictly wider signed one. -/
def widening (source target : Prim) : Option Nat :=
  if source == target then some 0
  else if source == .float && target == .double then some 1
  else match source.rank?, target.rank? with
    | some rs, some rt =>
      if rs < rt && (source.isSigned == target.isSigned || (source.isUnsigned && target.isSigned))
      then some (rt - rs) else none
    | _, _ => none

end Prim

/-- A class is named by its position in the program's class list. -/
abbrev ClassId := Nat

/-- A semantic type. -/
inductive Ty where
  | prim (kind : Prim) (nullable : Bool)
  /-- A class or interface with its generic arguments. -/
  | obj (cls : ClassId) (args : List Ty) (nullable : Bool)
  | array (element : Ty) (nullable : Bool)
  | func (params : List Ty) (result : Ty) (nullable : Bool)
  /-- A generic parameter not yet replaced by an argument. -/
  | param (name : String) (nullable : Bool)
  /-- The type of `null`. -/
  | null
  /-- The type given to an expression after an error was reported about it. -/
  | error
  /-- The type of an expression that never produces a value. -/
  | never
deriving Repr, Inhabited

namespace Ty

/-- A primitive type; `Unit` is never nullable. -/
def primitive (k : Prim) (nullable : Bool) : Ty := .prim k (nullable && k != .unit)

/-- The `Unit` type. -/
def unit : Ty := .prim .unit false

/-- The non-null `Int` type. -/
def int : Ty := .prim .int false

/-- The non-null `Bool` type. -/
def bool : Ty := .prim .bool false

/-- Whether values of the type may be null. -/
def nullable : Ty → Bool
  | .prim _ n | .obj _ _ n | .array _ n | .func _ _ n | .param _ n => n
  | .null => true
  | .error | .never => false

/-- The same type with the nullable flag set to `b`; `Unit`, null, error and never stay as they
are. -/
def withNullable (t : Ty) (b : Bool) : Ty :=
  match t with
  | .prim k _ => if k == .unit then t else .prim k b
  | .obj c a _ => .obj c a b
  | .array e _ => .array e b
  | .func ps r _ => .func ps r b
  | .param x _ => .param x b
  | .null | .error | .never => t

/-- The primitive kind of a primitive type. -/
def prim? : Ty → Option Prim
  | .prim k _ => some k
  | _ => none

/-- The class of a class or interface type. -/
def classOf? : Ty → Option ClassId
  | .obj c _ _ => some c
  | _ => none

/-- Whether this is the error type. -/
def isError : Ty → Bool
  | .error => true
  | _ => false

/-- Whether this is the never type. -/
def isNever : Ty → Bool
  | .never => true
  | _ => false

/-- Whether this is the `null` type. -/
def isNull : Ty → Bool
  | .null => true
  | _ => false

/-- Whether this is the primitive `k`, nullable or not. -/
def isPrim (k : Prim) (t : Ty) : Bool := t.prim? == some k

/-- Whether this is `Unit`. -/
def isUnit (t : Ty) : Bool := t.isPrim .unit

/-- Whether this is `Bool` or `Bool?`. -/
def isBool (t : Ty) : Bool := t.isPrim .bool

/-- Whether this is an integer type, nullable or not. -/
def isIntegral (t : Ty) : Bool := (t.prim?.map Prim.isIntegral).getD false

/-- Whether this is an integer or floating type, nullable or not. -/
def isNumeric (t : Ty) : Bool := (t.prim?.map Prim.isNumeric).getD false

/-- Whether values of the type are references at run time: objects, arrays, functions, generic
parameters and null. -/
def isReference : Ty → Bool
  | .obj .. | .array .. | .func .. | .param .. | .null => true
  | _ => false

/-- Whether this is a nullable primitive such as `Int?`, which is held by value. -/
def isNullablePrimitive : Ty → Bool
  | .prim _ n => n
  | _ => false

mutual

/-- Whether no generic parameter occurs in the type. -/
def isConcrete : Ty → Bool
  | .param .. => false
  | .obj _ args _ => allConcrete args
  | .array e _ => e.isConcrete
  | .func ps r _ => allConcrete ps && r.isConcrete
  | _ => true

/-- Whether no generic parameter occurs in any type of a list. -/
def allConcrete : List Ty → Bool
  | [] => true
  | t :: ts => t.isConcrete && allConcrete ts

end

mutual

/-- Structural equality of types, nullable flags aside at the top. -/
def equalShape : Ty → Ty → Bool
  | .prim a _, .prim b _ => a == b
  | .obj c as _, .obj d bs _ => c == d && equalList as bs
  | .array a _, .array b _ => equal a b
  | .func ps r _, .func qs s _ => equalList ps qs && equal r s
  | .param x _, .param y _ => x == y
  | .null, .null | .error, .error | .never, .never => true
  | _, _ => false

/-- Structural equality of types, every nullable flag included. -/
def equal (a b : Ty) : Bool := a.nullable == b.nullable && equalShape a b

/-- Pointwise equality of two lists of types of the same length. -/
def equalList : List Ty → List Ty → Bool
  | [], [] => true
  | a :: as, b :: bs => equal a b && equalList as bs
  | _, _ => false

end

instance : BEq Ty := ⟨equal⟩

/-- The variant of a type, as a number, for telling variants apart. -/
def variant : Ty → Nat
  | .prim .. => 0
  | .obj .. => 1
  | .array .. => 2
  | .func .. => 3
  | .param .. => 4
  | .null => 5
  | .error => 6
  | .never => 7

end Ty

/-- Equality of types that may be missing: two missing types are equal. -/
def Ty.equalOpt : Option Ty → Option Ty → Bool
  | none, none => true
  | some a, some b => a.equal b
  | _, _ => false

/-- What the type relations need to know about a class: its names, generic parameters and
direct supertypes (written in terms of its own parameters), and whether it is the root class
that every object converts to. -/
structure ClassHeader where
  name : String
  qualifiedName : String
  generics : List String := []
  superclass : Option Ty := none
  interfaces : List Ty := []
  isRoot : Bool := false
deriving Inhabited

/-- The classes of a program, indexed by `ClassId`. -/
abbrev ClassEnv := Array ClassHeader

namespace Ty

/-- The mark of a nullable type. -/
def nullMark (n : Bool) : String := if n then "?" else ""

mutual

/-- The type as text; `qualified` chooses qualified class names over simple ones. Null prints
as `Null` without a mark; other nullable types end in `?`. -/
def render (env : ClassEnv) (qualified : Bool) : Ty → String
  | .prim k n => k.name ++ nullMark n
  | .obj c args n =>
    let h := env.getD c default
    (if qualified then h.qualifiedName else h.name) ++
      (if args.isEmpty then ""
       else "<" ++ ", ".intercalate (renderAll env qualified args) ++ ">")
      ++ nullMark n
  | .array e n => render env qualified e ++ "[]" ++ nullMark n
  | .func ps r n =>
    "(" ++ ", ".intercalate (renderAll env qualified ps) ++ ") -> " ++
      render env qualified r ++ nullMark n
  | .param x n => x ++ nullMark n
  | .null => "Null"
  | .error => "<error>"
  | .never => "Never"

/-- Each type of a list as text. -/
def renderAll (env : ClassEnv) (qualified : Bool) : List Ty → List String
  | [] => []
  | t :: ts => render env qualified t :: renderAll env qualified ts

end

/-- The display form, with simple class names (`Box<Int>?`). -/
def display (env : ClassEnv) (t : Ty) : String := t.render env false

/-- The unambiguous form, with qualified class names (`App.Box<Int>?`). -/
def key (env : ClassEnv) (t : Ty) : String := t.render env true

end Ty

/-- The display form of a type that may be missing (`<none>`). -/
def Ty.displayOpt (env : ClassEnv) : Option Ty → String
  | some t => t.display env
  | none => "<none>"

/-- The key of a type that may be missing (`<none>`). -/
def Ty.keyOpt (env : ClassEnv) : Option Ty → String
  | some t => t.key env
  | none => "<none>"

end AmLang
