import AmLang.Emit.Program
/-!
# Whether the generated C links

The generated files compile and link with the runtime unless two units get one C file stem (so
one file and one initializer for both), two definitions of the program take one C name, or the
code refers to a function that nothing defines. Names clash when two class
instances, two functions or two pieces of storage map to one C identifier (`Box<A.B>` and
`Box<A_B>` both become `am_Box_A_B`), or when two members of one struct do (a field `x_1` after a
second field `x`, which is numbered `f_x_1`). Nothing defines a `native` function the runtime does not
provide; the code refers to one when it calls it by name or puts it into a dispatch table. A
native function that is only declared links.
-/

namespace AmLang

mutual

/-- The functions an expression refers to by their C names: those it calls directly and the
constructors it runs; at most `fuel` levels deep. -/
def TypedExpr.namedCallees : Nat → TypedExpr → List FunctionId
  | 0, _ => []
  | n + 1, .mk k _ info =>
    let named := match k, info.callKind with
      | .newObject _, _ | _, .free | _, .static | _, .direct | _, .superConstructor =>
        info.function.toList
      | _, _ => []
    named ++ match k with
      | .unary _ a | .member a _ _ | .newArray a | .cast a | .typeTest a =>
        TypedExpr.namedCallees n a
      | .binary _ a b | .assign _ a b | .index a b =>
        TypedExpr.namedCallees n a ++ TypedExpr.namedCallees n b
      | .cond a b c =>
        TypedExpr.namedCallees n a ++ TypedExpr.namedCallees n b ++ TypedExpr.namedCallees n c
      | .call c args => TypedExpr.namedCallees n c ++ args.flatMap (TypedExpr.namedCallees n)
      | .newObject args | .arrayLit args => args.flatMap (TypedExpr.namedCallees n)
      | .interpolation segs => segs.flatMap fun seg => match seg with
        | .text _ => []
        | .expr e => TypedExpr.namedCallees n e
      | .lambda _ (.expr b) => TypedExpr.namedCallees n b
      | .lambda _ (.block ss) => ss.flatMap (TypedStmt.namedCallees n)
      | _ => []

/-- The functions a statement refers to by their C names. -/
def TypedStmt.namedCallees : Nat → TypedStmt → List FunctionId
  | 0, _ => []
  | n + 1, .mk k _ =>
    match k with
    | .block ss | .scope ss => ss.flatMap (TypedStmt.namedCallees n)
    | .ifThen c t e =>
      TypedExpr.namedCallees n c ++ TypedStmt.namedCallees n t ++
        (e.map (TypedStmt.namedCallees n)).getD []
    | .whileLoop c body => TypedExpr.namedCallees n c ++ TypedStmt.namedCallees n body
    | .forRange _ lo hi body =>
      TypedExpr.namedCallees n lo ++ TypedExpr.namedCallees n hi ++ TypedStmt.namedCallees n body
    | .loop body => TypedStmt.namedCallees n body
    | .switch s _ clauses =>
      TypedExpr.namedCallees n s ++ clauses.flatMap fun c =>
        c.values.flatMap (TypedExpr.namedCallees n) ++ c.body.flatMap (TypedStmt.namedCallees n)
    | .varDecl _ init => (init.map (TypedExpr.namedCallees n)).getD []
    | .returnStmt v => (v.map (TypedExpr.namedCallees n)).getD []
    | .throwStmt v | .exprStmt v => TypedExpr.namedCallees n v
    | _ => []

end

/-- Whether a list has two equal elements. -/
def hasDuplicate (xs : List String) : Bool :=
  (xs.foldl (fun (acc : Bool × Std.TreeSet String) x =>
    (acc.1 || acc.2.contains x, acc.2.insert x)) (false, ∅)).1

namespace Layout

/-- Whether the code of a program refers to a function that nothing defines: a `native`
function outside the runtime, called by name anywhere or entered into a dispatch table of a
class or mock. `fuel` bounds the walk over the checked trees. -/
def refersToUndefined (l : Layout) (fuel : Nat) : Bool :=
  let t := l.table
  let undefined := fun (f : FunctionId) =>
    let fs := t.fn f
    fs.flags.isNative && !fs.isBuiltin && !fs.flags.isAbstract && !fs.isGeneric
  let described := l.classes.toList.flatMap (·.toList.map (·.cls)) ++
    l.program.units.toList.flatMap (·.mocks)
  let inTables := described.any fun c =>
    let k := t.cls c
    !k.isInterface && (k.vtable.any undefined || k.itables.any fun i =>
      i.methods.any fun m => (m.map undefined).getD false)
  let called := l.program.units.toList.any fun u =>
    u.functions.toList.any (fun (_, tf) =>
      ((tf.body.getD []).flatMap (TypedStmt.namedCallees fuel)).any undefined) ||
    u.initializers.toList.any (fun (_, e) => (TypedExpr.namedCallees fuel e).any undefined)
  inTables || called

/-- The class instance types whose structs the generated C defines: every emitted class that is
not an interface, and every mock. -/
def structTypes (l : Layout) : List Ty :=
  let t := l.table
  (l.classes.toList.flatMap fun unit => unit.toList.filterMap fun ec =>
    if (t.cls ec.cls).isInterface then none else some ec.type) ++
  (l.program.units.toList.flatMap (·.mocks)).map fun m => (t.cls m).selfType m

/-- Whether the generated C compiles and links with the runtime: no two units share a C file
(each defines its `<module>__init`), no C name is defined twice, no struct has two members of
one name, and nothing the code refers to is left undefined. -/
def links (l : Layout) (fuel : Nat) : Bool :=
  let t := l.table
  let classNames := l.classes.toList.flatMap (·.toList.map (·.cName))
  let functionNames := l.functions.toList.flatMap (·.toList.map (·.cName))
  let storageNames := l.storage.toList.flatMap (·.toList.map fun f => (t.field f).cName)
  !hasDuplicate l.program.moduleNames.toList &&
  !hasDuplicate classNames && !hasDuplicate functionNames && !hasDuplicate storageNames &&
    (l.structTypes.all fun ty => !hasDuplicate ((l.structMembers ty).map (·.name))) &&
    !l.refersToUndefined fuel

end Layout

end AmLang
