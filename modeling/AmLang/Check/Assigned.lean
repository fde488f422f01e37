import AmLang.Syntax.Ast
/-!
# Names assigned in code

The plain names that code assigns to (`x = …`, `x += …`), found without checking it. A loop
forgets what it knew about these locals before its body is checked, since a later iteration may
see them changed; so does a branch that falls through after the other one left. Lambdas are not
looked into: they cannot assign the locals they capture.
-/

namespace AmLang

mutual

/-- The names an expression assigns to, in order. -/
def Expr.assignedNames : Expr → List String
  | .mk (.assign _ target value) _ =>
    let inTarget := match target with
      | .mk (.ident n) _ => [n]
      | t => t.assignedNames
    inTarget ++ value.assignedNames
  | .mk (.unary _ e) _ => e.assignedNames
  | .mk (.binary _ l r) _ => l.assignedNames ++ r.assignedNames
  | .mk (.call callee args) _ => callee.assignedNames ++ Expr.assignedNamesAll args
  | .mk (.member o _ _ _) _ => o.assignedNames
  | .mk (.index o i) _ => o.assignedNames ++ i.assignedNames
  | .mk (.newObject _ args) _ => Expr.assignedNamesAll args
  | .mk (.newArray _ size) _ => size.assignedNames
  | .mk (.interpolation segs) _ => Segment.assignedNamesAll segs
  | .mk (.arrayLit es) _ => Expr.assignedNamesAll es
  | .mk (.cast e _) _ => e.assignedNames
  | .mk (.typeTest e _) _ => e.assignedNames
  | .mk (.cond c a b) _ => c.assignedNames ++ a.assignedNames ++ b.assignedNames
  | _ => []

/-- The names a list of expressions assigns to. -/
def Expr.assignedNamesAll : List Expr → List String
  | [] => []
  | e :: es => e.assignedNames ++ Expr.assignedNamesAll es

/-- The names the expressions of interpolated segments assign to. -/
def Segment.assignedNamesAll : List Segment → List String
  | [] => []
  | .text _ _ :: ss => Segment.assignedNamesAll ss
  | .expr e _ :: ss => e.assignedNames ++ Segment.assignedNamesAll ss

end

/-- The names an optional expression assigns to. -/
def Expr.assignedNamesOpt : Option Expr → List String
  | none => []
  | some e => e.assignedNames

mutual

/-- The names a statement assigns to, in order; nested loops and branches included. -/
def Stmt.assignedNames : Stmt → List String
  | .mk (.block ss) _ => Stmt.assignedNamesAll ss
  | .mk (.scope ss) _ => Stmt.assignedNamesAll ss
  | .mk (.ifThen c t e) _ => c.assignedNames ++ t.assignedNames ++ Stmt.assignedNamesOpt e
  | .mk (.whileLoop c body) _ => c.assignedNames ++ body.assignedNames
  | .mk (.forRange _ _ lo hi body) _ => lo.assignedNames ++ hi.assignedNames ++ body.assignedNames
  | .mk (.loop body) _ => body.assignedNames
  | .mk (.switch subject clauses) _ => subject.assignedNames ++ Clause.assignedNamesAll clauses
  | .mk (.varDecl _ _ _ _ init) _ => Expr.assignedNamesOpt init
  | .mk (.returnStmt v) _ => Expr.assignedNamesOpt v
  | .mk (.throwStmt v) _ => v.assignedNames
  | .mk (.exprStmt e) _ => e.assignedNames
  | _ => []

/-- The names a list of statements assigns to. -/
def Stmt.assignedNamesAll : List Stmt → List String
  | [] => []
  | s :: ss => s.assignedNames ++ Stmt.assignedNamesAll ss

/-- The names an optional statement assigns to. -/
def Stmt.assignedNamesOpt : Option Stmt → List String
  | none => []
  | some s => s.assignedNames

/-- The names the bodies of switch clauses assign to. -/
def Clause.assignedNamesAll : List Clause → List String
  | [] => []
  | .mk _ _ body _ _ :: cs => Stmt.assignedNamesAll body ++ Clause.assignedNamesAll cs

end

end AmLang
