import AmLang.Data.Json
import AmLang.Syntax.Printer
import AmLang.Diagnostic.Basic
/-!
# Syntax tree views

Declarations and statements as JSON, for tools that inspect the parser. Expressions and type
annotations are not spelled out as trees: each is its printed text (see `AmLang.Syntax.Printer`).
A span is `[start line, start column, end line, end column]`.
-/

namespace AmLang

namespace Span

/-- `[start line, start column, end line, end column]`. -/
def toJson (s : Span) : Json :=
  .arr [.nat s.start.line, .nat s.start.column, .nat s.stop.line, .nat s.stop.column]

end Span

namespace Diagnostic

/-- A diagnostic as JSON. -/
def toJson (d : Diagnostic) : Json :=
  .obj [("kind", .str d.kind.tag), ("category", .str d.kind.category), ("code", .str d.code),
    ("severity", .str d.severity.name), ("message", .str d.message), ("file", .str d.file),
    ("line", .nat d.line), ("col", .nat d.column), ("len", .nat d.length),
    ("notes", Json.strs d.notes)]

end Diagnostic

/-- A type annotation as its text, or `null`. -/
def typeText (t : Option TypeExpr) : Json := Json.opt (fun t => .str t.render) t

/-- An expression as its text, or `null`. -/
def exprText (e : Option Expr) : Json := Json.opt (fun e => .str e.render) e

/-- The names of the set modifiers of a function, in a fixed order. -/
def FunctionFlags.names (f : FunctionFlags) : List String :=
  [("static", f.isStatic), ("override", f.isOverride), ("abstract", f.isAbstract),
   ("suspend", f.isSuspend), ("native", f.isNative)].filterMap fun (n, b) =>
    if b then some n else none

mutual

/-- A statement as JSON. -/
def Stmt.toJson : Stmt → Json
  | .mk k sp =>
    let fields : String × List (String × Json) := match k with
      | .block ss => ("Block", [("stmts", .arr (Stmt.listToJson ss))])
      | .scope ss => ("Scope", [("stmts", .arr (Stmt.listToJson ss))])
      | .ifThen c t e => ("If", [("cond", exprText (some c)), ("then", Stmt.toJson t),
          ("else", Stmt.optToJson e)])
      | .whileLoop c b => ("While", [("cond", exprText (some c)), ("body", Stmt.toJson b)])
      | .forRange v _ lo hi b => ("For", [("var", .str v), ("from", exprText (some lo)),
          ("to", exprText (some hi)), ("body", Stmt.toJson b)])
      | .loop b => ("Loop", [("body", Stmt.toJson b)])
      | .switch subj cs => ("Switch", [("subject", exprText (some subj)),
          ("clauses", .arr (Clause.listToJson cs))])
      | .varDecl isVal n _ t i => (if isVal then "Val" else "Var",
          [("name", .str n), ("type", typeText t), ("init", exprText i)])
      | .returnStmt v => ("Return", [("value", exprText v)])
      | .throwStmt v => ("Throw", [("value", exprText (some v))])
      | .breakStmt => ("Break", [])
      | .continueStmt => ("Continue", [])
      | .exprStmt e => ("Expr", [("expr", exprText (some e))])
      | .mock d => ("Mock", [("decl", Decl.toJson d)])
    .obj ([("s", .str fields.1)] ++ fields.2 ++ [("span", sp.toJson)])

/-- An optional statement as JSON, or `null`. -/
def Stmt.optToJson : Option Stmt → Json
  | some s => Stmt.toJson s
  | none => .null

/-- Statements as JSON. -/
def Stmt.listToJson : List Stmt → List Json
  | [] => []
  | s :: ss => Stmt.toJson s :: Stmt.listToJson ss

/-- Switch clauses as JSON. -/
def Clause.listToJson : List Clause → List Json
  | [] => []
  | .mk vs d body _ _ :: cs =>
    .obj [("default", .bool d), ("values", .arr (vs.map fun v => exprText (some v))),
      ("body", .arr (Stmt.listToJson body))] :: Clause.listToJson cs

/-- A declaration as JSON. -/
def Decl.toJson : Decl → Json
  | .mk k sp nameSp reqs =>
    let fields : String × List (String × Json) := match k with
      | .namespaceDecl p ms => ("Namespace", [("path", .str (joinPath p)),
          ("members", .arr (Decl.listToJson ms))])
      | .importDecl p => ("Import", [("path", .str (joinPath p))])
      | .classDecl n gs sup ifs ms isAbs isMock => (if isMock then "Mock" else "Class",
          [("name", .str n), ("generics", Json.strs gs), ("super", typeText sup),
           ("interfaces", .arr (ifs.map fun t => .str t.render)), ("abstract", .bool isAbs),
           ("members", .arr (Decl.listToJson ms))])
      | .interfaceDecl n gs ps ms => ("Interface", [("name", .str n), ("generics", Json.strs gs),
          ("extends", .arr (ps.map fun t => .str t.render)), ("members", .arr (Decl.listToJson ms))])
      | .field n t i isVal isStatic => ("Field", [("name", .str n), ("type", typeText t),
          ("init", exprText i), ("val", .bool isVal), ("static", .bool isStatic)])
      | .function n gs ps r b f =>
        (if f.isConstructor then "Constructor" else if f.isTest then "Test" else "Function",
          [("name", .str n), ("generics", Json.strs gs),
           ("params", .arr (ps.map fun p => .arr [.str p.name, .str p.type.render])),
           ("ret", typeText r), ("flags", Json.strs f.names), ("body", Stmt.optToJson b)])
    let requires := if reqs.isEmpty then []
      else [("requires", Json.strs (reqs.map fun r => (if r.negated then "!" else "") ++ r.feature))]
    .obj ([("d", .str fields.1)] ++ fields.2 ++ requires ++
      [("span", sp.toJson), ("name_at", .arr [.nat nameSp.start.line, .nat nameSp.start.column])])

/-- Declarations as JSON. -/
def Decl.listToJson : List Decl → List Json
  | [] => []
  | d :: ds => Decl.toJson d :: Decl.listToJson ds

end

end AmLang
