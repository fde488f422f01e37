import AmLang.Check.Tree
/-!
# What a checked tree mentions

A lambda's captures are a statement about the tree checking built for its body: the locals that
names in it stand for, the locals it declares, whether it reaches the running object, and the
lambdas nested in it. `TypedExpr.mentions` lists these for every checked tree, nested lambdas
included, so that the captures of a lambda can be compared with its body.

A name mentions the local it stands for. `this`, `super`, and a field or method of the class
reached without writing `this` mention the running object. A lambda's parameters, a variable
declaration and a counted loop's variable declare locals.

## Main definitions

* `Mention` — a read of a local, a declaration of one, a use of the running object, or a lambda.
* `TypedExpr.mentions`, `TypedStmt.listMentions` — everything a checked tree mentions.
* `CapturesExact` — a lambda captures each local once, exactly those its body reads and does
  not declare, and `this` exactly when its body uses the running object.
-/

namespace AmLang

/-- What a checked tree mentions that matters to the lambdas around it. -/
inductive Mention where
  /-- A name that stands for local `x`. -/
  | read (x : LocalId)
  /-- A declaration of local `x`: a lambda parameter, `val`/`var`, or a loop variable. -/
  | declare (x : LocalId)
  /-- A use of the running object: `this`, `super`, or a member reached through it implicitly. -/
  | self
  /-- A lambda: its parameters and body, and the locals and whether `this` it captures. -/
  | lambda (params : List LocalId) (body : TypedLambdaBody) (captures : List LocalId)
      (capturesThis : Bool)

/-- The running object, when an expression's information says it reaches a member through it. -/
def ExprInfo.selfMentions (info : ExprInfo) : List Mention :=
  if info.implicitThis then [.self] else []

mutual

/-- Everything an expression mentions, nested lambdas included. -/
def TypedExpr.mentions : TypedExpr → List Mention
  | .mk k _ info => info.selfMentions ++ TypedExprKind.mentions info k

/-- What an expression of form `k` with information `info` mentions besides the running object
its information names. -/
def TypedExprKind.mentions (info : ExprInfo) : TypedExprKind → List Mention
  | .literal _ => []
  | .ident _ => info.localVar.toList.map .read
  | .thisRef => [.self]
  | .superRef => [.self]
  | .unary _ o => o.mentions
  | .binary _ l r => l.mentions ++ r.mentions
  | .assign _ t v => t.mentions ++ v.mentions
  | .call c args => c.mentions ++ TypedExpr.listMentions args
  | .member o _ _ => o.mentions
  | .index o i => o.mentions ++ i.mentions
  | .newObject args => TypedExpr.listMentions args
  | .newArray size => size.mentions
  | .interpolation segs => TypedSegment.listMentions segs
  | .arrayLit es => TypedExpr.listMentions es
  | .lambda ps body =>
    .lambda ps body info.captures info.capturesThis :: (ps.map .declare ++ body.mentions)
  | .cast o => o.mentions
  | .typeTest o => o.mentions
  | .cond c a b => c.mentions ++ a.mentions ++ b.mentions
  | .unchecked => []

/-- What the expressions of a list mention, in order. -/
def TypedExpr.listMentions : List TypedExpr → List Mention
  | [] => []
  | e :: es => e.mentions ++ TypedExpr.listMentions es

/-- What an optional expression mentions. -/
def TypedExpr.optMentions : Option TypedExpr → List Mention
  | none => []
  | some e => e.mentions

/-- What a segment of an interpolated string mentions. -/
def TypedSegment.mentions : TypedSegment → List Mention
  | .text _ => []
  | .expr e => e.mentions

/-- What the segments of an interpolated string mention, in order. -/
def TypedSegment.listMentions : List TypedSegment → List Mention
  | [] => []
  | s :: ss => s.mentions ++ TypedSegment.listMentions ss

/-- What a lambda's body mentions. -/
def TypedLambdaBody.mentions : TypedLambdaBody → List Mention
  | .block ss => TypedStmt.listMentions ss
  | .expr e => e.mentions

/-- Everything a statement mentions, nested lambdas included. -/
def TypedStmt.mentions : TypedStmt → List Mention
  | .mk k _ => TypedStmtKind.mentions k

/-- What a statement of form `k` mentions. -/
def TypedStmtKind.mentions : TypedStmtKind → List Mention
  | .block ss => TypedStmt.listMentions ss
  | .ifThen c t e => c.mentions ++ t.mentions ++ TypedStmt.optMentions e
  | .whileLoop c body => c.mentions ++ body.mentions
  | .forRange x lo hi body => lo.mentions ++ hi.mentions ++ .declare x :: body.mentions
  | .loop body => body.mentions
  | .switch subject _ clauses => subject.mentions ++ TypedClause.listMentions clauses
  | .varDecl x init => TypedExpr.optMentions init ++ [.declare x]
  | .returnStmt value => TypedExpr.optMentions value
  | .throwStmt value => value.mentions
  | .breakStmt => []
  | .continueStmt => []
  | .exprStmt e => e.mentions
  | .scope ss => TypedStmt.listMentions ss
  | .mock _ => []

/-- What the statements of a list mention, in order. -/
def TypedStmt.listMentions : List TypedStmt → List Mention
  | [] => []
  | s :: ss => s.mentions ++ TypedStmt.listMentions ss

/-- What an optional statement mentions. -/
def TypedStmt.optMentions : Option TypedStmt → List Mention
  | none => []
  | some s => s.mentions

/-- What a clause of a switch mentions: its case values, then its body. -/
def TypedClause.mentions : TypedClause → List Mention
  | .mk values _ body => TypedExpr.listMentions values ++ TypedStmt.listMentions body

/-- What the clauses of a switch mention, in order. -/
def TypedClause.listMentions : List TypedClause → List Mention
  | [] => []
  | c :: cs => c.mentions ++ TypedClause.listMentions cs

end

attribute [simp] ExprInfo.selfMentions TypedExpr.mentions TypedExprKind.mentions
  TypedSegment.mentions TypedLambdaBody.mentions TypedStmt.mentions TypedStmtKind.mentions
  TypedClause.mentions

@[simp] theorem TypedExpr.listMentions_eq (es : List TypedExpr) :
    TypedExpr.listMentions es = es.flatMap TypedExpr.mentions := by
  induction es with
  | nil => rfl
  | cons e es ih => simp [TypedExpr.listMentions, ih]

@[simp] theorem TypedSegment.listMentions_eq (ss : List TypedSegment) :
    TypedSegment.listMentions ss = ss.flatMap TypedSegment.mentions := by
  induction ss with
  | nil => rfl
  | cons s ss ih => simp [TypedSegment.listMentions, ih]

@[simp] theorem TypedStmt.listMentions_eq (ss : List TypedStmt) :
    TypedStmt.listMentions ss = ss.flatMap TypedStmt.mentions := by
  induction ss with
  | nil => rfl
  | cons s ss ih => simp [TypedStmt.listMentions, ih]

@[simp] theorem TypedClause.listMentions_eq (cs : List TypedClause) :
    TypedClause.listMentions cs = cs.flatMap TypedClause.mentions := by
  induction cs with
  | nil => rfl
  | cons c cs ih => simp [TypedClause.listMentions, ih]

@[simp] theorem TypedExpr.optMentions_eq (e : Option TypedExpr) :
    TypedExpr.optMentions e = e.toList.flatMap TypedExpr.mentions := by
  cases e <;> simp [TypedExpr.optMentions]

@[simp] theorem TypedStmt.optMentions_eq (s : Option TypedStmt) :
    TypedStmt.optMentions s = s.toList.flatMap TypedStmt.mentions := by
  cases s <;> simp [TypedStmt.optMentions]

/-- A lambda with parameters `ps` and body `body` captures exactly what its body needs from
enclosing code: each local once, those a name in its body stands for that neither its
parameters nor its body declare, and `this` exactly when its body uses the running object. -/
def CapturesExact (ps : List LocalId) (body : TypedLambdaBody) (captures : List LocalId)
    (capturesThis : Bool) : Prop :=
  captures.Nodup ∧
  (∀ x, x ∈ captures ↔ Mention.read x ∈ body.mentions ∧ x ∉ ps ∧
    Mention.declare x ∉ body.mentions) ∧
  (capturesThis = true ↔ Mention.self ∈ body.mentions)

/-- Every lambda among `ms` captures exactly. -/
def Mention.LambdasExact (ms : List Mention) : Prop :=
  ∀ ps body captures capturesThis, Mention.lambda ps body captures capturesThis ∈ ms →
    CapturesExact ps body captures capturesThis

/-- Changing what checking learned about an expression, but not the local it names, whether it
reaches `this`, or what a lambda captures, changes nothing it mentions. -/
theorem TypedExpr.mentions_withInfo (e : TypedExpr) (i : ExprInfo)
    (hthis : i.implicitThis = e.info.implicitThis) (hlocal : i.localVar = e.info.localVar)
    (hcap : i.captures = e.info.captures) (hcapThis : i.capturesThis = e.info.capturesThis) :
    (e.withInfo i).mentions = e.mentions := by
  obtain ⟨k, span, info⟩ := e
  simp only [TypedExpr.info] at hthis hlocal hcap hcapThis
  cases k <;>
    simp [TypedExpr.withInfo, TypedExpr.kind, TypedExpr.span, TypedExpr.mentions,
      TypedExprKind.mentions, ExprInfo.selfMentions, hthis, hlocal, hcap, hcapThis]

end AmLang
