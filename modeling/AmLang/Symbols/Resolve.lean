import AmLang.Symbols.Lookup
import AmLang.Syntax.Printer
/-!
# From annotations to types

`NameLookup.resolveType` turns a type annotation into a `Ty`. A single name is a primitive, then
a generic parameter in scope, then a class; a dotted name is a class. A class name is replaced by
its mock when one is active. What cannot be resolved is reported once, where it stands, and
becomes the error type, which converts to everything, so one mistake is not reported again by
every use.

Rules checked here: primitives and generic parameters take no arguments, a class takes exactly
as many as it has parameters, and `Unit` is neither an array element nor a type argument.
-/

namespace AmLang

namespace NameLookup

variable {m : Type → Type} [Monad m] [Reporter m]

/-- The class a class name stands for, with mocks applied; reports it when there is none. -/
def resolveClass (l : NameLookup) (path : List String) (span : Span) (ctx : LookupContext) :
    m (Option ClassId) := do
  match l.findClass? path ctx.ns with
  | some c => pure (some (ctx.mocks.apply c))
  | none =>
    Reporter.report (l.unresolved "type" (joinPath path) span ctx.ns [])
    pure none

/-- Reports a type mismatch and gives the error type. -/
def mismatch (message : String) (span : Span) : m Ty := do
  Reporter.report (Diagnostic.error .typeMismatch Code.typeMismatch message span)
  pure .error

mutual

/-- The type an annotation stands for in context `ctx`. -/
def resolveType (l : NameLookup) (ctx : LookupContext) : TypeExpr → m Ty
  | .array e span n => do
    let element ← resolveType l ctx e
    if element.isError then return element
    if element.isUnit then return ← mismatch "array element type cannot be Unit" span
    pure (.array element n)
  | .func ps r _ n => do
    let params ← resolveTypes l ctx ps
    let result ← resolveType l ctx r
    if params.any (·.isError) || result.isError then return .error
    pure ((Ty.func params result false).withNullable n)
  | t@(.named path args span n) => do
    if let [name] := path then
      if let some k := Prim.ofName? name then
        if !args.isEmpty then return ← mismatch ("type '" ++ name ++ "' takes no type arguments") span
        return Ty.primitive k n
      if ctx.generics.contains name then
        if !args.isEmpty then
          return ← mismatch ("type parameter '" ++ name ++ "' takes no type arguments") span
        return .param name n
    let some c ← l.resolveClass path span ctx | return .error
    let resolved ← resolveTypes l ctx args
    if resolved.any (·.isError) then return .error
    if let some (_, a) := (resolved.zip args).find? (·.1.isUnit) then
      return ← mismatch "Unit cannot be used as a type argument" a.span
    let k := l.table.cls c
    if resolved.length != k.generics.length then
      return ← mismatch ("'" ++ k.name ++ "' expects " ++ toString k.generics.length ++
        " type argument(s), found " ++ toString resolved.length) span
    Reporter.log (Log.trace "binder" ("resolved type " ++ t.render ++ " -> " ++ k.qualifiedName))
    pure (.obj c resolved n)

/-- The types of a list of annotations, each resolved (and reported) in turn. -/
def resolveTypes (l : NameLookup) (ctx : LookupContext) : List TypeExpr → m (List Ty)
  | [] => pure []
  | t :: ts => do
    let r ← resolveType l ctx t
    pure (r :: (← resolveTypes l ctx ts))

end

end NameLookup

end AmLang
