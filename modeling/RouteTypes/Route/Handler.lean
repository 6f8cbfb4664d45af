-- The handler of a registration. It is the third argument, a function that is written right there with
-- one parameter. Its parameter and what it returns have schemas.
import RouteTypes.Route.Anchor
import RouteTypes.Route.Lowering

namespace RouteTypes.Route

open Text

/-! ## The function -/

/-- The kind of a node in words. -/
def kindInWords (kind : NodeKind) : String :=
  String.ofList (kind.label.toList.map fun c => if c = '_' then ' ' else c.toLower)

/-- What stands in the place of a handler, if it is no function that is written there. -/
def notAHandler? (arg : Node) : Option String :=
  match arg.kind with
  | .arrowFunction => none
  | .functionExpr => arg.name?.map fun name => s!"named function expression `{name.text}`"
  | .nameRef => some s!"reference to `{arg.text}`"
  | .spreadElement => some "spread argument"
  | kind => some (kindInWords kind)

/-- The body of a handler. -/
def bodyOf? (handler : Node) : Option Node :=
  if handler.kind == .arrowFunction then handler.arrowBody? else handler.block?

/-- The handler among the arguments of a registration. -/
def handlerOf (config : Config) (call : Node) : Except Failure Node := do
  let list ← call.expectChild (.node .argList)
  match list.elements with
  | [_, _, arg] =>
    match notAHandler? arg with
    | none => .ok arg
    | some found => .error ⟨.handlerShape found, some arg.span⟩
  | args =>
    .error ⟨.arity s!"arguments to `{config.method}`" 3 args.length, some list.span⟩

/-! ## Its types -/

/-- A program with the ways to call the values of its types. -/
structure Callables where
  checked : Checked
  calls : TypeId → List SignatureId

/-- The program with the ways that were found when it was checked. -/
def callables (checked : Checked) : Callables := ⟨checked, checked.calls⟩

/-- The one signature of a handler. -/
def signatureOf (program : Callables) (handler : Node) : Except Failure SignatureId :=
  match program.calls (program.checked.typeOfNode handler) with
  | [only] => .ok only
  | several => .error ⟨.ambiguousSignature several.length, some handler.span⟩

/-- The one parameter of a handler. -/
def paramOf (checked : Checked) (handler : Node) (signature : SignatureId) :
    Except Failure SymbolId :=
  match (checked.signature signature).params with
  | [only] => .ok only
  | several =>
    let span := ((handler.child? (· == .paramList)).map (·.span)).getD handler.span
    .error ⟨.arity "handler parameters" 1 several.length, some span⟩

/-- The schema of a type. If there is none, the place says where the type comes from. -/
def lowerAt (checked : Checked) (span : Span) (type : TypeId) : Except Failure Schema :=
  (checked.typeTable.lower type).mapError (⟨·, some span⟩)

/-- The schemas of the parameter and of what is returned. -/
def schemasOf (config : Config) (program : Callables) (call : Node) :
    Except Failure (Schema × Schema) := do
  let checked := program.checked
  let handler ← handlerOf config call
  let signature ← signatureOf program handler
  let param ← paramOf checked handler signature
  let paramSpan := ((checked.valueDeclaration? param).map (·.span)).getD handler.span
  let params ← lowerAt checked paramSpan (checked.typeOfSymbol param)
  let returnSpan := ((bodyOf? handler).map (·.span)).getD handler.span
  let returned ← lowerAt checked returnSpan (checked.returnType signature)
  return (params, returned)

end RouteTypes.Route
