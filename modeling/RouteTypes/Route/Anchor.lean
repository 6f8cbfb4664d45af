-- The anchor: the method that registers routes. It is the member of that name of the class of the
-- default export. Calls are told apart by what they refer to and not by names, so other names for the
-- method or for its object count too.
import RouteTypes.Route.Config
import RouteTypes.Route.Shape
import RouteTypes.Typing.Display

namespace RouteTypes

open Text

namespace Node

/-- The nodes below that a path of kinds leads to, each step one level further down. -/
def reached : List NodeKind → Node → List Node
  | [], node => [node]
  | kind :: path, node => (node.childrenOf (· == kind)).flatMap (reached path)

/-- The default exports of a program. -/
def defaultExports (root : Node) : List Node := root.reached [.stmtList, .exportDefault]

end Node

namespace Route

/-- The one default export of a program. -/
def theExport (root : Node) : Except Failure Node :=
  match root.defaultExports with
  | [only] => .ok only
  | exports => .error ⟨.exportCount exports.length, exports[1]?.map (·.span)⟩

/-- The name in `export default name`. -/
def exportedName (statement : Node) : Except Failure Node :=
  let malformed (reason : String) : Except Failure Node :=
    .error ⟨.malformedExport reason, some statement.span⟩
  match statement.significant with
  | first :: second :: third :: _ =>
    if first.kind ≠ .token .exportKw then malformed "expected `export`"
    else if second.kind ≠ .token .defaultKw then malformed "expected `default`"
    else match (statement.inner? third).filter (·.kind == .nameRef) with
      | some name => .ok name
      | none =>
        malformed s!"expected an identifier after `export default`, found {third.kind.label}"
  | parts => malformed s!"expected `export default <name>`, found {parts.length} parts"

/-- The type of what a node declares. -/
def typeOfDeclaration (checked : Checked) (node : Node) : TypeId :=
  match checked.declared? node with
  | some symbol => checked.typeOfSymbol symbol
  | none => checked.typeOfNode node

/-- The method that registers routes in the program. -/
def anchor (config : Config) (checked : Checked) (root : Node) : Except Failure SymbolId := do
  let statement ← theExport root
  let name ← exportedName statement
  let fail {α : Type} (cause : Cause) : Except Failure α := .error ⟨cause, some name.span⟩
  match (checked.resolveAliased name).bind checked.valueDeclaration? with
  | none => fail (.unresolvedExport name.text)
  | some declaration =>
    let type := typeOfDeclaration checked declaration
    if checked.typeName? type == some config.type && checked.isClass type then
      match checked.property? type config.method with
      | some method => .ok method
      | none => fail (.missingMethod config.type config.method)
    else fail (.wrongExportType config.type (checked.display type))

/-! ## Registrations -/

/-- Whether a call is one of the anchor, through a member access or by name alone. -/
def isRegistration (checked : Checked) (anchor : SymbolId) (call : Node) : Bool :=
  match call.expression? with
  | some callee =>
    (callee.kind == .propertyAccess || callee.kind == .nameRef)
      && checked.resolveAliased callee == some anchor
  | none => false

/-- All calls of the anchor below a node, an outer one before those in it. -/
def registrations (checked : Checked) (anchor : SymbolId) (root : Node) : List Node :=
  root.descendants.filter fun node =>
    node.kind == .callExpr && isRegistration checked anchor node

end Route

end RouteTypes
