-- Annotating registrations. Each gets one more argument: an object with the numbers of the two schemas
-- of its handler. An outer call is numbered before those in its arguments. Nothing but the arguments is
-- added, and if one registration fails nothing is written at all.
import RouteTypes.Route.Handler
import RouteTypes.Route.Registry

namespace RouteTypes

open Text

/-! ## The argument -/

namespace Tree

/-- The parts of a list of arguments with one more argument: behind the last part that is neither
blank nor comment before the closing parenthesis, or behind the comma there is already. -/
def appendArgument (arg : Tree) (parts : List Tree) : Option (List Tree) :=
  let (after, rest) := parts.reverse.span (·.kind != .token .rParen)
  match rest with
  | [] => none
  | close :: before =>
    let (blanks, before) := before.span (·.isTrivia)
    match before with
    | [] => none
    | last :: _ =>
      let group := if last.kind == .token .comma then [space, arg, comma] else [comma, space, arg]
      some (before.reverse ++ group ++ blanks.reverse ++ close :: after.reverse)

end Tree

namespace Route

/-- `{ params: 0, returns: 1 }` -/
def argument (config : Config) (params returned : Nat) : Tree :=
  .objectLiteral
    [.propertyAssignment config.paramsField (.numberLiteral params),
      .propertyAssignment config.returnField (.numberLiteral returned)]

/-- A call with one more argument. Places in a failure count from the start of the call. -/
def appendTo (arg call : Tree) : Except Failure Tree := do
  let call := Node.ofTree .program call
  let list ← call.expectChild (.node .argList)
  match Tree.appendArgument arg (Part.eraseAll list.parts) with
  | none => .error ⟨.malformedNode list.kind.label "a closing `)`", some list.span⟩
  | some parts =>
    let (before, behind) := call.parts.span fun part => part.kind != .node .argList
    .ok (.node call.kind
      (Part.eraseAll before ++ .node .argList parts :: Part.eraseAll behind.tail))

/-! ## Filing -/

/-- What is done with a registry. It is there in the end even if that fails. -/
abbrev Filing := ExceptT Failure (StateM Registry)

/-- Files the schemas of the parameter and of what is returned of a registration. The answer is their
numbers. -/
def fileSchemas (config : Config) (program : Callables) (call : Node) : Filing (Nat × Nat) := do
  let (params, returned) ← liftExcept (schemasOf config program call)
  let paramsId ← modifyGet fun registry => registry.register params
  let returnedId ← modifyGet fun registry => registry.register returned
  return (paramsId, returnedId)

/-! ## The visit -/

/-- What the visit has come to. -/
structure Progress where
  registry : Registry
  /-- How many registrations have got their argument. -/
  annotated : Nat
deriving Repr

namespace Progress

def start : Progress := ⟨.empty, 0⟩

end Progress

/-- Something that is done with the registry during the visit. If it fails, the visit ends. -/
def filing {α : Type} (action : Filing α) : Visiting Progress Failure α := fun progress =>
  let (result, registry) := action.run.run progress.registry
  result.map fun answer => (answer, { progress with registry })

/-- Files the schemas of a registration and gives it its argument, once the calls in it have theirs. -/
def annotateCall (config : Config) (program : Callables) (call : Node)
    (below : Visiting Progress Failure Visit) : Visiting Progress Failure Visit := do
  let (paramsId, returnedId) ← filing (fileSchemas config program call)
  let visit ← below
  modify fun progress => { progress with annotated := progress.annotated + 1 }
  return .changed (← appendTo (argument config paramsId returnedId) (visit.resultAt call))

/-- The visitor that annotates every call of the anchor. -/
def annotator (config : Config) (program : Callables) (anchor : SymbolId) :
    Visitor Progress Failure where
  handles kind := kind == .callExpr
  handle call below :=
    if isRegistration program.checked anchor call then annotateCall config program call below
    else below

/-- A program with annotated registrations. -/
structure Annotated where
  visit : Visit
  registry : Registry
  /-- How many registrations there are. -/
  registrations : Nat

/-- Annotates all registrations of a program. -/
def annotate (config : Config) (program : Callables) (root : Node) : Except Failure Annotated := do
  let anchor ← anchor config program.checked root
  let (visit, progress) ← ((annotator config program anchor).visit root).run .start
  return ⟨visit, progress.registry, progress.annotated⟩

end Route

end RouteTypes
