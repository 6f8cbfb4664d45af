-- Types in which types are put for type parameters. What has members is copied: a copied member knows
-- its origin, and its type is only worked out when it is asked for. The members of a generic type with
-- type arguments are copies too, made when they are first asked for.
import RouteTypes.Typing.Query

namespace RouteTypes

/-! ## Copies -/

namespace Facts

/-- The copy of a symbol. -/
def copySymbol (substitution : SubstitutionId) (id : SymbolId) (facts : Facts) : SymbolId × Facts :=
  match facts.substitutedSymbols.get? (id, substitution) with
  | some copy => (copy, facts)
  | none =>
    let (copy, facts) :=
      facts.addSymbol { facts.symbol id with origin := some (id, substitution) }
    (copy, { facts with
      substitutedSymbols := facts.substitutedSymbols.insert (id, substitution) copy })

/-- The copy of a signature. Type parameters for which something is put are none of the copy. -/
def copySignature (substitution : SubstitutionId) (id : SignatureId) (facts : Facts) :
    SignatureId × Facts :=
  match facts.substitutedSignatures.get? (id, substitution) with
  | some copy => (copy, facts)
  | none =>
    let generic := facts.signature id
    let replaced := (facts.substitution substitution).params
    let (params, facts) := facts.each (copySymbol substitution) generic.params
    let (copy, facts) := facts.addSignature
      { generic with
        typeParams := generic.typeParams.filter (!replaced.contains ·)
        params := params
        returns := none
        origin := some (id, substitution) }
    (copy, { facts with
      substitutedSignatures := facts.substitutedSignatures.insert (id, substitution) copy })

/-- Notes what a substitution makes of a type. -/
def setSubstituted (type : TypeId) (substitution : SubstitutionId) (result : TypeId)
    (facts : Facts) : Facts :=
  { facts with
    substitutedTypes := facts.substitutedTypes.insert (type, substitution) result }

end Facts

/-! ## Substitution -/

namespace Check

/-- The copy of an object type. It is noted before its parts are copied, so where these mention the
type they mention the copy. -/
def substituteInObject (ask : Ask) (type : TypeId) (object : ObjectType)
    (substitution : SubstitutionId) : Check TypeId := do
  let copy ← modifyGet (Facts.addType (.object (.bare object.kind object.symbol)))
  modify (Facts.setSubstituted type substitution copy)
  let members ← modifyGet (Facts.each (Facts.copySymbol substitution) object.members)
  let calls ← modifyGet (Facts.each (Facts.copySignature substitution) object.calls)
  let constructs ← modifyGet (Facts.each (Facts.copySignature substitution) object.constructs)
  let stringIndex ← object.stringIndex.mapM fun index => ask (.substituted index substitution)
  modify (Facts.modifyObject copy fun known =>
    { known with members, calls, constructs, stringIndex, typeParams := object.typeParams })
  return copy

/-- The type with types put for type parameters. -/
def substitute (ask : Ask) (type : TypeId) (substitution : SubstitutionId) : Check TypeId := do
  match (← get).typeData type with
  | .param param => return (((← get).substitution substitution).get? param).getD type
  | .union members =>
    let members ← members.mapM fun member => ask (.substituted member substitution)
    modifyGet (Facts.union members)
  | .object object =>
    match object.kind with
    | .reference =>
      let args ← object.typeArguments.mapM fun arg => ask (.substituted arg substitution)
      match object.target with
      | some target =>
        if args = object.typeArguments then return type else modifyGet (Facts.reference target args)
      | none => return type
    | .classType | .interface =>
      if object.typeParams.isEmpty then return type
      else
        let args ← object.typeParams.mapM fun param => do
          ask (.substituted (← modifyGet (Facts.paramType param)) substitution)
        modifyGet (Facts.reference type args)
    | .anonymous | .constructor => substituteInObject ask type object substitution
  | _ => return type

/-- The type with types put for type parameters, worked out once. -/
def substituted (ask : Ask) (type : TypeId) (substitution : SubstitutionId) : Check TypeId := do
  match (← get).substitutedTypes.get? (type, substitution) with
  | some known => return known
  | none =>
    let result ← substitute ask type substitution
    modify (Facts.setSubstituted type substitution result)
    return result

/-! ## Members of references -/

/-- Makes the members of a generic type with type arguments: copies of those of the generic type. -/
def fillMembers (ask : Ask) (type : TypeId) : Check TypeId := do
  match (← get).object? type with
  | some ⟨_, _, _, _, _, _, _, some target, args, false⟩ =>
    modify (Facts.modifyObject type ({ · with hasMembers := true }))
    let params := (((← get).object? target).map (·.typeParams)).getD []
    let substitution ← modifyGet (Facts.shareSubstitution params args)
    let generic := (← get).membersOf target
    let members ← modifyGet (Facts.each (Facts.copySymbol substitution) generic)
    let stringIndex ← ((← get).stringIndexOf target).mapM fun index =>
      ask (.substituted index substitution)
    modify (Facts.modifyObject type fun known => { known with members, stringIndex })
    return type
  | _ => return type

end Check

end RouteTypes
