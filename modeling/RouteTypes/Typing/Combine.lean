-- Types made of other types: unions, and generic classes and interfaces with type arguments. Both are
-- the same if they are made of the same types. The members of a union are no unions themselves, are not
-- `any` or `never`, and are all different.
import RouteTypes.Typing.Facts

namespace RouteTypes.Facts

/-! ## Facts about lists -/

/-- Notes facts for each item of a list, from left to right. -/
def each {α β : Type} (note : α → Facts → β × Facts) : List α → Facts → List β × Facts
  | [], facts => ([], facts)
  | x :: rest, facts =>
    let (y, facts) := note x facts
    let (ys, facts) := each note rest facts
    (y :: ys, facts)

/-! ## Unions -/

/-- What a type adds to a union that it is in. -/
def unionParts (facts : Facts) (type : TypeId) : List TypeId :=
  match facts.typeData type with
  | .union members => members
  | .never => []
  | _ => [type]

/-- The union of types: `any` if one of its members is, `never` if it has no members, and its only
member if it has one. The members are in the order in which they come first. -/
def union (types : List TypeId) (facts : Facts) : TypeId × Facts :=
  let parts := types.flatMap facts.unionParts
  if parts.contains .any then (.any, facts)
  else match parts.eraseDups with
    | [] => (.never, facts)
    | [only] => (only, facts)
    | members => facts.unionType members

/-! ## References -/

/-- A generic class or interface with type arguments. With its own type parameters as arguments it is
the class or interface itself, and a type that has none stays as it is. -/
def reference (target : TypeId) (args : List TypeId) (facts : Facts) : TypeId × Facts :=
  match facts.object? target with
  | none => (target, facts)
  | some object =>
    if object.typeParams.isEmpty then (target, facts)
    else
      let (own, facts) := facts.each paramType object.typeParams
      if own = args then (target, facts)
      else match facts.references.get? (target, args) with
        | some known => (known, facts)
        | none =>
          let (id, facts) := facts.addType (.object
            { ObjectType.bare .reference object.symbol with
              target := some target
              typeArguments := args })
          (id, { facts with references := facts.references.insert (target, args) id })

/-- `T`, if the type is `T[]`. -/
def arrayElement? (facts : Facts) (type : TypeId) : Option TypeId :=
  match facts.object? type with
  | none => none
  | some object =>
    match object.target.bind facts.object? with
    | none => none
    | some target =>
      if facts.arraySymbol.isSome && target.symbol == facts.arraySymbol then
        object.typeArguments.head?
      else none

end RouteTypes.Facts
