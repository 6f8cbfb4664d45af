-- Members of values. A value of a union has the members that all its members have; a string has those
-- of the interface `String`; an object with an index has every member. Of other values nothing is known.
import RouteTypes.Typing.Query

namespace RouteTypes

/-- What is found when a member is looked up. -/
inductive Access where
  /-- The member, unless it comes from an index or a union, and its type. -/
  | found (member : Option SymbolId) (type : TypeId)
  /-- Nothing is known about the members of the value. -/
  | unchecked
  /-- There is no such member. -/
  | missing
deriving DecidableEq, Repr

namespace Access

/-- The type of the member, if there may be one. -/
def type? : Access → Option TypeId
  | .found _ type => some type
  | .unchecked => some .any
  | .missing => none

end Access

namespace Check

/-- Looks a member up in an object type. -/
def memberOfObject (ask : Ask) (object : TypeId) (name : String) : Check Access := do
  let members ← membersOf ask object
  let facts ← get
  match facts.memberNamed? members name with
  | some member => return .found (some member) (← ask (.valueOf member))
  | none =>
    match facts.stringIndexOf object with
    | some index => return .found none index
    | none => return .missing

/-- Looks a member up in a type that is no union. -/
def memberOfOne (ask : Ask) (type : TypeId) (name : String) : Check Access := do
  match (← get).typeData type with
  | .string | .literal (.string _) =>
    match (← get).stringSymbol with
    | some string => memberOfObject ask (← ask (.declared string)) name
    | none => return .unchecked
  | .object _ => memberOfObject ask type name
  | _ => return .unchecked

/-- The types of a member in several types. There are none if it is missing in one of them. -/
def memberTypes (ask : Ask) (name : String) : List TypeId → Check (Option (List TypeId))
  | [] => pure (some [])
  | type :: rest => do
    match (← memberOfOne ask type name).type? with
    | none => return none
    | some member =>
      let others ← memberTypes ask name rest
      return others.map (member :: ·)

/-- Looks a member up in a type. -/
def memberOf (ask : Ask) (type : TypeId) (name : String) : Check Access := do
  match (← get).typeData type with
  | .union members =>
    match ← memberTypes ask name members with
    | some types => return .found none (← modifyGet (Facts.union types))
    | none => return .missing
  | _ => memberOfOne ask type name

/-- The type of a member that is looked up, and what is done with the member. A missing member is
reported at the place. -/
def accessedType (ask : Ask) (node : Node) (span : Text.Span) (type : TypeId) (name : String)
    (use : SymbolId → Check Unit) : Check TypeId := do
  match ← memberOf ask type name with
  | .found member type =>
    member.forM use
    return type
  | .unchecked => return .any
  | .missing =>
    report node span (.unknownProperty type name)
    return .any

end Check

end RouteTypes
