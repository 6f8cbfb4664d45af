-- Types, symbols and signatures. Each has a number under which the others refer to it, so types may be
-- about each other in circles; two symbols are the same if their numbers are.
import RouteTypes.Text.Quoted
import RouteTypes.Tree.Node

namespace RouteTypes

/-! ## Numbers -/

structure SymbolId where
  index : Nat
deriving DecidableEq, Repr, Inhabited

instance : Keyed SymbolId where
  code id := [id.index]
  eq_of_code_eq h := congrArg SymbolId.mk (List.head_eq_of_cons_eq h)

structure TypeId where
  index : Nat
deriving DecidableEq, Repr, Inhabited

instance : Keyed TypeId where
  code id := [id.index]
  eq_of_code_eq h := congrArg TypeId.mk (List.head_eq_of_cons_eq h)

structure SignatureId where
  index : Nat
deriving DecidableEq, Repr, Inhabited

instance : Keyed SignatureId where
  code id := [id.index]
  eq_of_code_eq h := congrArg SignatureId.mk (List.head_eq_of_cons_eq h)

structure SubstitutionId where
  index : Nat
deriving DecidableEq, Repr, Inhabited

instance : Keyed SubstitutionId where
  code id := [id.index]
  eq_of_code_eq h := congrArg SubstitutionId.mk (List.head_eq_of_cons_eq h)

/-! ## Symbols -/

inductive SymbolKind where
  | variable (isConst : Bool)
  | function
  | classDecl
  | interface
  | alias
  | typeParam
  | param
  | property
  | method
deriving DecidableEq, Repr, Inhabited

/-- A symbol of this kind can be used in an expression. The others name types only. -/
def SymbolKind.isValue : SymbolKind → Bool
  | .interface | .alias | .typeParam => false
  | _ => true

/-- Something that has a name. -/
structure Symbol where
  name : String
  kind : SymbolKind
  /-- The declarations, in the order of the source. A method may have several. -/
  declarations : List Node
  isOptional : Bool
  /-- For a copy: the symbol that it is made from, and what is put for type parameters. -/
  origin : Option (SymbolId × SubstitutionId)
deriving Inhabited

/-! ## Types -/

inductive ObjectKind where
  /-- The instances of a class. -/
  | classType
  | interface
  /-- Object literals, object types and function types. -/
  | anonymous
  /-- A class as a value: its static members, and `new`. -/
  | constructor
  /-- A generic class or interface with type arguments. -/
  | reference
deriving DecidableEq, Repr, Inhabited

structure ObjectType where
  kind : ObjectKind
  /-- The class or interface that declares the type. -/
  symbol : Option SymbolId
  /-- Properties and methods in the order of their declarations. -/
  members : List SymbolId
  calls : List SignatureId
  constructs : List SignatureId
  stringIndex : Option TypeId
  /-- The type parameters of a generic class or interface. -/
  typeParams : List SymbolId
  /-- For a reference: the generic type. -/
  target : Option TypeId
  typeArguments : List TypeId
  /-- The members of a reference are made when they are first asked for. -/
  hasMembers : Bool
deriving DecidableEq, Repr, Inhabited

/-- An object type without anything in it. -/
def ObjectType.bare (kind : ObjectKind) (symbol : Option SymbolId) : ObjectType where
  kind := kind
  symbol := symbol
  members := []
  calls := []
  constructs := []
  stringIndex := none
  typeParams := []
  target := none
  typeArguments := []
  hasMembers := kind != .reference

/-- A value that is a type of its own. A number is kept as it is written. -/
inductive Literal where
  | string (text : String)
  | number (text : String)
  | boolean (value : Bool)
deriving DecidableEq, Repr, Inhabited

instance : Keyed Literal where
  code
    | .string text => 0 :: Keyed.code text
    | .number text => 1 :: Keyed.code text
    | .boolean value => [2, value.toNat]
  eq_of_code_eq {a b} h := by
    match a, b with
    | .string a, .string b => simpa [Keyed.code_eq_iff] using h
    | .number a, .number b => simpa [Keyed.code_eq_iff] using h
    | .boolean a, .boolean b => cases a <;> cases b <;> simp_all
    | .string _, .number _ | .string _, .boolean _ | .number _, .string _ | .number _, .boolean _
    | .boolean _, .string _ | .boolean _, .number _ => simp at h

inductive TypeData where
  | any | unknown | never | void | undefined | null | string | number | boolean
  | literal (value : Literal)
  | union (members : List TypeId)
  | object (type : ObjectType)
  | param (symbol : SymbolId)
deriving DecidableEq, Repr, Inhabited

/-- A literal as a type is written. -/
def Literal.written : Literal → String
  | .string text => Text.quoted text
  | .number text => text
  | .boolean value => if value then "true" else "false"

def TypeData.object? : TypeData → Option ObjectType
  | .object type => some type
  | _ => none

/-- The types with fixed numbers, in the order of these. -/
def TypeData.primitives : List TypeData :=
  [.any, .unknown, .never, .void, .undefined, .null, .string, .number, .boolean]

namespace TypeId

def any : TypeId := ⟨0⟩
def unknown : TypeId := ⟨1⟩
def never : TypeId := ⟨2⟩
def void : TypeId := ⟨3⟩
def undefined : TypeId := ⟨4⟩
def null : TypeId := ⟨5⟩
def string : TypeId := ⟨6⟩
def number : TypeId := ⟨7⟩
def boolean : TypeId := ⟨8⟩

/-- The type of a name that is a word of the language; no declaration can change it. -/
def ofWord? : String → Option TypeId
  | "any" | "object" | "symbol" | "bigint" => some any
  | "unknown" => some unknown
  | "never" => some never
  | "undefined" => some undefined
  | "string" => some string
  | "number" => some number
  | "boolean" => some boolean
  | _ => none

end TypeId

/-! ## Signatures and substitutions -/

structure Signature where
  typeParams : List SymbolId
  params : List SymbolId
  /-- The function that the signature is read from. -/
  declaration : Option Node
  /-- What a call gives, once it is known. -/
  returns : Option TypeId
  /-- For a copy: the signature that it is made from, and what is put for type parameters. -/
  origin : Option (SignatureId × SubstitutionId)
  /-- The class whose instances `new` makes. -/
  instanceOf : Option SymbolId
deriving Inhabited

/-- Types to be put for type parameters, each for the one at its place. -/
structure Substitution where
  params : List SymbolId
  types : List TypeId
deriving DecidableEq, Repr, Inhabited

instance : Keyed Substitution where
  code substitution := Keyed.code (substitution.params, substitution.types)
  eq_of_code_eq {a b} h := by
    have hsame : (a.params, a.types) = (b.params, b.types) := Keyed.eq_of_code_eq h
    cases a
    cases b
    simpa using hsame

namespace Substitution

/-- The place of the type parameter, if something is put for it. -/
def place? (s : Substitution) (param : SymbolId) : Option Nat := s.params.findIdx? (· == param)

/-- What is put for the type parameter. -/
def get? (s : Substitution) (param : SymbolId) : Option TypeId := (s.place? param).bind (s.types[·]?)

end Substitution

end RouteTypes
