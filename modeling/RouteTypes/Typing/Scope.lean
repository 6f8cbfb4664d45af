-- Scopes. Each lies in another, but for the global one, and binds values and types by name; the first
-- declaration of a name in a scope is the one that counts. A name is looked up from the inside out.
import RouteTypes.Typing.Type

namespace RouteTypes

structure ScopeId where
  index : Nat
deriving DecidableEq, Repr, Inhabited

/-- Values and types have names of their own, so one name may stand for both. -/
inductive NameSort where
  | value
  | type
deriving DecidableEq, Repr

/-- A scope: the one that it lies in, and the names that it binds. -/
structure Scope where
  parent : Option ScopeId
  values : Table String SymbolId
  types : Table String SymbolId
deriving Inhabited

namespace Scope

def empty (parent : Option ScopeId) : Scope := ⟨parent, Table.empty, Table.empty⟩

def get? (sort : NameSort) (name : String) (scope : Scope) : Option SymbolId :=
  match sort with
  | .value => scope.values.get? name
  | .type => scope.types.get? name

def bind (sort : NameSort) (name : String) (symbol : SymbolId) (scope : Scope) : Scope :=
  match sort with
  | .value => { scope with values := scope.values.insert name symbol }
  | .type => { scope with types := scope.types.insert name symbol }

end Scope

/-- All scopes of a program, and which node each belongs to. -/
structure ScopeTree where
  scopes : Array Scope
  owners : Table NodeId ScopeId
deriving Inhabited

namespace ScopeTree

/-- The scope around all others. -/
def global : ScopeId := ⟨0⟩

/-- The global scope alone. -/
def new : ScopeTree := ⟨#[Scope.empty none], Table.empty⟩

/-- A scope within another, for the node. -/
def add (parent : ScopeId) (owner : NodeId) (tree : ScopeTree) : ScopeId × ScopeTree :=
  let id : ScopeId := ⟨tree.scopes.size⟩
  (id, ⟨tree.scopes.push (Scope.empty (some parent)), tree.owners.insert owner id⟩)

def setOwner (owner : NodeId) (scope : ScopeId) (tree : ScopeTree) : ScopeTree :=
  { tree with owners := tree.owners.insert owner scope }

def ownedBy (owner : NodeId) (tree : ScopeTree) : Option ScopeId := tree.owners.get? owner

/-- What the scope itself binds the name to. -/
def getLocal (scope : ScopeId) (sort : NameSort) (name : String) (tree : ScopeTree) :
    Option SymbolId :=
  tree.scopes[scope.index]?.bind (·.get? sort name)

/-- Binds a name. If the scope binds it already, the answer is the symbol that it is bound to, and
nothing changes. -/
def declare (scope : ScopeId) (sort : NameSort) (name : String) (symbol : SymbolId)
    (tree : ScopeTree) : Except SymbolId ScopeTree :=
  match tree.getLocal scope sort name with
  | some existing => .error existing
  | none =>
    .ok { tree with scopes := tree.scopes.modify scope.index (·.bind sort name symbol) }

/-- The scope and those around it, from the inside out. Each has a lower number than the one in it. -/
def path (tree : ScopeTree) (scope : ScopeId) : List ScopeId :=
  match tree.scopes[scope.index]?.bind (·.parent) with
  | none => [scope]
  | some parent => if parent.index < scope.index then scope :: path tree parent else [scope]
termination_by scope.index

/-- What the name stands for in the scope: what the innermost scope around binds it to that does. -/
def lookup (scope : ScopeId) (sort : NameSort) (name : String) (tree : ScopeTree) :
    Option SymbolId :=
  (tree.path scope).findSome? (tree.getLocal · sort name)

end ScopeTree

end RouteTypes
