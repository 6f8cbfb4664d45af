-- What the second check does alone: the types of a record and of what is in it are worked out without asking
-- for anything that the first check knows, so both checks stay in step.
import RouteTypes.Proofs.Typing.AskingExpressions

namespace RouteTypes

open List Check

variable {P : Pairing} {w : Sync}

namespace Tables

variable {κ ν : Type} [Keyed κ] [DecidableEq κ] {K : κ → κ → Prop} {other : κ → Prop} {V : ν → ν → Prop}
  {table table' : Table κ ν}

theorem insertIfNewOther (h : Tables K other V table table') (hkeys : Keys K other) {key' : κ} (hother : other key')
    {value' : ν} : Tables K other V table (table'.insertIfNew key' value') := by
  rw [Table.insertIfNew]
  split
  · exact h
  · exact h.insertOther hkeys hother

theorem keepFirstOther (h : Tables K other V table table') (hkeys : Keys K other) {key' : κ} (hother : other key')
    {value' : ν} : Tables K other V table (table'.keepFirst key' value').2 := by
  rw [Table.keepFirst]
  split
  · exact h
  · exact h.insertOther hkeys hother

end Tables

theorem Put.otherId {node : Node} (h : Put P.root P.root' node) : P.OtherId node.id := ⟨node, h, rfl⟩

/-! ## Expressions -/

/-- An expression that was put in gets its type apart from those of the others. -/
theorem expression_aside {node : Node} (hput : Put P.root P.root' node) {ask' : Ask}
    (hread : Aside P w (readExpression ask' node)) : Aside P w (Check.expression ask' node) := by
  refine .get fun {f f'} hf => ?_
  cases f'.expressionTypes.get? node.id with
  | some known => exact .pure known
  | none =>
    exact .bind hread fun {w'} type _ => .modifyGet fun hf => ⟨w', le_rfl,
      { hf with expressionTypes := hf.expressionTypes.keepFirstOther P.nodeKeys hput.otherId }⟩

/-- The type of a constant follows from nothing else. -/
theorem literal_aside {node : Node} (hput : Put P.root P.root' node) (hkind : node.kind = .literal) (ask' : Ask) :
    Aside P w (Check.expression ask' node) := by
  refine expression_aside hput ?_
  rw [readExpression, hkind]
  exact .pure _

/-- A member of a record is added apart. -/
theorem literalMember_aside {record member : Node} (hrecord : P.Record record) (hmember : member ∈ record.objectMembers)
    (members : List SymbolId) (ask' : Ask) : Aside P w (literalMember ask' members member) := by
  have hkind : member.kind = .propertyAssignment := (Node.members_of_record hrecord.isRecord member hmember).1
  have hput : Put P.root P.root' member := hrecord.put.child (List.mem_of_mem_filter hmember)
  rw [literalMember, hkind]
  refine .bind (.modifyGet fun {f f'} hf => ?_) fun symbol _ => .get fun _ => .pure _
  have hmade : OfRecord P ⟨member.declaredName?.getD "", .property, [member], false, none⟩ :=
    ⟨rfl, rfl, record, member, hrecord, hmember, rfl⟩
  obtain ⟨hstep, -⟩ := hf.skipSymbol hmade
  exact ⟨w.withSymbol false, w.le_withSymbol false,
    { hstep with declarations := hstep.declarations.insertIfNewOther P.nodeKeys hput.otherId }⟩

theorem literalMembers_aside {record : Node} (hrecord : P.Record record) (ask' : Ask) :
    ∀ {w : Sync} (items : List Node) (members : List SymbolId), (∀ item ∈ items, item ∈ record.objectMembers) →
      Aside P w (items.foldlM (literalMember ask') members)
  | _, [], members, _ => .pure members
  | _, item :: rest, members, hitems => by
    rw [List.foldlM_cons]
    exact .bind (literalMember_aside hrecord (hitems item List.mem_cons_self) members ask') fun members _ =>
      literalMembers_aside hrecord ask' rest members fun item hin => hitems item (List.mem_cons_of_mem _ hin)

/-- A record has a type of its own, with members of its own. -/
theorem record_aside {record : Node} (hrecord : P.Record record) (ask' : Ask) :
    Aside P w (Check.expression ask' record) := by
  refine expression_aside hrecord.put ?_
  rw [readExpression, hrecord.kind]
  exact .bind (literalMembers_aside hrecord ask' _ [] fun _ => id) fun {w'} members _ => .modifyGet fun hf =>
    ⟨w'.withType false, w'.le_withType false, hf.skipType ⟨_, rfl, rfl⟩⟩

/-! ## Values -/

/-- What a property of a record is worth is the number that is written there. -/
theorem recordValue_aside {id' : SymbolId} (hid : w.OtherSymbol id') {ask' : Ask}
    (hask : ∀ {node : Node}, Put P.root P.root' node → node.kind = .literal → Aside P w (ask' (.expression node))) :
    Aside P w (valueType ask' id') := by
  refine .get fun {f f'} hf => ?_
  obtain ⟨symbol, hsymbol, hkind, horigin, record, member, hrecord, hmember, hdeclarations⟩ := hf.symbols.other hid
  have hfound : f'.symbol id' = symbol := by
    rw [Facts.symbol, Array.getD_eq_getD_getElem?, hsymbol]
    rfl
  obtain ⟨hassigned, value, hvalue, hliteral⟩ := Node.members_of_record hrecord.isRecord member hmember
  have hput := (hrecord.put.child (List.mem_of_mem_filter hmember)).child (List.mem_of_find?_eq_some hvalue)
  dsimp only
  rw [hfound, horigin, hdeclarations]
  show Aside P w (declaredValueType ask' id' symbol member)
  rw [Check.declaredValueType, hkind]
  dsimp only
  rw [hassigned, hvalue]
  exact hask hput hliteral

theorem valueOf_aside {id' : SymbolId} (hid : w.OtherSymbol id') {ask' : Ask}
    (hask : ∀ {node : Node}, Put P.root P.root' node → node.kind = .literal → Aside P w (ask' (.expression node))) :
    Aside P w (Check.valueOf ask' id') := by
  refine .get fun {f f'} hf => ?_
  cases f'.symbolTypes.get? id' with
  | some known => exact .pure known
  | none =>
    refine .read fun pending' => ?_
    split
    · exact .pure _
    · exact .bind (.withReader (recordValue_aside hid hask)) fun {w'} type hle => .modifyGet fun hf => ⟨w', le_rfl,
        { hf with symbolTypes := hf.symbolTypes.keepFirstOther w'.symbolKeys (hid.mono hle) }⟩

/-- The members of the type of a record are known. -/
theorem members_aside {type' : TypeId} (htype : w.types[type'.index]? = some false) (ask' : Ask) :
    Aside P w (fillMembers ask' type') := by
  refine .get fun {f f'} hf => ?_
  obtain ⟨data, hdata, object, rfl, htarget⟩ := hf.types.other htype
  have hobject : f'.object? type' = some object := by
    rw [Facts.object?, Facts.typeData, Array.getD_eq_getD_getElem?, hdata]
    rfl
  obtain ⟨kind, symbol, members, calls, constructs, index, typeParams, target, args, hasMembers⟩ := object
  obtain rfl : target = none := htarget
  rw [hobject]
  exact .pure _

/-! ## Answers -/

/-- Rules that ask in step answer in step. -/
theorem Asks.answerWith {ask ask' : Ask} (hask : Asks P ask ask') {query query' : Query}
    (h : QueriesMatch P w query query') :
    Follows P w Sync.SameType (answerWith ask query) (answerWith ask' query') := by
  cases h with
  | valueOf h => exact hask.valueOnce h
  | declared h => exact hask.declaredOnce h
  | written h => exact hask.writtenOnce h
  | expression h => exact hask.expressionOnce h
  | returnOf id => exact hask.returnOnce id
  | substituted h substitution => exact hask.substitutedOnce h substitution
  | members h => exact hask.fillMembers h

/-- Where the second check may ask as deeply, and more deeply if there may be records, it answers in step. -/
theorem answer_asks : ∀ {depth deeper : Nat}, depth ≤ deeper → (P.grows = true → depth < deeper) →
    Asks P (answer depth) (answer deeper)
  | 0, deeper, _, hgrows => {
      same _ := .tooDeep
      record := fun {w record} hrecord => by
        obtain ⟨n, rfl⟩ := Nat.exists_eq_succ_of_ne_zero (Nat.ne_of_gt (hgrows hrecord.grows))
        exact record_aside hrecord (answer n) }
  | depth + 1, 0, hle, _ => absurd hle (Nat.not_succ_le_zero depth)
  | depth + 1, deeper + 1, hle, hgrows =>
    have hask := answer_asks (Nat.le_of_succ_le_succ hle) fun h => Nat.lt_of_succ_lt_succ (hgrows h)
    { same := fun h => hask.answerWith h
      record := fun hrecord => record_aside hrecord (answer deeper) }

end RouteTypes
