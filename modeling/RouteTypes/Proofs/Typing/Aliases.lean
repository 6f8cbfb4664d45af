-- Constants that stand for others. A constant whose value is written as a name or a member access, or that is
-- taken out of a value, stands for what is meant by that, and where a chain of such constants leads, there
-- every name of the chain leads. What may be assigned to stands for itself.
import Mathlib.Data.List.Chain
import RouteTypes.Proofs.Tree.Children
import RouteTypes.Proofs.Typing.Standard

namespace RouteTypes

namespace Checked

/-! ## What declarations stand for -/

/-- The member of that name of the values of a type. Texts have the members of `String`. -/
def memberOf? (checked : Checked) (type : TypeId) (name : String) : Option SymbolId :=
  if (checked.typeData type).isText then
    (checked.facts.stringSymbol.bind checked.facts.declaredTypes.get?).bind (checked.property? · name)
  else checked.property? type name

/-- The declaration of a constant stands for a symbol: for what the name or the member access refers to that
it is written as, with or without parentheses, or for the member of a value that it takes out. -/
inductive StandsFor (checked : Checked) (declaration : Node) : SymbolId → Prop
  | written {value : Node} {symbol : SymbolId} (isVariable : declaration.isVariable = true)
      (isConst : Facts.isConstVariable declaration = true) (value_eq : declaration.expression? = some value)
      (kind : value.withoutParens.kind = .nameRef ∨ value.withoutParens.kind = .propertyAccess)
      (resolve_eq : checked.resolve value.withoutParens = some symbol) : StandsFor checked declaration symbol
  | taken {declarator : Node} {type : TypeId} {symbol : SymbolId} (kind : declaration.kind = .bindingElement)
      (isConst : Facts.isConstVariable declaration = true)
      (declarator_eq : declaration.boundDeclarator? = some declarator)
      (type_eq : checked.facts.initialType? declarator = some type)
      (member_eq : checked.memberOf? type declaration.boundProperty = some symbol) :
      StandsFor checked declaration symbol

/-- A name that is declared once, as a constant that stands for the symbol. -/
structure Aliases (checked : Checked) (root : Node) (name symbol : SymbolId) : Prop where
  once : ∃ declaration ∈ root.descendants, checked.declared? declaration = some name ∧
    (checked.symbol name).declarations = [declaration] ∧ checked.StandsFor declaration symbol

/-! ## What is found -/

section

variable {checked : Checked} {known : Node → Prop}

theorem property?_of_holds {type : TypeId} {name : String} {member : Option SymbolId}
    (h : checked.facts.Holds type name member) : checked.property? type name = member := by
  obtain ⟨object, hobject, -, hmember⟩ := h
  rw [property?, members, Facts.membersOf, Facts.object?, hobject]
  exact hmember

/-- What is found in a type is its member. -/
theorem memberOf?_of_finds {type : TypeId} {name : String} {member : Option SymbolId}
    (h : checked.facts.Finds type name member) (hstandard : checked.facts.Standard) :
    checked.memberOf? type name = member := by
  unfold memberOf?
  cases htext : (checked.typeData type).isText with
  | true =>
    obtain ⟨string, hstring, hkind⟩ := hstandard.string
    obtain ⟨declared, hdeclared, hholds⟩ := h.text htext string hstring hkind
    rw [if_pos rfl, hstring, Option.bind_some, hdeclared, Option.bind_some, property?_of_holds hholds]
  | false =>
    rw [if_neg Bool.false_ne_true]
    by_cases hobject : ∃ object, checked.facts.typeData type = .object object
    · obtain ⟨object, hobject⟩ := hobject
      exact property?_of_holds (h.object object hobject)
    · have hother := fun object heq => hobject ⟨object, heq⟩
      rw [h.other htext hother, property?, members, Facts.membersOf, Facts.object?]
      cases hdata : checked.facts.typeData type with
      | object object => exact absurd hdata (hother object)
      | _ => rfl

end

theorem hasValue_of_initialType? {s : Facts} {declarator : Node} {type : TypeId}
    (h : s.initialType? declarator = some type) : declarator.hasValue = true := by
  unfold Facts.initialType? at h
  unfold Node.hasValue
  split at h
  · rename_i ascribed hascribed
    rw [hascribed]
    rfl
  · obtain ⟨value, hvalue, -⟩ := Option.bind_eq_some_iff.mp h
    rw [hvalue, Option.isSome_some, Bool.or_true]

/-! ## One step -/

theorem aliased?_eq {facts : Facts} {id : SymbolId} (h : (facts.symbol id).kind = .variable true) :
    facts.aliased? id = (facts.boundMembers.get? id).or
      (((facts.symbol id).declarations.head?.bind (·.expression?)).bind fun value =>
        if value.withoutParens.kind == .nameRef || value.withoutParens.kind == .propertyAccess then
        facts.resolutions.get? value.withoutParens.id else none) := by
  rw [Facts.aliased?, if_pos h]
  cases (facts.symbol id).declarations.head? <;> rfl

theorem aliased?_of_kind {facts : Facts} {id : SymbolId} (h : (facts.symbol id).kind ≠ .variable true) :
    facts.aliased? id = none := by
  rw [Facts.aliased?, if_neg h]

/-- Only constants stand for others. -/
theorem kind_of_aliased? {facts : Facts} {id next : SymbolId} (h : facts.aliased? id = some next) :
    (facts.symbol id).kind = .variable true := by
  by_contra hother
  rw [aliased?_of_kind hother] at h
  cases h

/-- There is a symbol behind the number of a constant. -/
theorem hasSymbol_of_constant {facts : Facts} {id : SymbolId} (h : (facts.symbol id).kind = .variable true) :
    facts.HasSymbol id := by
  by_contra hnone
  have hdefault : facts.symbol id = default := by
    rw [Facts.symbol, Array.getD_eq_getD_getElem?, Array.getElem?_eq_none (Nat.not_lt.mp hnone)]
    rfl
  rw [hdefault] at h
  cases h

namespace Ends

variable {text : String} {prelude root : Node} {checked : Checked} (h : Ends prelude root checked)

include h

/-- The symbol of a variable was there when checking began. -/
theorem declared_variable {node : Node} (hnode : node.isVariable = true) {id : SymbolId}
    (hid : checked.declared? node = some id) : (Facts.bound prelude root).declared? node = some id := by
  refine (h.later.declared?_eq fun other _ hother => ?_).symm.trans hid
  have hkind : other.kind = node.kind := (NodeId.mk.inj hother).2.1
  cases hmember : other.isMember with
  | false => rfl
  | true =>
    have hnone := Node.isVariable_of_isMember hmember
    rw [Node.isVariable, hkind] at hnone
    rw [Node.isVariable, hnone] at hnode
    cases hnode

/-- The symbol of a variable is no copy, its type is noted, and so is the member that it reads. -/
theorem bound_variable {node : Node} (hnode : node.isVariable = true) {id : SymbolId}
    (hid : checked.declared? node = some id) (hdeclares : node ∈ (checked.symbol id).declarations) :
    (checked.symbol id).kind = .variable (Facts.isConstVariable node) ∧ checked.facts.Bound id := by
  obtain ⟨hsymbol, -⟩ := h.begins.closed.declarations (h.declared_variable hnode hid)
  have hkind : (checked.symbol id).kind = .variable (Facts.isConstVariable node) :=
    (((h.closed.symbol id (h.later.hasSymbol hsymbol)).fits node hdeclares).isVariable _).mpr ⟨hnode, rfl⟩
  have hvalue : ((Facts.bound prelude root).symbol id).kind.isValue = true := by
    rw [← h.later.kind hsymbol]
    exact congrArg SymbolKind.isValue hkind
  obtain ⟨type, htype⟩ := h.valued id hsymbol hvalue
  exact ⟨hkind, (h.accesses.valued htype).2.bound⟩

/-- What a variable is bound to is a member that its declaration takes out of a value. -/
theorem bindingElement_of_bound {id member : SymbolId} (hmember : checked.facts.boundMembers.get? id = some member)
    {node : Node} (hhead : (checked.symbol id).declarations.head? = some node) : node.kind = .bindingElement := by
  obtain ⟨element, declarator, hdestructures, -⟩ := h.accesses.bound hmember
  rw [Option.some_inj.mp (hhead.symm.trans hdestructures.head)]
  exact hdestructures.kind

/-- What a constant stands for is what its declaration says. -/
theorem standsFor_of_aliased? (hstandard : checked.facts.Standard) {id next : SymbolId}
    (hnext : checked.facts.aliased? id = some next) :
    ∃ declaration ∈ (checked.symbol id).declarations, checked.StandsFor declaration next := by
  have hkind : (checked.symbol id).kind = .variable true := kind_of_aliased? hnext
  have hid : checked.facts.HasSymbol id := hasSymbol_of_constant hkind
  have hconst : ∀ node ∈ (checked.symbol id).declarations,
      node.isVariable = true ∧ Facts.isConstVariable node = true := fun node hnode =>
    (((h.closed.symbol id hid).fits node hnode).isVariable true).mp hkind
  rw [aliased?_eq hkind] at hnext
  rcases Option.or_eq_some_iff.mp hnext with hmember | ⟨-, hwritten⟩
  · obtain ⟨element, declarator, hdestructures, type, htype, hfinds⟩ := h.accesses.bound hmember
    have hmem := List.mem_of_head? hdestructures.head
    exact ⟨element, hmem, .taken hdestructures.kind (hconst element hmem).2 hdestructures.declarator htype
      (memberOf?_of_finds hfinds hstandard)⟩
  · obtain ⟨value, hvalue, hresolve⟩ := Option.bind_eq_some_iff.mp hwritten
    obtain ⟨node, hnode, hvalue⟩ := Option.bind_eq_some_iff.mp hvalue
    have hmem := List.mem_of_head? hnode
    split at hresolve
    · rename_i hform
      refine ⟨node, hmem, .written (hconst node hmem).1 (hconst node hmem).2 hvalue ?_ hresolve⟩
      exact ((Bool.or_eq_true _ _).mp hform).imp beq_iff_eq.mp beq_iff_eq.mp
    · cases hresolve

end Ends

/-- A constant stands for what its declaration says. -/
theorem Ends.aliased?_of_aliases {text : String} {prelude : Node} {checked : Checked}
    (h : Ends prelude (Program.ofSource text).root checked) (hread : (Program.ofSource text).isOk = true)
    (hstandard : checked.facts.Standard) {id next : SymbolId}
    (haliases : checked.Aliases (Program.ofSource text).root id next) : checked.facts.aliased? id = some next := by
  obtain ⟨declaration, hnode, hid, honce, hstands⟩ := haliases.once
  have hmem : declaration ∈ (checked.symbol id).declarations := honce ▸ List.mem_singleton_self _
  have hhead : (checked.facts.symbol id).declarations.head? = some declaration := congrArg List.head? honce
  cases hstands with
  | @written value _ hvariable hconst hvalue hform hresolve =>
    obtain ⟨hkind, -⟩ := h.bound_variable hvariable hid hmem
    rw [hconst] at hkind
    have hnone : checked.facts.boundMembers.get? id = none := by
      cases hmember : checked.facts.boundMembers.get? id with
      | none => rfl
      | some member =>
        rw [Program.expression?_bindingElement hread hnode (h.bindingElement_of_bound hmember hhead)] at hvalue
        cases hvalue
    have hforms : (value.withoutParens.kind == .nameRef || value.withoutParens.kind == .propertyAccess) = true :=
      (Bool.or_eq_true _ _).mpr (hform.imp beq_iff_eq.mpr beq_iff_eq.mpr)
    rw [aliased?_eq hkind, hnone, Option.none_or, hhead, Option.bind_some, hvalue, Option.bind_some, if_pos hforms]
    exact hresolve
  | @taken declarator type _ hkind hconst hdeclarator htype hmember =>
    have hvariable : declaration.isVariable = true := by rw [Node.isVariable, hkind]; rfl
    obtain ⟨hconstant, hbound⟩ := h.bound_variable hvariable hid hmem
    rw [hconst] at hconstant
    obtain ⟨hsymbol, -⟩ := h.begins.closed.declarations (h.declared_variable hvariable hid)
    obtain ⟨found, hfound, hfinds⟩ := hbound (h.origin hsymbol) ⟨true, hconstant⟩ declaration declarator
      ⟨h.later.hasSymbol hsymbol, hhead, hkind, hdeclarator⟩ (hasValue_of_initialType? htype)
    obtain rfl : type = found := Option.some_inj.mp (htype.symm.trans hfound)
    rw [aliased?_eq hconstant, ← memberOf?_of_finds hfinds hstandard, hmember, Option.some_or]

/-! ## Chains -/

section

variable {checked : Checked} {target : SymbolId}

/-- What stands for nothing else is not left. -/
theorem followFor_of_none (hnone : checked.facts.aliased? target = none) :
    ∀ steps, checked.followFor steps target = target
  | 0 => rfl
  | steps + 1 => by rw [followFor, hnone]

/-- From the first name of a chain of no more than so many constants one comes to where the chain leads. -/
theorem followFor_chain (hnone : checked.facts.aliased? target = none) : ∀ {steps : Nat} {id : SymbolId}
    {chain : List SymbolId},
      (id :: chain ++ [target]).IsChain (fun id next => checked.facts.aliased? id = some next) →
      (id :: chain ++ [target]).Nodup → (id :: chain).length ≤ steps → checked.followFor steps id = target
  | 0, _, _, _, _, hsteps => absurd hsteps (Nat.not_succ_le_zero _)
  | steps + 1, id, [], hchain, _, _ => by
    have hnext := (List.isChain_cons_cons.mp hchain).1
    rw [followFor, hnext]
    dsimp only
    split
    · exact ‹target = id›.symm
    · exact followFor_of_none hnone steps
  | steps + 1, id, next :: chain, hchain, hnodup, hsteps => by
    obtain ⟨hnext, hrest⟩ := List.isChain_cons_cons.mp hchain
    have hne : next ≠ id := fun heq =>
      (List.nodup_cons.mp hnodup).1 (heq ▸ List.mem_cons_self)
    rw [followFor, hnext]
    dsimp only
    rw [if_neg hne]
    exact followFor_chain hnone hrest (List.nodup_cons.mp hnodup).2 (Nat.le_of_succ_le_succ hsteps)

end

/-! ## Programs -/

section

variable {text : String} {prelude : Tree} {depth : Nat} {checked : Checked}

/-- A name with a single declaration has this one. -/
theorem Ends.aliases (h : Ends (Node.ofTree .prelude prelude) (Program.ofSource text).root checked)
    (hread : (Program.ofSource text).isOk = true) {declaration : Node}
    (hnode : declaration ∈ (Program.ofSource text).root.descendants) {name symbol : SymbolId}
    (hname : checked.declared? declaration = some name) (hone : (checked.symbol name).declarations.length = 1)
    (hstands : checked.StandsFor declaration symbol) : checked.Aliases (Program.ofSource text).root name symbol := by
  refine ⟨declaration, hnode, hname, ?_, hstands⟩
  obtain ⟨only, honly⟩ := List.length_eq_one_iff.mp hone
  have hmem : declaration ∈ (checked.symbol name).declarations :=
    (Program.mem_declarations hread h.closed hnode hname).2
  rw [honly, List.mem_singleton] at hmem
  rw [honly, hmem]

/-- Where a chain of no more than 64 constants leads, there every name of the chain leads, and from there it
does not go on. What may be assigned to stands for itself. -/
theorem constants_stand_for_others (hread : (Program.ofSource text).isOk = true)
    (hstandard : IsStandard prelude = true)
    (h : upTo depth (Node.ofTree .prelude prelude) (Program.ofSource text).root = some checked) :
    IsStandard (Program.ofSource preludeSource).tree = true ∧
    (∀ (chain : List SymbolId) (target : SymbolId),
      (chain ++ [target]).IsChain (checked.Aliases (Program.ofSource text).root) → (chain ++ [target]).Nodup →
      (∀ declaration ∈ (checked.symbol target).declarations, ∀ symbol, ¬checked.StandsFor declaration symbol) →
      chain.length ≤ 64 → ∀ name ∈ chain, ∀ reference, checked.resolve reference = some name →
        checked.resolveAliased reference = some target ∧ checked.follow target = target) ∧
    ∀ declaration ∈ (Program.ofSource text).root.descendants, declaration.isVariable = true →
      Facts.isConstVariable declaration = false → ∀ name, checked.declared? declaration = some name →
        ∀ reference, checked.resolve reference = some name → checked.resolveAliased reference = some name := by
  have hends := ends_upTo h
  have hseen := hends.standard hstandard
  refine ⟨prelude_isStandard, fun chain target hchain hnodup hlast hlength name hname reference hreference => ?_,
    fun declaration hnode hvariable hconst name hid reference hreference => ?_⟩
  · have hnone : checked.facts.aliased? target = none := by
      refine Option.eq_none_iff_forall_ne_some.mpr fun next hnext => ?_
      obtain ⟨declaration, hdeclaration, hstands⟩ := hends.standsFor_of_aliased? hseen hnext
      exact hlast declaration hdeclaration next hstands
    -- Of the chain only what is behind the name that is meant is gone.
    obtain ⟨before, behind, rfl⟩ := List.append_of_mem hname
    rw [List.append_assoc] at hchain hnodup
    have hsteps : (name :: behind).length ≤ 64 :=
      Nat.le_trans (by rw [List.length_append]; exact Nat.le_add_left _ _) hlength
    have hfollow : checked.follow name = target := followFor_chain hnone
      (hchain.right_of_append.imp fun _ _ halias => hends.aliased?_of_aliases hread hseen halias)
      (List.nodup_append.mp hnodup).2.1 hsteps
    rw [resolveAliased, hreference, Option.map_some, hfollow]
    exact ⟨rfl, followFor_of_none hnone 64⟩
  · obtain ⟨hsymbol, hmem⟩ := Program.mem_declarations hread hends.closed hnode hid
    have hkind : (checked.facts.symbol name).kind ≠ .variable true := fun hkind => by
      rw [((((hends.closed.symbol name hsymbol).fits declaration hmem).isVariable true).mp hkind).2] at hconst
      cases hconst
    rw [resolveAliased, hreference, Option.map_some, follow, followFor_of_none (aliased?_of_kind hkind)]

end

/-- Two constants that lead to a property: one is written as the name of the other, which is taken out of an
object. -/
def twoConstants : String := "const o = \x7b k: 1 \x7d; const \x7b k: a \x7d = o; const b = (a); b;"

theorem StandsFor.isVariable {checked : Checked} {declaration : Node} {symbol : SymbolId}
    (h : checked.StandsFor declaration symbol) : declaration.isVariable = true := by
  cases h with
  | written hvariable => exact hvariable
  | taken hkind => rw [Node.isVariable, hkind]; rfl

/-- The name of the last constant refers to the property in the end. -/
theorem twoConstants_lead_to_property : ∃ checked : Checked,
    upTo 40 (Node.ofTree .prelude leastPrelude) (Program.ofSource twoConstants).root = some checked ∧
      ∃ reference target, (checked.symbol target).name = "k" ∧ checked.resolveAliased reference = some target := by
  have hread : (Program.ofSource twoConstants).isOk = true := by decide +kernel
  have hall : ((upTo 40 (Node.ofTree .prelude leastPrelude) (Program.ofSource twoConstants).root).any fun checked =>
      (Program.ofSource twoConstants).root.descendants.any fun first =>
        (Program.ofSource twoConstants).root.descendants.any fun second =>
          (Program.ofSource twoConstants).root.descendants.any fun reference =>
            first.kind == .bindingElement && Facts.isConstVariable first && second.isVariable &&
            Facts.isConstVariable second && (checked.declared? first).any fun a =>
              (checked.declared? second).any fun b =>
                (checked.symbol a).declarations.length == 1 && (checked.symbol b).declarations.length == 1 &&
                checked.resolve reference == some b && (second.expression?.any fun value =>
                  value.withoutParens.kind == .nameRef && checked.resolve value.withoutParens == some a) &&
                first.boundDeclarator?.any fun declarator => (checked.facts.initialType? declarator).any fun type =>
                  (checked.memberOf? type first.boundProperty).any fun target =>
                    decide ([b, a, target].Nodup) && (checked.symbol target).name == "k" &&
                    (checked.symbol target).declarations.all (!·.isVariable)) = true := by decide +kernel
  obtain ⟨checked, hchecked, hall⟩ := Option.any_eq_true _ _ |>.mp hall
  simp only [List.any_eq_true, List.all_eq_true, Option.any_eq_true, Bool.and_eq_true, beq_iff_eq,
    decide_eq_true_eq, Bool.not_eq_true'] at hall
  obtain ⟨first, hfirst, second, hsecond, reference, -, ⟨⟨⟨hkind, hconst⟩, hvariable⟩, hconst'⟩, a, ha, b, hb,
    ⟨⟨⟨hone, hone'⟩, hreference⟩, value, hvalue, hform, hresolve⟩, declarator, hdeclarator, type, htype, target,
    hmember, ⟨hnodup, hname⟩, hlast⟩ := hall
  have hends := ends_upTo hchecked
  obtain ⟨-, hchains, -⟩ := constants_stand_for_others hread leastPrelude_isStandard hchecked
  have hchain : ([b, a] ++ [target]).IsChain (checked.Aliases (Program.ofSource twoConstants).root) :=
    .cons_cons (hends.aliases hread hsecond hb hone' (.written hvariable hconst' hvalue (.inl hform) hresolve))
      (.cons_cons (hends.aliases hread hfirst ha hone (.taken hkind hconst hdeclarator htype hmember)) (.singleton _))
  have hstays : ∀ declaration ∈ (checked.symbol target).declarations, ∀ symbol,
      ¬checked.StandsFor declaration symbol := fun declaration hmem symbol hstands => by
    have hvariable := hstands.isVariable
    rw [hlast declaration hmem] at hvariable
    cases hvariable
  exact ⟨checked, hchecked, reference, target, hname,
    (hchains [b, a] target hchain hnodup hstays (Nat.le_of_ble_eq_true rfl) b List.mem_cons_self
      reference hreference).1⟩

end Checked

end RouteTypes
