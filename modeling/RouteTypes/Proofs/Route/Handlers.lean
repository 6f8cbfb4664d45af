-- Handlers of registrations. Before a program is annotated it has been checked, and every call that refers to
-- the anchor with it: its arguments have types, a function among them has the type of a function with one
-- signature, and that has the parameters that are written. So some failures that annotating allows for never
-- come up.
import RouteTypes.Proofs.Route.Failures
import RouteTypes.Proofs.Tree.Children
import RouteTypes.Proofs.Typing.Standard

namespace RouteTypes

/-! ## Lowering -/

/-- Failing because a type is none of plain data. -/
def Cause.IsTypeShape (cause : Cause) : Prop := ∃ shown reason, cause = .typeShape shown reason

namespace TypeTable

variable {types : TypeTable} {lower : TypeId → Except Cause Schema} {cause : Cause}

theorem lowerFields_error : ∀ {properties : List (String × TypeId)} {fields : List (String × Schema)},
    lowerFields lower properties fields = .error cause → ∃ property ∈ properties, lower property.2 = .error cause
  | [], _, h => by cases h
  | (name, type) :: rest, fields, h => by
    rw [lowerFields] at h
    cases hone : lower type with
    | error other =>
      rw [hone] at h
      cases h
      exact ⟨_, List.mem_cons_self, hone⟩
    | ok schema =>
      rw [hone] at h
      obtain ⟨property, hproperty, hlower⟩ := lowerFields_error h
      exact ⟨property, List.mem_cons_of_mem _ hproperty, hlower⟩

theorem map_error {α β : Type} {f : α → β} {result : Except Cause α} (h : f <$> result = .error cause) :
    result = .error cause := by
  cases result with
  | error other => cases h; rfl
  | ok value => cases h

/-- An object type is lowered unless a type in it is not, if it is no array, or one with an element type. -/
theorem lowerObject_error {type : TypeId} {sort : ObjectSort}
    (harray : sort = .array → ∃ element, types.typeArguments type = [element])
    (h : types.lowerObject lower type sort = .error cause) :
    (∃ inner, lower inner = .error cause) ∨ cause.IsTypeShape := by
  unfold lowerObject at h
  split at h
  · rename_i hsort
    obtain ⟨element, helement⟩ := harray hsort
    rw [helement] at h
    exact .inl ⟨element, map_error h⟩
  · split at h
    · cases h
    · split at h
      · cases h
      · split at h
        · obtain ⟨property, -, hlower⟩ := lowerFields_error (map_error h)
          exact .inl ⟨_, hlower⟩
        · obtain ⟨property, -, hlower⟩ := lowerFields_error (map_error h)
          exact .inl ⟨_, hlower⟩
        · cases h
          exact .inr ⟨_, _, rfl⟩

/-- Where arrays have one type argument each, lowering fails for no other reason than the shape of a type. -/
theorem lowerWithin_error (harrays : ∀ type, types.sort type = .object .array →
    ∃ element, types.typeArguments type = [element]) : ∀ {depth : Nat} {around : List TypeId} {type : TypeId},
    types.lowerWithin depth around type = .error cause → cause.IsTypeShape
  | depth, around, type, h => by
    unfold lowerWithin at h
    split at h
    · cases h
    · cases h
    · cases h
    · cases h
    · cases h
      exact ⟨_, _, rfl⟩
    · rename_i sort hsort
      split at h
      · cases h
        exact ⟨_, _, rfl⟩
      · split at h
        · cases h
          exact ⟨_, _, rfl⟩
        · rcases lowerObject_error (fun heq => harrays type (heq ▸ hsort)) h with ⟨inner, hinner⟩ | hshape
          · exact lowerWithin_error harrays hinner
          · exact hshape

end TypeTable

/-! ## What is known of handlers -/

namespace Checked

/-- The type of an array is a reference to `Array`. -/
theorem object_of_array {checked : Checked} {type : TypeId} (h : checked.sortOf type = .object .array) :
    ∃ object array, checked.object? type = some object ∧ object.kind = .reference ∧
      object.symbol = some array ∧ checked.facts.arraySymbol = some array := by
  unfold sortOf at h
  cases hdata : checked.typeData type with
  | object object =>
    have hobject : checked.object? type = some object := by
      rw [object?, Facts.object?]
      exact congrArg TypeData.object? hdata
    rw [hdata] at h
    dsimp only at h
    cases hkind : object.kind with
    | reference =>
      rw [hkind] at h
      dsimp only at h
      split at h
      · rename_i harray
        rw [isArray, hobject] at harray
        simp only [hkind, Bool.and_eq_true, beq_iff_eq, Option.isSome_iff_exists] at harray
        obtain ⟨⟨-, array, hsymbol⟩, hsame⟩ := harray
        exact ⟨object, array, hobject, hkind, hsymbol, hsame ▸ hsymbol⟩
      · cases h
    | anonymous =>
      rw [hkind] at h
      dsimp only at h
      split at h <;> cases h
    | classType | interface | constructor =>
      rw [hkind] at h
      cases h
  | _ =>
    rw [hdata] at h
    cases h

variable {text : String} {prelude : Tree} {checked : Checked}

/-- In a program that sees a standard prelude every array has one type argument. -/
theorem Ends.arrays {prelude root : Node} (h : Ends prelude root checked) (hstandard : checked.facts.Standard)
    (type : TypeId) (htype : checked.typeTable.sort type = .object .array) :
    ∃ element, checked.typeTable.typeArguments type = [element] := by
  obtain ⟨object, array, hobject, hkind, hsymbol, harray⟩ := object_of_array htype
  obtain ⟨hleast, hmost⟩ := (h.closed.object hobject).arguments hkind array hsymbol
  rw [hstandard.array array harray] at hmost
  obtain ⟨element, helement⟩ := List.length_eq_one_iff.mp (Nat.le_antisymm hmost hleast)
  refine ⟨element, ?_⟩
  rw [typeTable]
  dsimp only
  rw [typeArguments, hobject, Option.map_some, helement, Option.getD_some]

end Checked

namespace Node

/-- The nodes of the parameters of a function, without what says what `this` is. -/
def ownParams (function : Node) : List Node :=
  ((function.childrenOf (· == .paramList)).flatMap paramsOf).filter (!Facts.isThisParam ·)

/-- A parameter in a list of parameters of a function that is an expression. -/
structure IsParamOf (root function param : Node) : Prop where
  mem : param ∈ root.descendants
  kind : param.kind = .param
  list : ∃ list, param.parent = some list ∧ list.kind = .paramList ∧ list.parent = some function
  expression : function.kind = .arrowFunction ∨ function.kind = .functionExpr

/-- No parameter of such a function is a property. -/
theorem IsParamOf.isMember {root function param : Node} (h : IsParamOf root function param) :
    param.isMember = false := by
  obtain ⟨list, hparent, -, hfunction⟩ := h.list
  rw [Node.isMember, if_pos h.kind, hparent, Option.bind_some, hfunction, Option.any_some]
  rcases h.expression with hkind | hkind <;> rw [hkind] <;> rfl

end Node

namespace Checked

variable {text : String} {prelude : Tree} {checked : Checked}

section

variable (hread : (Program.ofSource text).isOk = true) {function : Node}
  (hfunction : function ∈ (Program.ofSource text).root.descendants)
  (hkind : function.kind = .arrowFunction ∨ function.kind = .functionExpr)

include hread hfunction hkind

/-- What stands in the lists of parameters of a function is parameters. -/
theorem isParamOf_of_mem {param : Node}
    (h : param ∈ (function.childrenOf (· == .paramList)).flatMap (·.children)) :
    Node.IsParamOf (Program.ofSource text).root function param := by
  obtain ⟨list, hlist, hparam⟩ := List.mem_flatMap.mp h
  have hnodes := Program.nodes_closed text
  have hlistKind : list.kind = .paramList := beq_iff_eq.mp (List.mem_filter.mp hlist).2
  have hlistMem := hnodes.child hfunction (List.mem_of_mem_filter hlist)
  have hadmitted := Program.admitted_of_mem_children hread hlistMem hparam
  rw [hlistKind] at hadmitted
  exact
    { mem := hnodes.child hlistMem hparam
      kind := beq_iff_eq.mp hadmitted
      list := ⟨list, Node.parent_of_mem_children hparam, hlistKind,
        Node.parent_of_mem_children (List.mem_of_mem_filter hlist)⟩
      expression := hkind }

omit hkind in
theorem ownParams_eq : function.ownParams =
    ((function.childrenOf (· == .paramList)).flatMap (·.children)).filter (!Facts.isThisParam ·) := by
  unfold Node.ownParams
  congr 1
  refine List.flatMap_congr fun list hlist => ?_
  have hlistKind : list.kind = .paramList := beq_iff_eq.mp (List.mem_filter.mp hlist).2
  exact Program.paramsOf_eq hread ((Program.nodes_closed text).child hfunction (List.mem_of_mem_filter hlist))
    hlistKind

end

section

variable (h : Ends (Node.ofTree .prelude prelude) (Program.ofSource text).root checked)
  (hread : (Program.ofSource text).isOk = true) {function param : Node}
  (hparam : Node.IsParamOf (Program.ofSource text).root function param)

include hread hparam

/-- What a parameter declares has been known since it was bound. -/
theorem declared?_param {s s' : Facts}
    (hle : s.Extends (Visible (Node.ofTree .prelude prelude) (Program.ofSource text).root) s') :
    s'.declared? param = s.declared? param := by
  refine hle.declared?_eq fun other hother hid => ?_
  obtain rfl := Program.eq_of_id hread hparam.mem hother hid
  exact hparam.isMember

include h

/-- A parameter is among the declarations of its symbol. -/
theorem Ends.mem_declarations_param {id : SymbolId} (hid : checked.declared? param = some id) :
    (Facts.bound (Node.ofTree .prelude prelude) (Program.ofSource text).root).HasSymbol id ∧
      param ∈ ((Facts.bound (Node.ofTree .prelude prelude) (Program.ofSource text).root).symbol id).declarations ∧
      Declares (Visible (Node.ofTree .prelude prelude) (Program.ofSource text).root) param := by
  rw [declared?, declared?_param hread hparam h.later.toExtends] at hid
  obtain ⟨hsymbol, hmem⟩ := Program.mem_declarations hread h.begins.closed hparam.mem hid
  exact ⟨hsymbol, hmem, (h.begins.closed.symbol id hsymbol).declarations param hmem⟩

/-- What says what `this` is declares nothing. -/
theorem Ends.declared?_this (hthis : Facts.isThisParam param = true) : checked.declared? param = none := by
  cases hid : checked.declared? param with
  | none => rfl
  | some id =>
    have hmember := (h.mem_declarations_param hread hparam hid).2.2.named hparam.kind hthis
    rw [hparam.isMember] at hmember
    cases hmember

/-- Every other parameter declares a symbol. -/
theorem Ends.declared?_named (hthis : Facts.isThisParam param = false) :
    ∃ id, checked.declared? param = some id := by
  obtain ⟨list, hparent, hlist, -⟩ := hparam.list
  obtain ⟨name, hname⟩ := Program.exists_name hread hparam.mem hparam.kind
  have hbelow : param ∈ Facts.below (Program.ofSource text).root := by
    have hmem := hparam.mem
    rw [Facts.descendants_eq] at hmem
    rcases List.mem_cons.mp hmem with hroot | hbelow
    · have hkind := hparam.kind
      rw [hroot, Program.kind_root] at hkind
      cases hkind
    · exact hbelow
  have hnames : Facts.NamesParam param :=
    { kind := hparam.kind
      alone := by rw [Node.parentOf?, hparent, Option.filter_some, hlist]; rfl
      other := hthis
      name := by rw [Node.declaredName?, hname]; rfl }
  rw [declared?, declared?_param hread hparam h.later.toExtends]
  exact Option.isSome_iff_exists.mp (h.begins.params param hbelow hnames)

end

/-- The values of the items that have one, if that is just the items with a property. -/
theorem map_some_filterMap {α β : Type} {f : α → Option β} {p : α → Bool} : ∀ {items : List α},
    (∀ item ∈ items, p item = true → ∃ value, f item = some value) →
      (∀ item ∈ items, p item = false → f item = none) → (items.filterMap f).map some = (items.filter p).map f
  | [], _, _ => rfl
  | item :: rest, hsome, hnone => by
    have ih := map_some_filterMap (fun other hother => hsome other (List.mem_cons_of_mem _ hother))
      fun other hother => hnone other (List.mem_cons_of_mem _ hother)
    rw [List.filterMap_cons, List.filter_cons]
    cases hp : p item with
    | true =>
      obtain ⟨value, hvalue⟩ := hsome item List.mem_cons_self hp
      rw [hvalue, if_pos rfl, List.map_cons, List.map_cons, hvalue, ih]
    | false =>
      rw [hnone item List.mem_cons_self hp, if_neg Bool.false_ne_true]
      exact ih

section

variable (h : Ends (Node.ofTree .prelude prelude) (Program.ofSource text).root checked)
  (hread : (Program.ofSource text).isOk = true)

include h hread

/-- The signature of a function that is an expression has the symbols of its parameters in their order,
whenever it was looked at. -/
theorem Ends.params_eq {function : Node} (hfunction : function ∈ (Program.ofSource text).root.descendants)
    (hkind : function.kind = .arrowFunction ∨ function.kind = .functionExpr) {signature : SignatureId}
    (hsignature : checked.facts.declaredSignatures.get? function.id = some signature) :
    (checked.signature signature).params.map some = function.ownParams.map checked.declared? := by
  obtain ⟨-, node, hnode, hid, before, hbefore, hparams⟩ := h.closed.declaredSignatures hsignature
  obtain rfl : function = node := (Program.eq_of_id hread hfunction hnode hid).symm
  have hsame : (checked.signature signature).params =
      ((function.childrenOf (· == .paramList)).flatMap (·.children)).filterMap checked.declared? := by
    rw [List.filterMap_flatMap]
    refine hparams.trans (List.flatMap_congr fun list hlist => List.filterMap_congr fun param hparam => ?_)
    have hmem : param ∈ (function.childrenOf (· == .paramList)).flatMap (·.children) :=
      List.mem_flatMap.mpr ⟨list, hlist, hparam⟩
    exact (declared?_param hread (isParamOf_of_mem hread hfunction hkind hmem) hbefore).symm
  rw [hsame, ownParams_eq hread hfunction]
  refine map_some_filterMap (fun param hparam hown => ?_) fun param hparam hthis => ?_
  · exact h.declared?_named hread (isParamOf_of_mem hread hfunction hkind hparam) (by simpa using hown)
  · exact h.declared?_this hread (isParamOf_of_mem hread hfunction hkind hparam) (by simpa using hthis)

end

end Checked

namespace Route

/-- A function whose type is noted, which has one signature, with the symbols of the parameters in their
order. -/
structure IsKnown (checked : Checked) (function : Node) (signature : SignatureId) : Prop where
  type : ∃ type, checked.facts.expressionTypes.get? function.id = some type ∧ checked.calls type = [signature]
  params : (checked.signature signature).params.map some = function.ownParams.map checked.declared?

theorem IsKnown.signatureOf_eq {checked : Checked} {function : Node} {signature : SignatureId}
    (h : IsKnown checked function signature) : signatureOf (callables checked) function = .ok signature := by
  obtain ⟨type, htype, hcalls⟩ := h.type
  rw [signatureOf, callables, Checked.typeOfNode, htype]
  dsimp only
  rw [hcalls]

section

variable {text : String} {prelude : Tree} {checked : Checked} {anchor : SymbolId} {call : Node}

/-- What refers to the anchor is looked at, and so is a call of it, with its arguments. -/
theorem noticed_of_registration (h : Checked.Ends (Node.ofTree .prelude prelude) (Program.ofSource text).root checked)
    (hread : (Program.ofSource text).isOk = true)
    (hcall : call ∈ registrations checked anchor (Program.ofSource text).root) :
    checked.facts.NoticedAll call.args := by
  obtain ⟨hmem, hkind⟩ := List.mem_filter.mp hcall
  obtain ⟨hkind, hregistration⟩ := (Bool.and_eq_true _ _).mp hkind
  unfold isRegistration at hregistration
  split at hregistration
  · rename_i callee hcallee
    have hcalleeMem := (Program.nodes_closed text).child hmem (List.mem_of_find?_eq_some hcallee)
    have hhead : IsHead (Visible (Node.ofTree .prelude prelude) (Program.ofSource text).root) call callee :=
      ⟨Program.isUnique hread hmem, by rw [beq_iff_eq.mp hkind]; rfl, hcallee, Program.isUnique hread hcalleeMem⟩
    obtain ⟨symbol, hsymbol, -⟩ :=
      Option.map_eq_some_iff.mp (beq_iff_eq.mp ((Bool.and_eq_true _ _).mp hregistration).2)
    obtain ⟨-, hopened | hnoticed⟩ := h.accesses.resolved (Program.isUnique hread hcalleeMem) hsymbol
    · cases hopened
    · obtain hopened | ⟨type, htype⟩ := h.accesses.asked hhead hnoticed
      · cases hopened
      · exact (h.accesses.found (Program.isUnique hread hmem) htype).arguments (beq_iff_eq.mp hkind)
  · cases hregistration

theorem kind_of_handler {arg : Node} (h : notAHandler? arg = none) :
    arg.kind = .arrowFunction ∨ arg.kind = .functionExpr := by
  unfold notAHandler? at h
  split at h
  · exact .inl ‹_›
  · exact .inr ‹_›
  all_goals cases h

/-- A function among the arguments of a registration is known. -/
theorem exists_signature (h : Checked.Ends (Node.ofTree .prelude prelude) (Program.ofSource text).root checked)
    (hread : (Program.ofSource text).isOk = true)
    (hcall : call ∈ registrations checked anchor (Program.ofSource text).root) {arg : Node} (harg : arg ∈ call.args)
    (hhandler : notAHandler? arg = none) : ∃ signature, IsKnown checked arg signature := by
  have hkind := kind_of_handler hhandler
  have hmem : arg ∈ (Program.ofSource text).root.descendants :=
    (Program.nodes_closed text).map_childrenOf (List.mem_of_mem_filter hcall) arg harg
  have hitem : Check.spreadOrItem? arg = some arg := by
    unfold Check.spreadOrItem?
    rcases hkind with hkind | hkind <;> rw [hkind] <;> rfl
  obtain ⟨type, htype⟩ := noticed_of_registration h hread hcall arg harg arg hitem
  obtain ⟨signature, hsignature, hdata⟩ := (h.accesses.found (Program.isUnique hread hmem) htype).function hkind
  refine ⟨signature, ⟨type, htype, ?_⟩, h.params_eq hread hmem hkind hsignature⟩
  rw [Checked.calls, Checked.object?, Facts.object?, hdata]
  rfl

end

/-! ## What does not come up -/

section

variable {text : String} {failure : Failure}

/-- A default export is a node of the program. -/
theorem mem_of_mem_defaultExports {root statement : Node} (hroot : root.parent = none)
    (h : statement ∈ root.defaultExports) : statement ∈ root.descendants ∧ statement.kind = .exportDefault := by
  obtain ⟨list, hlist, hin⟩ := List.mem_flatMap.mp h
  obtain ⟨own, hown, hself⟩ := List.mem_flatMap.mp hin
  obtain rfl := List.mem_singleton.mp hself
  have hnodes := Node.closed_descendants hroot
  exact ⟨hnodes.child (hnodes.child (Node.self_mem_descendants _) (List.mem_of_mem_filter hlist))
    (List.mem_of_mem_filter hown), beq_iff_eq.mp (List.mem_filter.mp hown).2⟩

/-- The expression behind the two words is what has to be a name. -/
theorem exportedName_eq (hread : (Program.ofSource text).isOk = true) {statement : Node}
    (hstatement : statement ∈ (Program.ofSource text).root.defaultExports) : ∃ exported,
      statement.expression? = some exported ∧ exportedName statement =
        if exported.kind = .nameRef then .ok exported else .error ⟨.malformedExport
          s!"expected an identifier after `export default`, found {(Kind.node exported.kind).label}",
          some statement.span⟩ := by
  obtain ⟨hmem, hkind⟩ := mem_of_mem_defaultExports (Node.parent_ofTree _ _) hstatement
  obtain ⟨first, second, third, rest, hparts, hfirst, hsecond, exported, hinner, hexpression⟩ :=
    Program.exportDefault_parts hread hmem hkind
  have hthird : third.kind = .node exported.kind := by
    cases third with
    | leaf _ _ => cases hinner
    | node _ _ _ => cases hinner; rfl
  refine ⟨exported, hexpression, ?_⟩
  unfold exportedName
  rw [hparts]
  dsimp only
  rw [if_neg (not_not.mpr hfirst), if_neg (not_not.mpr hsecond), hinner, Option.filter_some, hthird]
  by_cases hname : exported.kind = .nameRef
  · rw [if_pos hname, if_pos (beq_iff_eq.mpr hname)]
  · rw [if_neg hname, if_neg fun hsame => hname (beq_iff_eq.mp hsame)]

/-- What is exported has a name unless it is another expression. -/
theorem exportedName_error (hread : (Program.ofSource text).isOk = true) {statement : Node}
    (hstatement : statement ∈ (Program.ofSource text).root.defaultExports)
    (h : exportedName statement = .error failure) : ∃ reason exported,
      failure = ⟨.malformedExport reason, some statement.span⟩ ∧ statement.expression? = some exported ∧
        exported.kind ≠ .nameRef := by
  obtain ⟨exported, hexpression, heq⟩ := exportedName_eq hread hstatement
  rw [heq] at h
  split at h
  · cases h
  · rename_i hname
    cases h
    exact ⟨_, exported, rfl, hexpression, hname⟩

/-- Failures that say something about an export or about the exported type. -/
def saysNoAnchor : Cause → Bool
  | .exportCount _ | .unresolvedExport _ | .missingMethod _ _ | .wrongExportType _ _ => true
  | _ => false

/-- Why there is no anchor. -/
theorem anchor_error {config : Config} {checked : Checked} (hread : (Program.ofSource text).isOk = true)
    (h : Route.anchor config checked (Program.ofSource text).root = .error failure) :
    saysNoAnchor failure.cause = true ∨ ∃ statement reason exported,
      (Program.ofSource text).root.defaultExports = [statement] ∧ failure.cause = .malformedExport reason ∧
        statement.expression? = some exported ∧ exported.kind ≠ .nameRef := by
  rcases bind_error h with hexport | ⟨statement, hexport, h⟩
  · unfold theExport at hexport
    split at hexport
    · cases hexport
    · cases hexport
      exact .inl rfl
  have hone : (Program.ofSource text).root.defaultExports = [statement] := by
    unfold theExport at hexport
    split at hexport
    · cases hexport
      assumption
    · cases hexport
  rcases bind_error h with hname | ⟨name, -, h⟩
  · obtain ⟨reason, exported, rfl, hexpression, hkind⟩ :=
      exportedName_error hread (hone ▸ List.mem_singleton_self statement) hname
    exact .inr ⟨statement, reason, exported, hone, rfl, hexpression, hkind⟩
  refine .inl ?_
  dsimp only at h
  split at h
  · cases h
    rfl
  · split at h
    · split at h
      · cases h
      · cases h
        rfl
    · cases h
      rfl

variable {prelude : Tree} {checked : Checked} {anchor : SymbolId} {config : Config} {call : Node}

/-- Why a registration of a checked program fails: by the number of its arguments, by its third argument, by the
number of parameters of that, or by the shape of a type. -/
theorem cause_of_registration (h : Checked.Ends (Node.ofTree .prelude prelude) (Program.ofSource text).root checked)
    (hread : (Program.ofSource text).isOk = true) (hstandard : checked.facts.Standard)
    (hcall : call ∈ registrations checked anchor (Program.ofSource text).root)
    (hfails : Fails config (callables checked) call failure) :
    (∃ found, failure.cause = .handlerShape found) ∨
      (∃ count, failure.cause = .arity s!"arguments to `{config.method}`" 3 count) ∨
      (∃ count, failure.cause = .arity "handler parameters" 1 count) ∨ failure.cause.IsTypeShape := by
  have hmem := List.mem_filter.mp hcall
  obtain ⟨list, inner, hlist, -⟩ :=
    Program.exists_argList hread hmem.1 (beq_iff_eq.mp ((Bool.and_eq_true _ _).mp hmem.2).1)
  cases hfails with
  | handler herror =>
    rcases handlerOf_error hlist herror with ⟨found, arg, -, rfl⟩ | ⟨count, rfl⟩
    · exact .inl ⟨found, rfl⟩
    · exact .inr (.inl ⟨count, rfl⟩)
  | signature hfound herror =>
    obtain ⟨harg, hhandler⟩ := handlerOf_ok hfound
    obtain ⟨signature, hknown⟩ := exists_signature h hread hcall harg hhandler
    rw [hknown.signatureOf_eq] at herror
    cases herror
  | param _ _ herror =>
    unfold paramOf at herror
    split at herror
    · cases herror
    · cases herror
      exact .inr (.inr (.inl ⟨_, rfl⟩))
  | paramType _ _ _ herror heq =>
    subst heq
    exact .inr (.inr (.inr (TypeTable.lowerWithin_error (h.arrays hstandard) herror)))
  | returnType _ herror heq =>
    subst heq
    exact .inr (.inr (.inr (TypeTable.lowerWithin_error (h.arrays hstandard) herror)))

/-- The words about the arguments of a call are no words about an array. -/
theorem arguments_ne_array (method shown : String) :
    s!"arguments to `{method}`" ≠ s!"type arguments on array type `{shown}`" := fun h => by
  have hfirst := congrArg (fun text : String => text.toList.head?) h
  simp [toString] at hfirst

theorem parameters_ne_array (shown : String) :
    "handler parameters" ≠ s!"type arguments on array type `{shown}`" := fun h => by
  have hfirst := congrArg (fun text : String => text.toList.head?) h
  simp [toString] at hfirst

/-- What is written in a registration of a checked program has what annotating relies on: its arguments stand
between parentheses, and a function among them has a type, which has one signature, with the symbols of its
parameters in their order. So annotating never fails because of that, nor because of an array, and an export is
malformed only if it is another expression than a name. -/
theorem handlers_have_one_signature (hread : (Program.ofSource text).isOk = true)
    (hstandard : IsStandard prelude = true) {depth : Nat}
    (hchecked : Checked.upTo depth (Node.ofTree .prelude prelude) (Program.ofSource text).root = some checked) :
    IsStandard (Program.ofSource preludeSource).tree = true ∧
    (∀ config failure, annotate config (callables checked) (Program.ofSource text).root = .error failure →
      (∀ found, failure.cause ≠ .ambiguousSignature found) ∧
      (∀ node expected, failure.cause ≠ .malformedNode node expected) ∧
      (∀ (shown : String) (expected found : Nat),
        failure.cause ≠ .arity s!"type arguments on array type `{shown}`" expected found) ∧
      ∀ reason, failure.cause = .malformedExport reason → ∃ statement exported,
        (Program.ofSource text).root.defaultExports = [statement] ∧ statement.expression? = some exported ∧
          exported.kind ≠ .nameRef) ∧
    ∀ anchor, ∀ call ∈ registrations checked anchor (Program.ofSource text).root,
      (∃ list inner, call.argList? = some list ∧ list.row = .token .lParen :: (inner ++ [.token .rParen])) ∧
      ∀ arg ∈ call.args, notAHandler? arg = none → ∃ signature, IsKnown checked arg signature := by
  have hends := Checked.ends_upTo hchecked
  refine ⟨prelude_isStandard, fun config failure herror => ?_, fun anchor call hcall => ⟨?_, fun arg harg hhandler =>
    exists_signature hends hread hcall harg hhandler⟩⟩
  · rcases (annotate_eq_error hread).mp herror with herror | ⟨anchor, -, herror⟩
    · rcases anchor_error hread herror with hno | ⟨statement, reason, exported, hone, hcause, hexported⟩
      · cases hcause : failure.cause with
        | exportCount | unresolvedExport | missingMethod | wrongExportType =>
          exact ⟨fun _ => Cause.noConfusion, fun _ _ => Cause.noConfusion, fun _ _ _ => Cause.noConfusion,
            fun _ => Cause.noConfusion⟩
        | _ =>
          rw [hcause] at hno
          cases hno
      · rw [hcause]
        exact ⟨fun _ => Cause.noConfusion, fun _ _ => Cause.noConfusion, fun _ _ _ => Cause.noConfusion,
          fun _ _ => ⟨statement, exported, hone, hexported⟩⟩
    · obtain ⟨call, hcall, hfails⟩ := List.exists_of_findSome?_eq_some herror
      rcases cause_of_registration hends hread (hends.standard hstandard) hcall (fails_of_failureOf? hfails) with
        ⟨found, hcause⟩ | ⟨count, hcause⟩ | ⟨count, hcause⟩ | ⟨shown, reason, hcause⟩ <;> rw [hcause]
      · exact ⟨fun _ => Cause.noConfusion, fun _ _ => Cause.noConfusion, fun _ _ _ => Cause.noConfusion,
          fun _ => Cause.noConfusion⟩
      · exact ⟨fun _ => Cause.noConfusion, fun _ _ => Cause.noConfusion,
          fun shown _ _ hsame => arguments_ne_array config.method shown (Cause.arity.inj hsame).1,
          fun _ => Cause.noConfusion⟩
      · exact ⟨fun _ => Cause.noConfusion, fun _ _ => Cause.noConfusion,
          fun shown _ _ hsame => parameters_ne_array shown (Cause.arity.inj hsame).1, fun _ => Cause.noConfusion⟩
      · exact ⟨fun _ => Cause.noConfusion, fun _ _ => Cause.noConfusion, fun _ _ _ => Cause.noConfusion,
          fun _ => Cause.noConfusion⟩
  · obtain ⟨hmem, hkind⟩ := List.mem_filter.mp hcall
    exact Program.exists_argList hread hmem (beq_iff_eq.mp ((Bool.and_eq_true _ _).mp hkind).1)

end

/-- The handler in a program with one route is known. -/
theorem oneRoute_handler_is_known : (Program.ofSource oneRoute).isOk = true ∧ ∃ checked anchor call arg signature,
    Checked.upTo 40 (Node.ofTree .prelude leastPrelude) (Program.ofSource oneRoute).root = some checked ∧
      Route.anchor oneRouteConfig checked (Program.ofSource oneRoute).root = .ok anchor ∧
      call ∈ registrations checked anchor (Program.ofSource oneRoute).root ∧ arg ∈ call.args ∧
      IsKnown checked arg signature := by
  have hread := oneRoute_annotates.1
  have hall : ((Checked.upTo 40 (Node.ofTree .prelude leastPrelude)
      (Program.ofSource oneRoute).root).any fun checked =>
      match Route.anchor oneRouteConfig checked (Program.ofSource oneRoute).root with
      | .ok anchor => (registrations checked anchor (Program.ofSource oneRoute).root).any fun call =>
        call.args.any fun arg => notAHandler? arg == none
      | .error _ => false) = true := by decide +kernel
  obtain ⟨checked, hchecked, hall⟩ := Option.any_eq_true _ _ |>.mp hall
  split at hall
  · rename_i anchor hanchor
    obtain ⟨call, hcall, hall⟩ := List.any_eq_true.mp hall
    obtain ⟨arg, harg, hhandler⟩ := List.any_eq_true.mp hall
    obtain ⟨-, -, hcalls⟩ := handlers_have_one_signature hread leastPrelude_isStandard hchecked
    obtain ⟨signature, hknown⟩ := (hcalls anchor call hcall).2 arg harg (beq_iff_eq.mp hhandler)
    exact ⟨hread, checked, anchor, call, arg, signature, hchecked, hanchor, hcall, harg, hknown⟩
  · cases hall

end Route

end RouteTypes
