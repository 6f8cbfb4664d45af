-- What is reported of a failed registration. Annotating stops at the first one that fails, its failure is
-- placed within the call, even where the type of the parameter is to blame, and nothing of it is filed.
import RouteTypes.Proofs.Route.Handlers
import RouteTypes.Proofs.Tree.Nesting

namespace RouteTypes

namespace Route

variable {text : String} {prelude : Tree} {checked : Checked} {config : Config} {anchor : SymbolId}
  {call handler : Node}

/-! ## Places -/

/-- The failure knows its place, which lies within the node. -/
def PlacedIn (node : Node) (failure : Failure) : Prop :=
  ∃ span, failure.span = some span ∧ node.span.start ≤ span.start ∧ span.stop ≤ node.span.stop

theorem PlacedIn.at {node inner : Node} (h : inner.Within node) (cause : Cause) :
    PlacedIn node ⟨cause, some inner.span⟩ := ⟨inner.span, rfl, h.start_le, h.stop_le⟩

/-- The place of a part within a node, or that of the node itself. -/
theorem PlacedIn.atPart {node inner : Node} (h : inner.Within node) {part? : Option Node}
    (hpart : ∀ part ∈ part?, part.Within inner) (cause : Cause) :
    PlacedIn node ⟨cause, some ((part?.map (·.span)).getD inner.span)⟩ := by
  cases part? with
  | none => exact .at h cause
  | some part => exact .at ((hpart part rfl).trans h) cause

section

variable (hcall : call ∈ (Program.ofSource text).root.descendants)

include hcall

theorem within_of_child {child : Node} (hchild : child ∈ call.children) : child.Within call :=
  .of_child (Node.part_of_mem_descendants hcall) hchild

theorem within_of_argList {list : Node} (hlist : call.argList? = some list) : list.Within call :=
  within_of_child hcall (List.mem_of_find?_eq_some hlist)

/-- The arguments of a call stand within it. -/
theorem within_of_args {arg : Node} (harg : arg ∈ call.args) :
    arg ∈ (Program.ofSource text).root.descendants ∧ arg.Within call := by
  have hnodes := Program.nodes_closed text
  refine ⟨hnodes.map_childrenOf hcall arg harg, ?_⟩
  unfold Node.args at harg
  cases hlist : call.argList? with
  | none =>
    rw [hlist] at harg
    cases harg
  | some list =>
    rw [hlist] at harg
    have hmem := hnodes.child hcall (List.mem_of_find?_eq_some hlist)
    exact (within_of_child hmem (List.mem_of_mem_filter harg)).trans (within_of_argList hcall hlist)

/-- The body of a function stands within it. -/
theorem within_of_body {body : Node} (hbody : bodyOf? call = some body) : body.Within call := by
  refine within_of_child hcall ?_
  unfold bodyOf? at hbody
  split at hbody
  · exact List.mem_of_getLast? (Option.filter_eq_some_iff.mp hbody).1
  · exact List.mem_of_find?_eq_some hbody

end

/-! ## Parameters -/

/-- A parameter stands in the scope of its function. -/
theorem home?_of_isParamOf {root function param : Node} (h : Node.IsParamOf root function param) :
    param.home? = some function := by
  obtain ⟨list, hparent, hlist, hfunction⟩ := h.list
  have hopens : function.kind.opensScope = true := by
    rcases h.expression with hkind | hkind <;> rw [hkind] <;> rfl
  rw [Node.home?, if_neg (by rw [h.kind]; decide), hparent, Option.bind_some,
    Node.scopeOwner?_of_not_opens (by rw [hlist]; rfl), hfunction, Option.bind_some, Node.scopeOwner?_of_opens hopens]

/-- What stands in the scope of a function of the program stands within it. -/
theorem within_of_home {node function : Node}
    (hnode : Visible (Node.ofTree .prelude prelude) (Program.ofSource text).root node)
    (hfunction : function ∈ (Program.ofSource text).root.descendants) (hhome : node.home? = some function) :
    node.Within function := by
  unfold Node.home? at hhome
  split at hhome
  · cases hhome
    exact .refl _
  · obtain ⟨outer, hparent, howner⟩ := Option.bind_eq_some_iff.mp hhome
    have hmem := List.mem_of_find?_eq_some howner
    rcases hnode with hnode | hnode
    · obtain ⟨houter, -⟩ := Node.Within.of_parent hnode hparent
      have hprelude := Node.source_of_mem_descendants (Node.Within.of_outwards houter hmem).1
      rw [Program.source_of_mem hfunction, Node.source_ofTree] at hprelude
      cases hprelude
    · obtain ⟨houter, hwithin⟩ := Node.Within.of_parent hnode hparent
      exact hwithin.trans (Node.Within.of_outwards houter hmem).2

/-- The first declaration of a parameter of a handler stands within the handler. -/
theorem within_of_valueDeclaration
    (h : Checked.Ends (Node.ofTree .prelude prelude) (Program.ofSource text).root checked)
    (hread : (Program.ofSource text).isOk = true) (hhandler : handler ∈ (Program.ofSource text).root.descendants)
    (hkind : handler.kind = .arrowFunction ∨ handler.kind = .functionExpr) {signature : SignatureId}
    (hknown : IsKnown checked handler signature) {param : SymbolId}
    (hparam : (checked.signature signature).params = [param]) {declaration : Node}
    (hdeclaration : checked.valueDeclaration? param = some declaration) : declaration.Within handler := by
  have hparams := hknown.params
  rw [hparam] at hparams
  obtain ⟨node, hnode, hid⟩ : ∃ node ∈ handler.ownParams, checked.declared? node = some param := by
    have hmem : some param ∈ handler.ownParams.map checked.declared? := hparams ▸ List.mem_singleton_self _
    exact List.mem_map.mp hmem
  rw [Checked.ownParams_eq hread hhandler] at hnode
  have hown := Checked.isParamOf_of_mem hread hhandler hkind (List.mem_of_mem_filter hnode)
  obtain ⟨hsymbol, hmem, -⟩ := h.mem_declarations_param hread hown hid
  have hhead := h.mem_of_valueDeclaration? hsymbol hdeclaration
  obtain ⟨home, htogether⟩ := h.begins.together param hsymbol
  refine within_of_home ((h.begins.closed.symbol param hsymbol).declarations declaration hhead).known hhandler ?_
  rw [htogether declaration hhead, ← htogether node hmem, home?_of_isParamOf hown]

/-! ## Failures -/

theorem paramOf_ok {signature : SignatureId} {param : SymbolId}
    (h : paramOf checked handler signature = .ok param) : (checked.signature signature).params = [param] := by
  unfold paramOf at h
  split at h
  · cases h
    assumption
  · cases h

/-- A registration that fails says where. -/
theorem placedIn_of_fails (h : Checked.Ends (Node.ofTree .prelude prelude) (Program.ofSource text).root checked)
    (hread : (Program.ofSource text).isOk = true)
    (hcall : call ∈ registrations checked anchor (Program.ofSource text).root) {failure : Failure}
    (hfails : Fails config (callables checked) call failure) : PlacedIn call failure := by
  obtain ⟨hmem, hkind⟩ := List.mem_filter.mp hcall
  obtain ⟨list, inner, hlist, -⟩ :=
    Program.exists_argList hread hmem (beq_iff_eq.mp ((Bool.and_eq_true _ _).mp hkind).1)
  have hargs := fun {handler : Node} (hfound : handlerOf config call = .ok handler) =>
    within_of_args hmem (handlerOf_ok hfound).1
  cases hfails with
  | handler herror =>
    rcases handlerOf_error hlist herror with ⟨found, arg, harg, rfl⟩ | ⟨count, rfl⟩
    · exact .at (within_of_args hmem harg).2 _
    · exact .at (within_of_argList hmem hlist) _
  | signature hfound herror =>
    unfold signatureOf at herror
    split at herror
    · cases herror
    · cases herror
      exact .at (hargs hfound).2 _
  | param hfound _ herror =>
    obtain ⟨hhandler, hwithin⟩ := hargs hfound
    unfold paramOf at herror
    split at herror
    · cases herror
    · cases herror
      exact .atPart hwithin (fun part hpart => within_of_child hhandler (List.mem_of_find?_eq_some hpart)) _
  | paramType hfound honly hone herror heq =>
    obtain ⟨hhandler, hwithin⟩ := hargs hfound
    obtain ⟨harg, hfunction⟩ := handlerOf_ok hfound
    obtain ⟨signature, hknown⟩ := exists_signature h hread hcall harg hfunction
    obtain rfl : signature = _ := Except.ok.inj (hknown.signatureOf_eq.symm.trans honly)
    subst heq
    exact .atPart hwithin (fun declaration hdeclaration => within_of_valueDeclaration h hread hhandler
      (kind_of_handler hfunction) hknown (paramOf_ok hone) hdeclaration) _
  | returnType hfound herror heq =>
    obtain ⟨hhandler, hwithin⟩ := hargs hfound
    subst heq
    exact .atPart hwithin (fun body hbody => within_of_body hhandler hbody) _

/-! ## Filing -/

section

variable {program : Callables} {registry : Registry} {failure : Failure}

/-- Filing the schemas of a registration fails, whatever is filed already, if they cannot be told. -/
theorem fileSchemas_eq_error :
    ((fileSchemas config program call).run.run registry).1 = .error failure ↔
      failureOf? config program call = some failure := by
  rw [run_fileSchemas, failureOf?]
  cases schemasOf config program call with
  | ok schemas => exact ⟨(fun h => by cases h), (fun h => by cases h)⟩
  | error other =>
    exact ⟨fun h => congrArg some (Except.error.inj h), fun h => congrArg Except.error (Option.some.inj h)⟩

theorem fileSchemas_eq_ok : (∃ ids, ((fileSchemas config program call).run.run registry).1 = .ok ids) ↔
    failureOf? config program call = none := by
  rw [run_fileSchemas, failureOf?]
  cases schemasOf config program call with
  | ok schemas => exact ⟨fun _ => rfl, fun _ => ⟨_, rfl⟩⟩
  | error other => exact ⟨(by rintro ⟨ids, h⟩; cases h), (fun h => by cases h)⟩

/-- Nothing is filed of a registration that fails. -/
theorem registry_of_fileSchemas (h : ((fileSchemas config program call).run.run registry).1 = .error failure) :
    ((fileSchemas config program call).run.run registry).2 = registry := by
  rw [run_fileSchemas] at h ⊢
  cases hschemas : schemasOf config program call with
  | ok schemas =>
    rw [hschemas] at h
    cases h
  | error other => rfl

end

/-- Annotating a checked program fails if and only if there is no anchor or a registration cannot be filed. It
reports the first registration that fails, counted from the outside in and from left to right, and the place of
the failure lies within that registration. Of a registration that fails nothing is filed. -/
theorem first_failure_is_reported (hread : (Program.ofSource text).isOk = true) {depth : Nat}
    (hchecked : Checked.upTo depth (Node.ofTree .prelude prelude) (Program.ofSource text).root = some checked)
    (config : Config) :
    ((∃ failure, annotate config (callables checked) (Program.ofSource text).root = .error failure) ↔
      (∃ failure, Route.anchor config checked (Program.ofSource text).root = .error failure) ∨
        ∃ anchor, Route.anchor config checked (Program.ofSource text).root = .ok anchor ∧
          ∃ call ∈ registrations checked anchor (Program.ofSource text).root, ∃ failure,
            ∀ registry, ((fileSchemas config (callables checked) call).run.run registry).1 = .error failure) ∧
    (∀ failure, annotate config (callables checked) (Program.ofSource text).root = .error failure →
      Route.anchor config checked (Program.ofSource text).root = .error failure ∨
        ∃ anchor before call behind, Route.anchor config checked (Program.ofSource text).root = .ok anchor ∧
          registrations checked anchor (Program.ofSource text).root = before ++ call :: behind ∧
          (∀ earlier ∈ before, ∀ registry,
            ∃ ids, ((fileSchemas config (callables checked) earlier).run.run registry).1 = .ok ids) ∧
          (∀ registry, ((fileSchemas config (callables checked) call).run.run registry).1 = .error failure) ∧
          PlacedIn call failure) ∧
    ∀ call registry failure, ((fileSchemas config (callables checked) call).run.run registry).1 = .error failure →
      ((fileSchemas config (callables checked) call).run.run registry).2 = registry := by
  have hends := Checked.ends_upTo hchecked
  refine ⟨⟨fun ⟨failure, herror⟩ => ?_, fun hfails => ?_⟩, fun failure herror => ?_,
    fun call registry failure => registry_of_fileSchemas⟩
  · refine ((annotate_eq_error hread).mp herror).imp (fun herror => ⟨failure, herror⟩) ?_
    rintro ⟨anchor, hanchor, hfirst⟩
    obtain ⟨call, hcall, hfails⟩ := List.exists_of_findSome?_eq_some hfirst
    exact ⟨anchor, hanchor, call, hcall, failure, fun _ => fileSchemas_eq_error.mpr hfails⟩
  · rcases hfails with ⟨failure, herror⟩ | ⟨anchor, hanchor, call, hcall, failure, herror⟩
    · exact ⟨failure, (annotate_eq_error hread).mpr (.inl herror)⟩
    · have hfails := fileSchemas_eq_error.mp (herror .empty)
      obtain ⟨first, hfirst⟩ := Option.isSome_iff_exists.mp (List.findSome?_isSome_iff.mpr
        ⟨call, hcall, Option.isSome_iff_exists.mpr ⟨failure, hfails⟩⟩)
      exact ⟨first, (annotate_eq_error hread).mpr (.inr ⟨anchor, hanchor, hfirst⟩)⟩
  · refine ((annotate_eq_error hread).mp herror).imp_right ?_
    rintro ⟨anchor, hanchor, hfirst⟩
    obtain ⟨before, call, behind, heq, hfails, hbefore⟩ := List.findSome?_eq_some_iff.mp hfirst
    refine ⟨anchor, before, call, behind, hanchor, heq, fun earlier hearlier _ =>
      fileSchemas_eq_ok.mpr (hbefore earlier hearlier), fun _ => fileSchemas_eq_error.mpr hfails, ?_⟩
    exact placedIn_of_fails hends hread (heq ▸ List.mem_append_right _ List.mem_cons_self)
      (fails_of_failureOf? hfails)

/-- A program with two registrations. The handler of the second one returns a function, which has no schema. -/
def secondFails : String :=
  "class R \x7b m(a: any) \x7b\x7d \x7d const r = new R(); r.m('', '', (x: number) => 1); " ++
    "r.m('', '', (x: number) => () => x); export default r;"

/-- The second registration is reported. -/
theorem secondFails_is_reported : (Program.ofSource secondFails).isOk = true ∧
    ∃ checked anchor first second failure,
      Checked.upTo 40 (Node.ofTree .prelude (Program.ofSource "").tree) (Program.ofSource secondFails).root =
        some checked ∧
      registrations checked anchor (Program.ofSource secondFails).root = [first, second] ∧
      annotate oneRouteConfig (callables checked) (Program.ofSource secondFails).root = .error failure ∧
      PlacedIn second failure := by
  have hread : (Program.ofSource secondFails).isOk = true := by decide +kernel
  have hall : ((Checked.upTo 40 (Node.ofTree .prelude (Program.ofSource "").tree)
      (Program.ofSource secondFails).root).any fun checked =>
      match Route.anchor oneRouteConfig checked (Program.ofSource secondFails).root with
      | .ok anchor => (registrations checked anchor (Program.ofSource secondFails).root).map
        (fun call => (failureOf? oneRouteConfig (callables checked) call).isSome) == [false, true]
      | .error _ => false) = true := by decide +kernel
  obtain ⟨checked, hchecked, hall⟩ := Option.any_eq_true _ _ |>.mp hall
  split at hall
  · rename_i anchor hanchor
    obtain ⟨first, rest, hcalls, hfirst, hrest⟩ := List.map_eq_cons_iff.mp (beq_iff_eq.mp hall)
    obtain ⟨second, none, rfl, hsecond, hnone⟩ := List.map_eq_cons_iff.mp hrest
    obtain rfl := List.map_eq_nil_iff.mp hnone
    obtain ⟨cause, hcause⟩ := Option.isSome_iff_exists.mp hsecond
    obtain ⟨⟨-, hfails⟩, hreports, -⟩ := first_failure_is_reported hread hchecked oneRouteConfig
    have hmem : second ∈ registrations checked anchor (Program.ofSource secondFails).root := by
      rw [hcalls]
      exact List.mem_cons_of_mem _ List.mem_cons_self
    obtain ⟨failure, herror⟩ := hfails (.inr ⟨anchor, hanchor, second, hmem, cause,
      fun _ => fileSchemas_eq_error.mpr hcause⟩)
    rcases hreports failure herror with hother | ⟨other, before, call, behind, hother, heq, -, hcall, hplaced⟩
    · rw [hanchor] at hother
      cases hother
    · cases Except.ok.inj (hanchor.symm.trans hother)
      have hcall := fileSchemas_eq_error.mp (hcall .empty)
      -- The first registration does not fail, so it is not the one that is reported.
      rw [hcalls] at heq
      match before, heq with
      | [], heq =>
        cases heq
        rw [hcall] at hfirst
        cases hfirst
      | [_], heq =>
        cases heq
        exact ⟨hread, checked, anchor, first, second, failure, hchecked, hcalls, herror, hplaced⟩
      | _ :: _ :: _, heq => simp at heq
  · cases hall

end Route

end RouteTypes
