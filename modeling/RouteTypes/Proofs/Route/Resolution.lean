-- Which calls through member accesses are registrations: those of the anchor itself. The type of the object
-- decides, and not the name of the method.
import RouteTypes.Proofs.Route.Numbering
import RouteTypes.Proofs.Typing.Programs

namespace RouteTypes

namespace Route

variable {config : Config} {checked : Checked} {root : Node} {anchor : SymbolId}

/-! ## The anchor -/

/-- The type is that of what the program exports. -/
def IsExported (checked : Checked) (root : Node) (type : TypeId) : Prop :=
  ∃ statement name declaration, theExport root = .ok statement ∧ exportedName statement = .ok name ∧
    (checked.resolveAliased name).bind checked.valueDeclaration? = some declaration ∧
    typeOfDeclaration checked declaration = type

theorem IsExported.unique {type type' : TypeId} (h : IsExported checked root type)
    (h' : IsExported checked root type') : type = type' := by
  obtain ⟨statement, name, declaration, hstatement, hname, hdeclaration, rfl⟩ := h
  obtain ⟨statement', name', declaration', hstatement', hname', hdeclaration', rfl⟩ := h'
  cases hstatement.symm.trans hstatement'
  cases hname.symm.trans hname'
  cases hdeclaration.symm.trans hdeclaration'
  rfl

/-- The anchor is a member of the exported type, which is the class of the right name. -/
theorem anchor_eq_ok (h : Route.anchor config checked root = .ok anchor) :
    ∃ type, IsExported checked root type ∧ checked.typeName? type = some config.type ∧
      checked.isClass type = true ∧ checked.property? type config.method = some anchor := by
  obtain ⟨statement, hstatement, h⟩ := bind_ok h
  obtain ⟨name, hname, h⟩ := bind_ok h
  dsimp only at h
  split at h
  · cases h
  · rename_i declaration hdeclaration
    split at h
    · rename_i hclass
      rw [Bool.and_eq_true, beq_iff_eq] at hclass
      refine ⟨_, ⟨statement, name, declaration, hstatement, hname, hdeclaration, rfl⟩, hclass.1, hclass.2, ?_⟩
      split at h
      · rename_i method hmethod
        cases h
        exact hmethod
      · cases h
    · cases h

/-! ## Calls through accesses -/

theorem mem_registrations {call : Node} (hcall : call ∈ root.descendants) (hkind : call.kind = .callExpr)
    {access : Node} (hcallee : call.expression? = some access) (haccess : access.kind = .propertyAccess) :
    call ∈ registrations checked anchor root ↔ checked.resolveAliased access = some anchor := by
  unfold registrations isRegistration
  simp [hcall, hkind, hcallee, haccess]

/-- An access `e.name` in a call refers to a member exactly if the object type that is noted for `e` has
one of that name in the end, and then to the first of them. So the call is a registration if and only if
that member is the anchor: a call of the method through anything that has the exported type is one, and
a call of a member that is declared elsewhere is none, whatever its name. -/
theorem accesses_decide_registrations {source : String} {prelude : Tree} {depth : Nat}
    (hread : (Program.ofSource source).isOk = true)
    (hchecked : Checked.upTo depth (Node.ofTree .prelude prelude) (Program.ofSource source).root = some checked)
    {call access e : Node} {name : String} (hcall : call ∈ (Program.ofSource source).root.descendants)
    (hkind : call.kind = .callExpr) (hcallee : call.expression? = some access)
    (haccess : access.kind = .propertyAccess) (hreceiver : access.expression? = some e)
    (hname : access.memberName? = some name) {type : TypeId} {object : ObjectType}
    (htype : checked.facts.expressionTypes.get? e.id = some type) (hobject : checked.object? type = some object) :
    ((∃ symbol, checked.resolve access = some symbol) ↔
      ∃ member ∈ checked.members type, (checked.symbol member).name = name) ∧
    checked.resolve access = checked.property? type name ∧
    ∀ config anchor, Route.anchor config checked (Program.ofSource source).root = .ok anchor →
      (call ∈ registrations checked anchor (Program.ofSource source).root ↔
        checked.property? type name = some anchor) ∧
      (IsExported checked (Program.ofSource source).root type → name = config.method →
        call ∈ registrations checked anchor (Program.ofSource source).root) ∧
      ∀ member, checked.property? type name = some member →
        (∃ node ∈ (checked.symbol member).declarations, node ∉ (checked.symbol anchor).declarations) →
          call ∉ registrations checked anchor (Program.ofSource source).root := by
  have hin : access ∈ (Program.ofSource source).root.descendants :=
    (Node.closed_descendants (Node.parent_ofTree _ _)).child hcall (List.mem_of_find?_eq_some hcallee)
  have hresolve := Checked.resolve_eq_property? hread hchecked hin haccess hreceiver hname htype hobject
  have hregistered : ∀ anchor, call ∈ registrations checked anchor (Program.ofSource source).root ↔
      checked.property? type name = some anchor := fun anchor => by
    rw [mem_registrations hcall hkind hcallee haccess,
      Checked.resolveAliased_eq_property? hread hchecked hin haccess hreceiver hname htype hobject]
  refine ⟨?_, hresolve, fun config anchor hanchor => ⟨hregistered anchor, fun hexported hmethod => ?_,
    fun member hmember helsewhere hcall => ?_⟩⟩
  · rw [hresolve, Checked.property?, Facts.memberNamed?, ← Option.isSome_iff_exists, List.find?_isSome]
    exact exists_congr fun member => and_congr_right fun _ => beq_iff_eq
  · obtain ⟨own, hown, -, -, hproperty⟩ := anchor_eq_ok hanchor
    rw [hregistered, hmethod, hexported.unique hown, hproperty]
  · obtain ⟨node, hdeclares, hnot⟩ := helsewhere
    have hsame := (hregistered anchor).mp hcall
    rw [hmember, Option.some_inj] at hsame
    exact hnot (hsame ▸ hdeclares)

/-- The call in a program with one route has an object whose type has the method, which is the anchor. -/
theorem oneRoute_is_decided : (Program.ofSource oneRoute).isOk = true ∧
    ∃ checked call access e type object anchor,
      Checked.upTo 40 (Node.ofTree .prelude (Program.ofSource "").tree) (Program.ofSource oneRoute).root
        = some checked ∧
      call ∈ (Program.ofSource oneRoute).root.descendants ∧ call.kind = .callExpr ∧
      call.expression? = some access ∧ access.kind = .propertyAccess ∧ access.expression? = some e ∧
      access.memberName? = some "m" ∧ checked.facts.expressionTypes.get? e.id = some type ∧
      checked.object? type = some object ∧
      Route.anchor oneRouteConfig checked (Program.ofSource oneRoute).root = .ok anchor ∧
      checked.resolve access = some anchor ∧
      call ∈ registrations checked anchor (Program.ofSource oneRoute).root := by
  have hread : (Program.ofSource oneRoute).isOk = true := by decide +kernel
  have hall : ((Checked.upTo 40 (Node.ofTree .prelude (Program.ofSource "").tree)
      (Program.ofSource oneRoute).root).any fun checked =>
        (Program.ofSource oneRoute).root.descendants.any fun call =>
          call.kind == .callExpr && call.expression?.any fun access =>
            access.kind == .propertyAccess && access.memberName? == some "m" && access.expression?.any fun e =>
              (checked.facts.expressionTypes.get? e.id).any fun type => (checked.object? type).isSome &&
                match Route.anchor oneRouteConfig checked (Program.ofSource oneRoute).root with
                | .ok anchor => checked.property? type "m" == some anchor
                | .error _ => false) = true := by decide +kernel
  obtain ⟨checked, hchecked, hall⟩ := Option.any_eq_true _ _ |>.mp hall
  obtain ⟨call, hcall, hall⟩ := List.any_eq_true.mp hall
  simp only [Bool.and_eq_true, beq_iff_eq, Option.any_eq_true, Option.isSome_iff_exists] at hall
  obtain ⟨hkind, access, hcallee, ⟨haccess, hname⟩, e, hreceiver, type, htype, ⟨object, hobject⟩, hanchor⟩ := hall
  split at hanchor
  · rename_i anchor hfound
    have hproperty := beq_iff_eq.mp hanchor
    obtain ⟨-, hresolve, hcalls⟩ := accesses_decide_registrations hread hchecked hcall hkind hcallee haccess
      hreceiver hname htype hobject
    exact ⟨hread, checked, call, access, e, type, object, anchor, hchecked, hcall, hkind, hcallee, haccess,
      hreceiver, hname, htype, hobject, hfound, hresolve.trans hproperty,
      (hcalls oneRouteConfig anchor hfound).1.mpr hproperty⟩
  · cases hanchor

end Route

end RouteTypes
