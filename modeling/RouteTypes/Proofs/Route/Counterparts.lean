-- The anchor and the registrations of two programs whose trees match and that were checked in step. Both programs
-- have an anchor or fail to have one for the same reason, and the registrations stand at the same places.
import RouteTypes.Proofs.Route.Handlers
import RouteTypes.Proofs.Tree.Records
import RouteTypes.Proofs.Tree.Words
import RouteTypes.Proofs.Typing.Outcomes
import RouteTypes.Proofs.Typing.Rounds

namespace RouteTypes

open List

/-! ## The same result -/

/-- Both have results that are related, or both fail for the same reason, perhaps at other places. -/
inductive SameResult {α β : Type} (R : α → β → Prop) : Except Failure α → Except Failure β → Prop
  | ok {a : α} {b : β} (h : R a b) : SameResult R (.ok a) (.ok b)
  | error {failure failure' : Failure} (h : failure'.cause = failure.cause) :
      SameResult R (.error failure) (.error failure')

theorem SameResult.bind {α β γ δ : Type} {R : α → β → Prop} {S : γ → δ → Prop} {x : Except Failure α}
    {y : Except Failure β} {f : α → Except Failure γ} {g : β → Except Failure δ} (h : SameResult R x y)
    (hfg : ∀ a b, R a b → SameResult S (f a) (g b)) : SameResult S (x >>= f) (y >>= g) := by
  cases h with
  | ok h => exact hfg _ _ h
  | error h => exact .error h

/-! ## Programs -/

theorem Node.descendants_length (root : Node) : root.descendants.length = root.part.erase.nodes.length := by
  rw [← nodesIn_tree root.source root.parent root.part, List.length_map]
  rfl

namespace Program

variable {text text' : String}

theorem root_kind (text : String) : (ofSource text).root.kind = .sourceFile := by
  rw [root, ofSource_eq]
  rfl

theorem root_parts (text : String) : (ofSource text).root.parts = Tree.placeAll 0 (ofSource text).tree.children := by
  rw [root, ofSource_eq]
  rfl

theorem distinct (h : (ofSource text).isOk = true) : (ofSource text).root.Distinct :=
  (apart h .program).imp fun hapart hid => hapart (congrArg NodeId.kind hid) (congrArg NodeId.span hid)

/-- Two programs without misfits whose parts match, with the declarations that both can see. -/
theorem exists_pairing (grows : Bool) (prelude : Tree) (h : (ofSource text).isOk = true)
    (h' : (ofSource text').isOk = true)
    (hmatches : Matches grows false (ofSource text).root.parts (ofSource text').root.parts) :
    ∃ P : Pairing, P.grows = grows ∧ P.prelude = Node.ofTree .prelude prelude ∧ P.root = (ofSource text).root ∧
      P.root' = (ofSource text').root := by
  have hkind := root_kind text
  have hsource : (ofSource text).root.source = .program := Node.source_ofTree _ _
  have hsource' : (ofSource text').root.source = .program := Node.source_ofTree _ _
  have hrooted : Rooted grows (ofSource text).root (ofSource text').root :=
    ⟨⟨(root_kind text').trans hkind.symm, hsource'.trans hsource.symm, by rw [hkind]; exact hmatches⟩,
      Node.parent_ofTree _ _, Node.parent_ofTree _ _⟩
  have hdistinct := distinct h
  have hdistinct' := distinct h'
  generalize (ofSource text).root = root at *
  generalize (ofSource text').root = root' at *
  exact ⟨⟨grows, Node.ofTree .prelude prelude, root, root', hrooted, Node.parent_ofTree _ _, Node.source_ofTree _ _,
    hsource, hdistinct, hdistinct'⟩, rfl, rfl, rfl, rfl⟩

end Program

/-- Two programs without misfits whose trees match and that were checked in step. -/
structure Counterparts (P : Pairing) (w : Sync) (text text' : String) (checked checked' : Checked) : Prop where
  reads : (Program.ofSource text).isOk = true
  reads' : (Program.ofSource text').isOk = true
  root : P.root = (Program.ofSource text).root
  root' : P.root' = (Program.ofSource text').root
  inStep : InStep P w checked.facts checked'.facts

/-- Programs whose trees match are checked in step. -/
theorem Counterparts.of_upTo {grows : Bool} {prelude : Tree} {text text' : String}
    (h : (Program.ofSource text).isOk = true) (h' : (Program.ofSource text').isOk = true)
    (hmatches : Matches grows false (Program.ofSource text).root.parts (Program.ofSource text').root.parts)
    {depth deeper : Nat} (hle : depth ≤ deeper + 1) (hgrows : grows = true → depth < deeper) {checked : Checked}
    (hchecked : Checked.upTo depth (Node.ofTree .prelude prelude) (Program.ofSource text).root = some checked) :
    ∃ checked' P w, Checked.upTo (deeper + 1) (Node.ofTree .prelude prelude) (Program.ofSource text').root =
      some checked' ∧ P.grows = grows ∧ Counterparts P w text text' checked checked' := by
  obtain ⟨P, rfl, hprelude, hroot, hroot'⟩ := Program.exists_pairing grows prelude h h' hmatches
  rw [← hprelude, ← hroot] at hchecked
  obtain ⟨checked', w, hchecked', hinStep⟩ := Checked.follows_upTo hprelude hroot hle hgrows hchecked
  rw [hprelude, hroot'] at hchecked'
  exact ⟨checked', P, w, hchecked', rfl, h, h', hroot, hroot', hinStep⟩

/-- Twins in the program stand at the same place of it. -/
theorem Pairing.Twin.samePlace {P : Pairing} {node node' : Node} (h : P.Twin node node') (hin : node ∈ P.root.descendants) :
    SamePlace P.root P.root' node node' :=
  h.resolve_left fun hprelude => by
    have hsource := Node.source_of_mem_descendants hin
    rw [(Pairing.source_of_prelude hprelude).2, P.own] at hsource
    cases hsource

theorem Pairing.Alike.reached {P : Pairing} : ∀ {path : List NodeKind}, .argList ∉ path → ∀ {node node' : Node},
    P.Alike node node' → Forall₂ P.Alike (node.reached path) (node'.reached path)
  | [], _, _, _, h => .cons h .nil
  | kind :: path, hpath, _, _, h => by
    rw [List.mem_cons, not_or] at hpath
    exact (h.childrenOf (p := (· == kind)) (beq_eq_false_iff_ne.mpr hpath.1)).flatMap fun _ _ => Alike.reached hpath.2

/-- The registrations are those of the calls that are one. -/
theorem Route.registrations_eq (checked : Checked) (anchor : SymbolId) (root : Node) :
    registrations checked anchor root = root.calls.filter (isRegistration checked anchor) := by
  rw [Node.calls, List.filter_filter]
  simp only [Bool.and_comm]
  rfl

namespace Counterparts

open Route

variable {P : Pairing} {w : Sync} {text text' : String} {checked checked' : Checked}
  (h : Counterparts P w text text' checked checked') {node node' : Node}

include h

/-! ## Exports -/

theorem root_kind : P.root.kind = .sourceFile := by
  rw [h.root]
  exact Program.root_kind text

theorem alike_root : P.Alike P.root P.root' := ⟨P.twin_root, by rw [h.root_kind]; exact NodeKind.noConfusion⟩

theorem word (hnode : P.Alike node node') (hkind : node.kind.isWord = true) : node'.text = node.text :=
  hnode.text h.reads h.reads' h.root h.root' hkind

theorem defaultExports : Forall₂ P.Alike P.root.defaultExports P.root'.defaultExports :=
  h.alike_root.reached (by decide)

theorem theExport : SameResult
    (fun statement statement' => P.Alike statement statement' ∧ statement ∈ P.root.defaultExports ∧
      statement' ∈ P.root'.defaultExports) (theExport P.root) (theExport P.root') := by
  have hexports := h.defaultExports
  rw [Route.theExport, Route.theExport]
  generalize P.root.defaultExports = exports at hexports ⊢
  generalize P.root'.defaultExports = exports' at hexports ⊢
  cases hexports with
  | nil => exact .error rfl
  | cons hone hrest =>
    cases hrest with
    | nil => exact .ok ⟨hone, List.mem_singleton_self _, List.mem_singleton_self _⟩
    | cons _ hrest => exact .error (by simp [hrest.length_eq])

theorem exportedName {statement statement' : Node} (hstatement : P.Alike statement statement')
    (hin : statement ∈ P.root.defaultExports) (hin' : statement' ∈ P.root'.defaultExports) :
    SameResult (fun name name' => P.Alike name name' ∧ name.kind = .nameRef) (exportedName statement)
      (exportedName statement') := by
  rw [h.root] at hin
  rw [h.root'] at hin'
  obtain ⟨exported, hexpression, heq⟩ := exportedName_eq h.reads hin
  obtain ⟨exported', hexpression', heq'⟩ := exportedName_eq h.reads' hin'
  have hexported := hstatement.expression?
  rw [hexpression, hexpression'] at hexported
  cases hexported with
  | some hexported =>
    rw [heq, heq', hexported.kind]
    by_cases hname : exported.kind = .nameRef
    · rw [if_pos hname, if_pos hname]
      exact .ok ⟨hexported, hname⟩
    · rw [if_neg hname, if_neg hname]
      exact .error rfl

/-! ## The anchor -/

theorem typeOfDeclaration (hnode : P.Twin node node') :
    w.SameType (typeOfDeclaration checked node) (typeOfDeclaration checked' node') := by
  rw [Route.typeOfDeclaration, Route.typeOfDeclaration, Checked.declared?, Checked.declared?]
  refine (h.inStep.declared? hnode).elim (fun _ _ hid => ?_) ?_
  · exact h.inStep.typeOfSymbol hid
  · exact h.inStep.typeOfNode hnode

/-- Both programs have the same anchor, or none for the same reason. -/
theorem anchor (config : Config) :
    SameResult w.SameSymbol (anchor config checked P.root) (anchor config checked' P.root') := by
  refine h.theExport.bind fun statement statement' ⟨hstatement, hin, hin'⟩ =>
    (h.exportedName hstatement hin hin').bind fun name name' ⟨hname, hkind⟩ => ?_
  have hdeclaration := (h.inStep.resolveAliased hname.twin).bind fun _ _ hid => h.inStep.valueDeclaration? hid
  dsimp only
  refine hdeclaration.elim (fun declaration declaration' hdeclared => ?_) (.error ?_)
  · have htype := h.typeOfDeclaration hdeclared.twin
    dsimp only
    rw [h.inStep.typeName? htype, h.inStep.isClass htype]
    split
    · refine (h.inStep.property? htype config.method).elim (fun _ _ hid => ?_) ?_
      · exact .ok hid
      · exact .error rfl
    · exact .error (by rw [h.inStep.display htype])
  · rw [h.word hname (by rw [hkind]; rfl)]

/-! ## Registrations -/

theorem isRegistration {anchor anchor' : SymbolId} (hanchor : w.SameSymbol anchor anchor') (hnode : P.Alike node node') :
    isRegistration checked' anchor' node' = isRegistration checked anchor node := by
  rw [Route.isRegistration, Route.isRegistration]
  refine hnode.expression?.elim (fun callee callee' hcallee => ?_) rfl
  dsimp only
  rw [hcallee.kind]
  congr 1
  exact (h.inStep.resolveAliased hcallee.twin).beq_eq Sync.SameSymbol.eq_iff (.some hanchor)

/-- The calls stand at the same places, in the same order. -/
theorem calls : Forall₂ P.Alike P.root.calls P.root'.calls := by
  have hcalls : ∀ root : Node, root.kind = .sourceFile → root.calls =
      (Node.nodesInAll root.source (some root) root.parts).filter (·.kind == .callExpr) := by
    rintro ⟨source, kind, span, parts, parent⟩ hkind
    obtain rfl : kind = .sourceFile := hkind
    rfl
  rw [hcalls _ h.root_kind, hcalls _ (P.twin_root.kind.trans h.root_kind)]
  refine P.twin_root.nodes (· == .callExpr) rfl rfl fun kind hstill => ?_
  revert hstill
  cases kind <;> decide

/-- The registrations stand at the same places, in the same order. -/
theorem registrations {anchor anchor' : SymbolId} (hanchor : w.SameSymbol anchor anchor') :
    Forall₂ P.Alike (registrations checked anchor P.root) (registrations checked' anchor' P.root') := by
  rw [registrations_eq, registrations_eq]
  exact h.calls.filter fun _ _ hcall => h.isRegistration hanchor hcall

end Counterparts

end RouteTypes
