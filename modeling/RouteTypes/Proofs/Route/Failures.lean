-- Why annotating fails. A registration always takes one more argument, so the visit fails only if the schemas
-- of a registration cannot be told, and it fails for the first such registration, counted from the outside in
-- and from left to right.
import RouteTypes.Proofs.Route.Insertion

namespace RouteTypes

open RouteTypes.Tree

namespace Route

/-! ## Arguments can be added -/

theorem appendArgument_ne_none {arg last : Tree} {front blanks : List Tree} {close : Tree}
    (hlast : last.isTrivia = false) (hblanks : ∀ blank ∈ blanks, blank.isTrivia = true)
    (hclose : close.kind = .token .rParen) :
    ∃ parts, Tree.appendArgument arg (front ++ last :: (blanks ++ [close])) = some parts := by
  have hbehind : (front ++ last :: (blanks ++ [close])).reverse.span (·.kind != .token .rParen) =
      ([], close :: (blanks.reverse ++ last :: front.reverse)) := by
    rw [List.span_eq_takeWhile_dropWhile]
    simp [hclose]
  have hbefore : (blanks.reverse ++ last :: front.reverse).span (·.isTrivia) =
      (blanks.reverse, last :: front.reverse) := by
    have hall : ∀ blank ∈ blanks.reverse, blank.isTrivia = true :=
      fun blank hblank => hblanks blank (List.mem_reverse.mp hblank)
    rw [List.span_eq_takeWhile_dropWhile, List.takeWhile_append_of_pos hall, List.dropWhile_append_of_pos hall]
    simp [hlast]
  unfold Tree.appendArgument
  rw [hbehind]
  dsimp only
  rw [hbefore]
  exact ⟨_, rfl⟩

/-- Trees of the same kinds as those of a list of arguments take one more. -/
theorem appendArgument_of_kinds {arg : Tree} {list list' : List Tree}
    (h : (Tree.node .argList list).Sound Grammar.forms) (hkinds : list'.map Tree.kind = list.map Tree.kind) :
    ∃ parts, Tree.appendArgument arg list' = some parts := by
  obtain ⟨front, last, blanks, close, rfl, hlast, hblanks, hclose⟩ := Grammar.argList_closed h
  rw [List.map_append, List.map_cons, List.map_append] at hkinds
  obtain ⟨front', behind, rfl, -, hbehind⟩ := List.map_eq_append_iff.mp hkinds
  obtain ⟨last', behind, rfl, hlast', hbehind⟩ := List.map_eq_cons_iff.mp hbehind
  obtain ⟨blanks', ending, rfl, hblanks', hending⟩ := List.map_eq_append_iff.mp hbehind
  obtain ⟨close', none, rfl, hclose', hnone⟩ := List.map_eq_cons_iff.mp hending
  obtain rfl := List.map_eq_nil_iff.mp hnone
  refine appendArgument_ne_none (by rw [Tree.isTrivia, hlast']; exact hlast) (fun blank hblank => ?_)
    (by rw [hclose', Tree.kind, hclose])
  obtain ⟨other, hother, hkind⟩ := List.mem_map.mp (hblanks' ▸ List.mem_map_of_mem hblank)
  rw [Tree.isTrivia, ← hkind]
  exact hblanks other hother

/-- A node has the child that it is expected to have. -/
theorem exists_expectChild {node child : Node} (hchild : child ∈ node.children) :
    ∃ found, node.expectChild (.node child.kind) = .ok found := by
  unfold Node.expectChild
  have hsome : (node.children.find? (Kind.node ·.kind == .node child.kind)).isSome := by
    rw [List.find?_isSome]
    exact ⟨child, hchild, beq_self_eq_true _⟩
  obtain ⟨found, hfound⟩ := Option.isSome_iff_exists.mp hsome
  rw [hfound]
  exact ⟨found, rfl⟩

/-- A call takes one more argument once the calls in it have theirs. -/
theorem exists_appendTo {arg : Tree} {children trees : List Tree}
    (hsound : (Tree.node .callExpr children).Sound Grammar.forms) (halike : List.Forall₂ Alike children trees) :
    ∃ tree, appendTo arg (.node .callExpr trees) = .ok tree := by
  let call := Node.ofTree .program (.node .callExpr trees)
  have hparts : Part.eraseAll call.parts = trees := Tree.eraseAll_placeAll 0 trees
  obtain ⟨list, hlist, hkind⟩ : ∃ list ∈ call.children, list.kind = .argList := by
    obtain ⟨before, list, rfl, -⟩ := Grammar.callExpr_closed hsound
    have hmem : Kind.node .argList ∈ trees.map Tree.kind := by
      rw [map_kind_of_alike halike, List.map_append]
      exact List.mem_append_right _ (List.mem_singleton_self _)
    obtain ⟨tree, htree, hkind⟩ := List.mem_map.mp hmem
    have hnode : tree ∈ call.children.map Node.tree := by
      rw [Node.children_tree, hparts]
      exact List.mem_filter.mpr ⟨htree, by cases tree with | leaf token => cases hkind | node kind children => rfl⟩
    obtain ⟨list, hlist, rfl⟩ := List.mem_map.mp hnode
    exact ⟨list, hlist, Kind.node.inj hkind⟩
  obtain ⟨found, hfound⟩ := exists_expectChild hlist
  rw [hkind] at hfound
  obtain ⟨before, behind, heq, -⟩ := find_child (expectChild_eq_ok hfound)
  have hmem : Tree.node .argList (Part.eraseAll found.parts) ∈ trees := by
    rw [← hparts, heq, eraseAll_append]
    exact List.mem_append_right _ List.mem_cons_self
  -- What the arguments were made from is a list of arguments that the grammar gives.
  obtain ⟨tree, htree, hone⟩ := exists_alike halike _ hmem
  obtain ⟨list', rfl⟩ : ∃ list', tree = .node .argList list' := by
    cases tree with
    | leaf token => cases hone.kind
    | node kind list' => exact ⟨list', by rw [Kind.node.inj hone.kind]⟩
  obtain ⟨parts, happend⟩ : ∃ parts, Tree.appendArgument arg (Part.eraseAll found.parts) = some parts :=
    appendArgument_of_kinds (hsound.child _ htree) hone.children
  unfold appendTo
  dsimp only [call, bind, Except.bind] at hfound ⊢
  rw [hfound]
  dsimp only
  rw [happend]
  exact ⟨_, rfl⟩

/-! ## How schemas fail -/

theorem bind_error {ε α β : Type} {x : Except ε α} {f : α → Except ε β} {e : ε} (h : x >>= f = .error e) :
    x = .error e ∨ ∃ a, x = .ok a ∧ f a = .error e := by
  cases x with
  | error e' =>
    cases h
    exact .inl rfl
  | ok a => exact .inr ⟨a, rfl, h⟩

theorem lowerAt_error {checked : Checked} {span : Text.Span} {type : TypeId} {failure : Failure}
    (h : lowerAt checked span type = .error failure) :
    ∃ cause, checked.typeTable.lower type = .error cause ∧ failure = ⟨cause, some span⟩ := by
  unfold lowerAt at h
  cases hlower : checked.typeTable.lower type with
  | ok schema =>
    rw [hlower] at h
    cases h
  | error cause =>
    rw [hlower] at h
    cases h
    exact ⟨cause, rfl, rfl⟩

/-- Why the schemas of a registration cannot be told: there is no handler, or it has not one signature, or not
one parameter, or the type of its parameter or of what it returns has no schema. -/
inductive Fails (config : Config) (program : Callables) (call : Node) (failure : Failure) : Prop
  | handler (error : handlerOf config call = .error failure)
  | signature {handler : Node} (found : handlerOf config call = .ok handler)
      (error : signatureOf program handler = .error failure)
  | param {handler : Node} {signature : SignatureId} (found : handlerOf config call = .ok handler)
      (only : signatureOf program handler = .ok signature)
      (error : paramOf program.checked handler signature = .error failure)
  | paramType {handler : Node} {signature : SignatureId} {param : SymbolId} {cause : Cause}
      (found : handlerOf config call = .ok handler) (only : signatureOf program handler = .ok signature)
      (one : paramOf program.checked handler signature = .ok param)
      (error : program.checked.typeTable.lower (program.checked.typeOfSymbol param) = .error cause)
      (eq : failure = ⟨cause,
        some (((program.checked.valueDeclaration? param).map (·.span)).getD handler.span)⟩)
  | returnType {handler : Node} {signature : SignatureId} {cause : Cause}
      (found : handlerOf config call = .ok handler)
      (error : program.checked.typeTable.lower (program.checked.returnType signature) = .error cause)
      (eq : failure = ⟨cause, some (((bodyOf? handler).map (·.span)).getD handler.span)⟩)

theorem schemasOf_error {config : Config} {program : Callables} {call : Node} {failure : Failure}
    (h : schemasOf config program call = .error failure) : Fails config program call failure := by
  rcases bind_error h with hhandler | ⟨handler, hhandler, h⟩
  · exact .handler hhandler
  rcases bind_error h with hsignature | ⟨signature, hsignature, h⟩
  · exact .signature hhandler hsignature
  rcases bind_error h with hparam | ⟨param, hparam, h⟩
  · exact .param hhandler hsignature hparam
  rcases bind_error h with hlower | ⟨params, -, h⟩
  · obtain ⟨cause, hcause, heq⟩ := lowerAt_error hlower
    exact .paramType hhandler hsignature hparam hcause heq
  rcases bind_error h with hlower | ⟨returned, -, h⟩
  · obtain ⟨cause, hcause, heq⟩ := lowerAt_error hlower
    exact .returnType hhandler hcause heq
  cases h

theorem expectChild_eq (node : Node) (kind : NodeKind) : node.expectChild (.node kind) =
    match node.child? (· == kind) with
    | some child => .ok child
    | none => .error (node.malformed s!"a {(Kind.node kind).label} child") := by
  have hsame : (fun child : Node => Kind.node child.kind == .node kind) = fun child => child.kind == kind := by
    funext child
    exact Bool.eq_iff_iff.mpr (by simp)
  rw [Node.expectChild, hsame]
  rfl

/-- A call with arguments has no handler if the third of them is none, or if there are not three. -/
theorem handlerOf_error {config : Config} {call list : Node} {failure : Failure} (hlist : call.argList? = some list)
    (h : handlerOf config call = .error failure) :
    (∃ found, ∃ arg ∈ call.args, failure = ⟨.handlerShape found, some arg.span⟩) ∨
      ∃ count, failure = ⟨.arity s!"arguments to `{config.method}`" 3 count, some list.span⟩ := by
  have hargs : call.args = list.elements := by rw [Node.args, hlist]; rfl
  unfold handlerOf at h
  rw [expectChild_eq, show call.child? (· == .argList) = some list from hlist] at h
  rcases bind_error h with h | ⟨_, hfound, h⟩
  · cases h
  · cases hfound
    split at h
    · rename_i arg helements
      split at h
      · cases h
      · cases h
        exact .inl ⟨_, arg, by rw [hargs, helements]; simp, rfl⟩
    · cases h
      exact .inr ⟨_, rfl⟩

/-- The handler is the third argument of a registration. -/
theorem handlerOf_ok {config : Config} {call handler : Node} (h : handlerOf config call = .ok handler) :
    handler ∈ call.args ∧ notAHandler? handler = none := by
  unfold handlerOf at h
  obtain ⟨list, hlist, h⟩ := bind_ok h
  rw [expectChild_eq] at hlist
  split at hlist
  · rename_i found hfound
    cases hlist
    have hargs : call.args = list.elements := by rw [Node.args, Node.argList?, hfound]; rfl
    split at h
    · rename_i arg helements
      split at h
      · cases h
        exact ⟨by rw [hargs, helements]; simp, ‹_›⟩
      · cases h
    · cases h
  · cases hlist

/-! ## The first failure -/

section

variable (config : Config) (program : Callables)

/-- Why the schemas of a registration cannot be told. -/
def failureOf? (call : Node) : Option Failure :=
  match schemasOf config program call with
  | .ok _ => none
  | .error failure => some failure

variable {config program}

theorem failureOf?_of_ok {call : Node} {schemas : Schema × Schema} (h : schemasOf config program call = .ok schemas) :
    failureOf? config program call = none := by
  rw [failureOf?, h]

theorem failureOf?_of_error {call : Node} {failure : Failure} (h : schemasOf config program call = .error failure) :
    failureOf? config program call = some failure := by
  rw [failureOf?, h]

theorem fails_of_failureOf? {call : Node} {failure : Failure} (h : failureOf? config program call = some failure) :
    Fails config program call failure := by
  unfold failureOf? at h
  split at h
  · cases h
  · cases h
    exact schemasOf_error ‹_›

/-- If all schemas are filed, none of the registrations fails. -/
theorem Filed.failures {calls : List Node} {before after : Progress} (h : Filed config program calls before after) :
    calls.findSome? (failureOf? config program) = none := by
  obtain ⟨⟨pairs, hpairs, -⟩, -⟩ := h
  induction hpairs with
  | nil => rfl
  | cons hone _ ih => rw [List.findSome?_cons, failureOf?_of_ok hone, ih]

theorem run_lift_error {σ ε α : Type} {x : Except ε α} {s : σ} {e : ε}
    (h : (liftM x : Visiting σ ε α).run s = .error e) : x = .error e := by
  cases x with
  | error e' =>
    cases h
    rfl
  | ok a => cases h

/-- Why the visit of a registration fails. -/
theorem annotateCall_error {call : Node} {below : Visiting Progress Failure Visit} {before : Progress}
    {failure : Failure} (h : (annotateCall config program call below).run before = .error failure) :
    schemasOf config program call = .error failure ∨ ∃ params returned,
      schemasOf config program call = .ok (params, returned) ∧
      let filed : Progress := { before with registry := ⟨before.registry.schemas ++ [params] ++ [returned]⟩ }
      (below.run filed = .error failure ∨ ∃ inner middle, below.run filed = .ok (inner, middle) ∧
        appendTo (argument config before.registry.size (before.registry.size + 1)) (inner.resultAt call) =
          .error failure) := by
  unfold annotateCall at h
  cases hschemas : schemasOf config program call with
  | error other =>
    rcases run_bind_error h with hfiling | ⟨ids, middle, hfiling, -⟩
    · rw [run_filing, hschemas] at hfiling
      cases hfiling
      exact .inl rfl
    · rw [run_filing, hschemas] at hfiling
      cases hfiling
  | ok schemas =>
    refine .inr ⟨schemas.1, schemas.2, rfl, ?_⟩
    rcases run_bind_error h with hfiling | ⟨ids, middle, hfiling, hbehind⟩
    · rw [run_filing, hschemas] at hfiling
      cases hfiling
    · rw [run_filing, hschemas] at hfiling
      cases hfiling
      rcases run_bind_error hbehind with hbelow | ⟨inner, middle, hbelow, hbehind⟩
      · exact .inl hbelow
      · refine .inr ⟨inner, middle, hbelow, ?_⟩
        rcases run_bind_error hbehind with hcounted | ⟨_, _, hcounted, hbehind⟩
        · cases hcounted
        · rcases run_bind_error hbehind with hlast | ⟨_, _, -, hdone⟩
          · exact run_lift_error hlast
          · cases hdone

variable (config program) (anchor : SymbolId)

mutual

/-- The visit of a part fails for the first registration in it whose schemas cannot be told. -/
theorem visitPart_fails (source : Source) : ∀ (parent : Option Node) (part : Part) {before : Progress}
    {failure : Failure} {k : Nat}, part.erase.Sound Grammar.forms →
    ((annotator config program anchor).visitPart source parent part).run before = .error failure →
    before.registry.size = 2 * k →
    (registrationsIn (isRegistration program.checked anchor) source parent part).findSome?
      (failureOf? config program) = some failure
  | parent, .leaf span token, before, failure, k, _, h, _ => by cases h
  | parent, .node span kind parts, before, failure, k, hsound, h, hsize => by
    let here : Node := ⟨source, kind, span, parts, parent⟩
    rw [Visitor.visitPart] at h
    rw [annotator_handles config program anchor here] at h
    split at h
    · rename_i hcall
      obtain ⟨hkind, hyes⟩ := (Bool.and_eq_true _ _).mp hcall
      obtain rfl : kind = .callExpr := beq_iff_eq.mp hkind
      rw [registrationsIn_call hyes, List.findSome?_cons]
      rcases annotateCall_error h with hfails | ⟨params, returned, hschemas, hbehind⟩
      · rw [failureOf?_of_error hfails]
      · rw [failureOf?_of_ok hschemas]
        have hfiled : (Registry.mk (before.registry.schemas ++ [params] ++ [returned])).size = 2 * (k + 1) := by
          simp [Registry.size] at hsize ⊢
          omega
        rcases hbehind with hbelow | ⟨inner, middle, hbelow, happend⟩
        · rcases run_bind_error hbelow with hbelow | ⟨visits, _, _, hdone⟩
          · exact visitParts_fail source (some here) parts hsound.child hbelow hfiled
          · cases hdone
        · obtain ⟨visits, _, hparts, hdone⟩ := run_bind_ok hbelow
          cases hdone
          obtain ⟨-, hannotates⟩ := visitParts_annotate config program anchor source (some here) parts hparts hfiled
          have hresult : (Visit.around .callExpr parts visits).resultAt here =
              .node .callExpr (Visit.results parts visits) :=
            (resultAt_eq here _).trans (result_around span (visitParts_length hparts))
          obtain ⟨tree, htree⟩ : ∃ tree, appendTo (argument config before.registry.size (before.registry.size + 1))
              (.node .callExpr (Visit.results parts visits)) = .ok tree := exists_appendTo hsound hannotates.alike
          rw [hresult, htree] at happend
          cases happend
    · rename_i hcall
      rw [registrationsIn_other (eq_false_of_ne_true hcall)]
      rcases run_bind_error h with hbelow | ⟨visits, _, _, hdone⟩
      · exact visitParts_fail source (some here) parts hsound.child hbelow hsize
      · cases hdone

theorem visitParts_fail (source : Source) : ∀ (parent : Option Node) (parts : List Part) {before : Progress}
    {failure : Failure} {k : Nat}, (∀ tree ∈ Part.eraseAll parts, tree.Sound Grammar.forms) →
    ((annotator config program anchor).visitParts source parent parts).run before = .error failure →
    before.registry.size = 2 * k →
    (registrationsInAll (isRegistration program.checked anchor) source parent parts).findSome?
      (failureOf? config program) = some failure
  | parent, [], before, failure, k, _, h, _ => by cases h
  | parent, part :: rest, before, failure, k, hsound, h, hsize => by
    rw [Visitor.visitParts] at h
    rw [registrationsInAll_cons, List.findSome?_append]
    rcases run_bind_error h with hfirst | ⟨visit, middle, hfirst, hbehind⟩
    · rw [visitPart_fails source parent part (hsound _ List.mem_cons_self) hfirst hsize]
      rfl
    · obtain ⟨hfiled, -⟩ := visitPart_annotates config program anchor source parent part hfirst hsize
      rw [hfiled.failures, Option.none_or]
      rcases run_bind_error hbehind with hrest | ⟨others, _, _, hdone⟩
      · have hmiddle := hfiled.size
        exact visitParts_fail source parent rest (fun tree htree => hsound tree (List.mem_cons_of_mem _ htree)) hrest
          (by rw [hmiddle, hsize, ← Nat.mul_add])
      · cases hdone

end

variable {config program}

/-- Annotating a program fails if there is no anchor, or for the first registration whose schemas cannot be
told. -/
theorem annotate_eq_error {text : String} (hread : (Program.ofSource text).isOk = true) {failure : Failure} :
    annotate config program (Program.ofSource text).root = .error failure ↔
      Route.anchor config program.checked (Program.ofSource text).root = .error failure ∨
        ∃ anchor, Route.anchor config program.checked (Program.ofSource text).root = .ok anchor ∧
          (registrations program.checked anchor (Program.ofSource text).root).findSome?
            (failureOf? config program) = some failure := by
  have hsound : (Program.ofSource text).root.part.erase.Sound Grammar.forms := by
    rw [Program.root_part, Tree.erase_place]
    exact program_sound hread
  unfold annotate
  cases hanchor : Route.anchor config program.checked (Program.ofSource text).root with
  | error other => simp [bind, Except.bind]
  | ok anchor =>
    simp only [bind, Except.bind, reduceCtorEq, false_or, Except.ok.injEq, exists_eq_left']
    cases hvisit : ((annotator config program anchor).visit (Program.ofSource text).root).run .start with
    | error other =>
      have hfails : (registrations program.checked anchor (Program.ofSource text).root).findSome?
          (failureOf? config program) = some other :=
        visitPart_fails config program anchor _ _ _ hsound hvisit (k := 0) rfl
      rw [hfails, Except.error.injEq, Option.some_inj]
    | ok out =>
      obtain ⟨hfiled, -⟩ := visitPart_annotates config program anchor _ _ _ hvisit (k := 0) rfl
      have hfails : (registrations program.checked anchor (Program.ofSource text).root).findSome?
          (failureOf? config program) = none := hfiled.failures
      rw [hfails]
      exact ⟨(fun h => by cases h), (fun h => by cases h)⟩

end

end Route

end RouteTypes
