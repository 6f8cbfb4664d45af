-- What annotating makes of a program, told without state: the registrations are numbered from the outside
-- in and from left to right, and each gets the argument with its two numbers once the calls in it have
-- theirs. The visit does just that, and files the two schemas of each registration in the same order.
import Mathlib.Data.List.TakeDrop
import Mathlib.Data.List.TakeWhile
import RouteTypes.Proofs.Grammar.Ending
import RouteTypes.Proofs.Tree.Visits
import RouteTypes.Route.Annotate

namespace RouteTypes

open RouteTypes.Tree

namespace Route

/-! ## The argument -/

theorem bind_ok {ε α β : Type} {x : Except ε α} {f : α → Except ε β} {b : β} (h : x >>= f = .ok b) :
    ∃ a, x = .ok a ∧ f a = .ok b := by
  cases x with
  | error e => cases h
  | ok a => exact ⟨a, rfl, h⟩

/-- A list that is cut where a property ends. -/
theorem span_eq {α : Type} {p : α → Bool} {items front rest : List α}
    (h : items.span p = (front, rest)) :
    items = front ++ rest ∧ (∀ item ∈ front, p item = true) ∧
      ∀ next more, rest = next :: more → p next = false := by
  rw [List.span_eq_takeWhile_dropWhile] at h
  obtain ⟨rfl, rfl⟩ := Prod.mk.inj h
  refine ⟨List.takeWhile_append_dropWhile.symm, fun item hitem => List.mem_takeWhile_imp hitem, ?_⟩
  intro next more hnext
  have hne := List.head?_dropWhile_not p items
  rwa [hnext] at hne

/-- What is put behind the last item before the closing parenthesis. -/
def groupBehind (arg last : Tree) : List Tree :=
  if last.kind == .token .comma then [space, arg, comma] else [comma, space, arg]

/-- A list of arguments gets one more behind its last part that is neither blank nor comment. -/
theorem appendArgument_eq_some {arg : Tree} {parts parts' : List Tree}
    (h : Tree.appendArgument arg parts = some parts') :
    ∃ before last blanks close behind, parts = before ++ last :: (blanks ++ close :: behind) ∧
      last.isTrivia = false ∧ (∀ blank ∈ blanks, blank.isTrivia = true) ∧
      close.kind = .token .rParen ∧ (∀ part ∈ behind, part.kind ≠ .token .rParen) ∧
      parts' = before ++ last :: (groupBehind arg last ++ (blanks ++ close :: behind)) := by
  unfold Tree.appendArgument at h
  rcases hone : parts.reverse.span (·.kind != .token .rParen) with ⟨behind, rest⟩
  rw [hone] at h
  cases rest with
  | nil => cases h
  | cons close front =>
    rcases htwo : front.span (·.isTrivia) with ⟨blanks, more⟩
    dsimp only at h
    rw [htwo] at h
    cases more with
    | nil => cases h
    | cons last others =>
      cases h
      obtain ⟨hparts, hbehind, hclose⟩ := span_eq hone
      obtain ⟨rfl, hblanks, hlast⟩ := span_eq htwo
      refine ⟨others.reverse, last, blanks.reverse, close, behind.reverse, ?_, hlast last others rfl, ?_, ?_, ?_, ?_⟩
      · rw [← List.reverse_reverse parts, hparts]
        simp
      · exact fun blank hblank => hblanks blank (List.mem_reverse.mp hblank)
      · simpa using hclose close _ rfl
      · exact fun part hpart => by simpa using hbehind part (List.mem_reverse.mp hpart)
      · simp [groupBehind]

theorem eraseAll_eq (parts : List Part) : Part.eraseAll parts = parts.map Part.erase := by
  induction parts with
  | nil => rfl
  | cons part rest ih => rw [Part.eraseAll, ih, List.map_cons]

theorem eraseAll_append (parts others : List Part) :
    Part.eraseAll (parts ++ others) = Part.eraseAll parts ++ Part.eraseAll others := by
  rw [eraseAll_eq, eraseAll_eq, eraseAll_eq, List.map_append]

theorem kind_erase (part : Part) : part.erase.kind = part.kind := by
  cases part <;> rfl

theorem find_child {node : Node} {kind : NodeKind} {child : Node} : ∀ {parts : List Part},
    (parts.filterMap node.inner?).find? (Kind.node ·.kind == .node kind) = some child →
      ∃ before behind, parts = before ++ .node child.span kind child.parts :: behind ∧
        ∀ part ∈ before, part.kind ≠ .node kind
  | [], h => by cases h
  | .leaf span token :: rest, h => by
    rw [List.filterMap_cons] at h
    obtain ⟨before, behind, rfl, hbefore⟩ := find_child h
    refine ⟨.leaf span token :: before, behind, rfl, ?_⟩
    intro part hpart
    rcases List.mem_cons.mp hpart with rfl | hpart
    · intro hkind
      cases hkind
    · exact hbefore part hpart
  | .node span own parts :: rest, h => by
    rw [List.filterMap_cons, Node.inner?, List.find?_cons] at h
    split at h
    · rename_i hkind
      cases h
      cases beq_iff_eq.mp hkind
      exact ⟨[], rest, rfl, fun part hpart => absurd hpart List.not_mem_nil⟩
    · rename_i hkind
      obtain ⟨before, behind, rfl, hbefore⟩ := find_child h
      refine ⟨.node span own parts :: before, behind, rfl, ?_⟩
      intro part hpart
      rcases List.mem_cons.mp hpart with rfl | hpart
      · intro heq
        rw [← heq] at hkind
        simp [Part.kind] at hkind
      · exact hbefore part hpart

theorem expectChild_eq_ok {node child : Node} {kind : Kind} (h : node.expectChild kind = .ok child) :
    node.children.find? (Kind.node ·.kind == kind) = some child := by
  unfold Node.expectChild at h
  split at h
  · rename_i found hfound
    cases h
    exact hfound
  · cases h

/-- A call gets one more argument in its first list of arguments. -/
theorem appendTo_eq_ok {arg tree : Tree} {kind : NodeKind} {trees : List Tree}
    (h : appendTo arg (.node kind trees) = .ok tree) :
    ∃ before list behind list', trees = before ++ .node .argList list :: behind ∧
      (∀ part ∈ before, part.kind ≠ .node .argList) ∧ Tree.appendArgument arg list = some list' ∧
      tree = .node kind (before ++ .node .argList list' :: behind) := by
  unfold appendTo at h
  obtain ⟨list, hlist, h⟩ := bind_ok h
  let call := Node.ofTree .program (.node kind trees)
  have hparts : Part.eraseAll call.parts = trees := Tree.eraseAll_placeAll 0 trees
  obtain ⟨before, behind, heq, hbefore⟩ := find_child (expectChild_eq_ok hlist)
  split at h
  · cases h
  · rename_i list' happend
    have hspan : call.parts.span (fun part => part.kind != .node .argList) =
        (before, .node list.span .argList list.parts :: behind) := by
      have hother : ∀ part ∈ before, (part.kind != .node .argList) = true :=
        fun part hpart => bne_iff_ne.mpr (hbefore part hpart)
      rw [List.span_eq_takeWhile_dropWhile, heq, List.takeWhile_append_of_pos hother,
        List.dropWhile_append_of_pos hother]
      simp [Part.kind]
    refine ⟨Part.eraseAll before, Part.eraseAll list.parts, Part.eraseAll behind, list', ?_, ?_, happend, ?_⟩
    · rw [← hparts, heq, eraseAll_append]
      rfl
    · intro part hpart
      rw [eraseAll_eq] at hpart
      obtain ⟨inner, hinner, rfl⟩ := List.mem_map.mp hpart
      rw [kind_erase]
      exact hbefore inner hinner
    · dsimp only [call] at hspan
      rw [hspan] at h
      cases h
      rfl

/-! ## Numbering -/

section

variable (config : Config) (is : Node → Bool) (source : Source)

mutual

/-- Whether the tree stands in the place of the part, if its registrations have the numbers from `k` on
up to `next`. -/
inductive Annotates : Option Node → Part → Nat → Tree → Nat → Prop
  | leaf {parent : Option Node} {span : Text.Span} {token : Token} {k : Nat} :
      Annotates parent (.leaf span token) k (.leaf token) k
  | keep {parent : Option Node} {span : Text.Span} {kind : NodeKind} {parts : List Part} {k next : Nat}
      {trees : List Tree} (no : (kind == .callExpr && is ⟨source, kind, span, parts, parent⟩) = false)
      (below : AnnotatesAll (some ⟨source, kind, span, parts, parent⟩) parts k trees next) :
      Annotates parent (.node span kind parts) k (.node kind trees) next
  | call {parent : Option Node} {span : Text.Span} {parts : List Part} {k next : Nat}
      {trees : List Tree} {tree : Tree} (yes : is ⟨source, .callExpr, span, parts, parent⟩ = true)
      (below : AnnotatesAll (some ⟨source, .callExpr, span, parts, parent⟩) parts (k + 1) trees next)
      (append : appendTo (argument config (2 * k) (2 * k + 1)) (.node .callExpr trees) = .ok tree) :
      Annotates parent (.node span .callExpr parts) k tree next

inductive AnnotatesAll : Option Node → List Part → Nat → List Tree → Nat → Prop
  | nil {parent : Option Node} {k : Nat} : AnnotatesAll parent [] k [] k
  | cons {parent : Option Node} {part : Part} {rest : List Part} {k middle next : Nat} {tree : Tree}
      {trees : List Tree} (first : Annotates parent part k tree middle)
      (others : AnnotatesAll parent rest middle trees next) :
      AnnotatesAll parent (part :: rest) k (tree :: trees) next

end

end

/-! ## The visit -/

/-- The registrations in a part. -/
def registrationsIn (is : Node → Bool) (source : Source) (parent : Option Node) (part : Part) : List Node :=
  (Node.nodesIn source parent part).filter fun node => node.kind == .callExpr && is node

def registrationsInAll (is : Node → Bool) (source : Source) (parent : Option Node) (parts : List Part) :
    List Node :=
  (Node.nodesInAll source parent parts).filter fun node => node.kind == .callExpr && is node

theorem registrationsInAll_cons (is : Node → Bool) (source : Source) (parent : Option Node) (part : Part)
    (rest : List Part) :
    registrationsInAll is source parent (part :: rest) =
      registrationsIn is source parent part ++ registrationsInAll is source parent rest := by
  rw [registrationsInAll, Node.nodesInAll, List.filter_append]
  rfl

theorem registrationsIn_call {is : Node → Bool} {source : Source} {parent : Option Node}
    {span : Text.Span} {parts : List Part} (h : is ⟨source, .callExpr, span, parts, parent⟩ = true) :
    registrationsIn is source parent (.node span .callExpr parts) =
      ⟨source, .callExpr, span, parts, parent⟩ ::
        registrationsInAll is source (some ⟨source, .callExpr, span, parts, parent⟩) parts := by
  have hcall : (NodeKind.callExpr == .callExpr && is ⟨source, .callExpr, span, parts, parent⟩) = true := h
  rw [registrationsIn, Node.nodesIn, List.filter_cons, if_pos hcall]
  rfl

theorem registrationsIn_other {is : Node → Bool} {source : Source} {parent : Option Node}
    {span : Text.Span} {kind : NodeKind} {parts : List Part}
    (h : (kind == .callExpr && is ⟨source, kind, span, parts, parent⟩) = false) :
    registrationsIn is source parent (.node span kind parts) =
      registrationsInAll is source (some ⟨source, kind, span, parts, parent⟩) parts := by
  rw [registrationsIn, Node.nodesIn, List.filter_cons, if_neg (Bool.not_eq_true _ ▸ h)]
  rfl

section

variable (config : Config) (program : Callables)

/-- The progress has filed the schemas of these registrations since. -/
structure Filed (calls : List Node) (before after : Progress) : Prop where
  schemas : ∃ pairs : List (Schema × Schema),
    List.Forall₂ (fun call pair => schemasOf config program call = .ok pair) calls pairs ∧
      after.registry.schemas = before.registry.schemas ++ pairs.flatMap fun pair => [pair.1, pair.2]
  annotated : after.annotated = before.annotated + calls.length

theorem run_lift_ok {σ ε α : Type} {x : Except ε α} {s s' : σ} {a : α}
    (h : (liftM x : Visiting σ ε α).run s = .ok (a, s')) : x = .ok a ∧ s' = s := by
  cases x with
  | error e => cases h
  | ok b =>
    cases h
    exact ⟨rfl, rfl⟩

/-- The schemas of a registration get the next two numbers. If one of them cannot be told, nothing is filed. -/
theorem run_fileSchemas (call : Node) (registry : Registry) :
    (fileSchemas config program call).run.run registry = match schemasOf config program call with
      | .ok (params, returned) =>
        (.ok (registry.size, registry.size + 1), ⟨registry.schemas ++ [params] ++ [returned]⟩)
      | .error failure => (.error failure, registry) := by
  unfold fileSchemas liftExcept
  cases schemasOf config program call with
  | error failure => rfl
  | ok schemas =>
    obtain ⟨params, returned⟩ := schemas
    have hsize : (Registry.mk (registry.schemas ++ [params])).size = registry.size + 1 := by
      rw [Registry.size, Registry.size, List.length_append, List.length_singleton]
    rw [← hsize]
    rfl

theorem run_filing (call : Node) (progress : Progress) :
    (filing (fileSchemas config program call)).run progress =
      (schemasOf config program call).map fun schemas =>
        ((progress.registry.size, progress.registry.size + 1),
          { progress with registry := ⟨progress.registry.schemas ++ [schemas.1] ++ [schemas.2]⟩ }) := by
  have hrun : (filing (fileSchemas config program call)).run progress =
      ((fileSchemas config program call).run.run progress.registry).1.map fun answer =>
        (answer, { progress with registry := ((fileSchemas config program call).run.run progress.registry).2 }) :=
    rfl
  rw [hrun, run_fileSchemas]
  cases schemasOf config program call <;> rfl

/-- What the visit of a registration does. -/
theorem annotateCall_ok {call : Node} {below : Visiting Progress Failure Visit} {before after : Progress}
    {visit : Visit} (h : (annotateCall config program call below).run before = .ok (visit, after)) :
    ∃ params returned inner middle tree, schemasOf config program call = .ok (params, returned) ∧
      below.run { before with registry := ⟨before.registry.schemas ++ [params] ++ [returned]⟩ } =
        .ok (inner, middle) ∧
      appendTo (argument config before.registry.size (before.registry.size + 1))
        (inner.resultAt call) = .ok tree ∧
      visit = .changed tree ∧ after = { middle with annotated := middle.annotated + 1 } := by
  unfold annotateCall at h
  obtain ⟨⟨paramsId, returnedId⟩, middle, hfiling, hbehind⟩ := run_bind_ok h
  rw [run_filing] at hfiling
  cases hschemas : schemasOf config program call with
  | error failure =>
    rw [hschemas] at hfiling
    cases hfiling
  | ok schemas =>
    rw [hschemas] at hfiling
    cases hfiling
    obtain ⟨inner, middle, hbelow, hbehind⟩ := run_bind_ok hbehind
    obtain ⟨_, _, hcounted, hbehind⟩ := run_bind_ok hbehind
    cases hcounted
    obtain ⟨tree, _, hlast, hbehind⟩ := run_bind_ok hbehind
    obtain ⟨htree, rfl⟩ := run_lift_ok hlast
    cases hbehind
    exact ⟨schemas.1, schemas.2, inner, middle, tree, rfl, hbelow, htree, rfl, rfl⟩

theorem Filed.refl (progress : Progress) : Filed config program [] progress progress :=
  ⟨⟨[], .nil, by simp⟩, rfl⟩

theorem Filed.trans {calls more : List Node} {first second third : Progress}
    (h : Filed config program calls first second) (h' : Filed config program more second third) :
    Filed config program (calls ++ more) first third := by
  obtain ⟨⟨pairs, hpairs, hschemas⟩, hannotated⟩ := h
  obtain ⟨⟨others, hothers, hschemas'⟩, hannotated'⟩ := h'
  refine ⟨⟨pairs ++ others, List.rel_append hpairs hothers, ?_⟩, ?_⟩
  · rw [hschemas', hschemas, List.flatMap_append, List.append_assoc]
  · rw [hannotated', hannotated, List.length_append, Nat.add_assoc]

/-- The schemas of a registration are filed before those of the registrations in it. -/
theorem Filed.call {call : Node} {params returned : Schema} {calls : List Node}
    {before after : Progress} (hschemas : schemasOf config program call = .ok (params, returned))
    (h : Filed config program calls
      { before with registry := ⟨before.registry.schemas ++ [params] ++ [returned]⟩ } after) :
    Filed config program (call :: calls) before { after with annotated := after.annotated + 1 } := by
  obtain ⟨⟨pairs, hpairs, hfiled⟩, hannotated⟩ := h
  refine ⟨⟨(params, returned) :: pairs, .cons hschemas hpairs, ?_⟩, ?_⟩
  · simpa using hfiled
  · rw [List.length_cons]
    dsimp only at hannotated ⊢
    omega

theorem Filed.size {calls : List Node} {before after : Progress}
    (h : Filed config program calls before after) :
    after.registry.size = before.registry.size + 2 * calls.length := by
  obtain ⟨⟨pairs, hpairs, hschemas⟩, -⟩ := h
  rw [Registry.size, hschemas, List.length_append, Registry.size, hpairs.length_eq]
  simp
  omega

variable (anchor : SymbolId)

/-- The visitor handles the registrations and no other node. -/
theorem annotator_handles (node : Node) (below : Visiting Progress Failure Visit) :
    (if (annotator config program anchor).handles node.kind then
        (annotator config program anchor).handle node below else below) =
      if node.kind == .callExpr && isRegistration program.checked anchor node then
        annotateCall config program node below else below := by
  unfold annotator
  dsimp only
  by_cases hkind : (node.kind == NodeKind.callExpr) = true
  · rw [if_pos hkind, hkind, Bool.true_and]
  · rw [if_neg hkind, eq_false_of_ne_true hkind, Bool.false_and, if_neg Bool.false_ne_true]

mutual

/-- The visit of a part files the schemas of its registrations and annotates them. -/
theorem visitPart_annotates (source : Source) : ∀ (parent : Option Node) (part : Part)
    {before after : Progress} {visit : Visit} {k : Nat},
    ((annotator config program anchor).visitPart source parent part).run before = .ok (visit, after) →
    before.registry.size = 2 * k →
    Filed config program (registrationsIn (isRegistration program.checked anchor) source parent part)
      before after ∧
    Annotates config (isRegistration program.checked anchor) source parent part k (visit.result part)
      (k + (registrationsIn (isRegistration program.checked anchor) source parent part).length)
  | parent, .leaf span token, before, after, visit, k, h, hsize => by
    cases h
    exact ⟨.refl config program before, .leaf⟩
  | parent, .node span kind parts, before, after, visit, k, h, hsize => by
    let here : Node := ⟨source, kind, span, parts, parent⟩
    rw [Visitor.visitPart] at h
    rw [annotator_handles config program anchor here] at h
    split at h
    · rename_i hcall
      obtain ⟨hkind, hyes⟩ := (Bool.and_eq_true _ _).mp hcall
      obtain rfl : kind = .callExpr := beq_iff_eq.mp hkind
      obtain ⟨params, returned, inner, middle, tree, hschemas, hbelow, happend, rfl, rfl⟩ :=
        annotateCall_ok config program h
      obtain ⟨visits, _, hparts, hbehind⟩ := run_bind_ok hbelow
      cases hbehind
      obtain ⟨hfiled, hbelow⟩ := visitParts_annotate source (some here) parts (k := k + 1) hparts (by
        simp [Registry.size] at hsize ⊢
        omega)
      rw [hsize] at happend
      have hresult : (Visit.around .callExpr parts visits).resultAt here =
          .node .callExpr (Visit.results parts visits) :=
        (resultAt_eq here _).trans (result_around span (visitParts_length hparts))
      rw [hresult] at happend
      have hnext : ∀ count, k + (count + 1) = k + 1 + count := fun count => by omega
      rw [registrationsIn_call hyes, List.length_cons, hnext]
      exact ⟨hfiled.call config program hschemas, .call hyes hbelow happend⟩
    · rename_i hcall
      obtain ⟨visits, _, hparts, hbehind⟩ := run_bind_ok h
      cases hbehind
      obtain ⟨hfiled, hbelow⟩ := visitParts_annotate source (some here) parts hparts hsize
      rw [registrationsIn_other (eq_false_of_ne_true hcall), result_around span (visitParts_length hparts)]
      exact ⟨hfiled, .keep (eq_false_of_ne_true hcall) hbelow⟩

theorem visitParts_annotate (source : Source) : ∀ (parent : Option Node) (parts : List Part)
    {before after : Progress} {visits : List Visit} {k : Nat},
    ((annotator config program anchor).visitParts source parent parts).run before = .ok (visits, after) →
    before.registry.size = 2 * k →
    Filed config program (registrationsInAll (isRegistration program.checked anchor) source parent parts)
      before after ∧
    AnnotatesAll config (isRegistration program.checked anchor) source parent parts k
      (Visit.results parts visits)
      (k + (registrationsInAll (isRegistration program.checked anchor) source parent parts).length)
  | parent, [], before, after, visits, k, h, hsize => by
    cases h
    exact ⟨.refl config program before, .nil⟩
  | parent, part :: rest, before, after, visits, k, h, hsize => by
    rw [Visitor.visitParts] at h
    obtain ⟨visit, middle, hfirst, hbehind⟩ := run_bind_ok h
    obtain ⟨others, _, hrest, hbehind⟩ := run_bind_ok hbehind
    cases hbehind
    obtain ⟨hfiled, hone⟩ := visitPart_annotates source parent part hfirst hsize
    have hmiddle := hfiled.size
    obtain ⟨hfiled', hothers⟩ := visitParts_annotate source parent rest hrest
      (by rw [hmiddle, hsize, ← Nat.mul_add])
    rw [registrationsInAll_cons, List.length_append, ← Nat.add_assoc]
    exact ⟨hfiled.trans config program hfiled', .cons hone hothers⟩

end

/-- What annotating a program does: the schemas of the registrations are filed in their order, and each
registration is annotated. -/
theorem annotate_ok {root : Node} {annotated : Annotated}
    (h : annotate config program root = .ok annotated) :
    ∃ anchor, Route.anchor config program.checked root = .ok anchor ∧
      Filed config program (registrations program.checked anchor root) .start
        ⟨annotated.registry, annotated.registrations⟩ ∧
      Annotates config (isRegistration program.checked anchor) root.source root.parent root.part 0
        (annotated.visit.resultAt root) (registrations program.checked anchor root).length := by
  unfold annotate at h
  obtain ⟨anchor, hanchor, h⟩ := bind_ok h
  obtain ⟨⟨visit, progress⟩, hvisit, h⟩ := bind_ok h
  cases h
  obtain ⟨hfiled, hannotates⟩ :=
    visitPart_annotates config program anchor root.source root.parent root.part hvisit (k := 0) rfl
  refine ⟨anchor, hanchor, hfiled, ?_⟩
  rw [resultAt_eq, ← Nat.zero_add (registrations program.checked anchor root).length]
  exact hannotates

/-- All registrations are counted. -/
theorem registrations_eq_length {root : Node} {annotated : Annotated} {anchor : SymbolId}
    (h : annotate config program root = .ok annotated)
    (hanchor : Route.anchor config program.checked root = .ok anchor) :
    annotated.registrations = (registrations program.checked anchor root).length := by
  obtain ⟨_, hfound, hfiled, -⟩ := annotate_ok config program h
  rw [hanchor] at hfound
  cases hfound
  simpa [Progress.start] using hfiled.annotated

end

end Route

end RouteTypes
