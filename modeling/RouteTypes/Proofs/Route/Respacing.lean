-- Programs that differ in blanks and comments alone. They are read, checked and annotated in the same way: the same
-- schemas are filed in the same order for as many registrations, or the annotation fails for the same reason.
import RouteTypes.Proofs.Route.Schemas

namespace RouteTypes

open RouteTypes.Tree

/-! ## Respaced trees match -/

namespace Tree

mutual

theorem Respaced.symm {tree tree' : Tree} : Respaced tree tree' → Respaced tree' tree
  | .leaf solid => .leaf solid
  | .node kind opens opens' below => .node kind opens' opens below.symm

theorem RespacedAll.symm {trees trees' : List Tree} : RespacedAll trees trees' → RespacedAll trees' trees
  | .nil => .nil
  | .blank trivia rest => .blank' trivia rest.symm
  | .blank' trivia rest => .blank trivia rest.symm
  | .cons first rest => .cons first.symm rest.symm

end

mutual

theorem Respaced.matches {tree tree' : Tree} : Respaced tree tree' → ∀ {list : Bool} {parts parts' : List Part}
    (start start' : Nat), Matches false list parts parts' →
      Matches false list (tree.place start :: parts) (tree'.place start' :: parts')
  | .leaf solid, _, _, _, _, _, hrest => .leaf solid hrest
  | .node _ _ _ below, _, _, _, start, start', hrest => .node (below.matches start start') hrest

/-- Rows of trees match at whatever places. -/
theorem RespacedAll.matches {trees trees' : List Tree} : RespacedAll trees trees' → ∀ {list : Bool} (start start' : Nat),
    Matches false list (Tree.placeAll start trees) (Tree.placeAll start' trees')
  | .nil, _, _, _ => .nil
  | .blank trivia rest, _, _, _ => .blank trivia (rest.matches _ _)
  | .blank' trivia rest, _, _, _ => .blank' trivia (rest.matches _ _)
  | .cons first rest, _, _, _ => first.matches _ _ (rest.matches _ _)

end

mutual

/-- There are as many nodes. -/
theorem Respaced.nodes_length {tree tree' : Tree} : Respaced tree tree' → tree'.nodes.length = tree.nodes.length
  | .leaf _ => rfl
  | .node _ _ _ below => congrArg (· + 1) below.nodes_length

theorem RespacedAll.nodes_length {trees trees' : List Tree} :
    RespacedAll trees trees' → (nodesOf trees').length = (nodesOf trees).length
  | .nil => rfl
  | .blank _ rest => rest.nodes_length
  | .blank' _ rest => rest.nodes_length
  | .cons first rest => by
    rw [nodesOf, nodesOf, List.length_append, List.length_append, first.nodes_length, rest.nodes_length]

end

end Tree

/-! ## Annotating -/

namespace Route

variable {config : Config}

/-- Why something fails. -/
def failure? {α : Type} : Except Failure α → Option Failure
  | .ok _ => none
  | .error failure => some failure

theorem failure?_eq_some {α : Type} {x : Except Failure α} {failure : Failure} :
    failure? x = some failure ↔ x = .error failure := by
  cases x with
  | ok a => exact ⟨(fun h => by cases h), (fun h => by cases h)⟩
  | error other => rw [failure?, Option.some_inj, Except.error.injEq]

theorem failureOf?_eq (program : Callables) (call : Node) :
    failureOf? config program call = failure? (schemasOf config program call) := by
  unfold failureOf?
  cases schemasOf config program call <;> rfl

/-- Annotating fails where there is no anchor, and else with the first registration that fails. -/
theorem failure?_annotate {program : Callables} {text : String} (hread : (Program.ofSource text).isOk = true) :
    failure? (annotate config program (Program.ofSource text).root) =
      match Route.anchor config program.checked (Program.ofSource text).root with
      | .ok anchor => (registrations program.checked anchor (Program.ofSource text).root).findSome?
          (failureOf? config program)
      | .error failure => some failure := by
  ext failure
  rw [failure?_eq_some, annotate_eq_error hread]
  cases Route.anchor config program.checked (Program.ofSource text).root with
  | ok anchor => simp
  | error other => simp

end Route

/-- The same result fails for the same reason, or not at all. -/
theorem SameResult.failure? {α β : Type} {R : α → β → Prop} {x : Except Failure α} {y : Except Failure β}
    (h : SameResult R x y) :
    Option.Rel (fun failure failure' => failure'.cause = failure.cause) (Route.failure? x) (Route.failure? y) := by
  cases h with
  | ok _ => exact .none
  | error h => exact .some h

namespace Counterparts

open Route

variable {P : Pairing} {w : Sync} {text text' : String} {checked checked' : Checked}
  (h : Counterparts P w text text' checked checked') (hgrows : P.grows = false)
  (hsize : checked'.facts.types.size = checked.facts.types.size) {config : Config}

include h hgrows hsize

/-- Calls that stand at the same places have the same schemas filed. -/
theorem filed {calls calls' : List Node} (hcalls : List.Forall₂ P.Alike calls calls') {before after after' : Progress}
    (hfiled : Filed config (callables checked) calls before after)
    (hfiled' : Filed config (callables checked') calls' before after') :
    after'.registry = after.registry ∧ after'.annotated = after.annotated := by
  obtain ⟨⟨pairs, hpairs, hschemas⟩, hannotated⟩ := hfiled
  obtain ⟨⟨pairs', hpairs', hschemas'⟩, hannotated'⟩ := hfiled'
  have hsame : pairs' = pairs := by
    clear hschemas hschemas' hannotated hannotated'
    induction hcalls generalizing pairs pairs' with
    | nil =>
      cases hpairs
      cases hpairs'
      rfl
    | cons hcall _ ih =>
      cases hpairs with
      | cons hpair hpairs =>
        cases hpairs' with
        | cons hpair' hpairs' =>
          have hschemas := h.schemasOf hgrows hsize config hcall
          rw [hpair, hpair'] at hschemas
          cases hschemas with
          | ok heq => rw [heq, ih _ hpairs _ hpairs']
  refine ⟨?_, by rw [hannotated, hannotated', hcalls.length_eq]⟩
  rw [Registry.mk.injEq, hschemas, hschemas', hsame]

/-- Annotating both fails for the same reason, or neither fails. -/
theorem failure?_annotate :
    Option.Rel (fun failure failure' => failure'.cause = failure.cause)
      (failure? (annotate config (callables checked) P.root))
      (failure? (annotate config (callables checked') P.root')) := by
  have hanchor := h.anchor config
  rw [h.root, h.root'] at hanchor ⊢
  rw [Route.failure?_annotate h.reads, Route.failure?_annotate h.reads']
  rw [← h.root, ← h.root'] at hanchor ⊢
  dsimp only [callables] at hanchor ⊢
  generalize Route.anchor config checked P.root = found at hanchor ⊢
  generalize Route.anchor config checked' P.root' = found' at hanchor ⊢
  cases hanchor with
  | error hcause => exact .some hcause
  | ok hsame =>
    refine (h.registrations hsame).findSome? fun call call' hcall => ?_
    rw [failureOf?_eq, failureOf?_eq]
    exact (h.schemasOf hgrows hsize config hcall).failure?

/-- Annotating files the same schemas for as many registrations, or fails for the same reason. -/
theorem annotate :
    SameResult (fun annotated annotated' => annotated'.registry = annotated.registry ∧
        annotated'.registrations = annotated.registrations)
      (annotate config (callables checked) P.root) (annotate config (callables checked') P.root') := by
  have hfailure : Option.Rel (fun failure failure' => failure'.cause = failure.cause)
      (failure? (Route.annotate config (callables checked) P.root))
      (failure? (Route.annotate config (callables checked') P.root')) := h.failure?_annotate hgrows hsize
  cases hone : Route.annotate config (callables checked) P.root with
  | error failure =>
    cases hother : Route.annotate config (callables checked') P.root' with
    | error failure' =>
      rw [hone, hother] at hfailure
      cases hfailure with
      | some hcause => exact .error hcause
    | ok annotated' =>
      rw [hone, hother] at hfailure
      cases hfailure
  | ok annotated =>
    cases hother : Route.annotate config (callables checked') P.root' with
    | error failure' =>
      rw [hone, hother] at hfailure
      cases hfailure
    | ok annotated' =>
      obtain ⟨anchor, hanchor, hfiled, -⟩ := annotate_ok config (callables checked) hone
      obtain ⟨anchor', hanchor', hfiled', -⟩ := annotate_ok config (callables checked') hother
      have hsame := h.anchor config
      rw [show Route.anchor config checked P.root = .ok anchor from hanchor,
        show Route.anchor config checked' P.root' = .ok anchor' from hanchor'] at hsame
      cases hsame with
      | ok hsame =>
        obtain ⟨hregistry, hcount⟩ := h.filed hgrows hsize (h.registrations hsame) hfiled hfiled'
        exact .ok ⟨hregistry, hcount⟩

end Counterparts

/-! ## Texts that differ in blanks and comments -/

namespace Program

variable {text text' : String}

theorem exists_children (text : String) : ∃ children, (ofSource text).tree = .node .sourceFile children := by
  rw [ofSource_eq]
  exact ⟨_, rfl⟩

theorem depthFor_respaced
    (h : RespacedAll (ofSource text).tree.children (ofSource text').tree.children) :
    Checked.depthFor (ofSource text').root = Checked.depthFor (ofSource text).root := by
  have hnodes : ∀ text : String, (ofSource text).root.descendants.length =
      (nodesOf (ofSource text).tree.children).length + 1 := fun text => by
    obtain ⟨children, htree⟩ := exists_children text
    rw [Node.descendants_length, root_part, Tree.erase_place, htree]
    rfl
  rw [Checked.depthFor, Checked.depthFor, hnodes, hnodes, h.nodes_length]

/-- Such programs are checked in step and know as many types, or neither is checked. -/
theorem upTo_respaced (hread : (ofSource text).isOk = true) (hread' : (ofSource text').isOk = true)
    (h : RespacedAll (ofSource text).tree.children (ofSource text').tree.children) (prelude : Tree) (depth : Nat) :
    Option.Rel
      (fun checked checked' => ∃ P w, P.grows = false ∧ Counterparts P w text text' checked checked' ∧
        checked'.facts.types.size = checked.facts.types.size)
      (Checked.upTo (depth + 1) (Node.ofTree .prelude prelude) (ofSource text).root)
      (Checked.upTo (depth + 1) (Node.ofTree .prelude prelude) (ofSource text').root) := by
  have hmatches : Matches false false (ofSource text).root.parts (ofSource text').root.parts := by
    rw [root_parts, root_parts]
    exact h.matches 0 0
  have hmatches' : Matches false false (ofSource text').root.parts (ofSource text).root.parts := by
    rw [root_parts, root_parts]
    exact h.symm.matches 0 0
  cases hchecked : Checked.upTo (depth + 1) (Node.ofTree .prelude prelude) (ofSource text).root with
  | none =>
    cases hchecked' : Checked.upTo (depth + 1) (Node.ofTree .prelude prelude) (ofSource text').root with
    | none => exact .none
    | some checked' =>
      obtain ⟨_, _, _, hback, -⟩ :=
        Counterparts.of_upTo hread' hread hmatches' (Nat.le_refl _) Bool.false_ne_true.elim hchecked'
      rw [hchecked] at hback
      cases hback
  | some checked =>
    obtain ⟨checked', P, w, hchecked', hgrows, hboth⟩ :=
      Counterparts.of_upTo hread hread' hmatches (Nat.le_refl _) Bool.false_ne_true.elim hchecked
    obtain ⟨_, _, _, hback, -, hboth'⟩ :=
      Counterparts.of_upTo hread' hread hmatches' (Nat.le_refl _) Bool.false_ne_true.elim hchecked'
    rw [hchecked] at hback
    cases hback
    rw [hchecked']
    exact .some ⟨P, w, hgrows, hboth, Nat.le_antisymm hboth'.inStep.types_le hboth.inStep.types_le⟩

end Program

namespace Route

/-- For every configuration both programs are annotated with the same schemas for as many registrations, or both
fail to be for the same reason. -/
def AnnotatedAlike (root root' : Node) (checked checked' : Checked) : Prop :=
  ∀ config, SameResult (fun annotated annotated' => annotated'.registry = annotated.registry ∧
      annotated'.registrations = annotated.registrations)
    (annotate config (callables checked) root) (annotate config (callables checked') root')

/-- Texts with the same tokens but for blanks and comments are both read without misfits, or the first misfits of
both say the same. Their trees are the same without blanks and comments. If they are read without misfits, then
both are checked or neither is, however deep questions may lead, and the checked programs are annotated alike. -/
theorem blanks_do_not_matter {text text' : String}
    (h : (Token.ofSource text').filter (!·.isTrivia) = (Token.ofSource text).filter (!·.isTrivia)) :
    let program := Program.ofSource text
    let program' := Program.ofSource text'
    program'.isOk = program.isOk ∧ program'.misfit.map Misfit.message = program.misfit.map Misfit.message ∧
      program'.tree.withoutTrivia = program.tree.withoutTrivia ∧
      (program.isOk = true →
        Option.Rel (AnnotatedAlike program.root program'.root) (Checked.ofRoot? program.root)
          (Checked.ofRoot? program'.root) ∧
        ∀ prelude depth, Option.Rel (AnnotatedAlike program.root program'.root)
          (Checked.upTo (depth + 1) (Node.ofTree .prelude prelude) program.root)
          (Checked.upTo (depth + 1) (Node.ofTree .prelude prelude) program'.root)) := by
  intro program program'
  obtain ⟨hrespaced, hmessages⟩ := Program.ofSource_respaced h
  have hok : program'.isOk = program.isOk := by
    rw [Program.isOk, Program.isOk, ← List.isEmpty_map (f := Misfit.message),
      ← List.isEmpty_map (f := Misfit.message), hmessages]
  have hall : program.isOk = true → ∀ prelude depth, Option.Rel (AnnotatedAlike program.root program'.root)
      (Checked.upTo (depth + 1) (Node.ofTree .prelude prelude) program.root)
      (Checked.upTo (depth + 1) (Node.ofTree .prelude prelude) program'.root) := by
    intro hread prelude depth
    refine (Program.upTo_respaced hread (hok.trans hread) hrespaced prelude depth).imp ?_
    rintro checked checked' ⟨P, w, hgrows, hboth, hsize⟩ config
    rw [← hboth.root, ← hboth.root']
    exact hboth.annotate hgrows hsize
  refine ⟨hok, ?_, ?_, fun hread => ⟨?_, hall hread⟩⟩
  · rw [Program.misfit, Program.misfit, ← List.head?_map, ← List.head?_map, hmessages]
  · obtain ⟨children, htree⟩ := Program.exists_children text
    obtain ⟨children', htree'⟩ := Program.exists_children text'
    rw [htree, htree'] at hrespaced
    rw [show program.tree = _ from htree, show program'.tree = _ from htree', Tree.withoutTrivia, Tree.withoutTrivia]
    exact congrArg (Tree.node .sourceFile) hrespaced.withoutTriviaOf
  · rw [Checked.ofRoot?, Checked.ofRoot?, Program.depthFor_respaced hrespaced]
    exact hall hread _ _

/-- The program with one route, written on several lines and with comments. -/
def oneRouteSpaced : String :=
  "class R\x7bm(a:any)\x7b\x7d\x7d // one\nconst r = new R();\n/* two */\tr.m('', '',\n  (x: number) => 1);\n" ++
    "export default r;\n"

theorem oneRouteSpaced_tokens : (Token.ofSource oneRouteSpaced).filter (!·.isTrivia) =
    (Token.ofSource oneRoute).filter (!·.isTrivia) := by
  decide +kernel

/-- It has the one registration too, with the same schemas. -/
theorem oneRouteSpaced_is_annotated_alike : (Program.ofSource oneRouteSpaced).isOk = true ∧
    ∃ checked checked' annotated annotated',
      Checked.upTo 40 (Node.ofTree .prelude (Program.ofSource "").tree) (Program.ofSource oneRoute).root =
        some checked ∧
      Checked.upTo 40 (Node.ofTree .prelude (Program.ofSource "").tree) (Program.ofSource oneRouteSpaced).root =
        some checked' ∧
      annotate oneRouteConfig (callables checked) (Program.ofSource oneRoute).root = .ok annotated ∧
      annotate oneRouteConfig (callables checked') (Program.ofSource oneRouteSpaced).root = .ok annotated' ∧
      annotated'.registry = annotated.registry ∧ annotated'.registrations = 1 := by
  obtain ⟨hok, -, -, hall⟩ := blanks_do_not_matter oneRouteSpaced_tokens
  obtain ⟨checked, annotated, hchecked, hannotated, hone⟩ := oneRoute_checks
  have hread := oneRoute_annotates.1
  obtain ⟨checked', hchecked', halike⟩ := ((hall hread).2 _ 39).right hchecked
  have hsame := halike oneRouteConfig
  rw [hannotated] at hsame
  cases hannotated' : annotate oneRouteConfig (callables checked') (Program.ofSource oneRouteSpaced).root with
  | error failure =>
    rw [hannotated'] at hsame
    cases hsame
  | ok annotated' =>
    rw [hannotated'] at hsame
    cases hsame with
    | ok hsame =>
      exact ⟨hok.trans hread, checked, checked', annotated, annotated', hchecked, hchecked', hannotated, hannotated',
        hsame.1, hsame.2.trans hone⟩

end Route

end RouteTypes
