-- What happens when an annotated program is annotated again. It has the same registrations as before, but each has
-- one argument too many, so the first of them is refused: nothing gets a second record, and nothing is passed over
-- in silence.
import RouteTypes.Proofs.Route.Counterparts
import RouteTypes.Proofs.Route.RereadingPrograms

namespace RouteTypes

open RouteTypes.Tree

namespace Route

variable {config : Config}

/-! ## Grown trees match -/

theorem isLeaf_of_erase {part : Part} {token : Token} (h : part.erase = .leaf token) : part.isLeaf = true := by
  cases part with
  | leaf _ _ => rfl
  | node _ _ _ => cases h

/-- Tokens at their places are leaves. -/
theorem leaves_placeAll {trees : List Tree} (h : ∀ tree ∈ trees, ∃ token, tree = .leaf token) (start : Nat) :
    ∀ part ∈ Tree.placeAll start trees, part.isLeaf = true := by
  intro part hpart
  have herase := List.mem_map_of_mem (f := Part.erase) hpart
  rw [← eraseAll_eq, Tree.eraseAll_placeAll] at herase
  obtain ⟨token, htoken⟩ := h _ herase
  exact isLeaf_of_erase htoken

/-- Behind the last argument there may be a record, with a comma on one side and a blank before it. -/
theorem matches_group {last : Tree} {params returned start start' : Nat} {blanks : List Tree} {close : Token}
    (hblanks : ∀ blank ∈ blanks, blank.isTrivia = true) :
    Matches true true (Tree.placeAll start (blanks ++ [.leaf close]))
      (Tree.placeAll start' (groupBehind (argument config params returned) last ++ (blanks ++ [.leaf close]))) := by
  have hleaves : ∀ tree ∈ blanks ++ [.leaf close], ∃ token, tree = .leaf token := by
    intro tree htree
    rcases List.mem_append.mp htree with htree | htree
    · cases tree with
      | leaf token => exact ⟨token, rfl⟩
      | node kind children => cases hblanks _ htree
    · exact ⟨close, List.mem_singleton.mp htree⟩
  generalize blanks ++ [.leaf close] = ends at hleaves ⊢
  obtain ⟨front, back, hgroup, hfront, hback⟩ : ∃ front back, groupBehind (argument config params returned) last =
      front ++ argument config params returned :: back ∧ (∀ tree ∈ front, ∃ token, tree = .leaf token) ∧
        ∀ tree ∈ back, ∃ token, tree = .leaf token := by
    unfold groupBehind
    split
    · exact ⟨[Tree.space], [Tree.comma], rfl, by simp [Tree.space], by simp [Tree.comma]⟩
    · exact ⟨[Tree.comma, Tree.space], [], rfl, by simp [Tree.comma, Tree.space], by simp⟩
  rw [hgroup, List.append_assoc, List.cons_append, placeAll_append, Tree.placeAll]
  exact .grown rfl ⟨config, params, returned, Tree.erase_place _ _⟩ (leaves_placeAll hleaves _)
    (leaves_placeAll hfront _)
    (leaves_placeAll (fun tree htree => (List.mem_append.mp htree).elim (hback tree) (hleaves tree)) _)

mutual

/-- A tree matches what has grown of it, wherever both stand. -/
theorem Grown.matches {tree tree' : Tree} : Grown config tree tree' → ∀ {list : Bool} {parts parts' : List Part}
    (start start' : Nat), Matches true list parts parts' →
      Matches true list (tree.place start :: parts) (tree'.place start' :: parts')
  | .leaf token, _, _, _, _, _, hrest => by
    cases htoken : token.isTrivia
    · exact .leaf htoken hrest
    · exact .blank htoken (.blank' htoken hrest)
  | .node kind below, _, _, _, start, start', hrest => by
    have hbelow := below.matchesBefore start start' (.nil : Matches true (kind == .argList) [] [])
    rw [List.append_nil, List.append_nil] at hbelow
    exact .node hbelow hrest
  | @Grown.list _ front front' blanks last last' close _ _ items item _ _ trivia _, _, _, _, start, start', hrest => by
    refine .node ?_ hrest
    rw [placeAll_append, placeAll_append, Tree.placeAll, Tree.placeAll]
    exact items.matchesBefore _ _ (item.matches _ _ (matches_group trivia))

theorem GrownAll.matchesBefore {trees trees' : List Tree} : GrownAll config trees trees' →
    ∀ {list : Bool} {parts parts' : List Part} (start start' : Nat), Matches true list parts parts' →
      Matches true list (Tree.placeAll start trees ++ parts) (Tree.placeAll start' trees' ++ parts')
  | .nil, _, _, _, _, _, hrest => hrest
  | .cons first others, _, _, _, _, _, hrest => first.matches _ _ (others.matchesBefore _ _ hrest)

end

/-! ## More nodes and arguments -/

theorem appendTo_nodes {arg tree : Tree} {trees : List Tree} (h : appendTo arg (.node .callExpr trees) = .ok tree) :
    tree.nodes.length = (nodesOf trees).length + arg.nodes.length + 1 := by
  obtain ⟨before, list, behind, list', rfl, -, happend, rfl⟩ := appendTo_eq_ok h
  obtain ⟨front, last, blanks, close, rest, rfl, -, -, -, -, rfl⟩ := appendArgument_eq_some happend
  simp only [Tree.nodes, nodesOf_append, nodesOf, nodesOf_groupBehind, List.length_append, List.length_cons]
  omega

section

variable {is : Node → Bool} {source : Source}

mutual

/-- There is a node more at least for each registration. -/
theorem Annotates.nodes {parent : Option Node} {part : Part} {k next : Nat} {tree : Tree} :
    Annotates config is source parent part k tree next → part.erase.nodes.length + next ≤ tree.nodes.length + k
  | .leaf => Nat.le_refl _
  | .keep _ below => by
    have hbelow := below.nodes
    simp only [Part.erase, Tree.nodes, List.length_cons]
    omega
  | @Annotates.call _ _ _ _ _ _ k _ _ _ _ below append => by
    have hbelow := below.nodes
    have harg : 0 < (argument config (2 * k) (2 * k + 1)).nodes.length := Nat.succ_pos _
    rw [appendTo_nodes append]
    simp only [Part.erase, Tree.nodes, List.length_cons]
    omega

theorem AnnotatesAll.nodes {parent : Option Node} {parts : List Part} {k next : Nat} {trees : List Tree} :
    AnnotatesAll config is source parent parts k trees next →
      (nodesOf (Part.eraseAll parts)).length + next ≤ (nodesOf trees).length + k
  | .nil => Nat.le_refl _
  | .cons first others => by
    have hfirst := first.nodes
    have hothers := others.nodes
    simp only [Part.eraseAll, nodesOf, List.length_append]
    omega

end

/-- What stands in the place of a registration has one argument more. -/
theorem Numbered.args_of_images {R : Node → Node → Prop} {k next : Nat} {calls : List Node} {outs : List Tree}
    (h : Numbered config is k calls outs next) {calls' : List Node} (houts : calls'.map Node.tree = outs)
    (hcalls : List.Forall₂ R calls calls') :
    List.Forall₂ (fun call call' => R call call' ∧ (is call = true → call'.args.length = call.args.length + 1))
      calls calls' := by
  induction h generalizing calls' with
  | nil =>
    cases hcalls
    exact .nil
  | other no _ _ ih =>
    cases hcalls with
    | cons hcall hrest =>
      exact .cons ⟨hcall, fun yes => by rw [no] at yes; cases yes⟩ (ih (List.cons.inj houts).2 hrest)
  | registration _ args _ ih =>
    cases hcalls with
    | cons hcall hrest =>
      obtain ⟨before, hargs, hlength⟩ := args
      refine .cons ⟨hcall, fun _ => ?_⟩ (ih (List.cons.inj houts).2 hrest)
      rw [args_length, (List.cons.inj houts).1, hargs, List.length_append, hlength]
      rfl

end

/-! ## The second pass -/

theorem calls_of_tree {program : Program} {tree : Tree} (h : program.tree = tree) :
    program.root.calls.map Node.tree = tree.calls := by
  subst h
  rfl

/-- A call with four arguments has no handler. -/
theorem handlerOf_of_four {call list : Node} (hlist : call.argList? = some list) (hargs : call.args.length = 4) :
    handlerOf config call = .error ⟨.arity s!"arguments to `{config.method}`" 3 4, some list.span⟩ := by
  have helements : list.elements.length = 4 := by
    rw [Node.args, hlist] at hargs
    exact hargs
  unfold handlerOf
  rw [expectChild_eq, show call.child? (· == .argList) = some list from hlist]
  dsimp only [bind, Except.bind]
  split
  · rename_i heq
    rw [heq] at helements
    cases helements
  · rw [helements]

theorem args_of_handler {call handler : Node} (h : handlerOf config call = .ok handler) : call.args.length = 3 := by
  unfold handlerOf at h
  obtain ⟨list, hlist, h⟩ := bind_ok h
  rw [expectChild_eq] at hlist
  split at hlist
  · rename_i found hfound
    cases hlist
    split at h
    · rename_i helements
      rw [Node.args, Node.argList?, hfound]
      exact congrArg List.length helements
    · cases h
  · cases hlist

section

variable {source : String} {program : Callables} {annotated : Annotated} (hread : (Program.ofSource source).isOk = true)
  (h : annotate config program (Program.ofSource source).root = .ok annotated)

include hread h

/-- The parts of the program match those of the annotated text. -/
theorem annotated_matches : Matches true false (Program.ofSource source).root.parts
    (Program.ofSource (annotated.visit.resultAt (Program.ofSource source).root).text).root.parts := by
  have hmatches := (annotate_grows hread h).matches 0 0 (.nil : Matches true false [] [])
  rw [← Program.root_part, ← (grown_text hread (annotate_grows hread h)).2, ← Program.root_part] at hmatches
  have hinside := hmatches.inside
  rw [Program.root_kind] at hinside
  exact hinside

/-- The annotated text has more nodes. -/
theorem annotated_depth (hsome : 0 < annotated.registrations) :
    Checked.depthFor (Program.ofSource source).root + 2 ≤ Checked.depthFor
      (Program.ofSource (annotated.visit.resultAt (Program.ofSource source).root).text).root := by
  obtain ⟨anchor, hanchor, -, hannotates⟩ := annotate_ok config program h
  have hnodes := hannotates.nodes
  rw [← registrations_eq_length config program h hanchor, ← (grown_text hread (annotate_grows hread h)).2] at hnodes
  rw [Checked.depthFor, Checked.depthFor, Node.descendants_length, Node.descendants_length,
    Program.root_part (annotated.visit.resultAt _).text, Tree.erase_place]
  omega

end

theorem Filed.handler {program : Callables} {calls : List Node} {before after : Progress}
    (h : Filed config program calls before after) {call : Node} (hcall : call ∈ calls) :
    ∃ handler, handlerOf config call = .ok handler := by
  obtain ⟨⟨pairs, hpairs, -⟩, -⟩ := h
  obtain ⟨k, hk, rfl⟩ := List.getElem_of_mem hcall
  obtain ⟨handler, _, _, hhandler, -⟩ := schemasOf_eq_ok (List.Forall₂.get hpairs hk (hpairs.length_eq ▸ hk))
  exact ⟨handler, hhandler⟩

/-- Registrations are found again at their places. Where each of them has got one argument more, the first is
refused. -/
theorem first_image_is_refused {P : Pairing} {w : Sync} {text text' : String} {checked checked' : Checked}
    (h : Counterparts P w text text' checked checked') {anchor : SymbolId}
    (hanchor : Route.anchor config checked P.root = .ok anchor) {n : Nat}
    (hnumbered : Numbered config (isRegistration checked anchor) 0 P.root.calls (P.root'.calls.map Node.tree) n)
    {before after : Progress}
    (hfiled : Filed config (callables checked) (registrations checked anchor P.root) before after)
    (hsome : registrations checked anchor P.root ≠ []) :
    ∃ anchor', Route.anchor config checked' P.root' = .ok anchor' ∧
      List.Forall₂ (SamePlace P.root P.root') (registrations checked anchor P.root)
        (registrations checked' anchor' P.root') ∧
      ∃ first rest list, registrations checked' anchor' P.root' = first :: rest ∧ first.argList? = some list ∧
        annotate config (callables checked') P.root' =
          .error ⟨.arity s!"arguments to `{config.method}`" 3 4, some list.span⟩ := by
  have hanchors := h.anchor config
  rw [hanchor] at hanchors
  generalize hanchor' : Route.anchor config checked' P.root' = found at hanchors
  cases hanchors with
  | @ok _ anchor' hsame =>
    have himages := (hnumbered.args_of_images rfl h.calls).filter fun _ _ hcall => h.isRegistration hsame hcall.1
    rw [← registrations_eq, ← registrations_eq] at himages
    refine ⟨anchor', rfl, ?_, ?_⟩
    · refine List.forall₂_iff_get.mpr ⟨himages.length_eq, fun i hi hi' => ?_⟩
      exact (himages.get hi hi').1.twin.samePlace (List.mem_of_mem_filter (List.get_mem _ ⟨i, hi⟩))
    · generalize hcalls : registrations checked anchor P.root = calls at himages hsome
      generalize hcalls' : registrations checked' anchor' P.root' = calls' at himages
      cases himages with
      | nil => exact absurd rfl hsome
      | @cons call first rest rest' hfirst _ =>
        have hcall : call ∈ registrations checked anchor P.root := hcalls ▸ List.mem_cons_self
        obtain ⟨handler, hhandler⟩ := hfiled.handler hcall
        have hargs := hfirst.2 ((Bool.and_eq_true _ _).mp (List.mem_filter.mp hcall).2).2
        rw [args_of_handler hhandler] at hargs
        obtain ⟨list, hlist⟩ : ∃ list, first.argList? = some list := by
          refine Option.isSome_iff_exists.mp (Option.isSome_iff_ne_none.mpr fun hnone => ?_)
          rw [Node.args, hnone] at hargs
          cases hargs
        have hfails : failureOf? config (callables checked') first =
            some ⟨.arity s!"arguments to `{config.method}`" 3 4, some list.span⟩ := by
          refine failureOf?_of_error ?_
          unfold schemasOf
          rw [handlerOf_of_four hlist hargs]
          rfl
        refine ⟨first, rest', list, rfl, hlist, ?_⟩
        rw [h.root'] at hanchor' hcalls' ⊢
        refine (annotate_eq_error h.reads').mpr (.inr ⟨anchor', hanchor', ?_⟩)
        rw [show (callables checked').checked = checked' from rfl, hcalls', List.findSome?_cons, hfails]

/-- The text of an annotated program with one registration at least is read without misfits, and it is checked if
the program was, two questions deeper at most, which is as deep as its size allows. It has an anchor too, and its
registrations are those of the program, in the same order and each at the place where it was. The first of them has
four arguments now, so annotating the text again fails for that reason, at its list of arguments. -/
theorem second_pass_is_refused {source : String} {prelude : Tree} {depth : Nat} {checked : Checked}
    {annotated : Annotated} (hread : (Program.ofSource source).isOk = true)
    (hchecked : Checked.upTo depth (Node.ofTree .prelude prelude) (Program.ofSource source).root = some checked)
    (h : annotate config (callables checked) (Program.ofSource source).root = .ok annotated)
    (hsome : 0 < annotated.registrations) :
    let root := (Program.ofSource source).root
    let again := Program.ofSource (annotated.visit.resultAt root).text
    again.isOk = true ∧ Checked.depthFor root + 2 ≤ Checked.depthFor again.root ∧
      ∀ deeper, depth + 2 ≤ deeper → ∃ checked' anchor anchor',
        Checked.upTo deeper (Node.ofTree .prelude prelude) again.root = some checked' ∧
        Route.anchor config checked root = .ok anchor ∧ Route.anchor config checked' again.root = .ok anchor' ∧
        List.Forall₂ (SamePlace root again.root) (registrations checked anchor root)
          (registrations checked' anchor' again.root) ∧
        ∃ first rest list, registrations checked' anchor' again.root = first :: rest ∧ first.argList? = some list ∧
          annotate config (callables checked') again.root =
            .error ⟨.arity s!"arguments to `{config.method}`" 3 4, some list.span⟩ := by
  intro root again
  obtain ⟨hread', htree⟩ := grown_text hread (annotate_grows hread h)
  obtain ⟨anchor, hanchor, hfiled, hannotates⟩ := annotate_ok config (callables checked) h
  refine ⟨hread', annotated_depth hread h hsome, fun deeper hdeeper => ?_⟩
  obtain ⟨more, rfl⟩ : ∃ more, deeper = more + 1 := ⟨deeper - 1, by omega⟩
  have hle : depth ≤ more + 1 := by omega
  have hlt : depth < more := by omega
  obtain ⟨checked', P, w, hchecked', -, hboth⟩ :=
    Counterparts.of_upTo hread hread' (annotated_matches hread h) hle (fun _ => hlt) hchecked
  have hsound : (Program.ofSource source).root.part.erase.Sound Grammar.forms := by
    rw [Program.root_part, Tree.erase_place]
    exact program_sound hread
  have hnumbered : Numbered config (isRegistration checked anchor) 0 P.root.calls (P.root'.calls.map Node.tree)
      (registrations checked anchor (Program.ofSource source).root).length := by
    rw [hboth.root, hboth.root', calls_of_tree htree]
    exact hannotates.numbered hsound
  have hsome' : registrations checked anchor (Program.ofSource source).root ≠ [] :=
    List.length_pos_iff.mp (registrations_eq_length config (callables checked) h hanchor ▸ hsome)
  rw [← hboth.root] at hanchor hfiled hsome'
  obtain ⟨anchor', hrefused⟩ := first_image_is_refused hboth hanchor hnumbered hfiled hsome'
  rw [hboth.root'] at hrefused
  rw [hboth.root] at hanchor hrefused
  exact ⟨checked', anchor, anchor', hchecked', hanchor, hrefused⟩

/-- The program with one route is refused when it is annotated twice. -/
theorem oneRoute_is_refused : ∃ checked annotated,
    annotate oneRouteConfig (callables checked) (Program.ofSource oneRoute).root = .ok annotated ∧
      annotated.registrations = 1 ∧
      let again := Program.ofSource (annotated.visit.resultAt (Program.ofSource oneRoute).root).text
      again.isOk = true ∧ ∃ checked' first list,
        Checked.upTo 42 (Node.ofTree .prelude (Program.ofSource "").tree) again.root = some checked' ∧
        (∃ anchor', registrations checked' anchor' again.root = [first]) ∧ first.argList? = some list ∧
        annotate oneRouteConfig (callables checked') again.root =
          .error ⟨.arity s!"arguments to `{oneRouteConfig.method}`" 3 4, some list.span⟩ := by
  have hread := oneRoute_annotates.1
  obtain ⟨checked, annotated, hchecked, h, hone⟩ := oneRoute_checks
  obtain ⟨hread', -, hall⟩ := second_pass_is_refused hread hchecked h (hone ▸ Nat.one_pos)
  obtain ⟨checked', anchor, anchor', hchecked', hanchor, -, hplaces, first, rest, list, hregistrations, hlist, herror⟩ :=
    hall 42 (by decide)
  have hcount : annotated.registrations = (registrations checked anchor (Program.ofSource oneRoute).root).length :=
    registrations_eq_length oneRouteConfig (callables checked) h hanchor
  have hlength := hplaces.length_eq
  rw [← hcount, hone, hregistrations] at hlength
  obtain rfl : rest = [] := List.length_eq_zero_iff.mp (Nat.succ.inj hlength).symm
  exact ⟨checked, annotated, h, hone, hread', checked', first, list, hchecked', ⟨anchor', hregistrations⟩, hlist, herror⟩

end Route

end RouteTypes
