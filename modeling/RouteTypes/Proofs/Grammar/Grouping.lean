-- How the parts of an expression are grouped. An operand is read up to a token that cannot go on with it, so
-- what stands behind a binary or prefix expression is never an operator that would have had to be taken into
-- it. This is kept while an operand grows, and tells how the operators of a program are nested.
import RouteTypes.Proofs.Grammar.Tails
import RouteTypes.Proofs.Grammar.Termination

namespace RouteTypes

open RouteTypes.Tree

/-! ## Levels of operators -/

/-- How tight a binary operator binds. -/
def TokenKind.level? : TokenKind → Option Nat
  | .questionQuestion => some 1
  | .pipePipe => some 2
  | .ampAmp => some 3
  | .eqEq | .eqEqEq | .notEq | .notEqEq => some 4
  | .lt | .gt | .ltEq | .gtEq => some 5
  | .plus | .minus => some 6
  | .star | .slash | .percent => some 7
  | _ => none

/-- What binds looser than every operator. -/
def NodeKind.isLoose (kind : NodeKind) : Bool :=
  kind == .conditionalExpr || kind == .assignExpr || kind == .arrowFunction

namespace Grammar

/-- The powers of the grammar are the levels. -/
theorem level?_of_mem : ∀ entry ∈ binaryPowers, ∀ kind ∈ entry.2, kind.level? = some entry.1 := by
  decide

theorem exists_power {kind : TokenKind} {level : Nat} (h : kind.level? = some level) :
    ∃ kinds, (level, kinds) ∈ binaryPowers ∧ kind ∈ kinds := by
  have hall : ∀ kind ∈ TokenKind.all, ∀ level ∈ kind.level?,
      ∃ entry ∈ binaryPowers, entry.1 = level ∧ kind ∈ entry.2 := by decide +kernel
  obtain ⟨⟨_, kinds⟩, hmem, rfl, hkind⟩ := hall kind kind.mem_all level h
  exact ⟨kinds, hmem, hkind⟩

theorem level_lt_prefixPower {kind : TokenKind} {level : Nat} (h : kind.level? = some level) :
    level < prefixPower := by
  have hall : ∀ kind ∈ TokenKind.all, ∀ level ∈ kind.level?, level < prefixPower := by decide +kernel
  exact hall kind kind.mem_all level h

end Grammar

/-! ## Grouped trees -/

namespace Tree

/-- The parts right below that are neither blanks nor comments. -/
def solid (trees : List Tree) : List Tree := trees.filter (!·.isTrivia)

/-- How tight the operator of a binary expression binds. -/
def level? : Tree → Option Nat
  | .node .binaryExpr children =>
    match solid children with
    | [_, .leaf operator, _] => operator.kind.level?
    | _ => none
  | _ => none

/-- Nothing loose; and if it is a binary expression, its operator binds at least that tight. -/
structure BindsBy (least : Nat) (tree : Tree) : Prop where
  tight : ∀ kind, tree.kind = .node kind → kind.isLoose = false
  binary : tree.kind = .node .binaryExpr → ∃ level, tree.level? = some level ∧ least ≤ level

/-- What can be an operand where operators have to bind at least that tight. -/
structure Operand (least : Nat) (tree : Tree) : Prop extends tree.BindsBy least where
  cast : tree.kind = .node .asExpr → least ≤ Grammar.asPower

/-- What can be called, indexed or asked for a member. -/
structure Receiver (tree : Tree) : Prop where
  isNode : ∃ kind, tree.kind = .node kind
  tight : ∀ kind, tree.kind = .node kind → kind.isLoose = false
  binary : tree.kind ≠ .node .binaryExpr
  unary : tree.kind ≠ .node .prefixExpr

/-- How the parts of a node of that kind are grouped. -/
def Grouping : NodeKind → List Tree → Prop
  | .binaryExpr, parts => ∃ left operator right level, parts = [left, .leaf operator, right] ∧
      operator.kind.level? = some level ∧ left.BindsBy level ∧ right.Operand (level + 1)
  | .prefixExpr, parts => ∃ operator operand, parts = [.leaf operator, operand] ∧
      operand.Operand Grammar.prefixPower
  | .asExpr, parts => ∃ operand rest, parts = operand :: rest ∧ operand.BindsBy Grammar.asPower
  | .callExpr, parts | .propertyAccess, parts | .indexExpr, parts =>
    ∃ receiver rest, parts = receiver :: rest ∧ receiver.Receiver
  | .conditionalExpr, parts => ∃ condition rest, parts = condition :: rest ∧ condition.BindsBy 0
  | .assignExpr, parts => ∃ target rest, parts = target :: rest ∧
      target.kind ≠ .node .assignExpr ∧ target.kind ≠ .node .arrowFunction
  | _, _ => True

/-- A tree in which the parts of every node are grouped. -/
inductive Grouped : Tree → Prop
  | leaf (token : Token) : Grouped (.leaf token)
  | node {kind : NodeKind} {children : List Tree} (grouping : Grouping kind (solid children))
      (grouped : ∀ child ∈ children, Grouped child) : Grouped (.node kind children)

end Tree

/-! ## What phrases and suffixes give -/

section

variable (readings : Readings)

/-- What the phrase finds without a misfit is such a tree, with such a sight behind it. -/
def Phrase.Gives (phrase : Phrase) (good : Tree → Sight → Prop) : Prop :=
  ∀ s blanks tree behind, phrase.read readings s = (some (blanks, tree), behind) →
    behind.misfits = [] → good tree behind

/-- A suffix makes such a tree out of such a tree, without a misfit. -/
def Suffix.Turns (suffix : Suffix) (before after : Tree → Sight → Prop) : Prop :=
  ∀ tree s outer behind, before tree s → suffix.read readings tree s = (some outer, behind) →
    behind.misfits = [] → after outer behind

end

section

variable {readings : Readings}

theorem Suffix.read_none : ∀ (suffix : Suffix) (tree : Tree) (s behind : Sight),
    suffix.read readings tree s = (none, behind) → behind = s
  | .stop, _, _, _, h => (Prod.mk.inj h).2.symm
  | .around _, _, _, _, h => nomatch (Prod.mk.inj h).1
  | .branch question yes no, tree, s, behind, h => by
    rw [Suffix.read] at h
    split at h
    · exact yes.read_none tree s behind h
    · exact no.read_none tree s behind h

theorem Phrase.Gives.mono {phrase : Phrase} {good good' : Tree → Sight → Prop}
    (h : phrase.Gives readings good) (hle : ∀ tree s, good tree s → good' tree s) :
    phrase.Gives readings good' :=
  fun s blanks tree behind hread hfits => hle _ _ (h s blanks tree behind hread hfits)

theorem Phrase.Gives.branch {question : Question} {yes no : Phrase} {good : Tree → Sight → Prop}
    (hyes : yes.Gives readings good) (hno : no.Gives readings good) :
    (Phrase.branch question yes no).Gives readings good := by
  intro s blanks tree behind hread hfits
  rw [Phrase.read] at hread
  split at hread
  · exact hyes s blanks tree behind hread hfits
  · exact hno s blanks tree behind hread hfits

/-- A phrase and perhaps a node around it. -/
theorem Phrase.Gives.wrap {inner : Phrase} {suffix : Suffix} {before after : Tree → Sight → Prop}
    (hleads : ∀ rule s, Sight.Leads (fun _ => true) s (readings rule s).2)
    (hinner : inner.Gives readings before) (hstop : ∀ tree s, before tree s → after tree s)
    (hturns : suffix.Turns readings before after) : (Phrase.wrap inner suffix).Gives readings after := by
  intro s blanks tree behind hread hfits
  rw [Phrase.read] at hread
  split at hread
  · cases hread
  · rename_i blanks' first middle hfirst
    cases hread
    have hsuffix := suffix.read_leads hleads first middle suffix.takesOnly_all
    have hbefore := hinner s blanks first middle hfirst (hsuffix.fits hfits)
    cases hlast : suffix.read readings first middle with
    | mk answer last =>
      rw [hlast] at hfits
      cases answer with
      | none =>
        rw [suffix.read_none first middle last hlast]
        exact hstop first middle hbefore
      | some outer => exact hturns first middle outer last hbefore hlast hfits

/-- A step that takes a token each time it makes a tree keeps what it makes trees of, and ends where it
makes none. -/
theorem Sight.wrapWhile_keeps {step : Tree → Sight → Option Tree × Sight} {good : Tree → Sight → Prop}
    (hleads : ∀ inner s, Sight.Leads (fun _ => true) s (step inner s).2)
    (hless : ∀ inner s, (step inner s).1.isSome = true → (step inner s).2.ahead.length < s.ahead.length)
    (hnone : ∀ inner s behind, step inner s = (none, behind) → behind = s)
    (hstep : ∀ inner s outer behind, good inner s → step inner s = (some outer, behind) →
      behind.misfits = [] → good outer behind) (inner : Tree) (s : Sight) (hinner : good inner s)
    (hfits : (s.wrapWhile step inner).2.misfits = []) :
    good (s.wrapWhile step inner).1 (s.wrapWhile step inner).2 ∧
      (step (s.wrapWhile step inner).1 (s.wrapWhile step inner).2).1 = none := by
  have hone := hless inner s
  rw [Sight.wrapWhile] at hfits ⊢
  split at hfits
  · rename_i behind heq
    obtain rfl := hnone inner s behind heq
    exact ⟨hinner, by rw [heq]⟩
  · rename_i outer behind heq
    rw [heq] at hone
    have htaken : behind.ahead.length < s.ahead.length := hone rfl
    rw [if_pos htaken] at hfits ⊢
    have hbehind := (Sight.Leads.wrapWhile hleads outer behind).fits hfits
    exact wrapWhile_keeps hleads hless hnone hstep outer behind
      (hstep inner s outer behind hinner heq hbehind) hfits
termination_by s.ahead.length

/-- A phrase and nodes around it. Behind them the suffix makes no other one. -/
theorem Phrase.Gives.extend {inner : Phrase} {suffix : Suffix} {good : Tree → Sight → Prop}
    (hleads : ∀ rule s, Sight.Leads (fun _ => true) s (readings rule s).2)
    (htakes : suffix.takesEachRound = true) (hinner : inner.Gives readings good)
    (hturns : suffix.Turns readings good good) :
    (Phrase.extend inner suffix).Gives readings
      fun tree s => good tree s ∧ (suffix.read readings tree s).1 = none := by
  intro s blanks tree behind hread hfits
  rw [Phrase.read] at hread
  split at hread
  · cases hread
  · rename_i blanks' first middle hfirst
    cases hread
    have hsuffix : ∀ inner s, Sight.Leads (fun _ => true) s (suffix.read readings inner s).2 :=
      fun inner s => suffix.read_leads hleads inner s suffix.takesOnly_all
    have hbefore := hinner s blanks first middle hfirst
      ((Sight.Leads.wrapWhile hsuffix first middle).fits hfits)
    refine Sight.wrapWhile_keeps hsuffix (fun inner s hsome => ?_) suffix.read_none hturns first middle
      hbefore hfits
    exact suffix.read_takes hleads inner s (List.all_eq_true.mp htakes s.kind s.kind.mem_all) hsome

/-- A suffix of several makes what one does whose question is answered with yes. -/
theorem Suffix.exists_of_firstOf {arms : List (Question × Suffix)} {tree outer : Tree} {s behind : Sight}
    (h : (Suffix.firstOf arms).read readings tree s = (some outer, behind)) :
    ∃ arm ∈ arms, arm.1.ask s = true ∧ arm.2.read readings tree s = (some outer, behind) := by
  induction arms with
  | nil => cases h
  | cons arm rest ih =>
    rw [Suffix.firstOf, Suffix.read] at h
    split at h
    · rename_i hquestion
      exact ⟨arm, List.mem_cons_self, hquestion, h⟩
    · obtain ⟨arm', hmem, hquestion, hread⟩ := ih h
      exact ⟨arm', List.mem_cons_of_mem _ hmem, hquestion, hread⟩

/-- Where none of several suffixes makes a node, each question is answered with no. -/
theorem Suffix.ask_of_firstOf {arms : List (Question × Suffix)} {tree : Tree} {s : Sight}
    (haround : ∀ arm ∈ arms, ∃ body, arm.2 = .around body)
    (h : ((Suffix.firstOf arms).read readings tree s).1 = none) : ∀ arm ∈ arms, arm.1.ask s = false := by
  induction arms with
  | nil => exact fun arm harm => absurd harm List.not_mem_nil
  | cons arm rest ih =>
    rw [Suffix.firstOf, Suffix.read] at h
    split at h
    · obtain ⟨body, hbody⟩ := haround arm List.mem_cons_self
      rw [hbody] at h
      cases h
    · rename_i hquestion
      intro arm' harm'
      rcases List.mem_cons.mp harm' with rfl | harm'
      · exact eq_false_of_ne_true hquestion
      · exact ih (fun arm harm => haround arm (List.mem_cons_of_mem _ harm)) h arm' harm'

end

/-! ## Nodes that are grouped in any case -/

/-- The nodes whose parts are grouped in some way. -/
def NodeKind.groups : List NodeKind :=
  [.binaryExpr, .prefixExpr, .asExpr, .callExpr, .propertyAccess, .indexExpr, .conditionalExpr, .assignExpr]

theorem Tree.Grouping.plain {kind : NodeKind} {parts : List Tree} (h : kind ∉ NodeKind.groups) :
    Tree.Grouping kind parts := by
  cases kind <;> trivial

mutual

/-- Whether the steps make no node whose parts are grouped, apart from what rules read and what is called
behind `new`. -/
def Steps.plain : Steps → Bool
  | .done | .take _ | .refuse _ => true
  | .seq first rest => first.plain && rest.plain
  | .branch _ yes no => yes.plain && no.plain
  | .loop _ body => body.plain
  | .part phrase => phrase == Grammar.newCallee || phrase.plain
  | .enclosed _ inside => inside.plain

def Body.plain : Body → Bool
  | .close kind => !NodeKind.groups.contains kind
  | .seq first rest => first.plain && rest.plain
  | .branch _ yes no => yes.plain && no.plain

def Phrase.plain : Phrase → Bool
  | .refuse _ | .call _ => true
  | .node body => body.plain
  | .branch _ yes no => yes.plain && no.plain
  | .wrap inner suffix => inner.plain && suffix.plain
  | .extend inner suffix => inner.plain && suffix.plain && suffix.takesEachRound

def Suffix.plain : Suffix → Bool
  | .stop => true
  | .around body => body.plain
  | .branch _ yes no => yes.plain && no.plain

end

section

variable {readings : Readings}

/-- Steps that put grouped trees into the open node. -/
def Steps.Groups (readings : Readings) (steps : Steps) : Prop :=
  ∀ s, (steps.read readings s).2.misfits = [] → ∀ tree ∈ (steps.read readings s).1, tree.Grouped

theorem Tree.Grouped.of_mem_leaves {tokens : List Token} {tree : Tree} (h : tree ∈ tokens.map Tree.leaf) :
    tree.Grouped := by
  obtain ⟨token, -, rfl⟩ := List.mem_map.mp h
  exact .leaf token

theorem Sight.collectWhile_groups {question : Sight → Bool} {step : Sight → List Tree × Sight}
    (hleads : ∀ s, Sight.Leads (fun _ => true) s (step s).2)
    (hstep : ∀ s, (step s).2.misfits = [] → ∀ tree ∈ (step s).1, tree.Grouped) (s : Sight)
    (hfits : (s.collectWhile question step).2.misfits = []) :
    ∀ tree ∈ (s.collectWhile question step).1, tree.Grouped := by
  intro tree htree
  rw [Sight.collectWhile] at hfits htree
  split at hfits
  · rename_i hquestion
    rw [if_pos hquestion] at htree
    dsimp only at hfits htree
    split at hfits
    · rename_i hless
      rw [if_pos hless] at htree
      rcases List.mem_append.mp htree with htree | htree
      · exact hstep s ((Sight.Leads.collectWhile hleads (step s).2).fits hfits) tree htree
      · exact collectWhile_groups hleads hstep (step s).2 hfits tree htree
    · rename_i hless
      rw [if_neg hless] at htree
      exact hstep s hfits tree htree
  · rename_i hquestion
    rw [if_neg hquestion] at htree
    cases htree
termination_by s.ahead.length

/-- Rules that read grouped trees, and what is called behind `new` as well. -/
structure Readings.Groups (readings : Readings) : Prop where
  leads : ∀ rule s, Sight.Leads (fun _ => true) s (readings rule s).2
  rules : ∀ rule, (Phrase.call rule).Gives readings fun tree _ => tree.Grouped
  callee : Grammar.newCallee.Gives readings fun tree _ => tree.Grouped

mutual

/-- Plain steps put grouped trees into the open node, as the rules read grouped ones. -/
theorem Steps.groups (hgroups : readings.Groups) : ∀ steps : Steps, steps.plain = true → steps.Groups readings
  | .done, _, _, _, _, htree => absurd htree List.not_mem_nil
  | .take kinds, _, s, _, tree, htree => by
    rw [Steps.read, Sight.take] at htree
    split at htree
    · exact .of_mem_leaves htree
    · cases htree
  | .refuse expected, _, _, _, _, htree => absurd htree List.not_mem_nil
  | .seq first rest, h, s, hfits, tree, htree => by
    rw [Steps.plain, Bool.and_eq_true] at h
    have hone := (rest.read_leads hgroups.leads _ rest.takesOnly_all).fits hfits
    rcases List.mem_append.mp htree with htree | htree
    · exact first.groups hgroups h.1 s hone tree htree
    · exact rest.groups hgroups h.2 _ hfits tree htree
  | .branch question yes no, h, s, hfits, tree, htree => by
    rw [Steps.plain, Bool.and_eq_true] at h
    rw [Steps.read] at hfits htree
    split at hfits
    · rename_i hquestion
      rw [if_pos hquestion] at htree
      exact yes.groups hgroups h.1 s hfits tree htree
    · rename_i hquestion
      rw [if_neg hquestion] at htree
      exact no.groups hgroups h.2 s hfits tree htree
  | .loop question body, h, s, hfits, tree, htree =>
    s.collectWhile_groups (fun s => body.read_leads hgroups.leads s body.takesOnly_all) (body.groups hgroups h)
      hfits tree htree
  | .part phrase, h, s, hfits, tree, htree => by
    have hphrase : phrase.Gives readings fun tree _ => tree.Grouped := by
      rcases Bool.or_eq_true _ _ ▸ h with hnew | hplain
      · rw [beq_iff_eq.mp hnew]
        exact hgroups.callee
      · exact phrase.groups hgroups hplain
    rw [Steps.read] at hfits htree
    cases hfound : phrase.read readings s with
    | mk found behind =>
      rw [hfound] at hfits htree
      obtain _ | ⟨blanks, node⟩ := found
      · cases htree
      · rcases List.mem_append.mp htree with htree | htree
        · exact .of_mem_leaves htree
        · rw [List.mem_singleton.mp htree]
          exact hphrase s blanks node behind hfound hfits
  | .enclosed what inside, h, s, hfits, tree, htree => by
    rw [Steps.read] at hfits htree
    split at hfits
    · rename_i hmisfit
      rw [if_pos hmisfit] at htree
      exact inside.groups hgroups h s hfits tree htree
    · rename_i hmisfit
      rw [if_neg hmisfit] at htree
      split at hfits
      · rename_i hbrace
        rw [if_pos hbrace] at htree
        rcases List.mem_append.mp htree with htree | htree
        · exact inside.groups hgroups h s hfits tree htree
        · exact .of_mem_leaves htree
      · exact absurd hfits (Sight.misfits_refuse _ _)

/-- A plain body makes a node whose parts are grouped in any case. -/
theorem Body.groups (hgroups : readings.Groups) : ∀ (body : Body) (s : Sight), body.plain = true →
    (body.read readings s).2.misfits = [] → (body.read readings s).1.1 ∉ NodeKind.groups ∧
      ∀ tree ∈ (body.read readings s).1.2, tree.Grouped
  | .close kind, s, h, _ => by
    refine ⟨fun hmem => ?_, fun tree htree => absurd htree List.not_mem_nil⟩
    have hcontains : NodeKind.groups.contains kind = true := List.contains_iff_mem.mpr hmem
    rw [Body.plain, hcontains] at h
    cases h
  | .seq first rest, s, h, hfits => by
    rw [Body.plain, Bool.and_eq_true] at h
    have hone := (rest.read_leads hgroups.leads _ rest.takesOnly_all).fits hfits
    obtain ⟨hkind, hrest⟩ := rest.groups hgroups (first.read readings s).2 h.2 hfits
    refine ⟨hkind, fun tree htree => ?_⟩
    rcases List.mem_append.mp htree with htree | htree
    · exact first.groups hgroups h.1 s hone tree htree
    · exact hrest tree htree
  | .branch question yes no, s, h, hfits => by
    rw [Body.plain, Bool.and_eq_true] at h
    rw [Body.read] at hfits ⊢
    split at hfits
    · rename_i hquestion
      rw [if_pos hquestion]
      exact yes.groups hgroups s h.1 hfits
    · rename_i hquestion
      rw [if_neg hquestion]
      exact no.groups hgroups s h.2 hfits

theorem Phrase.groups (hgroups : readings.Groups) : ∀ phrase : Phrase, phrase.plain = true →
    phrase.Gives readings fun tree _ => tree.Grouped
  | .refuse expected, _, s, blanks, tree, behind, hread, _ => nomatch (Prod.mk.inj hread).1
  | .node body, h, s, blanks, tree, behind, hread, hfits => by
    cases hread
    obtain ⟨hkind, hparts⟩ := body.groups hgroups s.flush h hfits
    exact .node (.plain hkind) hparts
  | .branch question yes no, h, s, blanks, tree, behind, hread, hfits => by
    rw [Phrase.plain, Bool.and_eq_true] at h
    exact Phrase.Gives.branch (yes.groups hgroups h.1) (no.groups hgroups h.2) s blanks tree behind hread hfits
  | .call rule, _, s, blanks, tree, behind, hread, hfits => hgroups.rules rule s blanks tree behind hread hfits
  | .wrap inner suffix, h, s, blanks, tree, behind, hread, hfits => by
    rw [Phrase.plain, Bool.and_eq_true] at h
    exact Phrase.Gives.wrap hgroups.leads (inner.groups hgroups h.1) (fun _ _ hgrouped => hgrouped)
      (suffix.turns hgroups h.2)
      s blanks tree behind hread hfits
  | .extend inner suffix, h, s, blanks, tree, behind, hread, hfits => by
    rw [Phrase.plain, Bool.and_eq_true, Bool.and_eq_true] at h
    exact (Phrase.Gives.extend hgroups.leads h.2 (inner.groups hgroups h.1.1) (suffix.turns hgroups h.1.2)
      s blanks tree behind hread hfits).1

theorem Suffix.turns (hgroups : readings.Groups) : ∀ suffix : Suffix, suffix.plain = true →
    suffix.Turns readings (fun tree _ => tree.Grouped) fun tree _ => tree.Grouped
  | .stop, _, tree, s, outer, behind, _, hread, _ => nomatch (Prod.mk.inj hread).1
  | .around body, h, tree, s, outer, behind, htree, hread, hfits => by
    cases hread
    obtain ⟨hkind, hparts⟩ := body.groups hgroups s h hfits
    refine .node (.plain hkind) fun child hchild => ?_
    rcases List.mem_cons.mp hchild with rfl | hchild
    · exact htree
    · exact hparts child hchild
  | .branch question yes no, h, tree, s, outer, behind, htree, hread, hfits => by
    rw [Suffix.plain, Bool.and_eq_true] at h
    rw [Suffix.read] at hread
    split at hread
    · exact yes.turns hgroups h.1 tree s outer behind htree hread hfits
    · exact no.turns hgroups h.2 tree s outer behind htree hread hfits

end

end

end RouteTypes
