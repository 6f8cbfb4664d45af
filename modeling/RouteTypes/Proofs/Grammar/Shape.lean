-- Which children a node has. The grammar says for each kind of node which rows of children it can hold;
-- in a program without misfits every node holds such a row between its blanks and comments, and ends in
-- none of these.
import Mathlib.Computability.Language
import Mathlib.Order.CompletePartialOrder
import RouteTypes.Proofs.Grammar.Progress

namespace RouteTypes

open RouteTypes.Tree

/-! ## Rows of children -/

/-- The kinds of the trees that are neither blanks nor comments. -/
def significantKinds (trees : List Tree) : List Kind := (trees.filter (!·.isTrivia)).map Tree.kind

theorem significantKinds_append (trees others : List Tree) :
    significantKinds (trees ++ others) = significantKinds trees ++ significantKinds others := by
  simp [significantKinds]

theorem significantKinds_leaves {blanks : List Token} (h : ∀ blank ∈ blanks, blank.isTrivia = true) :
    significantKinds (blanks.map .leaf) = [] := by
  have hfilter : (blanks.map Tree.leaf).filter (!·.isTrivia) = [] := by
    rw [List.filter_eq_nil_iff]
    intro tree htree
    obtain ⟨blank, hblank, rfl⟩ := List.mem_map.mp htree
    have hkind : (Tree.leaf blank).isTrivia = true := h blank hblank
    simp [hkind]
  rw [significantKinds, hfilter, List.map_nil]

namespace Question

/-- What the answer is as long as everything fits, if that is certain. -/
def settled : Question → Option Bool
  | .misfit => some false
  | .not .misfit => some true
  | _ => none

/-- Both ways to go on, or the one that is taken as long as everything fits. -/
def ways {α : Type} (both : α → α → α) (yes no : α) (question : Question) : α :=
  match question.settled with
  | some true => yes
  | some false => no
  | none => both yes no

theorem ask_of_settled {question : Question} {answer : Bool} (h : question.settled = some answer)
    {s : Sight} (hfits : s.misfits = []) : question.ask s = answer := by
  unfold settled at h
  split at h <;> cases h <;> simp [ask, Sight.hasMisfit, hfits]

end Question

namespace Rule

/-- The kinds of node that a rule reads. -/
def makes : Rule → NodeKind → Bool
  | .statement => NodeKind.isStatement
  | .type => NodeKind.isType
  | .expression | .operand _ | .primary => NodeKind.isExpression

end Rule

mutual

/-- Whether the steps can be gone without a misfit. -/
def Steps.canFit : Steps → Bool
  | .done | .take _ | .loop _ _ => true
  | .refuse _ => false
  | .seq first rest => first.canFit && rest.canFit
  | .branch question yes no => question.ways (· || ·) yes.canFit no.canFit
  | .part phrase => phrase.canFit
  | .enclosed _ inside => inside.canFit

/-- Whether the node can be of that kind. -/
def Body.closes (kind : NodeKind) : Body → Bool
  | .close own => own == kind
  | .seq first rest => first.canFit && rest.closes kind
  | .branch question yes no => question.ways (· || ·) (yes.closes kind) (no.closes kind)

def Phrase.canFit : Phrase → Bool
  | .refuse _ => false
  | .node _ | .call _ => true
  | .branch question yes no => question.ways (· || ·) yes.canFit no.canFit
  | .wrap inner _ | .extend inner _ => inner.canFit

end

mutual

/-- Whether the phrase can be a node of that kind. -/
def Phrase.makes (kind : NodeKind) : Phrase → Bool
  | .refuse _ => false
  | .node body => body.closes kind
  | .branch question yes no => question.ways (· || ·) (yes.makes kind) (no.makes kind)
  | .call rule => rule.makes kind
  | .wrap inner suffix | .extend inner suffix =>
    inner.canFit && (inner.makes kind || suffix.makes kind)

def Suffix.makes (kind : NodeKind) : Suffix → Bool
  | .stop => false
  | .around body => body.closes kind
  | .branch question yes no => question.ways (· || ·) (yes.makes kind) (no.makes kind)

end

/-- The rows of kinds that the steps read. -/
def Steps.language : Steps → Language Kind
  | .done => 1
  | .take kinds => fun row => ∃ kind ∈ kinds, row = [.token kind]
  | .refuse _ => 0
  | .seq first rest => first.language * rest.language
  | .branch question yes no => question.ways (· + ·) yes.language no.language
  | .loop _ body => KStar.kstar body.language
  | .part phrase => fun row => ∃ kind, phrase.makes kind = true ∧ row = [.node kind]
  | .enclosed _ inside => inside.language * {[.token .rBrace]}

/-- The rows of kinds that a node of that kind holds. -/
def Body.language (kind : NodeKind) : Body → Language Kind
  | .close own => if own = kind then 1 else 0
  | .seq first rest => first.language * rest.language kind
  | .branch question yes no => question.ways (· + ·) (yes.language kind) (no.language kind)

/-- Both ways have a property together if each has it, and so have both ways of something else. -/
theorem Question.ways_imp {α β : Type} {both : α → α → α} {both' : β → β → β} {P : α → Prop}
    {Q : β → Prop} {yes no : α} {yes' no' : β} (question : Question)
    (h : P (question.ways both yes no)) (hyes : P yes → Q yes') (hno : P no → Q no')
    (hboth : P (both yes no) → P yes ∨ P no) (hboth' : Q yes' ∨ Q no' → Q (both' yes' no')) :
    Q (question.ways both' yes' no') := by
  unfold Question.ways at h ⊢
  split at h
  · exact hyes h
  · exact hno h
  · exact hboth' ((hboth h).imp hyes hno)

theorem Question.canFit_ways {row : List Kind} {question : Question} {yes no : Language Kind}
    {yes' no' : Bool} (h : row ∈ question.ways (· + ·) yes no) (hyes : row ∈ yes → yes' = true)
    (hno : row ∈ no → no' = true) : question.ways (· || ·) yes' no' = true :=
  question.ways_imp (P := (row ∈ ·)) (Q := (· = true)) h hyes hno
    (fun h => (Language.mem_add _ _ _).mp h) (fun h => (Bool.or_eq_true _ _).mpr h)

mutual

/-- Steps that read a row can be gone without a misfit. -/
theorem Steps.canFit_of_row {row : List Kind} :
    ∀ steps : Steps, row ∈ steps.language → steps.canFit = true
  | .done, _ | .take _, _ | .loop _ _, _ => rfl
  | .refuse _, h => absurd h (Language.notMem_zero _)
  | .seq first rest, h => by
    obtain ⟨one, hone, other, hother, -⟩ := Language.mem_mul.mp h
    rw [Steps.canFit, first.canFit_of_row hone, rest.canFit_of_row hother]
    rfl
  | .branch _ yes no, h => Question.canFit_ways h yes.canFit_of_row no.canFit_of_row
  | .part phrase, ⟨_, hkind, _⟩ => phrase.canFit_of_makes hkind
  | .enclosed _ inside, h => by
    obtain ⟨one, hone, -⟩ := Language.mem_mul.mp h
    exact inside.canFit_of_row hone

theorem Phrase.canFit_of_makes {kind : NodeKind} :
    ∀ phrase : Phrase, phrase.makes kind = true → phrase.canFit = true
  | .refuse _, h => h
  | .node _, _ | .call _, _ => rfl
  | .branch question yes no, h =>
    question.ways_imp (P := (· = true)) (Q := (· = true)) h yes.canFit_of_makes no.canFit_of_makes
      (fun h => (Bool.or_eq_true _ _).mp h) (fun h => (Bool.or_eq_true _ _).mpr h)
  | .wrap _ _, h | .extend _ _, h => ((Bool.and_eq_true _ _).mp h).1

end

/-- A node that holds a row is of a kind that it can be of. -/
theorem Body.closes_of_row {kind : NodeKind} {row : List Kind} :
    ∀ body : Body, row ∈ body.language kind → body.closes kind = true
  | .close own, h => by
    rw [Body.language] at h
    split at h
    · rename_i hown
      exact beq_iff_eq.mpr hown
    · exact absurd h (Language.notMem_zero _)
  | .seq first rest, h => by
    obtain ⟨one, hone, other, hother, -⟩ := Language.mem_mul.mp h
    rw [Body.closes, first.canFit_of_row hone, rest.closes_of_row hother]
    rfl
  | .branch _ yes no, h => Question.canFit_ways h yes.closes_of_row no.closes_of_row

/-! ## Forms of nodes -/

/-- A body, and for one that is put around a node the kinds that this node may have. -/
structure NodeForm where
  inner : Option (List NodeKind)
  body : Body

/-- The rows of kinds that a node of that kind holds, if it has that form. -/
def NodeForm.language (form : NodeForm) (kind : NodeKind) : Language Kind :=
  match form.inner with
  | none => form.body.language kind
  | some inner => {row | ∃ first ∈ inner, ∃ rest ∈ form.body.language kind, row = .node first :: rest}

mutual

/-- The forms of the nodes in the steps. -/
def Steps.forms : Steps → List NodeForm
  | .done | .take _ | .refuse _ => []
  | .seq first rest => first.forms ++ rest.forms
  | .branch _ yes no => yes.forms ++ no.forms
  | .loop _ body => body.forms
  | .part phrase => phrase.forms
  | .enclosed _ inside => inside.forms

def Body.forms : Body → List NodeForm
  | .close _ => []
  | .seq first rest => first.forms ++ rest.forms
  | .branch _ yes no => yes.forms ++ no.forms

def Phrase.forms : Phrase → List NodeForm
  | .refuse _ | .call _ => []
  | .node body => ⟨none, body⟩ :: body.forms
  | .branch _ yes no => yes.forms ++ no.forms
  | .wrap inner suffix =>
    inner.forms ++ suffix.forms (NodeKind.all.filter fun kind => inner.makes kind)
  | .extend inner suffix =>
    inner.forms ++
      suffix.forms (NodeKind.all.filter fun kind => inner.makes kind || suffix.makes kind)

def Suffix.forms (inner : List NodeKind) : Suffix → List NodeForm
  | .stop => []
  | .around body => ⟨some inner, body⟩ :: body.forms
  | .branch _ yes no => yes.forms inner ++ no.forms inner

end

/-- A tree whose nodes have these forms. -/
inductive Tree.Sound (forms : List NodeForm) : Tree → Prop
  | leaf (token : Token) : Sound forms (.leaf token)
  | node {kind : NodeKind} {children : List Tree} {form : NodeForm} (mem : form ∈ forms)
      (row : significantKinds children ∈ form.language kind)
      (last : ∀ tree, children.getLast? = some tree → tree.isTrivia = false)
      (sound : ∀ child ∈ children, Sound forms child) : Sound forms (.node kind children)

/-! ## Reading without misfits -/

/-- Trees that were put into a node without a misfit. -/
structure Fitting (forms : List NodeForm) (language : Language Kind) (trees : List Tree) : Prop where
  row : significantKinds trees ∈ language
  last : ∀ tree, trees.getLast? = some tree → tree.isTrivia = false
  sound : ∀ tree ∈ trees, tree.Sound forms

/-- A node that was found without a misfit. -/
inductive Found.Fits (forms : List NodeForm) (makes : NodeKind → Bool) : Found → Prop
  | node {blanks : List Token} {kind : NodeKind} {children : List Tree}
      (trivia : ∀ blank ∈ blanks, blank.isTrivia = true) (made : makes kind = true)
      (sound : Tree.Sound forms (.node kind children)) :
      Fits forms makes (some (blanks, .node kind children))

theorem Found.Fits.mono {forms : List NodeForm} {makes makes' : NodeKind → Bool} {found : Found}
    (h : found.Fits forms makes) (hle : ∀ kind, makes kind = true → makes' kind = true) :
    found.Fits forms makes' := by
  obtain @⟨blanks, kind, children, htrivia, hmade, hsound⟩ := h
  exact .node htrivia (hle kind hmade) hsound

theorem Question.ways_intro {α : Type} {both : α → α → α} {yes no : α} {P : α → Prop}
    (question : Question) {s : Sight} (hfits : s.misfits = [])
    (hyes : question.ask s = true → P yes) (hno : question.ask s = false → P no)
    (hboth : ∀ a b, P a ∨ P b → P (both a b)) : P (question.ways both yes no) := by
  have hone : P yes ∨ P no := by
    cases h : question.ask s with
    | true => exact .inl (hyes h)
    | false => exact .inr (hno h)
  unfold Question.ways
  split
  · rename_i hsettled
    exact hyes (Question.ask_of_settled hsettled hfits)
  · rename_i hsettled
    exact hno (Question.ask_of_settled hsettled hfits)
  · exact hboth _ _ hone

namespace Fitting

variable {forms : List NodeForm} {language other : Language Kind} {trees others : List Tree}

theorem nil : Fitting forms 1 [] :=
  ⟨rfl, (by intro tree htree; cases htree), (by intro tree htree; cases htree)⟩

theorem append (h : Fitting forms language trees) (h' : Fitting forms other others) :
    Fitting forms (language * other) (trees ++ others) := by
  refine ⟨?_, ?_, ?_⟩
  · rw [significantKinds_append]
    exact Language.append_mem_mul h.row h'.row
  · intro tree htree
    cases others with
    | nil => exact h.last tree (by simpa using htree)
    | cons first rest =>
      rw [List.getLast?_append_of_ne_nil _ (List.cons_ne_nil _ _)] at htree
      exact h'.last tree htree
  · intro tree htree
    rcases List.mem_append.mp htree with htree | htree
    · exact h.sound tree htree
    · exact h'.sound tree htree

theorem mono (h : Fitting forms language trees) (hle : language ≤ other) :
    Fitting forms other trees := by
  have hmem : ∀ row ∈ language, row ∈ other := hle
  exact ⟨hmem _ h.row, h.last, h.sound⟩

/-- A token, with the blanks and comments before it. -/
theorem token {s : Sight} {kinds : List TokenKind} (hkind : s.kind ∈ kinds) (heof : s.kind ≠ .eof) :
    Fitting forms (fun row => ∃ kind ∈ kinds, row = [Kind.token kind]) (s.next.map .leaf) := by
  obtain ⟨ahead, misfits⟩ := s
  cases ahead with
  | nil => exact absurd rfl heof
  | cons next rest =>
    have hnext : (Sight.mk (next :: rest) misfits).next.map Tree.leaf =
        next.leading.map .leaf ++ [.leaf next.token] := by
      simp [Sight.next, Lexeme.tokens]
    have hsolid : (Tree.leaf next.token).isTrivia = false := next.token_solid
    rw [hnext]
    refine ⟨⟨next.kind, hkind, ?_⟩, ?_, ?_⟩
    · rw [significantKinds_append, significantKinds_leaves next.leading_trivia]
      simp [significantKinds, hsolid, Tree.kind, Lexeme.kind]
    · intro tree htree
      rw [List.getLast?_append_of_ne_nil _ (List.cons_ne_nil _ _)] at htree
      cases htree
      exact hsolid
    · intro tree htree
      obtain ⟨token, -, rfl⟩ := List.mem_map.mp (by rw [← hnext] at htree; exact htree)
      exact .leaf token

/-- A node, with the blanks and comments before it. -/
theorem found {makes : NodeKind → Bool} {found : Found} (h : found.Fits forms makes) :
    Fitting forms (fun row => ∃ kind, makes kind = true ∧ row = [Kind.node kind]) found.trees := by
  obtain @⟨blanks, kind, children, htrivia, hmade, hsound⟩ := h
  refine ⟨⟨kind, hmade, ?_⟩, ?_, ?_⟩
  · rw [Found.trees, significantKinds_append, significantKinds_leaves htrivia]
    rfl
  · intro tree htree
    rw [Found.trees, List.getLast?_append_of_ne_nil _ (List.cons_ne_nil _ _)] at htree
    cases htree
    rfl
  · intro tree htree
    rcases List.mem_append.mp htree with htree | htree
    · obtain ⟨token, -, rfl⟩ := List.mem_map.mp htree
      exact .leaf token
    · rw [List.mem_singleton.mp htree]
      exact hsound

theorem collectWhile {question : Sight → Bool} {step : Sight → List Tree × Sight}
    (hleads : ∀ s, Sight.Leads (fun _ => true) s (step s).2)
    (hstep : ∀ s, (step s).2.misfits = [] → Fitting forms language (step s).1) (s : Sight)
    (hfits : (s.collectWhile question step).2.misfits = []) :
    Fitting forms (KStar.kstar language) (s.collectWhile question step).1 := by
  rw [Sight.collectWhile] at hfits ⊢
  split at hfits
  · rename_i hquestion
    rw [if_pos hquestion]
    dsimp only at hfits ⊢
    split at hfits
    · rename_i hless
      rw [if_pos hless]
      have hrest := collectWhile hleads hstep (step s).2 hfits
      have hone := hstep s ((Sight.Leads.collectWhile hleads (step s).2).fits hfits)
      exact (hone.append hrest).mono mul_kstar_le_kstar
    · rename_i hless
      rw [if_neg hless]
      exact (hstep s hfits).mono le_kstar
  · rename_i hquestion
    rw [if_neg hquestion]
    exact nil.mono one_le_kstar
termination_by s.ahead.length

end Fitting

theorem mem_ways {question : Question} {s : Sight} (hfits : s.misfits = []) {yes no : Language Kind}
    {row : List Kind} (hyes : question.ask s = true → row ∈ yes)
    (hno : question.ask s = false → row ∈ no) : row ∈ question.ways (· + ·) yes no :=
  question.ways_intro (P := (row ∈ ·)) hfits hyes hno fun _ _ h => Language.mem_add _ _ _ |>.mpr h

theorem true_ways {question : Question} {s : Sight} (hfits : s.misfits = []) {yes no : Bool}
    (hyes : question.ask s = true → yes = true) (hno : question.ask s = false → no = true) :
    question.ways (· || ·) yes no = true :=
  question.ways_intro (P := (· = true)) hfits hyes hno fun _ _ h => Bool.or_eq_true _ _ |>.mpr h

theorem wrapWhile_sound {forms : List NodeForm} (makes : NodeKind → Bool)
    {step : Tree → Sight → Option Tree × Sight}
    (hleads : ∀ inner s, Sight.Leads (fun _ => true) s (step inner s).2)
    (hstep : ∀ kind children s, makes kind = true → Tree.Sound forms (.node kind children) →
      (step (.node kind children) s).2.misfits = [] →
      ∀ tree, (step (.node kind children) s).1 = some tree →
        ∃ outer rest, tree = .node outer rest ∧ makes outer = true ∧ tree.Sound forms)
    (kind : NodeKind) (children : List Tree) (s : Sight) (hmakes : makes kind = true)
    (hsound : Tree.Sound forms (.node kind children))
    (hfits : (s.wrapWhile step (.node kind children)).2.misfits = []) :
    ∃ outer rest, (s.wrapWhile step (.node kind children)).1 = .node outer rest ∧
      makes outer = true ∧ (s.wrapWhile step (.node kind children)).1.Sound forms := by
  have hone := hstep kind children s hmakes hsound
  rw [Sight.wrapWhile] at hfits ⊢
  split at hfits
  · exact ⟨kind, children, rfl, hmakes, hsound⟩
  · rename_i tree behind heq
    rw [heq] at hone
    dsimp only at hone
    split at hfits
    · rename_i hless
      rw [if_pos hless]
      obtain ⟨outer, rest, rfl, hmakes', hsound'⟩ :=
        hone ((Sight.Leads.wrapWhile hleads tree behind).fits hfits) tree rfl
      exact wrapWhile_sound makes hleads hstep outer rest behind hmakes' hsound' hfits
    · rename_i hless
      rw [if_neg hless]
      exact hone hfits tree rfl
termination_by s.ahead.length

/-- Rules that read nodes of these forms. -/
structure Readings.Fit (forms : List NodeForm) (readings : Readings) : Prop where
  leads : ∀ rule s, Sight.Leads (fun _ => true) s (readings rule s).2
  fits : ∀ rule s, (readings rule s).2.misfits = [] → (readings rule s).1.Fits forms rule.makes

section

variable {readings : Readings} {forms : List NodeForm}

mutual

/-- What steps read without a misfit is a row of their language. -/
theorem Steps.read_fitting (h : readings.Fit forms) :
    ∀ (steps : Steps) (s : Sight), steps.takesOnly (· != .eof) = true → steps.forms ⊆ forms →
      (steps.read readings s).2.misfits = [] →
      Fitting forms steps.language (steps.read readings s).1
  | .done, s, _, _, _ => .nil
  | .take kinds, s, htakes, _, hfits => by
    rw [Steps.read, Sight.take] at hfits ⊢
    split at hfits
    · rename_i hnext
      rw [if_pos hnext]
      have hkind := List.contains_iff_mem.mp hnext
      exact .token hkind (bne_iff_ne.mp (List.all_eq_true.mp htakes _ hkind))
    · exact absurd hfits (Sight.misfits_refuse s _)
  | .refuse expected, s, _, _, hfits => absurd hfits (Sight.misfits_refuse s _)
  | .seq first rest, s, htakes, hforms, hfits => by
    rw [Steps.takesOnly, Bool.and_eq_true] at htakes
    rw [Steps.forms, List.append_subset] at hforms
    have hone := (rest.read_leads h.leads _ rest.takesOnly_all).fits hfits
    exact (first.read_fitting h s htakes.1 hforms.1 hone).append
      (rest.read_fitting h _ htakes.2 hforms.2 hfits)
  | .branch question yes no, s, htakes, hforms, hfits => by
    rw [Steps.takesOnly, Bool.and_eq_true] at htakes
    rw [Steps.forms, List.append_subset] at hforms
    have hs := ((Steps.branch question yes no).read_leads h.leads s (Steps.takesOnly_all _)).fits hfits
    rw [Steps.read] at hfits ⊢
    split at hfits
    · rename_i hyes
      have hrow := yes.read_fitting h s htakes.1 hforms.1 hfits
      rw [if_pos hyes]
      exact ⟨mem_ways hs (fun _ => hrow.row) (fun hno => by rw [hno] at hyes; cases hyes),
        hrow.last, hrow.sound⟩
    · rename_i hno
      have hrow := no.read_fitting h s htakes.2 hforms.2 hfits
      rw [if_neg hno]
      exact ⟨mem_ways hs (fun hyes => absurd hyes hno) (fun _ => hrow.row), hrow.last, hrow.sound⟩
  | .loop question body, s, htakes, hforms, hfits =>
    .collectWhile (fun s => body.read_leads h.leads s body.takesOnly_all)
      (fun s hfits => body.read_fitting h s htakes hforms hfits) s hfits
  | .part phrase, s, htakes, hforms, hfits => .found (phrase.read_fits h s htakes hforms hfits)
  | .enclosed what inside, s, htakes, hforms, hfits => by
    rw [Steps.takesOnly, Bool.and_eq_true] at htakes
    rw [Steps.read] at hfits ⊢
    split at hfits
    · rename_i hmisfit
      simp [Sight.hasMisfit, hfits] at hmisfit
    · rename_i hmisfit
      rw [if_neg hmisfit]
      split at hfits
      · rename_i hbrace
        rw [if_pos hbrace]
        have hrow := inside.read_fitting h s htakes.1 hforms hfits
        have hkind : (inside.read readings s).2.kind = .rBrace := beq_iff_eq.mp hbrace
        have hclose : Fitting forms {[Kind.token .rBrace]}
            ((inside.read readings s).2.next.map .leaf) :=
          (Fitting.token (by rw [hkind]; exact List.mem_singleton_self TokenKind.rBrace)
            (by rw [hkind]; decide)).mono (by
              rintro row ⟨kind, hmem, rfl⟩
              rw [List.mem_singleton.mp hmem]
              rfl)
        exact hrow.append hclose
      · exact absurd hfits (Sight.misfits_refuse _ _)

theorem Body.read_fitting (h : readings.Fit forms) :
    ∀ (body : Body) (s : Sight), body.takesOnly (· != .eof) = true → body.forms ⊆ forms →
      (body.read readings s).2.misfits = [] →
      Fitting forms (body.language (body.read readings s).1.1) (body.read readings s).1.2
  | .close kind, s, _, _, _ => by
    rw [Body.language, Body.read, if_pos rfl]
    exact .nil
  | .seq first rest, s, htakes, hforms, hfits => by
    rw [Body.takesOnly, Bool.and_eq_true] at htakes
    rw [Body.forms, List.append_subset] at hforms
    have hone := (rest.read_leads h.leads _ rest.takesOnly_all).fits hfits
    exact (first.read_fitting h s htakes.1 hforms.1 hone).append
      (rest.read_fitting h _ htakes.2 hforms.2 hfits)
  | .branch question yes no, s, htakes, hforms, hfits => by
    rw [Body.takesOnly, Bool.and_eq_true] at htakes
    rw [Body.forms, List.append_subset] at hforms
    have hs := ((Body.branch question yes no).read_leads h.leads s (Body.takesOnly_all _)).fits hfits
    rw [Body.read] at hfits ⊢
    split at hfits
    · rename_i hyes
      have hrow := yes.read_fitting h s htakes.1 hforms.1 hfits
      rw [if_pos hyes]
      exact ⟨mem_ways hs (fun _ => hrow.row) (fun hno => by rw [hno] at hyes; cases hyes),
        hrow.last, hrow.sound⟩
    · rename_i hno
      have hrow := no.read_fitting h s htakes.2 hforms.2 hfits
      rw [if_neg hno]
      exact ⟨mem_ways hs (fun hyes => absurd hyes hno) (fun _ => hrow.row), hrow.last, hrow.sound⟩

theorem Phrase.read_fits (h : readings.Fit forms) :
    ∀ (phrase : Phrase) (s : Sight), phrase.takesOnly (· != .eof) = true → phrase.forms ⊆ forms →
      (phrase.read readings s).2.misfits = [] →
      (phrase.read readings s).1.Fits forms (fun kind => phrase.makes kind)
  | .refuse expected, s, _, _, hfits => absurd hfits (Sight.misfits_refuse s _)
  | .node body, s, htakes, hforms, hfits => by
    rw [Phrase.forms, List.cons_subset] at hforms
    have hrow := body.read_fitting h s.flush htakes hforms.2 hfits
    exact .node s.leading_trivia (body.closes_of_row hrow.row)
      (.node hforms.1 hrow.row hrow.last hrow.sound)
  | .branch question yes no, s, htakes, hforms, hfits => by
    rw [Phrase.takesOnly, Bool.and_eq_true] at htakes
    rw [Phrase.forms, List.append_subset] at hforms
    have hs := ((Phrase.branch question yes no).read_leads h.leads s
      (Phrase.takesOnly_all _)).fits hfits
    rw [Phrase.read] at hfits ⊢
    split at hfits
    · rename_i hyes
      rw [if_pos hyes]
      exact (yes.read_fits h s htakes.1 hforms.1 hfits).mono fun kind hkind =>
        true_ways hs (fun _ => hkind) (fun hno => by rw [hno] at hyes; cases hyes)
    · rename_i hno
      rw [if_neg hno]
      exact (no.read_fits h s htakes.2 hforms.2 hfits).mono fun kind hkind =>
        true_ways hs (fun hyes => absurd hyes hno) (fun _ => hkind)
  | .call rule, s, _, _, hfits => h.fits rule s hfits
  | .wrap inner suffix, s, htakes, hforms, hfits => by
    rw [Phrase.takesOnly, Bool.and_eq_true] at htakes
    rw [Phrase.forms, List.append_subset] at hforms
    have hinner := inner.read_fits h s htakes.1 hforms.1
    rw [Phrase.read] at hfits ⊢
    split at hfits
    · rename_i behind heq
      rw [heq] at hinner
      cases hinner hfits
    · rename_i blanks tree behind heq
      rw [heq] at hinner
      dsimp only at hfits hinner ⊢
      have hfound :=
        hinner ((suffix.read_leads h.leads tree behind suffix.takesOnly_all).fits hfits)
      cases hfound with
      | @node _ kind children htrivia hmade hsound =>
        cases hlast : (suffix.read readings (.node kind children) behind).1 with
        | none =>
          exact .node htrivia (by rw [Phrase.makes, inner.canFit_of_makes hmade, hmade]; rfl) hsound
        | some outer =>
          obtain ⟨outerKind, rest, rfl, hmakes, houter⟩ := suffix.read_fits h _ kind children behind
            htakes.2 hforms.2 (List.mem_filter.mpr ⟨NodeKind.mem_all kind, hmade⟩) hsound hfits
            outer hlast
          exact .node htrivia
            (by rw [Phrase.makes, inner.canFit_of_makes hmade, hmakes, Bool.or_true]; rfl) houter
  | .extend inner suffix, s, htakes, hforms, hfits => by
    rw [Phrase.takesOnly, Bool.and_eq_true] at htakes
    rw [Phrase.forms, List.append_subset] at hforms
    have hinner := inner.read_fits h s htakes.1 hforms.1
    rw [Phrase.read] at hfits ⊢
    split at hfits
    · rename_i behind heq
      rw [heq] at hinner
      cases hinner hfits
    · rename_i blanks tree behind heq
      rw [heq] at hinner
      dsimp only at hfits hinner ⊢
      have hleads : ∀ inner s, Sight.Leads (fun _ => true) s (suffix.read readings inner s).2 :=
        fun inner s => suffix.read_leads h.leads inner s suffix.takesOnly_all
      have hfound := hinner ((Sight.Leads.wrapWhile hleads tree behind).fits hfits)
      cases hfound with
      | @node _ kind children htrivia hmade hsound =>
        obtain ⟨outer, rest, houter, hmakes, houterSound⟩ := wrapWhile_sound
          (fun kind => inner.makes kind || suffix.makes kind) hleads (fun kind children s hmakes hsound
            hfits tree htree => by
            obtain ⟨outer, rest, houter, hmakes', hsound'⟩ := suffix.read_fits h _ kind children s
              htakes.2 hforms.2 (List.mem_filter.mpr ⟨NodeKind.mem_all kind, hmakes⟩) hsound hfits
              tree htree
            exact ⟨outer, rest, houter, by rw [hmakes', Bool.or_true], hsound'⟩)
          kind children behind (by rw [hmade]; rfl) hsound hfits
        rw [houter]
        exact .node htrivia (by rw [Phrase.makes, inner.canFit_of_makes hmade]; exact hmakes)
          (by rw [← houter]; exact houterSound)

theorem Suffix.read_fits (h : readings.Fit forms) :
    ∀ (suffix : Suffix) (inner : List NodeKind) (kind : NodeKind) (children : List Tree) (s : Sight),
      suffix.takesOnly (· != .eof) = true → suffix.forms inner ⊆ forms → kind ∈ inner →
      Tree.Sound forms (.node kind children) →
      (suffix.read readings (.node kind children) s).2.misfits = [] →
      ∀ tree, (suffix.read readings (.node kind children) s).1 = some tree →
        ∃ outer rest, tree = .node outer rest ∧ suffix.makes outer = true ∧ Tree.Sound forms tree
  | .stop, _, _, _, s, _, _, _, _, _ => by
    intro tree htree
    cases htree
  | .around body, inner, kind, children, s, htakes, hforms, hkind, hsound, hfits => by
    rw [Suffix.forms, List.cons_subset] at hforms
    have hrow := body.read_fitting h s htakes hforms.2 hfits
    intro tree htree
    cases htree
    refine ⟨_, _, rfl, body.closes_of_row hrow.row, .node hforms.1 ⟨kind, hkind, _, hrow.row, rfl⟩ ?_ ?_⟩
    · intro last hlast
      cases hrest : (body.read readings s).1.2 with
      | nil =>
        rw [hrest] at hlast
        cases hlast
        rfl
      | cons first rest =>
        rw [hrest, List.getLast?_cons_cons] at hlast
        exact hrow.last last (by rw [hrest]; exact hlast)
    · intro child hchild
      rcases List.mem_cons.mp hchild with rfl | hchild
      · exact hsound
      · exact hrow.sound child hchild
  | .branch question yes no, inner, kind, children, s, htakes, hforms, hkind, hsound, hfits => by
    rw [Suffix.takesOnly, Bool.and_eq_true] at htakes
    rw [Suffix.forms, List.append_subset] at hforms
    have hs := ((Suffix.branch question yes no).read_leads h.leads (.node kind children) s
      (Suffix.takesOnly_all _)).fits hfits
    rw [Suffix.read] at hfits ⊢
    split at hfits
    · rename_i hyes
      rw [if_pos hyes]
      intro tree htree
      obtain ⟨outer, rest, rfl, hmakes, htreeSound⟩ :=
        yes.read_fits h inner kind children s htakes.1 hforms.1 hkind hsound hfits tree htree
      exact ⟨outer, rest, rfl, true_ways hs (fun _ => hmakes)
        (fun hno => by rw [hno] at hyes; cases hyes), htreeSound⟩
    · rename_i hno
      rw [if_neg hno]
      intro tree htree
      obtain ⟨outer, rest, rfl, hmakes, htreeSound⟩ :=
        no.read_fits h inner kind children s htakes.2 hforms.2 hkind hsound hfits tree htree
      exact ⟨outer, rest, rfl, true_ways hs (fun hyes => absurd hyes hno) (fun _ => hmakes),
        htreeSound⟩

end

end

end RouteTypes
