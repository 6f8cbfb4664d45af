-- The forms of the nodes of a program. If the program has no misfit, then every node of its tree holds a
-- row of children that the grammar gives, whatever the text.
import RouteTypes.Proofs.Grammar.Shape
import RouteTypes.Proofs.Grammar.Whole

namespace RouteTypes

open RouteTypes.Tree

/-! ## The rules -/

namespace Grammar

/-- The statements of a program without misfits. -/
def statementList : Body := .ofSteps .stmtList [.loop (.inside []) (.call .statement)]

/-- The forms of the nodes of a program without misfits. -/
def forms : List NodeForm :=
  ⟨none, program⟩ :: ⟨none, statementList⟩ ::
    ([.statement, .expression, .operand 0, .primary, .type] : List Rule).flatMap
      fun rule => (phraseOf rule).forms

theorem phraseOf_forms (rule : Rule) : (phraseOf rule).forms ⊆ forms := by
  have hmem : ∀ rule ∈ ([.statement, .expression, .operand 0, .primary, .type] : List Rule),
      (phraseOf rule).forms ⊆ forms := fun rule hrule form hform =>
    List.mem_cons_of_mem _ (List.mem_cons_of_mem _ (List.mem_flatMap.mpr ⟨rule, hrule, hform⟩))
  cases rule with
  | operand least => exact hmem (.operand 0) (by decide)
  | statement | expression | primary | type => exact hmem _ (by decide)

/-- A phrase reads a node of a kind that its rule allows. -/
theorem phraseOf_makes (rule : Rule) (kind : NodeKind) (h : (phraseOf rule).makes kind = true) :
    rule.makes kind = true := by
  have hall : NodeKind.all.all (fun kind => !(phraseOf rule).makes kind || rule.makes kind) = true := by
    cases rule <;> rfl
  have hkind := List.all_eq_true.mp hall kind (NodeKind.mem_all kind)
  rw [h] at hkind
  exact hkind

/-- Phrases that read what those of the grammar do, with nodes of known forms. The same text can be read by
phrases with less to choose from, which tell more about the nodes. -/
structure Reads (phrases : Rule → Phrase) (known : List NodeForm) : Prop where
  read : ∀ rule readings s, (phraseOf rule).read readings s = (phrases rule).read readings s
  takes : ∀ rule, (phrases rule).takesOnly (· != .eof) = true
  forms : ∀ rule, (phrases rule).forms ⊆ known
  makes : ∀ rule kind, (phrases rule).makes kind = true → rule.makes kind = true
  program : ⟨none, program⟩ ∈ known
  statementList : ⟨none, statementList⟩ ∈ known

theorem Reads.phraseOf : Reads Grammar.phraseOf Grammar.forms where
  read _ _ _ := rfl
  takes := phraseOf_takesOnly
  forms := phraseOf_forms
  makes := phraseOf_makes
  program := List.mem_cons_self
  statementList := List.mem_cons_of_mem _ List.mem_cons_self

theorem Reads.fit {phrases : Rule → Phrase} {known : List NodeForm} (h : Reads phrases known)
    (depth : Nat) : (readingsUpTo depth).Fit known where
  leads := readingsUpTo_leads (fun rule => (Grammar.phraseOf rule).takesOnly_all) depth
  fits := by
    induction depth with
    | zero => exact fun rule s hfits => absurd hfits (Sight.misfits_refuse s _)
    | succ depth ih =>
      intro rule s hfits
      have hfit : (readingsUpTo depth).Fit known :=
        ⟨readingsUpTo_leads (fun rule => (Grammar.phraseOf rule).takesOnly_all) depth, ih⟩
      have hread : readingsUpTo (depth + 1) rule s = (phrases rule).read (readingsUpTo depth) s :=
        h.read rule _ s
      rw [hread] at hfits ⊢
      exact ((phrases rule).read_fits hfit s (h.takes rule) (h.forms rule) hfits).mono (h.makes rule)

theorem readingsUpTo_fit (depth : Nat) : (readingsUpTo depth).Fit forms := Reads.phraseOf.fit depth

/-! ## Programs -/

/-- The statements one behind the other. -/
def statementRow : Steps := .loop (.inside []) (.call .statement)

/-- Without a misfit the statements of a program reach the end of its text. -/
theorem statements_read (depth : Nat) (s : Sight)
    (hfits : (statements.read (readingsUpTo depth) s).2.misfits = []) :
    statements.read (readingsUpTo depth) s =
      (s.leading.map .leaf ++ [.node .stmtList (statementRow.read (readingsUpTo depth) s.flush).1],
        (statementRow.read (readingsUpTo depth) s.flush).2) := by
  have hfit := readingsUpTo_fit depth
  let row := statementRow.read (readingsUpTo depth) s.flush
  have hunread : (unread.read (readingsUpTo depth) row.2).2.misfits = [] := hfits
  have hrow : row.2.misfits = [] := (unread.read_leads hfit.leads row.2 unread.takesOnly_all).fits hunread
  have hends : Question.ask (.inside []) row.2 = false :=
    Sight.collectWhile_ends (readingsUpTo_goesOn depth .statement) s.flush hrow
  have hnothing : unread.read (readingsUpTo depth) row.2 = ([], row.2) := by
    have hasked : Question.ask (.not (.next [.eof])) row.2 = false := by
      simpa [Question.inside, Question.ask, Sight.hasMisfit, hrow] using hends
    rw [unread, Steps.given, Steps.read, hasked]
    rfl
  have hread : statements.read (readingsUpTo depth) s =
      (s.leading.map .leaf ++ [.node .stmtList (row.1 ++ ((unread.read (readingsUpTo depth) row.2).1 ++ []) ++ [])],
        (unread.read (readingsUpTo depth) row.2).2) := rfl
  rw [hread, hnothing, List.append_nil, List.append_nil, List.append_nil]

theorem Reads.statements_fit {phrases : Rule → Phrase} {known : List NodeForm} (h : Reads phrases known)
    (depth : Nat) (s : Sight) (hfits : (statements.read (readingsUpTo depth) s).2.misfits = []) :
    ∃ children, (statements.read (readingsUpTo depth) s).1 =
        s.leading.map .leaf ++ [.node .stmtList children] ∧
      Tree.Sound known (.node .stmtList children) := by
  have hread := statements_read depth s hfits
  rw [hread] at hfits ⊢
  have hrow : Fitting known (Grammar.statementList.language .stmtList)
      (((statementRow.read (readingsUpTo depth) s.flush).1 ++ []) ++ []) :=
    Grammar.statementList.read_fitting (h.fit depth) s.flush rfl
      (by rintro form hform; exact absurd hform List.not_mem_nil) hfits
  rw [List.append_nil, List.append_nil] at hrow
  exact ⟨_, rfl, .node h.statementList hrow.row hrow.last hrow.sound⟩

theorem Reads.statementsOf_fit {phrases : Rule → Phrase} {known : List NodeForm} (h : Reads phrases known)
    {tokens : List Token} (hfits : (parts tokens).2.misfits = []) :
    ∃ (blanks : List Token) (children : List Tree),
      (statementsOf tokens).1 = blanks.map .leaf ++ [.node .stmtList children] ∧
      Tree.Sound known (.node .stmtList children) := by
  rw [parts_eq] at hfits
  have hleads : Sight.Leads (fun _ => true) (statementsOf tokens).2
      ((statementsOf tokens).2.take [.eof]).2 := .take rfl
  obtain ⟨children, htrees, hsound⟩ := h.statements_fit _ _ (hleads.fits hfits)
  exact ⟨_, children, htrees, hsound⟩

theorem stmtList_row : [.node .stmtList, .token .eof] ∈ program.language .sourceFile := by
  have hstatements : [Kind.node .stmtList] ∈ statements.language := ⟨_, rfl, rfl⟩
  have heof : [Kind.token .eof] ∈ (Steps.expect .eof).language := ⟨_, List.mem_singleton_self _, rfl⟩
  exact Language.append_mem_mul (Language.append_mem_mul hstatements
    (Language.append_mem_mul heof Language.nil_mem_one)) (by rw [Body.language, if_pos rfl]; exact Language.nil_mem_one)

end Grammar

theorem take_leaf (s : Sight) (kinds : List TokenKind) :
    ∀ tree ∈ (s.take kinds).1, ∃ token, tree = .leaf token := by
  intro tree htree
  rw [Sight.take] at htree
  split at htree
  · obtain ⟨token, -, rfl⟩ := List.mem_map.mp htree
    exact ⟨token, rfl⟩
  · cases htree

/-- In a program without misfits every node is of a form that phrases give which read the same. -/
theorem Grammar.Reads.program_sound {phrases : Rule → Phrase} {known : List NodeForm}
    (hreads : Reads phrases known) {source : String} (h : (Program.ofSource source).isOk = true) :
    (Program.ofSource source).tree.Sound known := by
  obtain ⟨before, htokens, hbefore⟩ := Token.ofSource_ends source
  obtain ⟨blanks, children, more, hparts, htrivia, -⟩ :=
    Grammar.parts_of_program htokens rfl hbefore
  rw [Program.ofSource_eq] at h ⊢
  have hfits : (Grammar.parts (Token.ofSource source)).2.misfits = [] := List.isEmpty_iff.mp h
  obtain ⟨blanks', children', htrees, hsound⟩ := hreads.statementsOf_fit hfits
  refine .node hreads.program ?_ ?_ ?_
  · have hrow : significantKinds (Grammar.parts (Token.ofSource source)).1 = [.node .stmtList] ++ [.token .eof] := by
      rw [hparts, significantKinds_append,
        significantKinds_leaves fun blank hblank => htrivia blank (List.mem_append_left _ hblank),
        ← List.singleton_append, significantKinds_append, significantKinds_append,
        significantKinds_leaves fun blank hblank => htrivia blank (List.mem_append_right _ hblank)]
      rfl
    rw [hrow]
    exact Grammar.stmtList_row
  · intro tree htree
    rw [hparts, ← List.cons_append, ← List.append_assoc, List.getLast?_concat] at htree
    cases htree
    rfl
  · intro child hchild
    rw [Grammar.parts_eq, htrees] at hchild
    rcases List.mem_append.mp hchild with hchild | hchild
    · rcases List.mem_append.mp hchild with hchild | hchild
      · obtain ⟨token, -, rfl⟩ := List.mem_map.mp hchild
        exact .leaf token
      · rw [List.mem_singleton.mp hchild]
        exact hsound
    · obtain ⟨token, rfl⟩ := take_leaf _ _ _ hchild
      exact .leaf token

/-- In a program without misfits every node holds a row of children that the grammar gives. -/
theorem program_sound {source : String} (h : (Program.ofSource source).isOk = true) :
    (Program.ofSource source).tree.Sound Grammar.forms :=
  Grammar.Reads.phraseOf.program_sound h

end RouteTypes
