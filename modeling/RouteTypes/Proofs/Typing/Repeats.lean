-- How often problems are listed. The type of a node is worked out once and noted when that is done, so a problem about
-- it is listed once, unless the type is asked for again while it is being worked out.
import RouteTypes.Proofs.Typing.Heads
import RouteTypes.Proofs.Typing.Programs
import RouteTypes.Proofs.Typing.Reported

namespace RouteTypes

/-! ## Asking once -/

/-- The question is one for the type of the node. -/
def Query.isFor (id : NodeId) : Query → Bool
  | .written node | .expression node => node.id == id
  | _ => false

/-- Answers questions like `Check.answer`, but none for the type of the node while that is being worked out. -/
def Check.answerOnce (id : NodeId) : Bool → Nat → Ask
  | _, 0, _ => tooDeep
  | opened, depth + 1, query =>
    if opened && query.isFor id then tooDeep
    else answerWith (answerOnce id (opened || query.isFor id) depth) query

/-- What is known of a program in the end, if the type of the node is never asked for while it is being worked out. -/
def Checked.upToOnce (id : NodeId) (depth : Nat) (prelude root : Node) : Option Checked :=
  (((Check.program (Check.answerOnce id false depth) root).run .empty).run (Facts.bound prelude root)).map
    fun (_, facts) => ⟨facts⟩

namespace Facts

/-- The answer is noted. -/
def IsNoted (s : Facts) : Query → Prop
  | .written node => (s.writtenTypes.get? node.id).isSome = true
  | .expression node => (s.expressionTypes.get? node.id).isSome = true
  | .valueOf symbol => (s.symbolTypes.get? symbol).isSome = true
  | _ => False

/-- How many problems with that code are listed at that place. -/
def countAt (s : Facts) (place : String × Text.Span) : Nat :=
  (s.problems.map fun problem => (problem.what.code, problem.span)).count place

variable {known : Node → Prop} {s s' : Facts} {query : Query} {place : String × Text.Span}

theorem Gains.isNoted (h : Gains known s s') (hnoted : s.IsNoted query) : s'.IsNoted query := by
  cases query with
  | written node =>
    rw [IsNoted, h.writtenTypes]
    exact hnoted
  | expression node => exact h.expressionTypes _ hnoted
  | valueOf symbol => exact h.symbolTypes _ hnoted
  | _ => exact hnoted

theorem isNoted_insert (node : Node) (type : TypeId) (hnoted : s.IsNoted query) :
    { s with writtenTypes := s.writtenTypes.insert node.id type }.IsNoted query := by
  cases query with
  | written other => exact Table.Covers.insert node.id type _ hnoted
  | _ => exact hnoted

theorem isNoted_report (node : Node) (span : Text.Span) (problem : Problem TypeId) (hnoted : s.IsNoted query) :
    (s.report node span problem).IsNoted query := by
  obtain ⟨problems, hreport⟩ := problems_report node span problem s
  rw [hreport]
  cases query <;> exact hnoted

theorem Gains.countAt (h : Gains known s s') : s'.countAt place = s.countAt place := by
  rw [Facts.countAt, h.problems, Facts.countAt]

end Facts

namespace Check

variable {known : Node → Prop} {bound : Facts} {place : String × Text.Span} {topic : Query}

/-! ## Counting -/

/-- Checks in which problems at a place are counted. -/
def counting (known : Node → Prop) (bound : Facts) (place : String × Text.Span) (topic : Query) : Setting where
  known := known
  writes _ := True
  holds := Facts.Since known bound
  step n s s' := (s.IsNoted topic → s'.IsNoted topic) ∧ s'.countAt place ≤ s.countAt place + n
  cost node span code := if node.source = .program ∧ (code, span) = place then 1 else 0

/-- Checks in which nothing is paid for but for the topic, once, and then it is noted. -/
def once (known : Node → Prop) (bound : Facts) (place : String × Text.Span) (topic : Query) : Setting :=
  { counting known bound place topic with
    step := fun n s s' => (s.IsNoted topic → s'.IsNoted topic) ∧ (n = 0 → s'.countAt place ≤ s.countAt place ∨
      ¬ s.IsNoted topic ∧ s'.IsNoted topic ∧ s'.countAt place ≤ s.countAt place + 1) }

theorem countAt_report (node : Node) (span : Text.Span) (problem : Problem TypeId) (s : Facts) :
    (s.report node span problem).countAt place ≤
      s.countAt place + (counting known bound place topic).cost node span problem.code := by
  unfold Facts.report counting
  dsimp only
  cases node.source with
  | prelude => exact Nat.le_add_right _ _
  | program =>
    simp only [Facts.countAt, List.map_cons, List.count_cons, beq_iff_eq, true_and]
    exact Nat.le_refl _

theorem counting_fits (hnodes : Node.Closed known) : (counting known bound place topic).Fits where
  nodes := hnodes
  refl _ := ⟨id, Nat.le_refl _⟩
  trans h h' := ⟨h'.1 ∘ h.1, by have := h.2; have := h'.2; omega⟩
  mono hle h := ⟨h.1, Nat.le_trans h.2 (Nat.add_le_add_left hle _)⟩
  declared hs := hs.declared
  signed hs := hs.signed
  gains hs hgains := ⟨hs.gains hgains, hgains.isNoted, Nat.le_of_eq hgains.countAt⟩
  writing {s node} hs _ _ type := ⟨hs.same rfl rfl rfl rfl, Facts.isNoted_insert node type, Nat.le_refl _⟩
  report hs node span problem :=
    ⟨hs.report node span problem, Facts.isNoted_report node span problem, countAt_report node span problem _⟩

theorem once_fits (hnodes : Node.Closed known) : (once known bound place topic).Fits where
  nodes := hnodes
  refl _ := ⟨id, fun _ => .inl (Nat.le_refl _)⟩
  trans {m n s s' s''} h h' := by
    refine ⟨h'.1 ∘ h.1, fun hsum => ?_⟩
    obtain ⟨rfl, rfl⟩ := Nat.add_eq_zero_iff.mp hsum
    -- What is noted in the first part is not paid for again in the second one.
    rcases h.2 rfl with hless | ⟨hnot, hnoted, hless⟩
    · rcases h'.2 rfl with hless' | ⟨hnot', hnoted', hless'⟩
      · exact .inl (Nat.le_trans hless' hless)
      · exact .inr ⟨mt h.1 hnot', hnoted', Nat.le_trans hless' (Nat.add_le_add_right hless 1)⟩
    · rcases h'.2 rfl with hless' | ⟨hnot', -, -⟩
      · exact .inr ⟨hnot, h'.1 hnoted, Nat.le_trans hless' hless⟩
      · exact absurd hnoted hnot'
  mono hle h := ⟨h.1, fun hzero => h.2 (Nat.le_zero.mp (hzero ▸ hle))⟩
  declared hs := hs.declared
  signed hs := hs.signed
  gains hs hgains := ⟨hs.gains hgains, hgains.isNoted, fun _ => .inl (Nat.le_of_eq hgains.countAt)⟩
  writing {s node} hs _ _ type :=
    ⟨hs.same rfl rfl rfl rfl, Facts.isNoted_insert node type, fun _ => .inl (Nat.le_refl _)⟩
  report {s} hs node span problem := by
    refine ⟨hs.report node span problem, Facts.isNoted_report node span problem, fun hfree => .inl ?_⟩
    have hcount : (s.report node span problem).countAt place ≤ s.countAt place +
        (counting known bound place topic).cost node span problem.code := countAt_report node span problem s
    have hfree : (counting known bound place topic).cost node span problem.code = 0 := hfree
    rwa [hfree] at hcount

/-- What costs nothing where everything is counted is a step where only the topic is paid for. -/
theorem once_of_counting {s s' : Facts} (h : (counting known bound place topic).step 0 s s') :
    (once known bound place topic).step 0 s s' := ⟨h.1, fun _ => .inl h.2⟩

/-! ## Notes -/

section

variable {ask : Ask} {pending : Pending} {s s' : Facts} {a : TypeId}

theorem run_get {α : Type} (next : Facts → Check α) (pending : Pending) (s : Facts) :
    (get >>= next) pending s = next s pending s := rfl

/-- What is noted comes from a note before, or it is noted now. -/
def NotedBy (query : Query) (s s' : Facts) : Prop := s' = s ∨ ¬ s.IsNoted query ∧ s'.IsNoted query

theorem written_noted {node : Node} (h : written ask node pending s = some (a, s')) : NotedBy (.written node) s s' := by
  rw [written, run_get] at h
  cases hnoted : s.writtenTypes.get? node.id with
  | some known =>
    rw [hnoted] at h
    cases h
    exact .inl rfl
  | none =>
    rw [hnoted] at h
    obtain ⟨⟨type, s₁⟩, -, hrest⟩ := Option.bind_eq_some_iff.mp h
    cases hrest
    refine .inr ⟨?_, ?_⟩
    · rw [Facts.IsNoted, hnoted]
      exact Bool.false_ne_true
    · exact congrArg Option.isSome (Table.get?_insert_self node.id _ s₁.writtenTypes)

theorem expression_noted {node : Node} (h : expression ask node pending s = some (a, s')) :
    NotedBy (.expression node) s s' := by
  rw [expression, run_get] at h
  cases hnoted : s.expressionTypes.get? node.id with
  | some known =>
    rw [hnoted] at h
    cases h
    exact .inl rfl
  | none =>
    rw [hnoted] at h
    obtain ⟨⟨type, s₁⟩, -, hrest⟩ := Option.bind_eq_some_iff.mp h
    cases hrest
    refine .inr ⟨?_, ?_⟩
    · rw [Facts.IsNoted, hnoted]
      exact Bool.false_ne_true
    · exact congrArg Option.isSome (Table.get?_keepFirst_self node.id _ s₁.expressionTypes)

/-- The type of a value is not worked out while that is being done. -/
theorem valueOf_inside {id : SymbolId} (hopened : id ∈ pending.values)
    (h : valueOf ask id pending s = some (a, s')) : s' = s := by
  rw [valueOf, run_get] at h
  cases hnoted : s.symbolTypes.get? id with
  | some known =>
    rw [hnoted] at h
    cases h
    rfl
  | none =>
    rw [hnoted] at h
    have hguard : pending.values.contains id = true := List.contains_iff_mem.mpr hopened
    change (if pending.values.contains id = true then _ else _ : Check TypeId) pending s = _ at h
    rw [if_pos hguard] at h
    cases h
    rfl

theorem valueOf_noted {id : SymbolId} (h : valueOf ask id pending s = some (a, s')) :
    s' = s ∨ ∃ type s₁, valueType ask id { pending with values := id :: pending.values } s = some (type, s₁) ∧
      s' = { s₁ with symbolTypes := (s₁.symbolTypes.keepFirst id type).2 } ∧ ¬ s.IsNoted (.valueOf id) := by
  rw [valueOf, run_get] at h
  cases hnoted : s.symbolTypes.get? id with
  | some known =>
    rw [hnoted] at h
    cases h
    exact .inl rfl
  | none =>
    rw [hnoted] at h
    change (if pending.values.contains id = true then _ else _ : Check TypeId) pending s = _ at h
    split at h
    · cases h
      exact .inl rfl
    · obtain ⟨⟨type, s₁⟩, hfirst, hrest⟩ := Option.bind_eq_some_iff.mp h
      cases hrest
      refine .inr ⟨type, s₁, hfirst, rfl, ?_⟩
      rw [Facts.IsNoted, hnoted]
      exact Bool.false_ne_true

end

/-! ## What costs nothing -/

/-- Nothing but the topic is paid for. -/
def OnlyTopic (known : Node → Prop) (bound : Facts) (place : String × Text.Span) (topic : Query) : Prop :=
  ∀ query, (counting known bound place topic).Asks query → query ≠ topic →
    (counting known bound place topic).AnswerCost 0 query

theorem counting_cost_le (node : Node) (span : Text.Span) (code : String) :
    (counting known bound place topic).cost node span code ≤ 1 := by
  unfold counting
  dsimp only
  split
  · exact Nat.le_refl 1
  · exact Nat.zero_le 1

/-- Each answer has one report. -/
theorem answerCost_one (query : Query) : (counting known bound place topic).AnswerCost 1 query := by
  have hcost : ∀ node span code, (counting known bound place topic).cost node span code ≤ 1 := counting_cost_le
  cases query with
  | written node => exact ⟨trivial, fun _ => hcost _ _ _, fun _ => hcost _ _ _⟩
  | expression node =>
    exact ⟨fun _ => hcost _ _ _, fun _ _ _ => hcost _ _ _, fun _ => hcost _ _ _, fun _ => hcost _ _ _⟩
  | valueOf symbol => exact fun _ _ _ _ _ _ _ => hcost _ _ _
  | _ => trivial

/-- It costs the same where only the topic is paid for. -/
theorem once_answerCost {n : Nat} {query : Query} (h : (counting known bound place topic).AnswerCost n query) :
    (once known bound place topic).AnswerCost n query := by
  cases query with
  | written node => exact ⟨h.1, h.2.missing, h.2.count⟩
  | expression node => exact ⟨h.name, h.member, h.called, h.made⟩
  | valueOf symbol => exact h
  | _ => trivial

/-! ## Nodes -/

section

variable {id : NodeId} (hnodes : Node.Closed known) (honly : OnlyTopic known bound place topic)
  (hfor : topic.isFor id = true)

include hnodes honly hfor

/-- While the type of the node is being worked out, it is not asked for, so nothing is paid. -/
theorem answerOnce_inside (depth : Nat) :
    Agrees (counting known bound place topic) (fun _ => True) (answerOnce id true depth) (answer depth) := by
  induction depth with
  | zero =>
    intro query _ pending s a s' _ _ hrun
    cases hrun
  | succ depth ih =>
    intro query hquery pending s a s' _ hs hrun
    rw [answerOnce, Bool.true_and, Bool.true_or] at hrun
    split at hrun
    · cases hrun
    · rename_i hother
      have hne : query ≠ topic := fun hsame => hother (hsame ▸ hfor)
      exact (answerWith_built (counting_fits hnodes) hquery (honly query hquery hne)).runs (counting_fits hnodes)
        (fun _ _ => trivial) ih trivial hs hrun

theorem answerOnce_outside (htopic : ∀ {ask pending s a s'}, answerWith ask topic pending s = some (a, s') →
    NotedBy topic s s') (depth : Nat) :
    Agrees (once known bound place topic) (fun _ => True) (answerOnce id false depth) (answer depth) := by
  have hA : (counting known bound place topic).Fits := counting_fits hnodes
  induction depth with
  | zero =>
    intro query _ pending s a s' _ _ hrun
    cases hrun
  | succ depth ih =>
    intro query hquery pending s a s' _ hs hrun
    rw [answerOnce, Bool.false_and, if_neg Bool.false_ne_true, Bool.false_or] at hrun
    have hinside := answerOnce_inside hnodes honly hfor depth
    by_cases hquestion : query = topic
    · subst hquestion
      rw [hfor] at hrun
      obtain ⟨hrun', hs', hmono, hcount⟩ := (answerWith_built hA hquery (answerCost_one query)).runs hA
        (fun _ _ => trivial) hinside trivial hs hrun
      refine ⟨hrun', hs', hmono, fun _ => ?_⟩
      rcases htopic hrun with rfl | ⟨hnot, hnoted⟩
      · exact .inl (Nat.le_refl _)
      · exact .inr ⟨hnot, hnoted, hcount⟩
    · have hfree := honly query hquery hquestion
      cases hopens : query.isFor id with
      | true =>
        rw [hopens] at hrun
        obtain ⟨hrun', hs', hstep⟩ := (answerWith_built hA hquery hfree).runs hA (fun _ _ => trivial) hinside trivial
          hs hrun
        exact ⟨hrun', hs', once_of_counting hstep⟩
      | false =>
        rw [hopens] at hrun
        have hA' : (once known bound place topic).Fits := once_fits hnodes
        exact (answerWith_built hA' hquery (once_answerCost hfree)).runs hA' (fun _ _ => trivial) ih
          trivial hs hrun

end

/-! ## Values -/

section

variable {id : SymbolId} (hnodes : Node.Closed known) (honly : OnlyTopic known bound place (.valueOf id))

include hnodes honly

/-- While the type of the value is being worked out, nothing is paid. -/
theorem answer_inside (depth : Nat) : Agrees (counting known bound place (.valueOf id))
    (fun pending => id ∈ pending.values) (answer depth) (answer depth) := by
  induction depth with
  | zero =>
    intro query _ pending s a s' _ _ hrun
    cases hrun
  | succ depth ih =>
    intro query hquery pending s a s' hopened hs hrun
    refine ⟨hrun, ?_⟩
    by_cases hquestion : query = .valueOf id
    · subst hquestion
      rw [valueOf_inside hopened hrun]
      exact ⟨hs, (counting_fits hnodes).refl _⟩
    · exact ((answerWith_built (counting_fits hnodes) hquery (honly query hquery hquestion)).runs (counting_fits hnodes)
        (fun hsub hopened => hsub hopened) ih hopened hs hrun).2

theorem answer_outside (depth : Nat) :
    Agrees (once known bound place (.valueOf id)) (fun _ => True) (answer depth) (answer depth) := by
  have hA : (counting known bound place (.valueOf id)).Fits := counting_fits hnodes
  have hA' : (once known bound place (.valueOf id)).Fits := once_fits hnodes
  induction depth with
  | zero =>
    intro query _ pending s a s' _ _ hrun
    cases hrun
  | succ depth ih =>
    intro query hquery pending s a s' _ hs hrun
    refine ⟨hrun, ?_⟩
    by_cases hquestion : query = .valueOf id
    · subst hquestion
      rcases valueOf_noted hrun with rfl | ⟨type, s₁, hfirst, rfl, hnot⟩
      · exact ⟨hs, hA'.refl _⟩
      · obtain ⟨-, hs₁, hmono, hcount⟩ := (valueType_built hA id (answerCost_one (.valueOf id))).runs hA
          (fun hsub hopened => hsub hopened) (answer_inside hnodes honly depth) List.mem_cons_self hs hfirst
        obtain ⟨hs', hmono', hcount'⟩ := hA.gains hs₁ (Facts.keepValue_gains id type s₁)
        refine ⟨hs', hmono' ∘ hmono, fun _ => .inr ⟨hnot, ?_, Nat.le_trans hcount' hcount⟩⟩
        exact congrArg Option.isSome (Table.get?_keepFirst_self id type s₁.symbolTypes)
    · exact ((answerWith_built hA' hquery (once_answerCost (honly query hquery hquestion))).runs hA'
        (fun _ _ => trivial) ih trivial hs hrun).2

end

/-! ## Who is paid -/

/-- A problem of the node may be reported at that place. -/
def ReportsAt (place : String × Text.Span) (node : Node) : Prop :=
  node.source = .program ∧ node.reportSpan? place.1 = some place.2

section

variable {node : Node}

theorem cost_eq_zero {span : Text.Span} {code : String} (hreport : node.reportSpan? code = some span)
    (h : ¬ ReportsAt place node) : (counting known bound place topic).cost node span code ≤ 0 := by
  unfold counting
  dsimp only
  split
  · rename_i hpaid
    obtain ⟨hsource, rfl⟩ := hpaid
    exact absurd ⟨hsource, hreport⟩ h
  · exact Nat.le_refl 0

theorem writtenCost_zero (h : node.kind = .typeRef → ¬ ReportsAt place node) :
    (counting known bound place topic).WrittenCost node 0 where
  missing hkind := cost_eq_zero (if_pos hkind) (h hkind)
  count hkind := cost_eq_zero (if_pos hkind) (h hkind)

theorem expressionCost_zero (h : node.kind ≠ .typeRef → node.kind ≠ .bindingElement → ¬ ReportsAt place node) :
    (counting known bound place topic).ExpressionCost node 0 where
  name hkind := cost_eq_zero (if_pos hkind) (h (by rw [hkind]; decide) (by rw [hkind]; decide))
  member hkind token htoken := by
    refine cost_eq_zero ?_ (h (by rw [hkind]; decide) (by rw [hkind]; decide))
    exact (if_pos hkind).trans (congrArg (Option.map (·.span)) htoken)
  called hkind := cost_eq_zero (if_pos hkind) (h (by rw [hkind]; decide) (by rw [hkind]; decide))
  made hkind := cost_eq_zero (if_pos hkind) (h (by rw [hkind]; decide) (by rw [hkind]; decide))

/-- What is a variable all along was so when checking began. -/
theorem valueCost_zero {symbol : SymbolId} (h : ∀ node, known node → node ∈ (bound.symbol symbol).declarations.head? →
    node.kind = .bindingElement → ¬ ReportsAt place node) : (counting known bound place topic).ValueCost symbol 0 := by
  intro s hs hvariable horigin node hnode hkind
  have hfresh : bound.HasSymbol symbol := by
    by_cases hsymbol : s.HasSymbol symbol
    · exact hs.keeps.fresh hsymbol hvariable horigin
    · rw [Facts.symbol_of_none hsymbol] at hnode
      cases hnode
  have hmethod : (bound.symbol symbol).kind ≠ .method := by
    intro hmethod
    rw [hs.keeps.kind hfresh, hmethod] at hvariable
    cases hvariable
  have hreport : node.reportSpan? "T0003" = some (boundSpan node) :=
    (if_neg (by rw [hkind]; decide)).trans (if_pos hkind)
  refine cost_eq_zero hreport (h node (hs.declared symbol node (List.mem_of_mem_head? hnode)) ?_ hkind)
  rwa [← hs.keeps.head hfresh hmethod]

end

/-- The question that a problem of a node comes up with, unless the node is an element of a pattern. -/
def topicOf (node : Node) : Query := if node.kind = .typeRef then .written node else .expression node

theorem onlyTopic_of_node {owner : Node} (hkind : owner.kind ≠ .bindingElement)
    (hown : ∀ node, known node → ReportsAt place node → node = owner) :
    OnlyTopic known bound place (topicOf owner) := by
  intro query hquery hne
  cases query with
  | written node =>
    refine ⟨trivial, writtenCost_zero fun hnode hreports => hne ?_⟩
    obtain rfl := hown node hquery hreports
    exact (if_pos hnode).symm
  | expression node =>
    refine expressionCost_zero fun hnode _ hreports => hne ?_
    obtain rfl := hown node hquery hreports
    exact (if_neg hnode).symm
  | valueOf symbol =>
    refine valueCost_zero fun node hnode _ hnodeKind hreports => hkind ?_
    rw [← hown node hnode hreports]
    exact hnodeKind
  | _ => trivial

theorem onlyTopic_of_value {id : SymbolId}
    (hvalue : ∀ node, known node → ReportsAt place node → node.kind = .bindingElement ∧
      ∀ symbol, node ∈ (bound.symbol symbol).declarations.head? → symbol = id) :
    OnlyTopic known bound place (.valueOf id) := by
  intro query hquery hne
  cases query with
  | written node =>
    refine ⟨trivial, writtenCost_zero fun hkind hreports => ?_⟩
    rw [(hvalue node hquery hreports).1] at hkind
    cases hkind
  | expression node =>
    exact expressionCost_zero fun _ hkind hreports => hkind (hvalue node hquery hreports).1
  | valueOf symbol =>
    refine valueCost_zero fun node hnode hhead _ hreports => hne ?_
    rw [(hvalue node hnode hreports).2 symbol hhead]
  | _ => trivial

theorem topicOf_isFor (node : Node) : (topicOf node).isFor node.id = true := by
  unfold topicOf
  split <;> exact beq_self_eq_true node.id

theorem topicOf_noted {node : Node} {ask : Ask} {pending : Pending} {s s' : Facts} {a : TypeId}
    (h : answerWith ask (topicOf node) pending s = some (a, s')) : NotedBy (topicOf node) s s' := by
  unfold topicOf at h ⊢
  split at h
  · rw [if_pos ‹_›]
    exact written_noted h
  · rw [if_neg ‹_›]
    exact expression_noted h

end Check

namespace Checked

/-! ## Programs -/

variable {text : String} {prelude : Tree} {depth : Nat} {checked : Checked} {place : String × Text.Span}

theorem mem_of_reportsAt {node : Node}
    (hnode : Visible (Node.ofTree .prelude prelude) (Program.ofSource text).root node)
    (hreports : Check.ReportsAt place node) : node ∈ (Program.ofSource text).root.descendants := by
  rcases hnode with hnode | hnode
  · have hsource := Node.source_of_mem_descendants hnode
    rw [Node.source_ofTree, hreports.1] at hsource
    cases hsource
  · exact hnode

variable (prelude place) in
/-- All that may be reported at a place about elements of patterns is about one variable. -/
theorem exists_value (hread : (Program.ofSource text).isOk = true) : ∃ id : SymbolId,
    ∀ node, Visible (Node.ofTree .prelude prelude) (Program.ofSource text).root node → Check.ReportsAt place node →
      ∀ symbol, node ∈ ((Facts.bound (Node.ofTree .prelude prelude)
        (Program.ofSource text).root).symbol symbol).declarations.head? → symbol = id := by
  by_cases hhead : ∃ node id, Visible (Node.ofTree .prelude prelude) (Program.ofSource text).root node ∧
      Check.ReportsAt place node ∧
        node ∈ ((Facts.bound (Node.ofTree .prelude prelude) (Program.ofSource text).root).symbol id).declarations.head?
  · obtain ⟨node, id, hnode, hreports, hin⟩ := hhead
    refine ⟨id, fun other hother hreports' symbol hsymbol => ?_⟩
    obtain rfl := Program.eq_of_reportSpan? hread (mem_of_reportsAt hother hreports') (mem_of_reportsAt hnode hreports)
      hreports'.2 hreports.2
    have hdistinct : (Program.ofSource text).root.descendants.Pairwise fun a b => a.id ≠ b.id :=
      (Program.apart hread .program).imp Node.Apart.id_ne
    rw [Facts.descendants_eq] at hdistinct
    have hbelow := (List.pairwise_cons.mp hdistinct).2
    exact Facts.bound_head_unique (Node.source_ofTree _ _) hbelow hsymbol hin hreports.1 rfl
  · exact ⟨⟨0⟩, fun node hnode hreports symbol hsymbol => absurd ⟨node, symbol, hnode, hreports, hsymbol⟩ hhead⟩

/-- Where nothing is paid for but one topic, once, there is at most one problem at the place in the end. -/
theorem countAt_of_agrees (topic : Query) {ask : Ask} {facts : Facts} {result : Unit × Facts}
    (hask : Check.Agrees (Check.once (Visible (Node.ofTree .prelude prelude) (Program.ofSource text).root)
      (Facts.bound (Node.ofTree .prelude prelude) (Program.ofSource text).root) place topic) (fun _ => True) ask
        (Check.answer depth))
    (hasked : Check.program ask (Program.ofSource text).root .empty
      (Facts.bound (Node.ofTree .prelude prelude) (Program.ofSource text).root) = some result)
    (hrun : Check.program (Check.answer depth) (Program.ofSource text).root .empty
      (Facts.bound (Node.ofTree .prelude prelude) (Program.ofSource text).root) = some ((), facts)) :
    facts.countAt place ≤ 1 := by
  have hbegins := begins text prelude
  have hA : (Check.once (Visible (Node.ofTree .prelude prelude) (Program.ofSource text).root)
    (Facts.bound (Node.ofTree .prelude prelude) (Program.ofSource text).root) place topic).Fits :=
      Check.once_fits (Program.visible_closed text prelude)
  obtain ⟨hsame, -, -, hcost⟩ := (Check.program_built hA (.inr (Node.self_mem_descendants _))).runs hA
    (fun _ _ => trivial) hask trivial hbegins.closed.since hasked
  cases hrun.symm.trans hsame
  have hzero : (Facts.bound (Node.ofTree .prelude prelude) (Program.ofSource text).root).countAt place = 0 := by
    rw [Facts.countAt, hbegins.problems]
    rfl
  rcases hcost rfl with hle | ⟨-, -, hle⟩ <;> rw [hzero] at hle <;> omega

section

variable (hread : (Program.ofSource text).isOk = true)
  (hchecked : upTo depth (Node.ofTree .prelude prelude) (Program.ofSource text).root = some checked)

include hread hchecked

/-- A problem is listed once at a place, unless the type of the node it is about is asked for while it is being worked
out. -/
theorem countAt_le_one
    (honce : ∀ node ∈ (Program.ofSource text).root.descendants, node.reportSpan? place.1 = some place.2 →
      upToOnce node.id depth (Node.ofTree .prelude prelude) (Program.ofSource text).root ≠ none) :
    checked.facts.countAt place ≤ 1 := by
  have hnodes := Program.visible_closed text prelude
  obtain ⟨⟨_, facts⟩, hrun, rfl⟩ := Option.map_eq_some_iff.mp hchecked
  by_cases hnode : ∃ owner ∈ (Program.ofSource text).root.descendants, owner.reportSpan? place.1 = some place.2 ∧
      owner.kind ≠ .bindingElement
  · obtain ⟨owner, howner, hreport, hkind⟩ := hnode
    obtain ⟨found, hfound⟩ := Option.ne_none_iff_exists'.mp (honce owner howner hreport)
    obtain ⟨result, hasked, -⟩ := Option.map_eq_some_iff.mp hfound
    refine countAt_of_agrees (Check.topicOf owner) (Check.answerOnce_outside hnodes (Check.onlyTopic_of_node hkind ?_)
      (Check.topicOf_isFor owner) Check.topicOf_noted depth) hasked hrun
    intro node hnode hreports
    exact Program.eq_of_reportSpan? hread (mem_of_reportsAt hnode hreports) howner hreports.2 hreport
  · -- The values around are known, so what is taken out of them is worked out once in any case.
    obtain ⟨id, hid⟩ := exists_value prelude place hread
    refine countAt_of_agrees (.valueOf id) (Check.answer_outside hnodes (Check.onlyTopic_of_value ?_) depth) hrun hrun
    intro node hvisible hreports
    refine ⟨?_, hid node hvisible hreports⟩
    by_contra hkind
    exact hnode ⟨node, mem_of_reportsAt hvisible hreports, hreports.2, hkind⟩

/-- If the type of no node is asked for while it is being worked out, no two problems have the same code and the same
place. -/
theorem problems_nodup_of_once
    (honce : ∀ node ∈ (Program.ofSource text).root.descendants,
      upToOnce node.id depth (Node.ofTree .prelude prelude) (Program.ofSource text).root ≠ none) :
    (checked.problems.map fun problem => (problem.what.code, problem.span)).Nodup := by
  have hcode : ∀ problem : Problem TypeId, (problem.map checked.display).code = problem.code := by
    intro problem
    cases problem <;> simp only [Problem.map, Problem.code]
  have hsame : (checked.problems.map fun problem => (problem.what.code, problem.span)) =
      (checked.facts.problems.map fun problem => (problem.what.code, problem.span)).reverse := by
    rw [problems, List.map_map, ← List.map_reverse]
    exact List.map_congr_left fun problem _ => congrArg (·, problem.span) (hcode problem.what)
  rw [hsame, List.nodup_reverse, List.nodup_iff_count_le_one]
  exact fun place => countAt_le_one hread hchecked fun node hnode _ => honce node hnode

end

/-- A constant whose value calls a number with the constant itself. Its value is asked for by its name first. -/
def askedByName : String := "a; const a = 1(a);"

/-- Here the value is asked for where it is written first, and by its name while that is being answered. -/
def askedInside : String := "const a = 1(a);"

/-- No declarations besides those of the program. -/
def noPrelude : Tree := (Program.ofSource "").tree

theorem askedByName_problems_nodup : (Program.ofSource askedByName).isOk = true ∧
    (∀ node ∈ (Program.ofSource askedByName).root.descendants,
      upToOnce node.id 12 (Node.ofTree .prelude noPrelude) (Program.ofSource askedByName).root ≠ none) ∧
    ∃ checked, upTo 12 (Node.ofTree .prelude noPrelude) (Program.ofSource askedByName).root = some checked ∧
      (checked.problems.map fun problem => (problem.what.code, problem.span)).Nodup := by
  have hread : (Program.ofSource askedByName).isOk = true := by decide +kernel
  have hall : ((Program.ofSource askedByName).root.descendants.all fun node =>
      (upToOnce node.id 12 (Node.ofTree .prelude noPrelude) (Program.ofSource askedByName).root).isSome) = true := by
    decide +kernel
  have hsome : (upTo 12 (Node.ofTree .prelude noPrelude) (Program.ofSource askedByName).root).isSome = true := by
    decide +kernel
  have honce : ∀ node ∈ (Program.ofSource askedByName).root.descendants,
      upToOnce node.id 12 (Node.ofTree .prelude noPrelude) (Program.ofSource askedByName).root ≠ none :=
    fun node hnode => Option.isSome_iff_ne_none.mp (List.all_eq_true.mp hall node hnode)
  obtain ⟨checked, hchecked⟩ := Option.isSome_iff_exists.mp hsome
  exact ⟨hread, honce, checked, hchecked, problems_nodup_of_once hread hchecked honce⟩

/-- The same problem is listed twice at the same place. -/
theorem askedInside_has_a_problem_twice : (Program.ofSource askedInside).isOk = true ∧
    ∃ checked, upTo 12 (Node.ofTree .prelude noPrelude) (Program.ofSource askedInside).root = some checked ∧
      ¬ (checked.problems.map fun problem => (problem.what.code, problem.span)).Nodup := by
  have hproblems : (upTo 12 (Node.ofTree .prelude noPrelude) (Program.ofSource askedInside).root).map (fun checked =>
      checked.problems.map fun problem => (problem.what.code, problem.span)) =
        some [("T0004", ⟨10, 11⟩), ("T0004", ⟨10, 11⟩)] := by
    decide +kernel
  obtain ⟨checked, hchecked, hlisted⟩ := Option.map_eq_some_iff.mp hproblems
  refine ⟨by decide +kernel, checked, hchecked, ?_⟩
  rw [hlisted]
  decide

end Checked

end RouteTypes
