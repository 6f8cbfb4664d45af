-- What the rules of a check are made of: questions, notes, and reports of problems. It is said once for each rule,
-- with what its reports cost at most; whatever notes and reports bring about step by step follows for all of them.
import RouteTypes.Proofs.Typing.Additions

namespace RouteTypes

open Facts (Gains DeclaredBy SignedBy)

namespace Check

/-! ## Settings -/

/-- How a check is looked at: which nodes may be asked about and for which of them a written type may be noted, what
facts fulfil, how they may become others at what cost, and what a report costs. -/
structure Setting where
  known : Node → Prop
  writes : Node → Prop
  holds : Facts → Prop
  step : Nat → Facts → Facts → Prop
  cost : Node → Text.Span → String → Nat

namespace Setting

/-- What may be asked. -/
def Asks (A : Setting) : Query → Prop
  | .written node | .expression node => A.known node
  | _ => True

/-- Costs add up, and every note is a step without cost. -/
structure Fits (A : Setting) : Prop where
  nodes : Node.Closed A.known
  refl : ∀ s, A.step 0 s s
  trans : ∀ {m n s s' s''}, A.step m s s' → A.step n s' s'' → A.step (m + n) s s''
  mono : ∀ {m n s s'}, m ≤ n → A.step m s s' → A.step n s s'
  declared : ∀ {s}, A.holds s → s.DeclaredBy A.known
  signed : ∀ {s}, A.holds s → s.SignedBy A.known
  gains : ∀ {s s'}, A.holds s → Gains A.known s s' → A.holds s' ∧ A.step 0 s s'
  writing : ∀ {s node}, A.holds s → A.known node → A.writes node → ∀ type,
    A.holds { s with writtenTypes := s.writtenTypes.insert node.id type } ∧
      A.step 0 s { s with writtenTypes := s.writtenTypes.insert node.id type }
  report : ∀ {s}, A.holds s → ∀ node span problem, A.holds (s.report node span problem) ∧
    A.step (A.cost node span problem.code) s (s.report node span problem)

end Setting

/-- What a rule is made of, if its reports cost no more than that. -/
inductive Built (A : Setting) : Nat → {α : Type} → (Ask → Check α) → Prop
  | pure {α : Type} (a : α) : Built A 0 fun _ => Pure.pure a
  | ask (query : Query) (h : A.Asks query) : Built A 0 fun ask => ask query
  | get {n : Nat} {α : Type} {rule : Facts → Ask → Check α} (h : ∀ s, A.holds s → Built A n (rule s)) :
      Built A n fun ask => MonadState.get >>= fun s => rule s ask
  | read {n : Nat} {α : Type} {rule : Pending → Ask → Check α} (h : ∀ pending, Built A n (rule pending)) :
      Built A n fun ask => MonadReader.read >>= fun pending => rule pending ask
  | withReader {n : Nat} {α : Type} {rule : Ask → Check α} {change : Pending → Pending}
      (hchange : ∀ pending, pending.values ⊆ (change pending).values) (h : Built A n rule) :
      Built A n fun ask => MonadWithReader.withReader change (rule ask)
  | note {α : Type} {note : Facts → α × Facts}
      (h : ∀ s, A.holds s → A.holds (note s).2 ∧ A.step 0 s (note s).2) : Built A 0 fun _ => modifyGet note
  | report (node : Node) (span : Text.Span) (problem : Problem TypeId) :
      Built A (A.cost node span problem.code) fun _ => Check.report node span problem
  | bind {m n : Nat} {α β : Type} {rule : Ask → Check α} {next : α → Ask → Check β} (h : Built A m rule)
      (hnext : ∀ a, Built A n (next a)) : Built A (m + n) fun ask => rule ask >>= fun a => next a ask
  | mono {m n : Nat} {α : Type} {rule : Ask → Check α} (hle : m ≤ n) (h : Built A m rule) : Built A n rule

/-- What is being worked out goes on to be worked out inside. -/
def Inwards (opened : Pending → Prop) : Prop :=
  ∀ {pending inner : Pending}, pending.values ⊆ inner.values → opened pending → opened inner

/-- Where the first way to answer questions has an answer, the second one has the same, and the answer is a step
without cost, if so much is being worked out around it. -/
def Agrees (A : Setting) (opened : Pending → Prop) (ask ask' : Ask) : Prop :=
  ∀ query, A.Asks query → ∀ pending s a s', opened pending → A.holds s → ask query pending s = some (a, s') →
    ask' query pending s = some (a, s') ∧ A.holds s' ∧ A.step 0 s s'

variable {A : Setting}

/-- What is made of questions whose answers follow, follows; and what it brings about costs what its reports cost. -/
theorem Built.runs (hA : A.Fits) {n : Nat} {α : Type} {rule : Ask → Check α} (h : Built A n rule)
    {opened : Pending → Prop} (hopened : Inwards opened) {ask ask' : Ask} (hask : Agrees A opened ask ask') :
    ∀ {pending s a s'}, opened pending → A.holds s → rule ask pending s = some (a, s') →
      rule ask' pending s = some (a, s') ∧ A.holds s' ∧ A.step n s s' := by
  induction h with
  | pure a =>
    intro pending s b s' _ hs hrun
    cases hrun
    exact ⟨rfl, hs, hA.refl s⟩
  | ask query hquery =>
    intro pending s a s' hpending hs hrun
    exact hask query hquery pending s a s' hpending hs hrun
  | get h ih =>
    intro pending s a s' hpending hs hrun
    exact ih s hs hpending hs hrun
  | read h ih =>
    intro pending s a s' hpending hs hrun
    exact ih pending hpending hs hrun
  | withReader hchange h ih =>
    intro pending s a s' hpending hs hrun
    exact ih (hopened (hchange pending) hpending) hs hrun
  | note h =>
    intro pending s a s' _ hs hrun
    have hnote := Option.some_inj.mp hrun
    have hnext := h s hs
    rw [hnote] at hnext
    exact ⟨hrun, hnext⟩
  | report node span problem =>
    intro pending s a s' _ hs hrun
    cases hrun
    exact ⟨rfl, hA.report hs node span problem⟩
  | bind h hnext ih ihnext =>
    intro pending s b s'' hpending hs hrun
    obtain ⟨⟨a, s'⟩, hfirst, hrest⟩ := Option.bind_eq_some_iff.mp hrun
    obtain ⟨hfirst', hs', hstep⟩ := ih hpending hs hfirst
    obtain ⟨hrest', hs'', hstep'⟩ := ihnext a hpending hs' hrest
    exact ⟨Option.bind_eq_some_iff.mpr ⟨(a, s'), hfirst', hrest'⟩, hs'', hA.trans hstep hstep'⟩
  | mono hle h ih =>
    intro pending s a s' hpending hs hrun
    obtain ⟨hrun', hs', hstep⟩ := ih hpending hs hrun
    exact ⟨hrun', hs', hA.mono hle hstep⟩

namespace Built

variable {n : Nat} {α β : Type}

/-! ## Ways to put rules together -/

/-- What comes first costs nothing. -/
protected theorem first {rule : Ask → Check α} {next : α → Ask → Check β} (h : Built A 0 rule)
    (hnext : ∀ a, Built A n (next a)) : Built A n fun ask => rule ask >>= fun a => next a ask :=
  Nat.zero_add n ▸ .bind h hnext

/-- What comes behind costs nothing. -/
protected theorem behind {rule : Ask → Check α} {next : α → Ask → Check β} (h : Built A n rule)
    (hnext : ∀ a, Built A 0 (next a)) : Built A n fun ask => rule ask >>= fun a => next a ask :=
  .bind h hnext

protected theorem free {rule : Ask → Check α} (h : Built A 0 rule) : Built A n rule := .mono n.zero_le h

/-- Where nothing is known of a type, there is nothing to pay. -/
protected theorem any : Built A n fun _ => (Pure.pure TypeId.any : Check TypeId) := .free (.pure TypeId.any)

protected theorem ite {p : Prop} [Decidable p] {rule rule' : Ask → Check α} (h : p → Built A n rule)
    (h' : ¬ p → Built A n rule') : Built A n fun ask => if p then rule ask else rule' ask := by
  by_cases hp : p
  · simp only [if_pos hp]
    exact h hp
  · simp only [if_neg hp]
    exact h' hp

protected theorem mapM {item : β → Ask → Check α} (items : List β) (h : ∀ b ∈ items, Built A 0 (item b)) :
    Built A 0 fun ask => items.mapM fun b => item b ask := by
  induction items with
  | nil =>
    simp only [List.mapM_nil]
    exact .pure []
  | cons b rest ih =>
    simp only [List.mapM_cons]
    exact .first (h b List.mem_cons_self) fun a =>
      .first (ih fun other hother => h other (List.mem_cons_of_mem _ hother)) fun others => .pure (a :: others)

protected theorem foldlM {item : α → β → Ask → Check α} (items : List β)
    (h : ∀ b ∈ items, ∀ a, Built A 0 (item a b)) :
    ∀ a, Built A 0 fun ask => items.foldlM (fun a b => item a b ask) a := by
  induction items with
  | nil =>
    intro a
    simp only [List.foldlM_nil]
    exact .pure a
  | cons b rest ih =>
    intro a
    simp only [List.foldlM_cons]
    exact .first (h b List.mem_cons_self a) fun next =>
      ih (fun other hother => h other (List.mem_cons_of_mem _ hother)) next

protected theorem forM {item : β → Ask → Check PUnit} (items : List β) (h : ∀ b ∈ items, Built A 0 (item b)) :
    Built A 0 fun ask => items.forM fun b => item b ask := by
  induction items with
  | nil => exact .pure PUnit.unit
  | cons b rest ih =>
    exact .first (h b List.mem_cons_self) fun _ => ih fun other hother => h other (List.mem_cons_of_mem _ hother)

variable (hA : A.Fits)

include hA

/-- Something is noted. -/
protected theorem gains {note : Facts → α × Facts} (h : ∀ s, A.holds s → Gains A.known s (note s).2) :
    Built A 0 fun _ => (modifyGet note : Check α) :=
  .note fun s hs => hA.gains hs (h s hs)

/-- Something is noted that says nothing about the source. -/
protected theorem core {note : Facts → α × Facts} (h : ∀ s : Facts, (note s).2.core = s.core) :
    Built A 0 fun _ => (modifyGet note : Check α) :=
  Built.gains hA fun s _ => .of_core (h s)

end Built

end Check

end RouteTypes
