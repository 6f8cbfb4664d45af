-- What nodes start with. The blanks and comments before a token go to the node that is open when the next one
-- begins, and a node that is put around another starts where that one does. So no node but the outermost one
-- starts with a blank or comment, whether the text fits or not.
import RouteTypes.Proofs.Grammar.Forms

namespace RouteTypes

open RouteTypes.Tree

/-! ## Fronts -/

/-- There is no blank or comment in front of the other tokens. -/
def Token.SolidFirst (tokens : List Token) : Prop := ∀ first ∈ tokens.head?, first.isTrivia = false

theorem Token.SolidFirst.of_append {tokens rest : List Token} (h : SolidFirst (tokens ++ rest)) :
    SolidFirst tokens := by
  cases tokens with
  | nil =>
    intro first hfirst
    cases hfirst
  | cons token tokens => exact h

/-- A tree in which no node starts with a blank or comment. -/
inductive Tree.Fronted : Tree → Prop
  | leaf (token : Token) : Fronted (.leaf token)
  | node {kind : NodeKind} {children : List Tree} (first : Token.SolidFirst (tokensOf children))
      (inner : ∀ child ∈ children, Fronted child) : Fronted (.node kind children)

theorem Tree.leaves_fronted {tokens : List Token} : ∀ tree ∈ tokens.map Tree.leaf, tree.Fronted := by
  intro tree htree
  obtain ⟨token, -, rfl⟩ := List.mem_map.mp htree
  exact .leaf token

/-- A node together with what is to come behind it: even if it is empty no blank comes first. -/
structure Tree.Leading (tree : Tree) (behind : Sight) : Prop where
  fronted : tree.Fronted
  first : Token.SolidFirst (tree.tokens ++ behind.tokens)

/-- What a phrase finds, if it finds something, leads what is to come behind it. -/
def Found.Leading (found : Found) (behind : Sight) : Prop :=
  ∀ blanks tree, found = some (blanks, tree) → tree.Leading behind

theorem Found.Leading.fronted {found : Found} {behind : Sight} (h : found.Leading behind) :
    ∀ tree ∈ found.trees, tree.Fronted := by
  intro tree htree
  match found with
  | none => cases htree
  | some (blanks, last) =>
    rcases List.mem_append.mp htree with htree | htree
    · exact leaves_fronted tree htree
    · rw [List.mem_singleton.mp htree]
      exact (h blanks last rfl).fronted

namespace Sight

theorem flush_solidFirst (s : Sight) : Token.SolidFirst s.flush.tokens := by
  obtain ⟨ahead, misfits⟩ := s
  cases ahead with
  | nil =>
    intro first hfirst
    cases hfirst
  | cons next rest =>
    intro first hfirst
    obtain rfl : next.token = first := Option.some_inj.mp hfirst
    exact next.token_solid

theorem collectWhile_fronted {question : Sight → Bool} {step : Sight → List Tree × Sight}
    (hstep : ∀ s, ∀ tree ∈ (step s).1, tree.Fronted) (s : Sight) :
    ∀ tree ∈ (s.collectWhile question step).1, tree.Fronted := by
  rw [collectWhile]
  split
  · dsimp only
    split
    · exact List.forall_mem_append.mpr ⟨hstep s, collectWhile_fronted hstep (step s).2⟩
    · exact hstep s
  · exact List.forall_mem_nil _
termination_by s.ahead.length

theorem wrapWhile_leading {step : Tree → Sight → Option Tree × Sight}
    (hstep : ∀ inner s, inner.Leading s → ((step inner s).1.getD inner).Leading (step inner s).2)
    (inner : Tree) (s : Sight) (h : inner.Leading s) :
    (s.wrapWhile step inner).1.Leading (s.wrapWhile step inner).2 := by
  have hone := hstep inner s h
  rw [wrapWhile]
  split
  · rename_i behind heq
    rw [heq] at hone
    exact hone
  · rename_i outer behind heq
    rw [heq] at hone
    split
    · exact wrapWhile_leading hstep outer behind hone
    · exact hone
termination_by s.ahead.length

end Sight

/-! ## Reading -/

/-- Rules that lose nothing and find nodes that start with tokens. -/
structure Readings.Leading (readings : Readings) : Prop where
  tokens : ∀ rule s, s.tokens = tokensOf (readings rule s).1.trees ++ (readings rule s).2.tokens
  found : ∀ rule s, (readings rule s).1.Leading (readings rule s).2

section

variable {readings : Readings}

mutual

theorem Steps.read_fronted (hrules : readings.Leading) :
    ∀ (steps : Steps) (s : Sight), ∀ tree ∈ (steps.read readings s).1, tree.Fronted
  | .done, _ | .refuse _, _ => List.forall_mem_nil _
  | .take kinds, s => by
    intro tree htree
    obtain ⟨token, rfl⟩ := take_leaf s kinds tree htree
    exact .leaf token
  | .seq first rest, s =>
    List.forall_mem_append.mpr ⟨first.read_fronted hrules s, rest.read_fronted hrules _⟩
  | .branch question yes no, s => by
    rw [Steps.read]
    split
    · exact yes.read_fronted hrules s
    · exact no.read_fronted hrules s
  | .loop question body, s => Sight.collectWhile_fronted (body.read_fronted hrules) s
  | .part phrase, s => (phrase.read_leading hrules s).fronted
  | .enclosed what inside, s => by
    have hinside := inside.read_fronted hrules s
    rw [Steps.read]
    split
    · exact hinside
    · split
      · exact List.forall_mem_append.mpr ⟨hinside, leaves_fronted⟩
      · exact hinside

theorem Body.read_fronted (hrules : readings.Leading) :
    ∀ (body : Body) (s : Sight), ∀ tree ∈ (body.read readings s).1.2, tree.Fronted
  | .close kind, s => List.forall_mem_nil _
  | .seq first rest, s =>
    List.forall_mem_append.mpr ⟨first.read_fronted hrules s, rest.read_fronted hrules _⟩
  | .branch question yes no, s => by
    rw [Body.read]
    split
    · exact yes.read_fronted hrules s
    · exact no.read_fronted hrules s

theorem Phrase.read_leading (hrules : readings.Leading) :
    ∀ (phrase : Phrase) (s : Sight), (phrase.read readings s).1.Leading (phrase.read readings s).2
  | .refuse expected, s => by
    intro blanks tree htree
    cases htree
  | .node body, s => by
    have hfirst := s.flush_solidFirst
    rw [body.read_tokens hrules.tokens s.flush] at hfirst
    rintro blanks tree htree
    obtain ⟨-, rfl⟩ := Prod.mk.inj (Option.some_inj.mp htree)
    exact ⟨.node hfirst.of_append (body.read_fronted hrules s.flush), hfirst⟩
  | .branch question yes no, s => by
    rw [Phrase.read]
    split
    · exact yes.read_leading hrules s
    · exact no.read_leading hrules s
  | .call rule, s => hrules.found rule s
  | .wrap inner suffix, s => by
    have hinner := inner.read_leading hrules s
    rw [Phrase.read]
    split
    · intro blanks tree htree
      cases htree
    · rename_i blanks tree behind heq
      rw [heq] at hinner
      rintro blanks' tree' htree'
      obtain ⟨-, rfl⟩ := Prod.mk.inj (Option.some_inj.mp htree')
      exact suffix.read_leading hrules tree behind (hinner blanks tree rfl)
  | .extend inner suffix, s => by
    have hinner := inner.read_leading hrules s
    rw [Phrase.read]
    split
    · intro blanks tree htree
      cases htree
    · rename_i blanks tree behind heq
      rw [heq] at hinner
      rintro blanks' tree' htree'
      obtain ⟨-, rfl⟩ := Prod.mk.inj (Option.some_inj.mp htree')
      exact Sight.wrapWhile_leading (suffix.read_leading hrules) tree behind (hinner blanks tree rfl)

/-- What is put around a node takes its front from it. -/
theorem Suffix.read_leading (hrules : readings.Leading) :
    ∀ (suffix : Suffix) (inner : Tree) (s : Sight), inner.Leading s →
      ((suffix.read readings inner s).1.getD inner).Leading (suffix.read readings inner s).2
  | .stop, inner, s, h => h
  | .around body, inner, s, h => by
    have hfirst := h.first
    rw [(Suffix.around body).read_tokens hrules.tokens inner s] at hfirst
    refine ⟨.node hfirst.of_append ?_, hfirst⟩
    exact List.forall_mem_cons.mpr ⟨h.fronted, body.read_fronted hrules s⟩
  | .branch question yes no, inner, s, h => by
    rw [Suffix.read]
    split
    · exact yes.read_leading hrules inner s h
    · exact no.read_leading hrules inner s h

end

end

namespace Grammar

theorem readingsUpTo_leading (depth : Nat) : (readingsUpTo depth).Leading where
  tokens := readingsUpTo_tokens depth
  found := by
    induction depth with
    | zero =>
      intro rule s blanks tree htree
      cases htree
    | succ depth ih => exact fun rule s => (phraseOf rule).read_leading ⟨readingsUpTo_tokens depth, ih⟩ s

/-- No node below the outermost one starts with a blank or comment. -/
theorem parts_fronted (tokens : List Token) : ∀ tree ∈ (parts tokens).1, tree.Fronted :=
  program.read_fronted (readingsUpTo_leading _) _

end Grammar

end RouteTypes
