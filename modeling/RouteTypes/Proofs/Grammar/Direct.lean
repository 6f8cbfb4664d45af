-- The grammar without questions that are asked twice. A part of the grammar that stands in several places asks
-- for itself what was already asked where it stands, and then one of its ways is never gone. Without these
-- ways the grammar reads the same, and says more about the nodes: what begins with points in an object
-- literal is no expression.
import RouteTypes.Proofs.Grammar.Ending

namespace RouteTypes

open RouteTypes.Tree

/-! ## Questions that are answered -/

/-- The steps where the question has just been answered with yes. -/
def Steps.knowing (question : Question) : Steps → Steps
  | .branch own yes no => if own = question then yes else .branch own yes no
  | steps => steps

mutual

/-- The steps without asking again what was just asked. -/
def Steps.direct : Steps → Steps
  | .done => .done
  | .take kinds => .take kinds
  | .refuse expected => .refuse expected
  | .seq first rest => .seq first.direct rest.direct
  | .branch question yes no => .branch question (yes.direct.knowing question) no.direct
  | .loop question body => .loop question body.direct
  | .part phrase => .part phrase.direct
  | .enclosed what inside => .enclosed what inside.direct

def Body.direct : Body → Body
  | .close kind => .close kind
  | .seq first rest => .seq first.direct rest.direct
  | .branch question yes no => .branch question yes.direct no.direct

def Phrase.direct : Phrase → Phrase
  | .refuse expected => .refuse expected
  | .node body => .node body.direct
  | .branch question yes no => .branch question yes.direct no.direct
  | .call rule => .call rule
  | .wrap inner suffix => .wrap inner.direct suffix.direct
  | .extend inner suffix => .extend inner.direct suffix.direct

def Suffix.direct : Suffix → Suffix
  | .stop => .stop
  | .around body => .around body.direct
  | .branch question yes no => .branch question yes.direct no.direct

end

section

variable (readings : Readings)

theorem Steps.read_knowing {question : Question} {s : Sight} (h : question.ask s = true)
    (steps : Steps) : (steps.knowing question).read readings s = steps.read readings s := by
  unfold Steps.knowing
  split
  · rename_i own yes no
    split
    · rename_i hown
      rw [Steps.read, hown, if_pos h]
    · rfl
  · rfl

mutual

theorem Steps.read_direct : ∀ steps : Steps, steps.direct.read readings = steps.read readings
  | .done | .take _ | .refuse _ => rfl
  | .seq first rest => by
    funext s
    rw [Steps.direct, Steps.read, Steps.read, first.read_direct, rest.read_direct]
  | .branch question yes no => by
    funext s
    rw [Steps.direct, Steps.read, Steps.read, no.read_direct]
    split
    · rename_i hyes
      rw [Steps.read_knowing readings hyes, yes.read_direct]
    · rfl
  | .loop question body => by
    funext s
    rw [Steps.direct, Steps.read, Steps.read, body.read_direct]
  | .part phrase => by
    funext s
    rw [Steps.direct, Steps.read, Steps.read, phrase.read_direct]
  | .enclosed what inside => by
    funext s
    rw [Steps.direct, Steps.read, Steps.read, inside.read_direct]

theorem Body.read_direct : ∀ body : Body, body.direct.read readings = body.read readings
  | .close _ => rfl
  | .seq first rest => by
    funext s
    rw [Body.direct, Body.read, Body.read, first.read_direct, rest.read_direct]
  | .branch question yes no => by
    funext s
    rw [Body.direct, Body.read, Body.read, yes.read_direct, no.read_direct]

theorem Phrase.read_direct : ∀ phrase : Phrase, phrase.direct.read readings = phrase.read readings
  | .refuse _ | .call _ => rfl
  | .node body => by
    funext s
    rw [Phrase.direct, Phrase.read, Phrase.read, body.read_direct]
  | .branch question yes no => by
    funext s
    rw [Phrase.direct, Phrase.read, Phrase.read, yes.read_direct, no.read_direct]
  | .wrap inner suffix => by
    funext s
    rw [Phrase.direct, Phrase.read, Phrase.read, inner.read_direct, suffix.read_direct]
  | .extend inner suffix => by
    funext s
    rw [Phrase.direct, Phrase.read, Phrase.read, inner.read_direct, suffix.read_direct]

theorem Suffix.read_direct : ∀ suffix : Suffix, suffix.direct.read readings = suffix.read readings
  | .stop => rfl
  | .around body => by
    funext inner s
    rw [Suffix.direct, Suffix.read, Suffix.read, body.read_direct]
  | .branch question yes no => by
    funext inner s
    rw [Suffix.direct, Suffix.read, Suffix.read, yes.read_direct, no.read_direct]

end

end

/-! ## The grammar -/

namespace Grammar

/-- What each rule reads, without asking again what was just asked. -/
def directPhrase (rule : Rule) : Phrase := (phraseOf rule).direct

/-- The forms of the nodes that are read so. -/
def directForms : List NodeForm :=
  ⟨none, program⟩ :: ⟨none, statementList⟩ ::
    ([.statement, .expression, .operand 0, .primary, .type] : List Rule).flatMap
      fun rule => (directPhrase rule).forms

theorem directPhrase_forms (rule : Rule) : (directPhrase rule).forms ⊆ directForms := by
  have hmem : ∀ rule ∈ ([.statement, .expression, .operand 0, .primary, .type] : List Rule),
      (directPhrase rule).forms ⊆ directForms := fun rule hrule form hform =>
    List.mem_cons_of_mem _ (List.mem_cons_of_mem _ (List.mem_flatMap.mpr ⟨rule, hrule, hform⟩))
  cases rule with
  | operand least => exact hmem (.operand 0) (by decide)
  | statement | expression | primary | type => exact hmem _ (by decide)

theorem directPhrase_makes (rule : Rule) (kind : NodeKind) (h : (directPhrase rule).makes kind = true) :
    rule.makes kind = true := by
  have hall : NodeKind.all.all (fun kind => !(directPhrase rule).makes kind || rule.makes kind) = true := by
    cases rule <;> rfl
  have hkind := List.all_eq_true.mp hall kind (NodeKind.mem_all kind)
  rw [h] at hkind
  exact hkind

theorem directPhrase_reads : Reads directPhrase directForms where
  read rule readings s := congrFun ((phraseOf rule).read_direct readings).symm s
  takes rule := by cases rule <;> rfl
  forms := directPhrase_forms
  makes := directPhrase_makes
  program := List.mem_cons_self
  statementList := List.mem_cons_of_mem _ List.mem_cons_self

end Grammar

end RouteTypes
