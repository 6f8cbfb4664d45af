-- What reading comes to. To read a piece of grammar its parts are read, and through the rules pieces that
-- may contain it again, each from where the one before it ended. The rules matter nowhere but where reading
-- comes to call them.
import Mathlib.Logic.Relation
import RouteTypes.Grammar.Program

namespace RouteTypes

open Relation

/-! ## Pieces of grammar -/

/-- What can be read at one place. -/
inductive Piece where
  | steps (steps : Steps)
  | body (body : Body)
  | phrase (phrase : Phrase)
  | suffix (suffix : Suffix)
  /-- As many nodes around each other as there are suffixes. -/
  | suffixes (suffix : Suffix)

/-- To read a piece somewhere, another one is read there or further on: a part of it, or what a rule
reads. A repetition that goes on comes to itself. -/
inductive Enters (rules : Rules) : Piece × Reader → Piece × Reader → Prop
  | first (first rest : Steps) (r : Reader) :
      Enters rules (.steps (.seq first rest), r) (.steps first, r)
  | rest (first rest : Steps) (r : Reader) :
      Enters rules (.steps (.seq first rest), r) (.steps rest, first.run rules r)
  | yes {question : Question} (yes no : Steps) {r : Reader} (h : question.ask r.toSight = true) :
      Enters rules (.steps (.branch question yes no), r) (.steps yes, r)
  | no {question : Question} (yes no : Steps) {r : Reader} (h : question.ask r.toSight = false) :
      Enters rules (.steps (.branch question yes no), r) (.steps no, r)
  | round {question : Question} (body : Steps) {r : Reader} (h : question.ask r.toSight = true) :
      Enters rules (.steps (.loop question body), r) (.steps body, r)
  | again {question : Question} {body : Steps} {r : Reader} (h : question.ask r.toSight = true)
      (taken : (body.run rules r).ahead.length < r.ahead.length) :
      Enters rules (.steps (.loop question body), r) (.steps (.loop question body), body.run rules r)
  | part (phrase : Phrase) (r : Reader) : Enters rules (.steps (.part phrase), r) (.phrase phrase, r)
  | inside (what : Enclosure) (inside : Steps) (r : Reader) :
      Enters rules (.steps (.enclosed what inside), r) (.steps inside, r)
  | firstOfBody (first : Steps) (rest : Body) (r : Reader) :
      Enters rules (.body (.seq first rest), r) (.steps first, r)
  | restOfBody (first : Steps) (rest : Body) (r : Reader) :
      Enters rules (.body (.seq first rest), r) (.body rest, first.run rules r)
  | yesOfBody {question : Question} (yes no : Body) {r : Reader} (h : question.ask r.toSight = true) :
      Enters rules (.body (.branch question yes no), r) (.body yes, r)
  | noOfBody {question : Question} (yes no : Body) {r : Reader} (h : question.ask r.toSight = false) :
      Enters rules (.body (.branch question yes no), r) (.body no, r)
  | node (body : Body) (r : Reader) : Enters rules (.phrase (.node body), r) (.body body, r.flush.begin)
  | yesOfPhrase {question : Question} (yes no : Phrase) {r : Reader} (h : question.ask r.toSight = true) :
      Enters rules (.phrase (.branch question yes no), r) (.phrase yes, r)
  | noOfPhrase {question : Question} (yes no : Phrase) {r : Reader} (h : question.ask r.toSight = false) :
      Enters rules (.phrase (.branch question yes no), r) (.phrase no, r)
  | call (rule : Rule) (r : Reader) :
      Enters rules (.phrase (.call rule), r) (.phrase (Grammar.phraseOf rule), r)
  | wrapped (inner : Phrase) (suffix : Suffix) (r : Reader) :
      Enters rules (.phrase (.wrap inner suffix), r) (.phrase inner, r)
  | behindWrapped {inner : Phrase} (suffix : Suffix) {r behind : Reader} {place : Beginning}
      (h : inner.run rules r = (some place, behind)) :
      Enters rules (.phrase (.wrap inner suffix), r) (.suffix suffix, behind)
  | extended (inner : Phrase) (suffix : Suffix) (r : Reader) :
      Enters rules (.phrase (.extend inner suffix), r) (.phrase inner, r)
  | behindExtended {inner : Phrase} (suffix : Suffix) {r behind : Reader} {place : Beginning}
      (h : inner.run rules r = (some place, behind)) :
      Enters rules (.phrase (.extend inner suffix), r) (.suffixes suffix, behind)
  | roundOfSuffixes (suffix : Suffix) (r : Reader) :
      Enters rules (.suffixes suffix, r) (.suffix suffix, r)
  | againSuffixes {suffix : Suffix} {inner outer : Beginning} {r behind : Reader}
      (h : suffix.run rules inner r = (some outer, behind))
      (taken : behind.ahead.length < r.ahead.length) :
      Enters rules (.suffixes suffix, r) (.suffixes suffix, behind)
  | around (body : Body) (inner : Beginning) (r : Reader) :
      Enters rules (.suffix (.around body), r) (.body body, r.beginAround inner)
  | yesOfSuffix {question : Question} (yes no : Suffix) {r : Reader} (h : question.ask r.toSight = true) :
      Enters rules (.suffix (.branch question yes no), r) (.suffix yes, r)
  | noOfSuffix {question : Question} (yes no : Suffix) {r : Reader} (h : question.ask r.toSight = false) :
      Enters rules (.suffix (.branch question yes no), r) (.suffix no, r)

/-! ## What is read depends on the rules where they are called -/

section

variable {rules rules' : Rules}

/-- Two ways to read the rules agree wherever reading the piece calls one. -/
def AgreeFrom (rules rules' : Rules) (start : Piece × Reader) : Prop :=
  ∀ rule r, ReflTransGen (Enters rules) start (.phrase (.call rule), r) → rules rule r = rules' rule r

theorem AgreeFrom.enters {start next : Piece × Reader} (h : AgreeFrom rules rules' start)
    (hnext : Enters rules start next) : AgreeFrom rules rules' next :=
  fun rule r hcall => h rule r (.head hnext hcall)

theorem AgreeFrom.loop {question : Question} {body : Steps}
    (hbody : ∀ r, AgreeFrom rules rules' (.steps body, r) → body.run rules r = body.run rules' r)
    (r : Reader) (h : AgreeFrom rules rules' (.steps (.loop question body), r)) :
    r.repeatWhile question.ask (body.run rules) = r.repeatWhile question.ask (body.run rules') := by
  rw [Reader.repeatWhile, Reader.repeatWhile]
  by_cases hquestion : question.ask r.toSight = true
  · rw [if_pos hquestion, if_pos hquestion, ← hbody r (h.enters (.round body hquestion))]
    dsimp only
    split
    · rename_i htaken
      exact AgreeFrom.loop hbody _ (h.enters (.again hquestion htaken))
    · rfl
  · rw [if_neg hquestion, if_neg hquestion]
termination_by r.ahead.length

theorem AgreeFrom.suffixes {suffix : Suffix}
    (hsuffix : ∀ inner r, AgreeFrom rules rules' (.suffix suffix, r) →
      suffix.run rules inner r = suffix.run rules' inner r) (inner : Beginning) (r : Reader)
    (h : AgreeFrom rules rules' (.suffixes suffix, r)) :
    r.repeatOn (suffix.run rules) inner = r.repeatOn (suffix.run rules') inner := by
  have hround := hsuffix inner r (h.enters (.roundOfSuffixes suffix r))
  rw [Reader.repeatOn, Reader.repeatOn, ← hround]
  generalize heq : suffix.run rules inner r = answer
  obtain ⟨_ | outer, behind⟩ := answer
  · rfl
  · dsimp only
    split
    · rename_i htaken
      exact AgreeFrom.suffixes hsuffix outer behind (h.enters (.againSuffixes heq htaken))
    · rfl
termination_by r.ahead.length

mutual

theorem Steps.run_agrees : ∀ (steps : Steps) (r : Reader), AgreeFrom rules rules' (.steps steps, r) →
    steps.run rules r = steps.run rules' r
  | .done, r, _ => rfl
  | .take kinds, r, _ => rfl
  | .refuse expected, r, _ => rfl
  | .seq first rest, r, h => by
    rw [Steps.run, Steps.run, ← first.run_agrees r (h.enters (.first first rest r))]
    exact rest.run_agrees _ (h.enters (.rest first rest r))
  | .branch question yes no, r, h => by
    rw [Steps.run, Steps.run]
    cases hquestion : question.ask r.toSight with
    | true => exact yes.run_agrees r (h.enters (.yes yes no hquestion))
    | false => exact no.run_agrees r (h.enters (.no yes no hquestion))
  | .loop question body, r, h => AgreeFrom.loop body.run_agrees r h
  | .part phrase, r, h => congrArg Prod.snd (phrase.run_agrees r (h.enters (.part phrase r)))
  | .enclosed what inside, r, h => by
    rw [Steps.run, Steps.run, inside.run_agrees r (h.enters (.inside what inside r))]

theorem Body.run_agrees : ∀ (body : Body) (r : Reader), AgreeFrom rules rules' (.body body, r) →
    body.run rules r = body.run rules' r
  | .close kind, r, _ => rfl
  | .seq first rest, r, h => by
    rw [Body.run, Body.run, ← first.run_agrees r (h.enters (.firstOfBody first rest r))]
    exact rest.run_agrees _ (h.enters (.restOfBody first rest r))
  | .branch question yes no, r, h => by
    rw [Body.run, Body.run]
    cases hquestion : question.ask r.toSight with
    | true => exact yes.run_agrees r (h.enters (.yesOfBody yes no hquestion))
    | false => exact no.run_agrees r (h.enters (.noOfBody yes no hquestion))

theorem Phrase.run_agrees : ∀ (phrase : Phrase) (r : Reader),
    AgreeFrom rules rules' (.phrase phrase, r) → phrase.run rules r = phrase.run rules' r
  | .refuse expected, r, _ => rfl
  | .node body, r, h => by
    rw [Phrase.run, Phrase.run, body.run_agrees _ (h.enters (.node body r))]
  | .branch question yes no, r, h => by
    rw [Phrase.run, Phrase.run]
    cases hquestion : question.ask r.toSight with
    | true => exact yes.run_agrees r (h.enters (.yesOfPhrase yes no hquestion))
    | false => exact no.run_agrees r (h.enters (.noOfPhrase yes no hquestion))
  | .call rule, r, h => h rule r .refl
  | .wrap inner suffix, r, h => by
    rw [Phrase.run, Phrase.run, ← inner.run_agrees r (h.enters (.wrapped inner suffix r))]
    generalize heq : inner.run rules r = answer
    obtain ⟨_ | place, behind⟩ := answer
    · rfl
    · dsimp only
      rw [suffix.run_agrees place behind (h.enters (.behindWrapped suffix heq))]
  | .extend inner suffix, r, h => by
    rw [Phrase.run, Phrase.run, ← inner.run_agrees r (h.enters (.extended inner suffix r))]
    generalize heq : inner.run rules r = answer
    obtain ⟨_ | place, behind⟩ := answer
    · rfl
    · dsimp only
      rw [AgreeFrom.suffixes suffix.run_agrees place behind (h.enters (.behindExtended suffix heq))]

theorem Suffix.run_agrees : ∀ (suffix : Suffix) (inner : Beginning) (r : Reader),
    AgreeFrom rules rules' (.suffix suffix, r) → suffix.run rules inner r = suffix.run rules' inner r
  | .stop, inner, r, _ => rfl
  | .around body, inner, r, h => by
    rw [Suffix.run, Suffix.run, body.run_agrees _ (h.enters (.around body inner r))]
  | .branch question yes no, inner, r, h => by
    rw [Suffix.run, Suffix.run]
    cases hquestion : question.ask r.toSight with
    | true => exact yes.run_agrees inner r (h.enters (.yesOfSuffix yes no hquestion))
    | false => exact no.run_agrees inner r (h.enters (.noOfSuffix yes no hquestion))

end

end

end RouteTypes
