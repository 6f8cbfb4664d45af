-- The grammar as data. A phrase says how one node is read, and its body what stands in the node: tokens,
-- other nodes, what repeats, and the questions that decide between ways to go on. A node may also be put
-- around a phrase that has been read already, by what stands behind it. Phrases that contain themselves
-- call each other by rules.
import RouteTypes.Grammar.Question

namespace RouteTypes

/-- The rules that can contain themselves. -/
inductive Rule where
  | statement
  /-- An assignment, a conditional, an arrow function, or what binds tighter. -/
  | expression
  /-- An expression whose binary operators bind at least that tight. -/
  | operand (least : Nat)
  /-- An expression without binary operators and without anything behind it. -/
  | primary
  | type
deriving DecidableEq, Repr

mutual

/-- What is read into the open node. -/
inductive Steps where
  | done
  /-- A token of one of the kinds. -/
  | take (kinds : List TokenKind)
  /-- Nothing: the next token does not fit. -/
  | refuse (expected : Expected)
  | seq (first rest : Steps)
  | branch (question : Question) (yes no : Steps)
  | loop (question : Question) (body : Steps)
  | part (phrase : Phrase)
  /-- Something from an opening brace on, with the brace that closes it behind. After a misfit that brace
  is not looked for. -/
  | enclosed (what : Enclosure) (inside : Steps)

/-- What a node holds, and of which kind it is in the end. -/
inductive Body where
  | close (kind : NodeKind)
  | seq (first : Steps) (rest : Body)
  | branch (question : Question) (yes no : Body)

/-- What is read as one node; nothing is, if the next token does not fit. -/
inductive Phrase where
  | refuse (expected : Expected)
  | node (body : Body)
  | branch (question : Question) (yes no : Phrase)
  | call (rule : Rule)
  /-- A phrase, and perhaps a node around it. -/
  | wrap (inner : Phrase) (suffix : Suffix)
  /-- A phrase, and nodes around it as long as there are suffixes. -/
  | extend (inner : Phrase) (suffix : Suffix)

/-- What may stand behind a node and make another one around it. -/
inductive Suffix where
  | stop
  | around (body : Body)
  | branch (question : Question) (yes no : Suffix)

end

/-- How each rule is read. It answers where the node begins. -/
abbrev Rules := Rule → Reader → Option Beginning × Reader

/-! ## Reading -/

section

variable (rules : Rules)

mutual

def Steps.run : Steps → Reader → Reader
  | .done, r => r
  | .take kinds, r => r.take kinds
  | .refuse expected, r => r.refuse expected
  | .seq first rest, r => rest.run (first.run r)
  | .branch question yes no, r => if question.ask r.toSight then yes.run r else no.run r
  | .loop question body, r => r.repeatWhile question.ask body.run
  | .part phrase, r => (phrase.run r).2
  | .enclosed what inside, r =>
    let behind := inside.run r
    if behind.hasMisfit then behind
    else if behind.kind == .rBrace then behind.advance
    else behind.refuse (.closingBrace what r.span)

def Body.run : Body → Reader → NodeKind × Reader
  | .close kind, r => (kind, r)
  | .seq first rest, r => rest.run (first.run r)
  | .branch question yes no, r => if question.ask r.toSight then yes.run r else no.run r

/-- A node starts at the next token; what stands before the token stays outside. -/
def Phrase.run : Phrase → Reader → Option Beginning × Reader
  | .refuse expected, r => (none, r.refuse expected)
  | .node body, r =>
    let inner := body.run r.flush.begin
    (some r.flush.here, inner.2.finish r.flush.here inner.1)
  | .branch question yes no, r => if question.ask r.toSight then yes.run r else no.run r
  | .call rule, r => rules rule r
  | .wrap inner suffix, r =>
    match inner.run r with
    | (none, behind) => (none, behind)
    | (some place, behind) =>
      let last := suffix.run place behind
      (some (last.1.getD place), last.2)
  | .extend inner suffix, r =>
    match inner.run r with
    | (none, behind) => (none, behind)
    | (some place, behind) =>
      let last := behind.repeatOn suffix.run place
      (some last.1, last.2)

def Suffix.run : Suffix → Beginning → Reader → Option Beginning × Reader
  | .stop, _, r => (none, r)
  | .around body, inner, r =>
    let behind := body.run (r.beginAround inner)
    (some r.here, behind.2.finish r.here behind.1)
  | .branch question yes no, inner, r =>
    if question.ask r.toSight then yes.run inner r else no.run inner r

end

end

/-! ## Common forms -/

namespace Steps

/-- Steps after each other. -/
def all : List Steps → Steps
  | [] => .done
  | first :: rest => .seq first (all rest)

/-- A token of that kind. -/
def expect (kind : TokenKind) : Steps := .take [kind]

/-- Steps that are gone if the question is answered with yes. -/
def given (question : Question) (steps : Steps) : Steps := .branch question steps .done

/-- Steps that are gone unless a token did not fit. -/
def unlessMisfit (steps : Steps) : Steps := given (.not .misfit) steps

/-- A token of that kind, if it is there, and the steps behind it. -/
def behind (kind : TokenKind) (steps : Steps) : Steps :=
  given (.next [kind]) (.seq (expect kind) steps)

/-- A token of that kind, if it is there. -/
def skip (kind : TokenKind) : Steps := behind kind .done

/-- What a rule reads. -/
def call (rule : Rule) : Steps := .part (.call rule)

/-- Items with commas between them. -/
def listed (item : Steps) : Steps :=
  .seq item (.loop (.both (.not .misfit) (.next [.comma])) (.seq (expect .comma) item))

/-- Items with commas between them, up to a closing token; a comma may also stand before that. -/
def separated (closing : TokenKind) (item : Steps) : Steps :=
  .loop (.inside [closing]) (.seq item (given (.not (.next [closing])) (expect .comma)))

/-- Something between braces. -/
def braced (what : Enclosure) (member : Steps) : Steps :=
  .enclosed what (.seq (expect .lBrace) (.loop (.inside [.rBrace]) member))

end Steps

/-- A node of that kind that holds the steps. -/
def Body.ofSteps (kind : NodeKind) (steps : List Steps) : Body := .seq (.all steps) (.close kind)

namespace Phrase

/-- A node of that kind that holds the steps. -/
def nodeOf (kind : NodeKind) (steps : List Steps) : Phrase := .node (.ofSteps kind steps)

/-- The first of several phrases whose question is answered with yes, or else the last one. -/
def firstOf (last : Phrase) : List (Question × Phrase) → Phrase
  | [] => last
  | (question, phrase) :: rest => .branch question phrase (firstOf last rest)

end Phrase

/-- The first of several suffixes whose question is answered with yes, if there is one. -/
def Suffix.firstOf : List (Question × Suffix) → Suffix
  | [] => .stop
  | (question, suffix) :: rest => .branch question suffix (firstOf rest)

/-- A node put into the open one. -/
def Steps.emit (kind : NodeKind) (steps : List Steps) : Steps := .part (.nodeOf kind steps)

end RouteTypes
