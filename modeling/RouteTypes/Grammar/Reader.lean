-- How a program is read. A reader holds the tokens to come and the events that it leaves behind; blanks
-- and comments go to the node that is open when the token behind them is read, so a node starts with a
-- token that means something. Nothing is ever dropped: each token that leaves the ones to come leaves
-- one event that takes it.
import RouteTypes.Grammar.Event
import RouteTypes.Grammar.Misfit

namespace RouteTypes

open Text

/-! ## Lexemes -/

/-- A token that means something, with the blanks and comments before it. -/
structure Lexeme where
  leading : List Token
  token : Token
  span : Span
  leading_trivia : ∀ blank ∈ leading, blank.isTrivia = true
  token_solid : token.isTrivia = false

namespace Lexeme

def kind (lexeme : Lexeme) : TokenKind := lexeme.token.kind

def tokens (lexeme : Lexeme) : List Token := lexeme.leading ++ [lexeme.token]

/-- The lexeme without what stands before the token. -/
def bare (lexeme : Lexeme) : Lexeme :=
  { lexeme with leading := [], leading_trivia := by intro blank hblank; cases hblank }

/-- The lexemes of a list of tokens whose first starts at `start`, behind the blanks and comments in
`leading`. -/
def group (start : Nat) (leading : List Token)
    (hleading : ∀ blank ∈ leading, blank.isTrivia = true) : List Token → List Lexeme
  | [] => []
  | token :: rest =>
    let stop := start + token.size
    if htoken : token.isTrivia = true then
      group stop (leading ++ [token]) (by
        intro blank hblank
        rcases List.mem_append.mp hblank with h | h
        · exact hleading blank h
        · rw [List.mem_singleton.mp h]; exact htoken) rest
    else
      ⟨leading, token, ⟨start, stop⟩, hleading, by simpa using htoken⟩ ::
        group stop [] (by intro blank hblank; cases hblank) rest

def ofTokens (tokens : List Token) : List Lexeme :=
  group 0 [] (by intro blank hblank; cases hblank) tokens

end Lexeme

/-! ## What is to come -/

/-- The tokens to come, and the misfits so far. What is done next depends on nothing else. -/
structure Sight where
  ahead : List Lexeme
  misfits : List Misfit

namespace Sight

def ofTokens (tokens : List Token) : Sight := ⟨Lexeme.ofTokens tokens, []⟩

/-- The kinds of the tokens to come, without blanks and comments. -/
def kinds (s : Sight) : List TokenKind := s.ahead.map (·.kind)

/-- The kind of the `n`th token to come; behind the last it is the end of the text. -/
def kindAt (n : Nat) (s : Sight) : TokenKind := (s.ahead[n]?.map (·.kind)).getD .eof

def kind (s : Sight) : TokenKind := s.kindAt 0

def isAtAny (kinds : List TokenKind) (s : Sight) : Bool := kinds.contains s.kind

/-- At an identifier that is this word. -/
def isAtWord (word : String) (s : Sight) : Bool :=
  s.kind == .ident && (s.ahead.head?.any (·.token.text == word))

def span (s : Sight) : Span := (s.ahead.head?.map (·.span)).getD default

def hasMisfit (s : Sight) : Bool := !s.misfits.isEmpty

/-- The blanks and comments before the next token. -/
def leading (s : Sight) : List Token := (s.ahead.head?.map (·.leading)).getD []

/-- The next token, with the blanks and comments before it. -/
def next (s : Sight) : List Token := (s.ahead.head?.map (·.tokens)).getD []

/-- Without the blanks and comments before the next token. -/
def flush (s : Sight) : Sight := { s with ahead := s.ahead.modifyHead (·.bare) }

/-- Without the next token. -/
def advance (s : Sight) : Sight := { s with ahead := s.ahead.tail }

/-- Notes that the next token does not fit, unless one before it did not. -/
def refuse (expected : Expected) (s : Sight) : Sight :=
  if s.hasMisfit then s else { s with misfits := s.misfits ++ [⟨expected, s.span⟩] }

end Sight

/-! ## Readers -/

/-- The place of the event that begins a node. -/
structure Beginning where
  index : Nat
deriving DecidableEq, Repr

/-- What is to come, and the events so far. -/
structure Reader extends Sight where
  events : Array Event

namespace Reader

def ofTokens (tokens : List Token) : Reader := ⟨.ofTokens tokens, #[]⟩

/-! ### Moving on -/

/-- Leaves an event behind. -/
def leave (event : Event) (r : Reader) : Reader := { r with events := r.events.push event }

/-- Comes to see something else, behind the events that take so many tokens. -/
def move (count : Nat) (sight : Sight) (r : Reader) : Reader :=
  ⟨sight, r.events ++ Array.replicate count .takes⟩

/-- Takes the blanks and comments before the next token. -/
def flush (r : Reader) : Reader := r.move r.leading.length r.toSight.flush

/-- Takes the next token, and the blanks and comments before it. -/
def advance (r : Reader) : Reader := r.move r.next.length r.toSight.advance

def refuse (expected : Expected) (r : Reader) : Reader :=
  { r with toSight := r.toSight.refuse expected }

/-- Takes the next token, which has to be of one of the kinds. -/
def take (kinds : List TokenKind) (r : Reader) : Reader :=
  if r.isAtAny kinds then r.advance else r.refuse (.token (kinds.headD .eof))

/-! ### Nodes -/

/-- Where the next event goes. -/
def here (r : Reader) : Beginning := ⟨r.events.size⟩

/-- Begins a node. -/
def begin (r : Reader) : Reader := r.leave (.begins none none)

/-- Begins a node around one that has ended. -/
def beginAround (inner : Beginning) (r : Reader) : Reader :=
  { r with events := r.events.modify inner.index (Event.linkedTo r.events.size) }.begin

/-- Ends a node, which is of that kind. -/
def finish (place : Beginning) (kind : NodeKind) (r : Reader) : Reader :=
  { r with events := r.events.modify place.index (Event.named kind) }.leave .ends

/-! ### Repetition -/

/-- Repeats a step as long as the question is answered with yes. A step that takes no token is the last
one. -/
def repeatWhile (question : Sight → Bool) (step : Reader → Reader) (r : Reader) : Reader :=
  if question r.toSight then
    let next := step r
    if next.ahead.length < r.ahead.length then repeatWhile question step next else next
  else r
termination_by r.ahead.length

/-- Repeats a step on what it answers, until it answers nothing. A step that takes no token is the last
one. -/
def repeatOn (step : Beginning → Reader → Option Beginning × Reader) (inner : Beginning)
    (r : Reader) : Beginning × Reader :=
  match step inner r with
  | (none, next) => (inner, next)
  | (some outer, next) =>
    if next.ahead.length < r.ahead.length then repeatOn step outer next else (outer, next)
termination_by r.ahead.length

end Reader

end RouteTypes
