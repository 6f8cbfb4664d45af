-- Cutting a text into tokens. Nothing is skipped: the texts of the tokens, put together, are the text
-- again, and the last token is the only one that is empty. A token is the longest one that starts
-- where the one before it ends, but `>>` is two tokens, since it may close two type argument lists.
import RouteTypes.Token.Kind
import RouteTypes.Text.Blank
import RouteTypes.Text.Letter

namespace RouteTypes.Token

open Text

/-! ## Names -/

def isNameStart (c : Char) : Bool := isLetter c || c = '_' || c = '$'

def isNamePart (c : Char) : Bool := isLetter c || isNumeral c || c = '_' || c = '$'

/-- An identifier, or a reserved word. -/
def isName (text : String) : Bool :=
  match text.toList with
  | [] => false
  | c :: rest => isNameStart c && rest.all isNamePart

/-! ## Runs -/

/-- How many characters at the head of the text have the property. -/
def run (p : Char → Bool) (cs : List Char) : Nat := (cs.takeWhile p).length

theorem run_le_length (p : Char → Bool) (cs : List Char) : run p cs ≤ cs.length := by
  simpa [run] using (List.takeWhile_sublist p).length_le

/-! ## Numbers -/

def isDigitOrBar (c : Char) : Bool := c.isDigit || c = '_'

def isHexDigitOrBar (c : Char) : Bool :=
  c.isDigit || ('a' ≤ c && c ≤ 'f') || ('A' ≤ c && c ≤ 'F') || c = '_'

def isRadixMark (c : Char) : Bool :=
  c = 'x' || c = 'X' || c = 'b' || c = 'B' || c = 'o' || c = 'O'

/-- The length of a point and the digits behind it. A point before another point does not belong to
the number. -/
def fractionLength : List Char → Nat
  | '.' :: '.' :: _ => 0
  | '.' :: rest => 1 + run isDigitOrBar rest
  | _ => 0

/-- The length of an exponent. It needs a digit; without one, its letter starts another token. -/
def exponentLength : List Char → Nat
  | [] => 0
  | e :: rest =>
    if e = 'e' || e = 'E' then
      let signed := rest.head? == some '+' || rest.head? == some '-'
      let digits := run Char.isDigit (if signed then rest.tail else rest)
      if digits = 0 then 0 else 1 + (if signed then 1 else 0) + digits
    else 0

/-- The length of a number: with a radix mark, or whole part, fraction and exponent. -/
def numberLength (cs : List Char) : Nat :=
  if cs.head? == some '0' && (cs.tail.head?.any isRadixMark) then
    2 + run isHexDigitOrBar (cs.drop 2)
  else
    let whole := run isDigitOrBar cs
    let fraction := fractionLength (cs.drop whole)
    whole + fraction + exponentLength (cs.drop (whole + fraction))

/-! ## Strings and comments

Each is read behind its opening, and measured up to and with its closing. What is not closed is no
token of the language. -/

/-- A backslash takes the character behind it along. Only a template may hold a line feed; in the
other strings it ends the token, and is not part of it. -/
def stringBody (quote : Char) : List Char → TokenKind × Nat
  | [] => (.error, 0)
  | ['\\'] => (.error, 1)
  | '\\' :: _ :: rest =>
    let inner := stringBody quote rest
    (inner.1, inner.2 + 2)
  | c :: rest =>
    if c = '\n' ∧ quote ≠ '\x60' then (.error, 0)
    else if c = quote then (.stringLiteral, 1)
    else
      let inner := stringBody quote rest
      (inner.1, inner.2 + 1)

def blockCommentBody : List Char → TokenKind × Nat
  | [] => (.error, 0)
  | '*' :: '/' :: _ => (.blockComment, 2)
  | _ :: rest =>
    let inner := blockCommentBody rest
    (inner.1, inner.2 + 1)

/-! ## The next token -/

/-- The kind of an identifier or reserved word. -/
def wordKind (word : String) : TokenKind := (TokenKind.ofWord? word).getD .ident

/-- The token that starts with `c`: its kind, and how many characters of the `rest` belong to it. -/
def munch (c : Char) (rest : List Char) : TokenKind × Nat :=
  if isBlank c then (.whitespace, run isBlank rest)
  else match c, rest with
    | '(', _ => (.lParen, 0)
    | ')', _ => (.rParen, 0)
    | '[', _ => (.lBracket, 0)
    | ']', _ => (.rBracket, 0)
    | '{', _ => (.lBrace, 0)
    | '}', _ => (.rBrace, 0)
    | ',', _ => (.comma, 0)
    | ':', _ => (.colon, 0)
    | ';', _ => (.semicolon, 0)
    | '+', _ => (.plus, 0)
    | '-', _ => (.minus, 0)
    | '*', _ => (.star, 0)
    | '%', _ => (.percent, 0)
    | '/', '/' :: _ => (.lineComment, run (· ≠ '\n') rest)
    | '/', '*' :: body =>
      let inner := blockCommentBody body
      (inner.1, inner.2 + 1)
    | '/', _ => (.slash, 0)
    | '=', '>' :: _ => (.fatArrow, 1)
    | '=', '=' :: '=' :: _ => (.eqEqEq, 2)
    | '=', '=' :: _ => (.eqEq, 1)
    | '=', _ => (.eq, 0)
    | '!', '=' :: '=' :: _ => (.notEqEq, 2)
    | '!', '=' :: _ => (.notEq, 1)
    | '!', _ => (.bang, 0)
    | '<', '=' :: _ => (.ltEq, 1)
    | '<', _ => (.lt, 0)
    | '>', '=' :: _ => (.gtEq, 1)
    | '>', _ => (.gt, 0)
    | '&', '&' :: _ => (.ampAmp, 1)
    | '&', _ => (.amp, 0)
    | '|', '|' :: _ => (.pipePipe, 1)
    | '|', _ => (.bar, 0)
    | '?', '?' :: _ => (.questionQuestion, 1)
    | '?', '.' :: more => if more.head?.any Char.isDigit then (.question, 0) else (.questionDot, 1)
    | '?', _ => (.question, 0)
    | '.', '.' :: '.' :: _ => (.dotDotDot, 2)
    | '.', _ =>
      if rest.head?.any Char.isDigit then (.numberLiteral, numberLength (c :: rest) - 1)
      else (.dot, 0)
    | '"', _ => stringBody '"' rest
    | '\x27', _ => stringBody '\x27' rest
    | '\x60', _ => stringBody '\x60' rest
    | _, _ =>
      if c.isDigit then (.numberLiteral, numberLength (c :: rest) - 1)
      else if isNameStart c then
        let n := run isNamePart rest
        (wordKind (String.ofList (c :: rest.take n)), n)
      else (.error, 0)

/-- The tokens of a text, with the empty one at its end. -/
def scan : List Char → List Token
  | [] => [⟨.eof, ""⟩]
  | c :: rest =>
    let next := munch c rest
    ⟨next.1, String.ofList (c :: rest.take next.2)⟩ :: scan (rest.drop next.2)
termination_by cs => cs.length
decreasing_by simp only [List.length_drop, List.length_cons]; omega

def ofSource (source : String) : List Token := scan source.toList

end RouteTypes.Token
