-- TOML values that are not made of others: strings, numbers, truth values and times. A reader takes a
-- text to what stands at its start and to the rest, or refuses it.
import RouteTypes.Toml.Value
import RouteTypes.Json.Reader

namespace RouteTypes.Toml

/-! ## Characters -/

def isBlank (c : Char) : Bool := c = ' ' || c = '\t'

def skipBlanks (cs : List Char) : List Char := cs.dropWhile isBlank

/-- Any character but a control other than the tab. -/
def isText (c : Char) : Bool := c = '\t' || (0x20 ≤ c.toNat && c.toNat != 0x7f)

/-- The rest behind the end of a line. -/
def newline? : List Char → Option (List Char)
  | '\n' :: rest => some rest
  | '\r' :: '\n' :: rest => some rest
  | _ => none

/-- The rest behind a character that must come. -/
def expect (c : Char) : List Char → Option (List Char)
  | d :: rest => if c = d then some rest else none
  | [] => none

/-! ## Strings -/

/-- The character with a code in so many hexadecimal digits. Codes that are no characters are
refused. -/
def readCode (digits : Nat) (cs : List Char) : Option (Char × List Char) := do
  let values ← (cs.take digits).mapM Json.hexValue
  let code := values.foldl (fun code value => code * 16 + value) 0
  if values.length = digits ∧ code.isValidChar then
    some (Char.ofNat code, cs.drop digits)
  else none

/-- What stands behind a backslash. -/
def readEscape : List Char → Option (Char × List Char)
  | 'b' :: rest => some ('\x08', rest)
  | 't' :: rest => some ('\t', rest)
  | 'n' :: rest => some ('\n', rest)
  | 'f' :: rest => some ('\x0c', rest)
  | 'r' :: rest => some ('\r', rest)
  | '"' :: rest => some ('"', rest)
  | '\\' :: rest => some ('\\', rest)
  | 'u' :: rest => readCode 4 rest
  | 'U' :: rest => readCode 8 rest
  | _ => none

/-- The rest of a string on one line, up to and with its closing quote. -/
def readLine (quote : Char) : Nat → List Char → Option (List Char × List Char)
  | 0, _ => none
  | _, [] => none
  | fuel + 1, c :: rest =>
    if c = quote then some ([], rest)
    else if c = '\\' ∧ quote = '"' then do
      let (decoded, rest) ← readEscape rest
      let (body, rest) ← readLine quote fuel rest
      some (decoded :: body, rest)
    else if isText c then do
      let (body, rest) ← readLine quote fuel rest
      some (c :: body, rest)
    else none

/-- What is behind blanks and line ends. -/
def skipLines : List Char → List Char
  | [] => []
  | '\r' :: '\n' :: rest => skipLines rest
  | c :: rest => if isBlank c || c = '\n' then skipLines rest else c :: rest

/-- The rest behind the blanks and line ends that a backslash at the end of a line takes away. -/
def skipJoined (cs : List Char) : Option (List Char) :=
  (newline? (skipBlanks cs)).map skipLines

/-- The rest of a string over several lines, up to and with its three closing quotes. One or two
quotes before these belong to the string. -/
def readLines (quote : Char) : Nat → List Char → Option (List Char × List Char)
  | 0, _ => none
  | _, [] => none
  | fuel + 1, c :: rest =>
    if c = quote then
      let quotes := (rest.takeWhile (· = quote)).length + 1
      if quotes < 3 then do
        let (body, rest) ← readLines quote fuel rest
        some (c :: body, rest)
      else
        let kept := min (quotes - 3) 2
        some (List.replicate kept quote, rest.drop (kept + 2))
    else if c = '\\' ∧ quote = '"' then
      match skipJoined rest with
      | some rest => readLines quote fuel rest
      | none => do
        let (decoded, rest) ← readEscape rest
        let (body, rest) ← readLines quote fuel rest
        some (decoded :: body, rest)
    else if isText c then do
      let (body, rest) ← readLines quote fuel rest
      some (c :: body, rest)
    else do
      let rest ← newline? (c :: rest)
      let (body, rest) ← readLines quote fuel rest
      some ('\n' :: body, rest)

/-- A string, behind its first quote. A line end right behind three quotes does not count. -/
def readString (quote : Char) (cs : List Char) : Option (String × List Char) := do
  let (body, rest) ← match cs with
    | a :: b :: rest =>
      if a = quote ∧ b = quote then
        readLines quote (rest.length + 1) ((newline? rest).getD rest)
      else readLine quote (cs.length + 1) cs
    | _ => readLine quote (cs.length + 1) cs
  some (String.ofList body, rest)

/-! ## Times -/

/-- A number of exactly so many digits that lies between two bounds. -/
def readFixed (digits low high : Nat) (cs : List Char) : Option (Nat × List Char) :=
  let text := cs.take digits
  let value := text.foldl (fun value c => value * 10 + (c.toNat - '0'.toNat)) 0
  if text.length = digits ∧ text.all Char.isDigit ∧ low ≤ value ∧ value ≤ high then
    some (value, cs.drop digits)
  else none

def isLeapYear (year : Nat) : Bool := year % 4 == 0 && (year % 100 != 0 || year % 400 == 0)

def daysIn (year : Nat) : Nat → Nat
  | 2 => if isLeapYear year then 29 else 28
  | 4 | 6 | 9 | 11 => 30
  | _ => 31

/-- What is behind a date. -/
def skipDate (cs : List Char) : Option (List Char) := do
  let (year, cs) ← readFixed 4 0 9999 cs
  let (month, cs) ← readFixed 2 1 12 (← expect '-' cs)
  let (_, cs) ← readFixed 2 1 (daysIn year month) (← expect '-' cs)
  some cs

/-- What is behind a time of day. -/
def skipTime (cs : List Char) : Option (List Char) := do
  let (_, cs) ← readFixed 2 0 23 cs
  let (_, cs) ← readFixed 2 0 59 (← expect ':' cs)
  let (_, cs) ← readFixed 2 0 60 (← expect ':' cs)
  match cs with
  | '.' :: c :: rest =>
    if c.isDigit then some (rest.dropWhile Char.isDigit) else some cs
  | _ => some cs

/-- What is behind the distance from universal time, if there is one. -/
def skipOffset (cs : List Char) : Option (List Char) :=
  match cs with
  | c :: rest =>
    if c = 'Z' ∨ c = 'z' then some rest
    else if c = '+' ∨ c = '-' then do
      let (_, rest) ← readFixed 2 0 23 rest
      let (_, rest) ← readFixed 2 0 59 (← expect ':' rest)
      some rest
    else some cs
  | [] => some cs

/-- What is behind a date, a time of day, or both. -/
def skipDateTime (cs : List Char) : Option (List Char) :=
  match skipDate cs with
  | none => skipTime cs
  | some rest =>
    match rest with
    | c :: more =>
      if c = 'T' ∨ c = 't' ∨ c = ' ' then
        match skipTime more with
        | some behind => skipOffset behind
        | none => some rest
      else some rest
    | [] => some rest

/-! ## Numbers -/

/-- More digits, with single underscores between them. -/
def moreDigits (isDigit : Char → Bool) : List Char → Option (List Char × List Char)
  | [] => some ([], [])
  | '_' :: cs =>
    match cs with
    | [] => none
    | c :: rest =>
      if isDigit c then do
        let (digits, rest) ← moreDigits isDigit rest
        some (c :: digits, rest)
      else none
  | c :: rest =>
    if isDigit c then do
      let (digits, rest) ← moreDigits isDigit rest
      some (c :: digits, rest)
    else some ([], c :: rest)

/-- One digit or more. -/
def readDigits (isDigit : Char → Bool) (cs : List Char) : Option (List Char × List Char) :=
  match cs with
  | c :: _ => if isDigit c then moreDigits isDigit cs else none
  | [] => none

/-- The digits before the point: no zero in front of others. -/
def readWhole (cs : List Char) : Option (List Char × List Char) :=
  match cs with
  | '0' :: rest => some (['0'], rest)
  | cs => readDigits Char.isDigit cs

/-- What digits stand for in a base. -/
def valueOf (base : Nat) (digits : List Char) : Nat :=
  digits.foldl (fun value c => value * base + (Json.hexValue c).getD 0) 0

/-- An integer that 64 bits hold. -/
def bounded (value : Int) : Option Toml :=
  let bound : Int := Nat.pow 2 63
  if -bound ≤ value ∧ value < bound then some (.integer value) else none

/-- An integer in another base than ten. -/
def readBased (base : Nat) (cs : List Char) : Option (Toml × List Char) := do
  let (digits, rest) ← readDigits (fun c => (Json.hexValue c).any (· < base)) cs
  some (← bounded (valueOf base digits), rest)

/-- A sign, if there is one. -/
def readSign : List Char → List Char × List Char
  | '+' :: rest => (['+'], rest)
  | '-' :: rest => (['-'], rest)
  | rest => ([], rest)

/-- Digits behind a point, if there is one. -/
def readFraction : List Char → Option (List Char × List Char)
  | '.' :: rest => readDigits Char.isDigit rest
  | rest => some ([], rest)

/-- The exponent, if there is one. -/
def readExponent : List Char → Option (Option Int × List Char)
  | [] => some (none, [])
  | c :: rest =>
    if c = 'e' ∨ c = 'E' then do
      let (sign, rest) := readSign rest
      let (digits, rest) ← readDigits Char.isDigit rest
      let value : Int := valueOf 10 digits
      some (some (if sign = ['-'] then -value else value), rest)
    else some (none, c :: rest)

/-- Whether digits with a power of ten are too large for a binary number of 64 bits: they lie at or
above the middle between the largest one and the next power of two. -/
def isTooLarge (digits : List Char) (exponent : Int) : Bool :=
  let value := valueOf 10 digits
  let places := (toString value).length + exponent
  let bound := Nat.pow 2 1024 - Nat.pow 2 970
  let scale := Nat.pow 10 exponent.natAbs
  if value = 0 then false
  else if places < 309 then false
  else if places > 309 then true
  else if exponent < 0 then bound * scale ≤ value
  else bound ≤ value * scale

/-- A number in base ten. With a point or an exponent it is no integer. -/
def readDecimal (cs : List Char) : Option (Toml × List Char) := do
  let (sign, rest) := readSign cs
  let (whole, rest) ← readWhole rest
  let (fraction, rest) ← readFraction rest
  let (exponent, rest) ← readExponent rest
  if fraction = [] ∧ exponent = none then
    let value : Int := valueOf 10 whole
    some (← bounded (if sign = ['-'] then -value else value), rest)
  else if sign ≠ ['-'] ∧ isTooLarge (whole ++ fraction) (exponent.getD 0 - fraction.length) then none
  else some (.float (String.ofList (cs.take (cs.length - rest.length))), rest)

/-- A number that is none, or larger than all others. -/
def readSpecial (cs : List Char) : Option (Toml × List Char) :=
  match readSign cs with
  | (sign, 'i' :: 'n' :: 'f' :: rest) => some (.float (String.ofList (sign ++ ['i', 'n', 'f'])), rest)
  | (sign, 'n' :: 'a' :: 'n' :: rest) => some (.float (String.ofList (sign ++ ['n', 'a', 'n'])), rest)
  | _ => none

/-- A time or a number. -/
def readNumber (cs : List Char) : Option (Toml × List Char) :=
  match skipDateTime cs with
  | some rest => some (.dateTime (String.ofList (cs.take (cs.length - rest.length))), rest)
  | none =>
    match cs with
    | '0' :: 'x' :: rest => readBased 16 rest
    | '0' :: 'o' :: rest => readBased 8 rest
    | '0' :: 'b' :: rest => readBased 2 rest
    | _ => (readSpecial cs).or (readDecimal cs)

/-- A value that is not made of others. -/
def readScalar (cs : List Char) : Option (Toml × List Char) :=
  match cs with
  | 't' :: 'r' :: 'u' :: 'e' :: rest => some (.boolean true, rest)
  | 'f' :: 'a' :: 'l' :: 's' :: 'e' :: rest => some (.boolean false, rest)
  | c :: rest =>
    if c = '"' ∨ c = '\x27' then do
      let (text, rest) ← readString c rest
      some (.string text, rest)
    else readNumber cs
  | [] => none

end RouteTypes.Toml
