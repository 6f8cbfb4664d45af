-- Tokens at their places in a text: each starts where the one before it stops.
import RouteTypes.Token.Kind
import RouteTypes.Text.Span

namespace RouteTypes

/-- A token and the bytes that it covers. -/
structure Placed where
  span : Text.Span
  token : Token
deriving DecidableEq, Repr

namespace Token

/-- The tokens of a text at their places, if the first one starts at `start`. -/
def placeAll (start : Nat) : List Token → List Placed
  | [] => []
  | token :: rest =>
    let stop := start + token.size
    ⟨⟨start, stop⟩, token⟩ :: placeAll stop rest

end Token

end RouteTypes
