-- White space: the characters with the Unicode property White_Space. A zero width space and a byte
-- order mark are not among them.
import RouteTypes.Text.Ranges

namespace RouteTypes.Text

/-- The property White_Space. -/
def blankRanges : Ranges := [
    (0x9, 0xd), (0x20, 0x20), (0x85, 0x85), (0xa0, 0xa0), (0x1680, 0x1680), (0x2000, 0x200a),
    (0x2028, 0x2029), (0x202f, 0x202f), (0x205f, 0x205f), (0x3000, 0x3000)]

/-- White space, which separates tokens. -/
def isBlank (c : Char) : Bool := blankRanges.has c

end RouteTypes.Text
