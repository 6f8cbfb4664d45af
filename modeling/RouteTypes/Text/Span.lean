-- Ranges of bytes in a source. A position is a byte offset into the UTF-8 text; `start` is inclusive,
-- `stop` is exclusive.

namespace RouteTypes.Text

/-- A range of bytes. -/
structure Span where
  start : Nat
  stop : Nat
deriving DecidableEq, Repr, Inhabited

namespace Span

/-- The number of bytes in the range. -/
def size (s : Span) : Nat := s.stop - s.start

def isEmpty (s : Span) : Bool := s.start == s.stop

/-- The smallest range that holds both. -/
def cover (s t : Span) : Span := ⟨min s.start t.start, max s.stop t.stop⟩

/-- The smallest range that holds all of them, if there are any. -/
def coverAll : List Span → Option Span
  | [] => none
  | s :: rest => some (rest.foldl cover s)

/-- The part of the range that lies in a source of `length` bytes; empty at the end of the source
if the range lies behind it. -/
def clamp (length : Nat) (s : Span) : Span :=
  let start := min s.start length
  ⟨start, max (min s.stop length) start⟩

theorem clamp_ordered (length : Nat) (s : Span) :
    (s.clamp length).start ≤ (s.clamp length).stop ∧ (s.clamp length).stop ≤ length := by
  simp only [clamp]
  omega

end Span

end RouteTypes.Text
