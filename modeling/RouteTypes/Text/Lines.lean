-- Lines and columns of byte offsets. Both count from one, a column counts bytes, and a line ends
-- behind its line feed; no other byte ends a line. The line of an offset is looked up by halving.

namespace RouteTypes.Text

/-! ## Halving -/

section

variable {α : Type} (items : Array α) (test : α → Bool)

/-- How many items at the front of a row pass the test, if none passes behind one that fails. The place
where they end is looked for in ever smaller halves of the row. -/
def partitionPoint : Nat := search 0 items.size
where
  search (low high : Nat) : Nat :=
    if low < high then
      let middle := low + (high - low) / 2
      if items[middle]?.any test then search (middle + 1) high else search low middle
    else low
  termination_by high - low

variable {items test} {count : Nat} (hcount : ∀ i, items[i]?.any test = true ↔ i < count)

include hcount

/-- The place stays between the ends of the range that is halved. -/
theorem partitionPoint_search {low high : Nat} (hlow : low ≤ count) (hhigh : count ≤ high) :
    partitionPoint.search items test low high = count := by
  rw [partitionPoint.search]
  split
  · dsimp only
    split
    · rename_i hpass
      have hmiddle := (hcount _).mp hpass
      exact partitionPoint_search hmiddle hhigh
    · rename_i hfail
      have hmiddle := Nat.le_of_not_lt fun hlt => hfail ((hcount _).mpr hlt)
      exact partitionPoint_search hlow hmiddle
  · omega
termination_by high - low

theorem partitionPoint_eq : partitionPoint items test = count := by
  refine partitionPoint_search hcount (Nat.zero_le _) (Nat.le_of_not_lt fun hlt => ?_)
  have hpass := (hcount items.size).mpr hlt
  rw [Array.getElem?_size] at hpass
  cases hpass

end

/-! ## Lines -/

/-- The byte that ends a line. -/
def lineFeed : UInt8 := 10

/-- The bytes of a text. -/
def bytes (source : String) : List UInt8 := source.toByteArray.data.toList

/-- Where lines start among bytes that stand at `offset`: behind every line feed. -/
def startsAfterFeeds (offset : Nat) : List UInt8 → List Nat
  | [] => []
  | byte :: rest =>
    if byte = lineFeed then (offset + 1) :: startsAfterFeeds (offset + 1) rest
    else startsAfterFeeds (offset + 1) rest

theorem lt_of_mem_startsAfterFeeds {offset start : Nat} {bytes : List UInt8}
    (h : start ∈ startsAfterFeeds offset bytes) : offset < start := by
  induction bytes generalizing offset with
  | nil => cases h
  | cons byte rest ih =>
    rw [startsAfterFeeds] at h
    split at h
    · rcases List.mem_cons.mp h with rfl | h
      · exact Nat.lt_succ_self offset
      · exact Nat.lt_of_succ_lt (ih h)
    · exact Nat.lt_of_succ_lt (ih h)

theorem startsAfterFeeds_rising (offset : Nat) (bytes : List UInt8) :
    (startsAfterFeeds offset bytes).Pairwise (· < ·) := by
  induction bytes generalizing offset with
  | nil => exact .nil
  | cons byte rest ih =>
    rw [startsAfterFeeds]
    split
    · exact .cons (fun start => lt_of_mem_startsAfterFeeds) (ih (offset + 1))
    · exact ih (offset + 1)

/-- Where each line of a source starts, in rising order. The first one starts with the source. -/
structure Lines where
  starts : Array Nat
  first : starts[0]? = some 0
  rising : starts.toList.Pairwise (· < ·)
deriving Repr

namespace Lines

def ofSource (source : String) : Lines where
  starts := (0 :: startsAfterFeeds 0 (bytes source)).toArray
  first := rfl
  rising := .cons (fun _ => lt_of_mem_startsAfterFeeds) (startsAfterFeeds_rising 0 (bytes source))

def count (lines : Lines) : Nat := lines.starts.size

/-- Line and column of an offset: its line is the last that starts at or before it. Offsets past
the end count on from the start of the last line. -/
def position (lines : Lines) (offset : Nat) : Nat × Nat :=
  let index := partitionPoint lines.starts (· ≤ offset) - 1
  (index + 1, offset - lines.starts.getD index 0 + 1)

end Lines

end RouteTypes.Text
