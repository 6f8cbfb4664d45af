-- Lines and columns, counted in the source itself: the line of an offset is one more than the line feeds before
-- it, and its column is counted from behind the last of them. The starts of the lines rise, so halving finds the
-- last one that is not behind the offset, and two offsets are in the order of their lines and columns.
import Mathlib.Algebra.Group.Nat.Defs
import RouteTypes.Text.Lines

namespace RouteTypes.Text

/-! ## Counting in the source -/

/-- How many line feeds there are before the offset. -/
def feedsBefore (source : String) (offset : Nat) : Nat := ((bytes source).take offset).count lineFeed

/-- The line of the offset starts there: with the source or behind a line feed, and no line feed is between. -/
structure StartsLine (source : String) (offset start : Nat) : Prop where
  le : start ≤ offset
  opens : start = 0 ∨ 0 < start ∧ (bytes source)[start - 1]? = some lineFeed
  last : ∀ i, start ≤ i → i < offset → (bytes source)[i]? ≠ some lineFeed

/-! ## Rising rows -/

section

variable {starts : List Nat} (h : starts.Pairwise (· < ·)) {offset : Nat}

include h

/-- In a rising row those that are not behind an offset stand in front. -/
theorem any_le_iff_lt_countP {i : Nat} :
    starts[i]?.any (· ≤ offset) = true ↔ i < starts.countP (· ≤ offset) := by
  induction starts generalizing i with
  | nil => simp
  | cons start rest ih =>
    obtain ⟨hstart, hrest⟩ := List.pairwise_cons.mp h
    by_cases hle : start ≤ offset
    · cases i with
      | zero => simp [hle]
      | succ i => simpa [hle] using ih hrest
    · have hbehind : ∀ other ∈ start :: rest, ¬ other ≤ offset := by
        intro other hother
        rcases List.mem_cons.mp hother with rfl | hother
        · exact hle
        · have := hstart other hother
          omega
      have hnone : (start :: rest).countP (· ≤ offset) = 0 :=
        List.countP_eq_zero.mpr fun other hother => by simpa using hbehind other hother
      rw [hnone, Option.any_eq_true]
      refine ⟨fun hany => ?_, fun hlt => absurd hlt (Nat.not_lt_zero i)⟩
      obtain ⟨other, hother, hother_le⟩ := hany
      exact absurd (of_decide_eq_true hother_le) (hbehind other (List.mem_of_getElem? hother))

end

/-! ## Where lines start -/

theorem mem_startsAfterFeeds {offset start : Nat} {row : List UInt8} :
    start ∈ startsAfterFeeds offset row ↔ ∃ i, row[i]? = some lineFeed ∧ start = offset + i + 1 := by
  induction row generalizing offset with
  | nil => simp [startsAfterFeeds]
  | cons byte rest ih =>
    have hrest : start ∈ startsAfterFeeds (offset + 1) rest ↔
        ∃ i, (byte :: rest)[i + 1]? = some lineFeed ∧ start = offset + (i + 1) + 1 := by
      rw [ih]
      simp only [List.getElem?_cons_succ]
      refine exists_congr fun i => and_congr_right fun _ => ?_
      omega
    rw [startsAfterFeeds, ← Nat.or_exists_add_one, ← hrest]
    split
    · rename_i hfeed
      simp [hfeed]
    · rename_i hother
      simp [hother]

/-- As many lines start behind the first one as there are line feeds before the offset. -/
theorem countP_startsAfterFeeds (offset count : Nat) (row : List UInt8) :
    (startsAfterFeeds offset row).countP (· ≤ offset + count) = (row.take count).count lineFeed := by
  induction row generalizing offset count with
  | nil => simp [startsAfterFeeds]
  | cons byte rest ih =>
    cases count with
    | zero =>
      rw [List.take_zero, List.count_nil, List.countP_eq_zero]
      intro start hstart
      have := lt_of_mem_startsAfterFeeds hstart
      simpa using this
    | succ count =>
      have hnext : offset + (count + 1) = offset + 1 + count := by omega
      rw [startsAfterFeeds, List.take_succ_cons, hnext]
      split
      · rename_i hfeed
        rw [List.countP_cons, ih, hfeed, List.count_cons_self]
        simp
      · rename_i hother
        rw [ih, List.count_cons_of_ne hother]

/-! ## Lines of offsets -/

namespace Lines

variable (lines : Lines) (offset : Nat)

/-- How many lines start at or before the offset. -/
def startedBy : Nat := lines.starts.toList.countP (· ≤ offset)

theorem partitionPoint_starts : partitionPoint lines.starts (· ≤ offset) = lines.startedBy offset :=
  partitionPoint_eq fun i => by
    rw [← Array.getElem?_toList]
    exact any_le_iff_lt_countP lines.rising

theorem getElem?_of_lt_startedBy {i : Nat} (h : i < lines.startedBy offset) :
    ∃ start, lines.starts[i]? = some start ∧ start ≤ offset := by
  obtain ⟨start, hstart, hle⟩ := (Option.any_eq_true _ _).mp ((any_le_iff_lt_countP lines.rising).mpr h)
  exact ⟨start, Array.getElem?_toList ▸ hstart, of_decide_eq_true hle⟩

theorem lt_startedBy {i start : Nat} (hstart : lines.starts[i]? = some start) (hle : start ≤ offset) :
    i < lines.startedBy offset := by
  refine (any_le_iff_lt_countP lines.rising).mp ((Option.any_eq_true _ _).mpr ⟨start, ?_, decide_eq_true hle⟩)
  rw [Array.getElem?_toList]
  exact hstart

/-- The first line starts before every offset. -/
theorem startedBy_pos : 0 < lines.startedBy offset := lines.lt_startedBy offset lines.first (Nat.zero_le _)

theorem startedBy_mono {other : Nat} (h : other ≤ offset) : lines.startedBy other ≤ lines.startedBy offset :=
  List.countP_mono_left fun _ _ hle => decide_eq_true (Nat.le_trans (of_decide_eq_true hle) h)

/-- The line of an offset is the last that starts at or before it, and its column counts from there. -/
theorem position_eq : ∃ start, lines.starts[lines.startedBy offset - 1]? = some start ∧ start ≤ offset ∧
    lines.position offset = (lines.startedBy offset, offset - start + 1) := by
  have hpos := lines.startedBy_pos offset
  obtain ⟨start, hstart, hle⟩ :=
    lines.getElem?_of_lt_startedBy offset (Nat.sub_lt hpos Nat.zero_lt_one)
  refine ⟨start, hstart, hle, ?_⟩
  have hget : lines.starts.getD (lines.startedBy offset - 1) 0 = start := by
    rw [Array.getD_eq_getD_getElem?, hstart]
    rfl
  simp only [position, partitionPoint_starts, hget, Nat.sub_add_cancel hpos]

/-- Of two offsets the later one is in a later line, or in a later column of the same line. -/
theorem position_lt {other : Nat} (h : other < offset) :
    Prod.Lex (· < ·) (· < ·) (lines.position other) (lines.position offset) := by
  obtain ⟨start, hstart, hle, heq⟩ := lines.position_eq offset
  obtain ⟨start', hstart', hle', heq'⟩ := lines.position_eq other
  rw [heq, heq']
  rcases Nat.lt_or_eq_of_le (lines.startedBy_mono offset (Nat.le_of_lt h)) with hlt | hsame
  · exact .left _ _ hlt
  · rw [hsame] at hstart' ⊢
    cases hstart.symm.trans hstart'
    exact .right _ (by omega)

end Lines

/-! ## Lines of a source -/

section

variable (source : String) (offset : Nat)

theorem startedBy_ofSource : (Lines.ofSource source).startedBy offset = 1 + feedsBefore source offset := by
  have hcount := countP_startsAfterFeeds 0 offset (bytes source)
  rw [Nat.zero_add] at hcount
  rw [Lines.startedBy, Lines.ofSource, List.toList_toArray, List.countP_cons, hcount, feedsBefore]
  simp [Nat.add_comm]

theorem mem_starts {start : Nat} : start ∈ (Lines.ofSource source).starts ↔
    start = 0 ∨ 0 < start ∧ (bytes source)[start - 1]? = some lineFeed := by
  rw [Lines.ofSource, List.mem_toArray, List.mem_cons, mem_startsAfterFeeds]
  refine or_congr_right ⟨?_, ?_⟩
  · rintro ⟨i, hfeed, rfl⟩
    exact ⟨Nat.succ_pos _, by simpa using hfeed⟩
  · rintro ⟨hpos, hfeed⟩
    exact ⟨start - 1, hfeed, by omega⟩

/-- A line starts within the source, or behind its last byte. -/
theorem le_size_of_mem_starts {start : Nat} (h : start ∈ (Lines.ofSource source).starts) :
    start ≤ source.utf8ByteSize := by
  rcases (mem_starts source).mp h with rfl | ⟨hpos, hfeed⟩
  · exact Nat.zero_le _
  · have hlt := (List.getElem?_eq_some_iff.mp hfeed).1
    have hlength : (bytes source).length = source.utf8ByteSize := rfl
    omega

variable {source offset} in
/-- The last start that is not behind the offset is where its line starts. -/
theorem startsLine_of_last {start : Nat} (hle : start ≤ offset)
    (hstart : (Lines.ofSource source).starts[(Lines.ofSource source).startedBy offset - 1]? = some start) :
    StartsLine source offset start := by
  refine ⟨hle, (mem_starts source).mp (Array.mem_of_getElem? hstart), fun i hi hlt hfeed => ?_⟩
  have hmem : i + 1 ∈ (Lines.ofSource source).starts :=
    (mem_starts source).mpr (.inr ⟨Nat.succ_pos i, by simpa using hfeed⟩)
  obtain ⟨j, hj⟩ := Array.getElem?_of_mem hmem
  have hbefore := (Lines.ofSource source).lt_startedBy offset hj hlt
  -- A line that starts behind the last one would be one more.
  have hnotAfter : ¬ (Lines.ofSource source).startedBy offset - 1 < j := by omega
  rcases Nat.lt_or_eq_of_le (Nat.le_of_not_lt hnotAfter) with hlt' | rfl
  · have hrising := List.pairwise_iff_getElem.mp (Lines.ofSource source).rising
    rw [← Array.getElem?_toList] at hj hstart
    obtain ⟨hjlt, hj⟩ := List.getElem?_eq_some_iff.mp hj
    obtain ⟨hllt, hl⟩ := List.getElem?_eq_some_iff.mp hstart
    have := hrising _ _ hjlt hllt hlt'
    omega
  · cases hj.symm.trans hstart
    omega

theorem feedsBefore_le : feedsBefore source offset ≤ source.utf8ByteSize :=
  Nat.le_trans List.count_le_length (List.length_take_le' _ _)

end

/-- In a source of less than 2³² - 1 bytes every offset below that number has a line and a column: the line is one
more than the line feeds before it, the column is counted from where that line starts, later offsets have later
ones, and every number on the way fits into 32 bits. -/
theorem positions_count_feeds {source : String} (hsource : source.utf8ByteSize < 2 ^ 32 - 1) {offset : Nat}
    (hoffset : offset < 2 ^ 32 - 1) :
    ∃ start line column, StartsLine source offset start ∧
      (Lines.ofSource source).position offset = (line, column) ∧
      line = 1 + feedsBefore source offset ∧ column = 1 + offset - start ∧
      (Lines.ofSource source).starts[line - 1]? = some start ∧ offset = start + column - 1 ∧
      line < 2 ^ 32 ∧ column < 2 ^ 32 ∧ (∀ other ∈ (Lines.ofSource source).starts, other < 2 ^ 32) ∧
      ∀ other < offset,
        Prod.Lex (· < ·) (· < ·) ((Lines.ofSource source).position other) (line, column) := by
  obtain ⟨start, hstart, hle, heq⟩ := (Lines.ofSource source).position_eq offset
  have hline := startedBy_ofSource source offset
  have hfeeds := feedsBefore_le source offset
  refine ⟨start, _, _, startsLine_of_last hle hstart, heq, hline, ?_, hstart, ?_, ?_, ?_, ?_, ?_⟩
  · omega
  · omega
  · omega
  · omega
  · intro other hother
    have := le_size_of_mem_starts source hother
    omega
  · intro other hother
    rw [← heq]
    exact (Lines.ofSource source).position_lt offset hother

/-- The third byte behind a line feed, in a source that goes on. -/
theorem third_of_second_line_counts_feeds :
    "ab\ncdef".utf8ByteSize < 2 ^ 32 - 1 ∧ 5 < 2 ^ 32 - 1 ∧
      ∃ start line column, StartsLine "ab\ncdef" 5 start ∧
        (Lines.ofSource "ab\ncdef").position 5 = (line, column) ∧ line = 2 ∧ column = 1 + 5 - start := by
  have hsize : "ab\ncdef".utf8ByteSize < 2 ^ 32 - 1 := by decide
  have hoffset : 5 < 2 ^ 32 - 1 := by decide
  obtain ⟨start, line, column, hstart, heq, hline, hcolumn, -⟩ := positions_count_feeds hsize hoffset
  exact ⟨hsize, hoffset, start, line, column, hstart, heq, hline.trans (by decide), hcolumn⟩

end RouteTypes.Text
