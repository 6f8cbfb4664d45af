-- Where the tokens of a text stand in it. Between them nothing is left out and nothing is read twice: each
-- token covers the bytes that its text has in the source, from one boundary of characters to another, and
-- the next one starts there.
import Mathlib.Data.List.Chain
import Mathlib.Data.String.Basic
import RouteTypes.Proofs.Token.Cutting
import RouteTypes.Proofs.Route.Insertion

namespace RouteTypes

/-! ## Parts of a text -/

/-- Text between others is what is cut out from the one boundary to the other. -/
theorem extract_between (before text behind : String) :
    String.Pos.Raw.extract (before ++ text ++ behind) ⟨before.utf8ByteSize⟩
      ⟨before.utf8ByteSize + text.utf8ByteSize⟩ = text := by
  have h := String.extract_of_valid before.toList text.toList behind.toList
  simpa [String.append_assoc] using h

namespace Placed

/-- Whether the token is at the bytes that its text has in the source. -/
def Covers (source : String) (placed : Placed) : Prop :=
  ∃ before behind, source = before ++ placed.token.text ++ behind ∧
    placed.span = ⟨before.utf8ByteSize, before.utf8ByteSize + placed.token.text.utf8ByteSize⟩

variable {source : String} {placed : Placed}

theorem Covers.start_isValid (h : placed.Covers source) :
    (String.Pos.Raw.mk placed.span.start).IsValid source := by
  obtain ⟨before, behind, hsource, hspan⟩ := h
  refine String.Pos.Raw.isValid_iff_exists_append.mpr ⟨before, placed.token.text ++ behind, ?_, ?_⟩
  · rw [hsource, String.append_assoc]
  · rw [hspan]
    rfl

theorem Covers.stop_isValid (h : placed.Covers source) :
    (String.Pos.Raw.mk placed.span.stop).IsValid source := by
  obtain ⟨before, behind, hsource, hspan⟩ := h
  refine String.Pos.Raw.isValid_iff_exists_append.mpr ⟨before ++ placed.token.text, behind, hsource, ?_⟩
  rw [hspan, String.Pos.Raw.ext_iff, String.byteIdx_rawEndPos, String.utf8ByteSize_append]

theorem Covers.extract (h : placed.Covers source) :
    String.Pos.Raw.extract source ⟨placed.span.start⟩ ⟨placed.span.stop⟩ = placed.token.text := by
  obtain ⟨before, behind, hsource, hspan⟩ := h
  rw [hspan, hsource]
  exact extract_between before placed.token.text behind

end Placed

/-! ## Tokens in a row -/

namespace Token

/-- Each token starts where the one before it stops. -/
theorem isChain_placeAll (tokens : List Token) (start : Nat) :
    (placeAll start tokens).IsChain fun placed next => placed.span.stop = next.span.start := by
  induction tokens generalizing start with
  | nil => exact .nil
  | cons token rest ih =>
    refine List.isChain_cons.mpr ⟨fun next hnext => ?_, ih _⟩
    cases rest with
    | nil => simp [placeAll] at hnext
    | cons other rest =>
      simp only [placeAll, List.head?_cons, Option.mem_def, Option.some.injEq] at hnext
      rw [← hnext]

/-- Behind a text, tokens cover what their own texts make together. -/
theorem covers_placeAll (tokens : List Token) (before : String) :
    ∀ placed ∈ placeAll before.utf8ByteSize tokens,
      placed.Covers (before ++ String.join (tokens.map (·.text))) := by
  induction tokens generalizing before with
  | nil => simp [placeAll]
  | cons token rest ih =>
    intro placed hplaced
    rw [List.map_cons, String.join_cons]
    rcases List.mem_cons.mp hplaced with rfl | hplaced
    · exact ⟨before, String.join (rest.map (·.text)), by rw [String.append_assoc], rfl⟩
    · rw [Token.size, ← String.utf8ByteSize_append] at hplaced
      rw [← String.append_assoc]
      exact ih (before ++ token.text) placed hplaced

theorem sizeOf_eq (tokens : List Token) :
    sizeOf tokens = (String.join (tokens.map (·.text))).utf8ByteSize := by
  induction tokens with
  | nil => simp [sizeOf]
  | cons token rest ih =>
    rw [sizeOf, List.map_cons, List.sum_cons, ← sizeOf, ih, List.map_cons, String.join_cons,
      String.utf8ByteSize_append, size]

/-- A token takes at least one character, so there are no more of them than characters, apart from the end. -/
theorem length_scan_le (cs : List Char) : (scan cs).length ≤ cs.length + 1 := by
  fun_induction scan cs with
  | case1 => simp
  | case2 c rest next ih =>
    rw [List.length_drop] at ih
    simp only [List.length_cons]
    omega

/-- What tokens at their places are like that take up a whole text. -/
structure Tile (source : String) (tokens : List Placed) : Prop where
  first : tokens.head?.map (·.span.start) = some 0
  next : tokens.IsChain fun placed next => placed.span.stop = next.span.start
  /-- Each is between two boundaries of characters, and has the text that the source has there. -/
  covers : ∀ placed ∈ tokens, (String.Pos.Raw.mk placed.span.start).IsValid source ∧
    (String.Pos.Raw.mk placed.span.stop).IsValid source ∧
    String.Pos.Raw.extract source ⟨placed.span.start⟩ ⟨placed.span.stop⟩ = placed.token.text
  /-- None is empty but the last one, which alone is the end. -/
  last : ∃ before, tokens =
      before ++ [⟨⟨source.utf8ByteSize, source.utf8ByteSize⟩, ⟨.eof, ""⟩⟩] ∧
    ∀ placed ∈ before, placed.token.kind ≠ .eof ∧ placed.span.start < placed.span.stop
  whole : String.join (tokens.map (·.token.text)) = source

/-- The tokens of any text take it up as a whole. There are no more of them than characters and the end, and
each is as long as it is measured from its first character and all the text behind that. -/
theorem tokens_tile_source (source : String) :
    Tile source (placeAll 0 (ofSource source)) ∧ Cut (ofSource source) ∧
      (ofSource source).length ≤ source.length + 1 := by
  obtain ⟨before, htokens, hbefore⟩ := ofSource_ends source
  have hpos : ∀ token ∈ before, 0 < token.size := by
    intro token htoken
    refine scan_pos source.toList token ?_ (hbefore token htoken)
    rw [← ofSource, htokens]
    exact List.mem_append_left _ htoken
  have hcovers : ∀ placed ∈ placeAll 0 (ofSource source), placed.Covers source := by
    intro placed hplaced
    have := covers_placeAll (ofSource source) "" placed hplaced
    rwa [join_ofSource, String.empty_append] at this
  have hsize : sizeOf before = source.utf8ByteSize := by
    have hwhole := sizeOf_eq (ofSource source)
    rw [join_ofSource, htokens, sizeOf_append] at hwhole
    simpa [sizeOf, size] using hwhole
  refine ⟨⟨?_, isChain_placeAll _ 0, fun placed hplaced => ?_, ⟨placeAll 0 before, ?_, ?_⟩, ?_⟩,
    cut_scan source.toList, length_scan_le source.toList⟩
  · rw [htokens]
    cases before <;> rfl
  · have hplaced := hcovers placed hplaced
    exact ⟨hplaced.start_isValid, hplaced.stop_isValid, hplaced.extract⟩
  · rw [htokens, placeAll_append, hsize, Nat.zero_add]
    rfl
  · intro placed hplaced
    have htoken := token_mem_of_mem hplaced
    refine ⟨hbefore _ htoken, ?_⟩
    obtain ⟨_, _, -, hspan⟩ := hcovers placed (by
      rw [htokens, placeAll_append]
      exact List.mem_append_left _ hplaced)
    rw [hspan]
    exact Nat.lt_add_of_pos_right (hpos _ htoken)
  · have hmap := List.map_map (f := Placed.token) (g := Token.text) (l := placeAll 0 (ofSource source))
    rw [map_token_placeAll] at hmap
    exact hmap ▸ join_ofSource source

end Token

end RouteTypes
