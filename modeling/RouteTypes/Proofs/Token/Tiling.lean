-- The tokens of a text tile it: their texts, put together, are the text again, and the end of the text
-- is the last token and no other one.
import RouteTypes.Token.Lexer

namespace RouteTypes.Token

/-! ## Kinds -/

theorem ofWord?_mem {word : String} {kind : TokenKind} (h : TokenKind.ofWord? word = some kind) :
    (word, kind) ∈ TokenKind.keywords := by
  obtain ⟨before, behind, heq, -⟩ := List.lookup_eq_some_iff.mp h
  rw [heq]
  exact List.mem_append_right _ List.mem_cons_self

section

variable {P : TokenKind → Prop}

/-- What holds of identifiers and of reserved words holds of all words. -/
theorem wordKind_of (hident : P .ident) (hkeywords : ∀ entry ∈ TokenKind.keywords, P entry.2) (word : String) :
    P (wordKind word) := by
  unfold wordKind
  cases hword : TokenKind.ofWord? word with
  | none => exact hident
  | some kind => exact hkeywords _ (ofWord?_mem hword)

theorem stringBody_of (herror : P .error) (hclosed : P .stringLiteral) (quote : Char) (cs : List Char) :
    P (stringBody quote cs).1 := by
  fun_induction stringBody quote cs <;> assumption

theorem blockCommentBody_of (herror : P .error) (hclosed : P .blockComment) (cs : List Char) :
    P (blockCommentBody cs).1 := by
  fun_induction blockCommentBody cs <;> assumption

end

theorem wordKind_ne_eof (word : String) : wordKind word ≠ .eof :=
  wordKind_of (P := (· ≠ .eof)) (by decide) (by decide) word

theorem stringBody_ne_eof (quote : Char) (cs : List Char) : (stringBody quote cs).1 ≠ .eof :=
  stringBody_of (P := (· ≠ .eof)) (by decide) (by decide) quote cs

theorem blockCommentBody_ne_eof (cs : List Char) : (blockCommentBody cs).1 ≠ .eof :=
  blockCommentBody_of (P := (· ≠ .eof)) (by decide) (by decide) cs

/-- No token that starts with a character is the end of the text. -/
theorem munch_ne_eof (c : Char) (rest : List Char) : (munch c rest).1 ≠ .eof := by
  unfold munch
  split
  · intro h
    cases h
  · split <;> (repeat' split) <;>
      first
      | exact stringBody_ne_eof _ _
      | exact blockCommentBody_ne_eof _
      | exact wordKind_ne_eof _
      | (intro h; cases h)

/-! ## Texts -/

/-- The texts of the tokens are the text. -/
theorem join_scan (cs : List Char) : String.join ((scan cs).map (·.text)) = String.ofList cs := by
  fun_induction scan cs with
  | case1 => rfl
  | case2 c rest next ih =>
    rw [List.map_cons, String.join_cons, ih, ← String.ofList_append, List.cons_append,
      List.take_append_drop]

theorem join_ofSource (source : String) : String.join ((ofSource source).map (·.text)) = source := by
  rw [ofSource, join_scan, String.ofList_toList]

/-- The end of the text is the last token, and the only one of its kind. -/
theorem scan_ends (cs : List Char) :
    ∃ before, scan cs = before ++ [⟨.eof, ""⟩] ∧ ∀ token ∈ before, token.kind ≠ .eof := by
  fun_induction scan cs with
  | case1 => exact ⟨[], rfl, by simp⟩
  | case2 c rest next ih =>
    obtain ⟨before, hscan, hbefore⟩ := ih
    refine ⟨⟨next.1, String.ofList (c :: rest.take next.2)⟩ :: before,
      by rw [hscan, List.cons_append], ?_⟩
    intro token htoken
    rcases List.mem_cons.mp htoken with rfl | htoken
    · exact munch_ne_eof c rest
    · exact hbefore token htoken

theorem ofSource_ends (source : String) :
    ∃ before, ofSource source = before ++ [⟨.eof, ""⟩] ∧ ∀ token ∈ before, token.kind ≠ .eof :=
  scan_ends source.toList

/-- A token of the kind for the end of a text has no text itself. -/
theorem eq_end_of_kind {source : String} {token : Token} (h : token ∈ ofSource source)
    (hkind : token.kind = .eof) : token = ⟨.eof, ""⟩ := by
  obtain ⟨before, hends, hbefore⟩ := ofSource_ends source
  rw [hends, List.mem_append, List.mem_singleton] at h
  exact h.resolve_left fun hmem => hbefore token hmem hkind

end RouteTypes.Token
