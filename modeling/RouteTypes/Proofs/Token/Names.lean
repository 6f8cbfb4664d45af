-- Identifiers and reserved words. Whether a text is one is told from its characters, one by one, and such a
-- text, and no other, is cut into one token of that sort. So what may be written as a key without quotes is
-- read back as the one word that it is.
import RouteTypes.Proofs.Token.Apart
import RouteTypes.Proofs.Token.Cutting

namespace RouteTypes

namespace TokenKind

/-- An identifier or a reserved word. -/
def isWord (kind : TokenKind) : Bool := kind == .ident || kind.isKeyword

theorem isWord_iff {kind : TokenKind} : kind.isWord = true ↔ kind = .ident ∨ kind.isKeyword = true := by
  simp [isWord]

end TokenKind

namespace Token

open Text

/-! ## Texts of words -/

/-- What may stand in a word as a letter does. -/
def wordMarks : List Char := ['_', '$']

/-- The text of a word: a letter or a mark, with letters, numerals and marks behind it. -/
inductive Worded : List Char → Prop
  | word {c : Char} {body : List Char} (starts : isLetter c = true ∨ c ∈ wordMarks)
      (goesOn : ∀ d ∈ body, isLetter d = true ∨ isNumeral d = true ∨ d ∈ wordMarks) : Worded (c :: body)

section

variable {c : Char} {body rest : List Char} {kind : TokenKind}

theorem isNameStart_iff : isNameStart c = true ↔ isLetter c = true ∨ c ∈ wordMarks := by
  simp [isNameStart, wordMarks, or_assoc]

theorem isNamePart_iff : isNamePart c = true ↔ isLetter c = true ∨ isNumeral c = true ∨ c ∈ wordMarks := by
  simp [isNamePart, wordMarks, or_assoc]

theorem worded_cons_iff :
    Worded (c :: body) ↔ isNameStart c = true ∧ ∀ d ∈ body, isNamePart d = true := by
  constructor
  · intro h
    cases h with
    | word starts goesOn =>
      exact ⟨isNameStart_iff.mpr starts, fun d hd => isNamePart_iff.mpr (goesOn d hd)⟩
  · rintro ⟨hstart, hparts⟩
    exact .word (isNameStart_iff.mp hstart) fun d hd => isNamePart_iff.mp (hparts d hd)

theorem isName_iff (text : String) : isName text = true ↔ Worded text.toList := by
  unfold isName
  split
  · rename_i hnone
    rw [hnone]
    exact iff_of_false Bool.false_ne_true fun h => by cases h
  · rename_i c body hbody
    rw [hbody, worded_cons_iff, Bool.and_eq_true, List.all_eq_true]

/-! ## The next token -/

theorem wordKind_isWord (word : String) : (wordKind word).isWord = true :=
  wordKind_of (P := (·.isWord = true)) rfl (by decide) word

theorem stringBody_isWord (quote : Char) (cs : List Char) : (stringBody quote cs).1.isWord = false :=
  stringBody_of (P := (·.isWord = false)) rfl rfl quote cs

theorem blockCommentBody_isWord (cs : List Char) : (blockCommentBody cs).1.isWord = false :=
  blockCommentBody_of (P := (·.isWord = false)) rfl rfl cs

/-- A character that starts no name starts no word: every other token is of another kind. -/
theorem munch_isWord_of_other (h : isNameStart c = false) : (munch c rest).1.isWord = false := by
  unfold munch
  split
  · rfl
  -- Only one branch gives words, and it asks for the start of a name first.
  · split <;> (repeat' split) <;>
      first
      | rfl
      | exact stringBody_isWord _ _
      | exact blockCommentBody_isWord _
      | (rename_i hname
         rw [h] at hname
         cases hname)

theorem munch_isWord (c : Char) (rest : List Char) : (munch c rest).1.isWord = isNameStart c := by
  cases h : isNameStart c with
  | false => exact munch_isWord_of_other h
  | true =>
    rw [munch_name h]
    exact wordKind_isWord _

/-- What is measured as one token is a word if its text is one. -/
theorem munch_isWord_iff (h : munch c body = (kind, body.length)) : kind.isWord = true ↔ Worded (c :: body) := by
  have hkind := munch_isWord c body
  rw [h] at hkind
  rw [worded_cons_iff, hkind, iff_self_and]
  intro hname
  rw [munch_name hname] at h
  exact run_eq_length_iff.mp (congrArg Prod.snd h)

/-- The text of a word is measured as one token. -/
theorem munch_worded (h : Worded (c :: body)) :
    munch c body = (wordKind (String.ofList (c :: body)), body.length) := by
  obtain ⟨hname, hparts⟩ := worded_cons_iff.mp h
  rw [munch_name hname, run_eq_length_iff.mpr hparts, List.take_length]

end

/-! ## Tokens -/

section

variable {source text : String} {token : Token}

/-- The tokens that are identifiers or reserved words are told from their texts. -/
theorem kind_isWord_iff (h : token ∈ ofSource source) : token.kind.isWord = true ↔ Worded token.text.toList := by
  by_cases hkind : token.kind = .eof
  · obtain rfl := eq_end_of_kind h hkind
    exact iff_of_false Bool.false_ne_true fun hworded => by cases hworded
  · obtain ⟨c, body, htext, hmunch⟩ := exists_munch h hkind
    rw [htext, String.toList_ofList]
    exact munch_isWord_iff hmunch

/-- A text that is cut into one token is the text of that token. -/
theorem text_of_single (h : ofSource text = [token, ⟨.eof, ""⟩]) : token.text = text := by
  have hjoin := join_ofSource text
  rw [h] at hjoin
  simpa using hjoin

theorem ofSource_of_isName (h : isName text = true) : ofSource text = [⟨wordKind text, text⟩, ⟨.eof, ""⟩] := by
  have hworded := (isName_iff text).mp h
  have hspelled : String.ofList text.toList = text := String.ofList_toList
  rw [ofSource]
  cases hchars : text.toList with
  | nil =>
    rw [hchars] at hworded
    cases hworded
  | cons c body =>
    rw [hchars] at hworded hspelled
    rw [scan_of_munch (munch_worded hworded), hspelled]

theorem isName_of_single (h : ofSource text = [token, ⟨.eof, ""⟩]) (hword : token.kind.isWord = true) :
    isName text = true := by
  have hmem : token ∈ ofSource text := by
    rw [h]
    exact List.mem_cons_self
  rw [isName_iff, ← text_of_single h]
  exact (kind_isWord_iff hmem).mp hword

end

/-- A text is a name if and only if it is cut into one token that is an identifier or a reserved word. That
token is the whole text, and its kind is the one of the reserved word that the text is, or else that of
identifiers. -/
theorem names_are_single_words (text : String) :
    (isName text = true ↔ ∃ word, ofSource text = [word, ⟨.eof, ""⟩] ∧
      (word.kind = .ident ∨ word.kind.isKeyword = true)) ∧
    (isName text = true ↔ ofSource text = [⟨(TokenKind.ofWord? text).getD .ident, text⟩, ⟨.eof, ""⟩]) := by
  constructor
  · constructor
    · intro h
      exact ⟨_, ofSource_of_isName h, TokenKind.isWord_iff.mp (wordKind_isWord text)⟩
    · rintro ⟨word, hsingle, hkind⟩
      exact isName_of_single hsingle (TokenKind.isWord_iff.mpr hkind)
  · constructor
    · exact ofSource_of_isName
    · intro h
      exact isName_of_single h (wordKind_isWord text)

end Token

end RouteTypes
