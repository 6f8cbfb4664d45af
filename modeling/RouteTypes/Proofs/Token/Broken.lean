-- What is no token of the language: strings and comments that are not closed, and characters that start
-- nothing. It is told from the text of a token alone, and these are the tokens of the kind for errors.
import RouteTypes.Proofs.Token.Apart

namespace RouteTypes.Token

open Text

/-! ## Texts that are no tokens -/

/-- Whether the closing quote does not come. A backslash takes the character behind it along. -/
def isOpenString (quote : Char) : List Char → Bool
  | [] => true
  | ['\\'] => true
  | '\\' :: _ :: rest => isOpenString quote rest
  | c :: rest => c != quote && isOpenString quote rest

/-- The text of what is no token of the language. -/
inductive Broken : List Char → Prop
  | string {quote : Char} {body : List Char} (quoted : quote ∈ ['"', '\x27', '\x60'])
      (unclosed : isOpenString quote body = true) : Broken (quote :: body)
  | comment {body : List Char} (unclosed : ¬ ['*', '/'] <:+: body) : Broken ('/' :: '*' :: body)
  | character {c : Char} (solid : isBlank c = false) (unmarked : c ∉ marks) (noDigit : c.isDigit = false)
      (noName : isNameStart c = false) : Broken [c]

theorem isOpenString_plain {quote c : Char} (hc : c ≠ '\\') (rest : List Char) :
    isOpenString quote (c :: rest) = (c != quote && isOpenString quote rest) := by
  rw [isOpenString]
  · exact fun h => absurd h hc
  · exact fun _ _ h => absurd h hc

/-- A string that is measured up to the end of a text is closed, or what closes it does not come. -/
theorem stringBody_error_iff (quote : Char) (body : List Char) (hall : (stringBody quote body).2 = body.length) :
    (stringBody quote body).1 = .error ↔ isOpenString quote body = true := by
  fun_induction stringBody quote body with
  | case1 => simp [isOpenString]
  | case2 => simp [isOpenString]
  | case3 c rest inner ih =>
    rw [isOpenString]
    exact ih (Nat.add_right_cancel hall)
  | case4 => cases hall
  | case5 rest hlast hescape hfeed =>
    simp [isOpenString_plain (ne_backslash hlast hescape)]
  | case6 c rest hlast hescape hfeed hquote inner ih =>
    rw [isOpenString_plain (ne_backslash hlast hescape), bne_iff_ne.mpr hquote, Bool.true_and]
    exact ih (Nat.add_right_cancel hall)

theorem blockCommentBody_error_iff (body : List Char) (hall : (blockCommentBody body).2 = body.length) :
    (blockCommentBody body).1 = .error ↔ ¬ ['*', '/'] <:+: body := by
  fun_induction blockCommentBody body with
  | case1 => simp
  | case2 rest => simp [List.infix_cons_iff]
  | case3 c rest hopen inner ih =>
    have hnot : ¬ ['*', '/'] <+: c :: rest := by
      intro h
      obtain ⟨hstar, more, hmore⟩ := List.cons_prefix_cons.mp h
      exact hopen more hstar.symm hmore.symm
    rw [List.infix_cons_iff, or_iff_right hnot]
    exact ih (Nat.add_right_cancel hall)

/-! ## Tokens -/

section

variable {c : Char} {body : List Char} {kind : TokenKind}

theorem not_broken_of_isBlank (h : isBlank c = true) : ¬ Broken (c :: body) := by
  intro hbroken
  cases hbroken with
  | string hquoted =>
    have hall : ['"', '\x27', '\x60'].all (!isBlank ·) = true := by decide +kernel
    have hsolid := List.all_eq_true.mp hall c hquoted
    rw [h] at hsolid
    cases hsolid
  | comment => exact absurd h (by decide +kernel)
  | character hsolid => exact Bool.noConfusion (hsolid.symm.trans h)

/-- Brackets, operators and points start nothing that is no token. -/
theorem not_broken_of_mark (h : c ∈ marks) (hslash : c ≠ '/') (hquote : c ∉ ['"', '\x27', '\x60']) :
    ¬ Broken (c :: body) := by
  intro hbroken
  cases hbroken with
  | string hquoted => exact hquote hquoted
  | comment => exact hslash rfl
  | character _ hunmarked => exact hunmarked h

theorem munch_mark_ne_error (h : c ∈ marks) (hslash : c ≠ '/') (hquote : c ∉ ['"', '\x27', '\x60']) :
    (munch c body).1 ≠ .error := by
  unfold munch
  split
  · exact TokenKind.noConfusion
  · split <;> (repeat' split) <;>
      first
      | exact TokenKind.noConfusion
      | exact absurd rfl hslash
      | exact absurd (by decide) hquote
      | (refine absurd h ?_
         simp only [marks, brackets, operators, List.map_cons, List.map_nil, List.mem_append, List.mem_cons,
           List.not_mem_nil, or_false, not_or]
         and_intros <;> assumption)

theorem wordKind_ne_error (word : String) : wordKind word ≠ .error :=
  wordKind_of (P := (· ≠ .error)) (by decide) (by decide) word

theorem quotes_subset : ['"', '\x27', '\x60'] ⊆ marks := by decide

theorem broken_quote_iff (h : c ∈ ['"', '\x27', '\x60']) : Broken (c :: body) ↔ isOpenString c body = true := by
  refine ⟨fun hbroken => ?_, .string h⟩
  cases hbroken with
  | string _ hopen => exact hopen
  | comment => exact absurd h (by decide)
  | character _ hunmarked => exact absurd (quotes_subset h) hunmarked

theorem broken_slash_iff : Broken ('/' :: body) ↔ ∃ more, body = '*' :: more ∧ ¬ ['*', '/'] <:+: more := by
  constructor
  · intro hbroken
    cases hbroken with
    | string hquoted => exact absurd hquoted (by decide)
    | comment hopen => exact ⟨_, rfl, hopen⟩
    | character _ hunmarked => exact absurd (by decide) hunmarked
  · rintro ⟨more, rfl, hopen⟩
    exact .comment hopen

theorem munch_slash_error_iff (h : munch '/' body = (kind, body.length)) :
    kind = .error ↔ Broken ('/' :: body) := by
  rw [broken_slash_iff]
  match body with
  | [] =>
    obtain ⟨rfl, -⟩ := Prod.mk.inj h
    simp
  | e :: more =>
    by_cases hblock : e = '*'
    · subst hblock
      obtain ⟨rfl, hlength⟩ := Prod.mk.inj ((munch_blockComment more).symm.trans h)
      rw [blockCommentBody_error_iff more (Nat.add_right_cancel hlength)]
      simp
    · have hkind : kind ≠ .error := by
        by_cases hline : e = '/'
        · subst hline
          obtain ⟨rfl, -⟩ := Prod.mk.inj ((munch_lineComment more).symm.trans h)
          exact TokenKind.noConfusion
        · obtain ⟨rfl, -⟩ := Prod.mk.inj ((munch_slash hline hblock).symm.trans h)
          exact TokenKind.noConfusion
      simp [hkind, hblock]

theorem not_broken_of_word (hmark : c ∉ marks) (hstarts : c.isDigit = true ∨ isNameStart c = true) :
    ¬ Broken (c :: body) := by
  intro hbroken
  cases hbroken with
  | string hquoted => exact hmark (quotes_subset hquoted)
  | comment => exact hmark (by decide)
  | character _ _ hdigit hname =>
    rcases hstarts with hstarts | hstarts
    · exact Bool.noConfusion (hdigit.symm.trans hstarts)
    · exact Bool.noConfusion (hname.symm.trans hstarts)

theorem munch_word_error_iff (hsolid : isBlank c = false) (hmark : c ∉ marks)
    (h : munch c body = (kind, body.length)) : kind = .error ↔ Broken (c :: body) := by
  rw [munch_word hsolid hmark] at h
  split at h
  · rename_i hdigit
    obtain ⟨rfl, -⟩ := Prod.mk.inj h
    exact iff_of_false TokenKind.noConfusion (not_broken_of_word hmark (.inl hdigit))
  · split at h
    · rename_i hname
      obtain ⟨rfl, -⟩ := Prod.mk.inj h
      exact iff_of_false (wordKind_ne_error _) (not_broken_of_word hmark (.inr hname))
    · rename_i hdigit hname
      obtain ⟨rfl, hlength⟩ := Prod.mk.inj h
      obtain rfl := List.length_eq_zero_iff.mp hlength.symm
      exact iff_of_true rfl
        (.character hsolid hmark (eq_false_of_ne_true hdigit) (eq_false_of_ne_true hname))

/-- What is measured as one token is of the kind for errors if it is no token of the language. -/
theorem munch_error_iff (h : munch c body = (kind, body.length)) : kind = .error ↔ Broken (c :: body) := by
  by_cases hblank : isBlank c = true
  · obtain ⟨rfl, -⟩ := Prod.mk.inj ((munch_blank hblank).symm.trans h)
    exact iff_of_false TokenKind.noConfusion (not_broken_of_isBlank hblank)
  · by_cases hslash : c = '/'
    · subst hslash
      exact munch_slash_error_iff h
    · by_cases hquote : c ∈ ['"', '\x27', '\x60']
      · obtain ⟨rfl, hlength⟩ := Prod.mk.inj ((munch_quote hquote).symm.trans h)
        rw [broken_quote_iff hquote, stringBody_error_iff c body hlength]
      · by_cases hmark : c ∈ marks
        · have hkind := @munch_mark_ne_error c body hmark hslash hquote
          rw [h] at hkind
          exact iff_of_false hkind (not_broken_of_mark hmark hslash hquote)
        · exact munch_word_error_iff (eq_false_of_ne_true hblank) hmark h

end

/-- The tokens of the kind for errors are the strings and comments that are not closed, and the characters
that start nothing. -/
theorem kind_eq_error_iff {source : String} {token : Token} (h : token ∈ ofSource source) :
    token.kind = .error ↔ Broken token.text.toList := by
  by_cases hkind : token.kind = .eof
  · obtain rfl := eq_end_of_kind h hkind
    exact iff_of_false TokenKind.noConfusion fun hbroken => by cases hbroken
  · obtain ⟨c, body, htext, hmunch⟩ := exists_munch h hkind
    rw [htext, String.toList_ofList]
    exact munch_error_iff hmunch

end RouteTypes.Token
