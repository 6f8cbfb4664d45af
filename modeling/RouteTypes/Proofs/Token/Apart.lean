-- Tokens on their own. What a token is can be told from its text alone: cut out of the text around it, it is
-- still one token of the same kind. Every look past the end of a token is for a character that would have
-- been part of it, so it makes no difference that there is none any more.
import RouteTypes.Proofs.Token.Munching

namespace RouteTypes.Token

open Text

section

variable {p : Char → Bool} {n : Nat}

/-! ## Runs and numbers -/

theorem run_cons (p : Char → Bool) (c : Char) (cs : List Char) :
    run p (c :: cs) = if p c then run p cs + 1 else 0 := by
  unfold run
  rw [List.takeWhile_cons]
  cases p c <;> rfl

/-- A run is as long in any front of the text that goes as far as it. -/
theorem run_take (cs : List Char) (h : run p cs ≤ n) : run p (cs.take n) = run p cs := by
  induction cs generalizing n with
  | nil => rw [List.take_nil]
  | cons c cs ih =>
    rw [run_cons] at h ⊢
    cases n with
    | zero =>
      rw [List.take_zero]
      exact (Nat.le_zero.mp h).symm
    | succ n =>
      rw [List.take_succ_cons, run_cons]
      split
      · rename_i hp
        rw [if_pos hp] at h
        rw [ih (Nat.le_of_succ_le_succ h)]
      · rfl

/-- Whether digits may stand behind the letter of an exponent only after this. -/
def signed (rest : List Char) : Bool := rest.head? == some '+' || rest.head? == some '-'

theorem exponentLength_cons {e : Char} (he : (e = 'e' || e = 'E') = true) (rest : List Char) :
    exponentLength (e :: rest) =
      if signed rest then if run Char.isDigit rest.tail = 0 then 0 else run Char.isDigit rest.tail + 2
      else if run Char.isDigit rest = 0 then 0 else run Char.isDigit rest + 1 := by
  rw [exponentLength, if_pos he, signed]
  cases rest.head? == some '+' || rest.head? == some '-' with
  | true => simp only [if_true, Nat.add_comm]
  | false => simp only [Bool.false_eq_true, if_false, Nat.add_comm]

theorem signed_take (rest : List Char) (h : 0 < n) : signed (rest.take n) = signed rest := by
  rw [signed, signed, List.head?_take, if_neg (by omega)]

theorem exponentLength_take (cs : List Char) :
    exponentLength (cs.take (exponentLength cs)) = exponentLength cs := by
  match cs with
  | [] => rfl
  | e :: rest =>
    by_cases he : (e = 'e' || e = 'E') = true
    · rw [exponentLength_cons he]
      split
      · split
        · rfl
        · rename_i hsigned hdigits
          have htail (n : Nat) : (rest.take (n + 1)).tail = rest.tail.take n := by cases rest <;> simp
          rw [List.take_succ_cons, exponentLength_cons he, signed_take _ (Nat.succ_pos _), if_pos hsigned,
            htail, run_take _ (Nat.le_refl _), if_neg hdigits]
      · split
        · rfl
        · rename_i hsigned hdigits
          rw [List.take_succ_cons, exponentLength_cons he, signed_take _ (Nat.pos_of_ne_zero hdigits),
            if_neg hsigned, run_take _ (Nat.le_refl _), if_neg hdigits]
    · simp [exponentLength, he]

theorem fractionLength_dot {rest : List Char} (h : rest.head? ≠ some '.') :
    fractionLength ('.' :: rest) = run isDigitOrBar rest + 1 := by
  unfold fractionLength
  split
  · rename_i heq
    cases heq
    exact absurd rfl h
  · rename_i heq
    cases heq
    exact Nat.add_comm 1 _
  · rename_i hnone
    exact absurd rfl (hnone rest)

theorem fractionLength_other {c : Char} (h : c ≠ '.') (rest : List Char) : fractionLength (c :: rest) = 0 := by
  simp [fractionLength, h]

/-- A fraction is as long without what stands behind it and its exponent. Where two points come next there is
neither of them, and nothing is left. -/
theorem fractionLength_take (cs : List Char)
    (h : n = fractionLength cs + exponentLength (cs.drop (fractionLength cs))) :
    fractionLength (cs.take n) = fractionLength cs := by
  match cs with
  | [] => rw [List.take_nil]
  | c :: rest =>
    by_cases hdot : c = '.'
    · subst hdot
      by_cases hsecond : rest.head? = some '.'
      · obtain ⟨more, rfl⟩ : ∃ more, rest = '.' :: more := List.head?_eq_some_iff.mp hsecond
        have hnothing : n = 0 := h
        rw [hnothing]
        rfl
      · obtain ⟨m, rfl⟩ : ∃ m, n = m + 1 := Nat.exists_eq_succ_of_ne_zero (by
          rw [h, fractionLength_dot hsecond]
          omega)
        rw [fractionLength_dot hsecond] at h ⊢
        have hfront : (rest.take m).head? ≠ some '.' := by
          rw [List.head?_take]
          split
          · exact Option.some_ne_none _ |>.symm
          · exact hsecond
        rw [List.take_succ_cons, fractionLength_dot hfront, run_take _ (by omega)]
    · rw [fractionLength_other hdot]
      cases n with
      | zero => rfl
      | succ n => rw [List.take_succ_cons, fractionLength_other hdot]

/-- A front of a text has no mark of a base that the text does not have. -/
theorem radix_of_take {cs : List Char}
    (h : ((cs.take n).head? == some '0' && (cs.take n).tail.head?.any isRadixMark) = true) :
    (cs.head? == some '0' && cs.tail.head?.any isRadixMark) = true := by
  have htail : (cs.take n).tail = cs.tail.take (n - 1) := by
    rw [← List.drop_one, List.drop_take, List.drop_one]
  rw [htail, List.head?_take, List.head?_take] at h
  by_cases hn : n - 1 = 0
  · simp [hn] at h
  · have hpos : n ≠ 0 := by omega
    rwa [if_neg hn, if_neg hpos] at h

/-- A number is as long without what stands behind it. -/
theorem numberLength_take (cs : List Char) : numberLength (cs.take (numberLength cs)) = numberLength cs := by
  by_cases hradix : (cs.head? == some '0' && cs.tail.head?.any isRadixMark) = true
  · match cs with
    | [] | [_] => simp at hradix
    | c :: mark :: digits =>
      have hlength (more : List Char) : numberLength (c :: mark :: more) = run isHexDigitOrBar more + 2 := by
        have hmore : ((c :: mark :: more).head? == some '0' &&
            (c :: mark :: more).tail.head?.any isRadixMark) = true := hradix
        rw [numberLength, if_pos hmore]
        exact Nat.add_comm 2 _
      rw [hlength, List.take_succ_cons, List.take_succ_cons, hlength, run_take _ (Nat.le_refl _)]
  · have hplain (n : Nat) : ¬ ((cs.take n).head? == some '0' && (cs.take n).tail.head?.any isRadixMark) = true :=
      fun h => hradix (radix_of_take h)
    have hwhole : numberLength cs = run isDigitOrBar cs + (fractionLength (cs.drop (run isDigitOrBar cs)) +
        exponentLength ((cs.drop (run isDigitOrBar cs)).drop (fractionLength (cs.drop (run isDigitOrBar cs))))) := by
      rw [numberLength, if_neg hradix, List.drop_drop, Nat.add_assoc]
    rw [hwhole, numberLength, if_neg (hplain _), run_take _ (Nat.le_add_right _ _)]
    dsimp only
    rw [List.drop_take, Nat.add_sub_cancel_left, fractionLength_take _ rfl, List.drop_take, ← Nat.add_assoc,
      Nat.add_sub_cancel_left, List.drop_drop, exponentLength_take]

/-! ## Strings and comments -/

/-- What is no escape does not start with a backslash. -/
theorem ne_backslash {c : Char} {rest : List Char} (hlast : c = '\\' → rest = [] → False)
    (hescape : ∀ d more, c = '\\' → rest = d :: more → False) : c ≠ '\\' := fun h => by
  cases rest with
  | nil => exact hlast h rfl
  | cons d more => exact hescape d more h rfl

theorem stringBody_take (quote : Char) (cs : List Char) :
    stringBody quote (cs.take (stringBody quote cs).2) = stringBody quote cs := by
  fun_induction stringBody quote cs with
  | case1 => rfl
  | case2 => rfl
  | case3 c rest inner ih => rw [List.take_succ_cons, List.take_succ_cons, stringBody_escape, ih]
  | case4 => rfl
  | case5 rest hlast hescape hfeed =>
    rw [List.take_succ_cons, stringBody_plain (ne_backslash hlast hescape), if_neg hfeed, if_pos rfl]
  | case6 c rest hlast hescape hfeed hquote inner ih =>
    rw [List.take_succ_cons, stringBody_plain (ne_backslash hlast hescape), if_neg hfeed, if_neg hquote, ih]

theorem blockCommentBody_take (cs : List Char) :
    blockCommentBody (cs.take (blockCommentBody cs).2) = blockCommentBody cs := by
  fun_induction blockCommentBody cs with
  | case1 => rfl
  | case2 rest => rfl
  | case3 c rest hopen inner ih =>
    have hfront : ¬ (c = '*' ∧ (rest.take inner.2).head? = some '/') := by
      rintro ⟨hstar, hslash⟩
      rw [List.head?_take] at hslash
      split at hslash
      · cases hslash
      · obtain ⟨more, rfl⟩ := List.head?_eq_some_iff.mp hslash
        exact hopen more hstar rfl
    rw [List.take_succ_cons, blockCommentBody_cons hfront, ih]

/-! ## The next token -/

section

variable {c : Char}

theorem operators_measured {entry : Char × List Char} (h : entry ∈ operators) :
    (munch entry.1 []).2 = 0 ∧ ∀ a ∈ entry.2, (munch entry.1 [a]).2 = 1 := by
  have hall : operators.all (fun entry => (munch entry.1 []).2 == 0 &&
      entry.2.all fun a => (munch entry.1 [a]).2 == 1) = true := by decide +kernel
  simpa using List.all_eq_true.mp hall entry h

/-- An operator is the same where it ends the text. -/
theorem munch_operator_take {entry : Char × List Char} (h : entry ∈ operators) (rest : List Char) :
    munch entry.1 (rest.take (munch entry.1 rest).2) = munch entry.1 rest := by
  obtain ⟨hnone, hone⟩ := operators_measured h
  match rest with
  | [] => rw [List.take_nil]
  | a :: more =>
    by_cases ha : a ∈ entry.2
    · match more with
      | [] => rw [hone a ha, List.take_succ_cons, List.take_zero]
      | b :: more =>
        have hsolid := operators_solid entry h
        rw [munch_operator_more h ha]
        simp only [operators, List.mem_cons, List.not_mem_nil, or_false] at h
        rcases h with rfl | rfl | rfl | rfl | rfl | rfl | rfl
        all_goals
          simp only [List.mem_cons, List.not_mem_nil, or_false] at ha
          rcases ha with rfl | rfl
        all_goals try rfl
        -- A second character counts behind an equals sign, and behind a question mark with a point.
        · by_cases hb : b = '=' <;> simp [munch.eq_def, hsolid, hb]
        · by_cases hb : b = '=' <;> simp [munch.eq_def, hsolid, hb]
        · cases hb : b.isDigit <;> simp [munch.eq_def, hsolid, hb]
    · rw [munch_operator_alone h ha, hnone, List.take_zero]

theorem run_digits_pos {rest : List Char} (h : rest.head?.any Char.isDigit = true) : 0 < run isDigitOrBar rest := by
  cases rest with
  | nil => cases h
  | cons c rest =>
    have hdigit : isDigitOrBar c = true := by
      rw [isDigitOrBar, Bool.or_eq_true]
      exact .inl h
    rw [run_cons, if_pos hdigit]
    exact Nat.succ_pos _

theorem numberLength_pos {c : Char} (h : c.isDigit = true) (rest : List Char) : 0 < numberLength (c :: rest) := by
  have hrun := @run_digits_pos (c :: rest) h
  unfold numberLength
  split
  · exact Nat.lt_of_lt_of_le Nat.zero_lt_two (Nat.le_add_right _ _)
  · dsimp only
    omega

/-- Behind a point there is a digit at least. -/
theorem numberLength_dot {rest : List Char} (h : rest.head?.any Char.isDigit = true) :
    1 < numberLength ('.' :: rest) := by
  have hdot : rest.head? ≠ some '.' := fun hdot => by
    rw [hdot] at h
    cases h
  have hrun := run_digits_pos h
  have hwhole : run isDigitOrBar ('.' :: rest) = 0 := by rw [run_cons, if_neg (by decide)]
  have hradix : ¬ (('.' :: rest).head? == some '0' && ('.' :: rest).tail.head?.any isRadixMark) = true := by simp
  rw [numberLength, if_neg hradix, hwhole]
  dsimp only
  rw [List.drop_zero, fractionLength_dot hdot]
  omega

/-- What starts like a number is the same number where it ends the text. -/
theorem number_take (c : Char) (rest : List Char) (h : 0 < numberLength (c :: rest)) :
    numberLength (c :: rest.take (numberLength (c :: rest) - 1)) = numberLength (c :: rest) := by
  have hfront := numberLength_take (c :: rest)
  obtain ⟨n, hn⟩ := Nat.exists_eq_succ_of_ne_zero (Nat.ne_of_gt h)
  rw [hn] at hfront ⊢
  exact hfront

theorem munch_dot_take (rest : List Char) : munch '.' (rest.take (munch '.' rest).2) = munch '.' rest := by
  by_cases hdots : ∃ more, rest = '.' :: '.' :: more
  · obtain ⟨more, rfl⟩ := hdots
    rfl
  · have hrest : ∀ more, rest ≠ '.' :: '.' :: more := fun more hmore => hdots ⟨more, hmore⟩
    rw [munch_dot hrest]
    split
    · rename_i hdigit
      have hfront : (rest.take (numberLength ('.' :: rest) - 1)).head?.any Char.isDigit = true := by
        rw [List.head?_take, if_neg (by have := numberLength_dot hdigit; omega)]
        exact hdigit
      have hplain : ∀ more, rest.take (numberLength ('.' :: rest) - 1) ≠ '.' :: '.' :: more := fun more hmore => by
        rw [hmore] at hfront
        cases hfront
      rw [munch_dot hplain, if_pos hfront, number_take '.' rest (Nat.lt_of_succ_lt (numberLength_dot hdigit))]
    · rfl

theorem munch_lineComment (rest : List Char) :
    munch '/' ('/' :: rest) = (.lineComment, run (· ≠ '\n') rest + 1) :=
  congrArg (Prod.mk _) (run_cons _ _ _)

theorem munch_blockComment (rest : List Char) :
    munch '/' ('*' :: rest) = ((blockCommentBody rest).1, (blockCommentBody rest).2 + 1) := rfl

theorem munch_slash_take (rest : List Char) : munch '/' (rest.take (munch '/' rest).2) = munch '/' rest := by
  match rest with
  | [] => rw [List.take_nil]
  | e :: more =>
    by_cases hline : e = '/'
    · subst hline
      rw [munch_lineComment, List.take_succ_cons, munch_lineComment, run_take _ (Nat.le_refl _)]
    · by_cases hblock : e = '*'
      · subst hblock
        rw [munch_blockComment, List.take_succ_cons, munch_blockComment, blockCommentBody_take]
      · rw [munch_slash hline hblock]
        rfl

/-- A token is the same where it ends the text. -/
theorem munch_take (c : Char) (rest : List Char) : munch c (rest.take (munch c rest).2) = munch c rest := by
  by_cases hblank : isBlank c = true
  · rw [munch_blank hblank, munch_blank hblank, run_take _ (Nat.le_refl _)]
  · have hsolid := eq_false_of_ne_true hblank
    by_cases hmark : c ∈ marks
    · simp only [marks, List.mem_append, List.mem_cons, List.not_mem_nil, or_false] at hmark
      rcases hmark with (hbracket | hoperator) | rfl | rfl | hquote
      · exact (munch_bracket hbracket).trans (munch_bracket hbracket).symm
      · obtain ⟨entry, hentry, rfl⟩ := List.mem_map.mp hoperator
        exact munch_operator_take hentry rest
      · exact munch_dot_take rest
      · exact munch_slash_take rest
      · have hquoted : c ∈ ['"', '\x27', '\x60'] := by simpa using hquote
        rw [munch_quote hquoted, munch_quote hquoted, stringBody_take]
    · rw [munch_word hsolid hmark]
      split
      · rename_i hdigit
        rw [munch_word hsolid hmark, if_pos hdigit, number_take c rest (numberLength_pos hdigit rest)]
      · split
        · rename_i hdigit hname
          rw [munch_word hsolid hmark, if_neg hdigit, if_pos hname, run_take _ (Nat.le_refl _), List.take_take,
            Nat.min_self]
        · rename_i hdigit hname
          rw [munch_word hsolid hmark, if_neg hdigit, if_neg hname]

end

end

/-! ## Texts -/

/-- The texts of tokens are measured as the tokens are. -/
theorem exists_munch {cs : List Char} {token : Token} (h : token ∈ scan cs) (hkind : token.kind ≠ .eof) :
    ∃ c body, token.text = String.ofList (c :: body) ∧ munch c body = (token.kind, body.length) := by
  fun_induction scan cs with
  | case1 =>
    rw [List.mem_singleton.mp h] at hkind
    exact absurd rfl hkind
  | case2 c rest next ih =>
    rcases List.mem_cons.mp h with rfl | h
    · refine ⟨c, rest.take next.2, rfl, ?_⟩
      rw [munch_take, List.length_take, Nat.min_eq_left (munch_le c rest)]
    · exact ih h

/-- What is measured as one token is cut into that token. -/
theorem scan_of_munch {c : Char} {body : List Char} {kind : TokenKind} (h : munch c body = (kind, body.length)) :
    scan (c :: body) = [⟨kind, String.ofList (c :: body)⟩, ⟨.eof, ""⟩] := by
  rw [scan]
  simp only [h, List.take_length, List.drop_length, scan]

/-- Whatever stands around a token in a text, its own text is that one token, of the same kind, and the
end. -/
theorem tokens_are_read_alone {source : String} {token : Token} (h : token ∈ ofSource source)
    (hkind : token.kind ≠ .eof) : ofSource token.text = [token, ⟨.eof, ""⟩] := by
  obtain ⟨c, body, htext, hmunch⟩ := exists_munch h hkind
  rw [htext, ofSource, String.toList_ofList, scan_of_munch hmunch, ← htext]

/-- A number before two points has no fraction, and is the same number alone. -/
theorem number_before_points_is_read_alone :
    ⟨.numberLiteral, "1"⟩ ∈ ofSource "1..2" ∧ ofSource "1" = [⟨.numberLiteral, "1"⟩, ⟨.eof, ""⟩] := by
  have hmem : ⟨.numberLiteral, "1"⟩ ∈ ofSource "1..2" := by decide +kernel
  exact ⟨hmem, tokens_are_read_alone hmem (by decide)⟩

end RouteTypes.Token
