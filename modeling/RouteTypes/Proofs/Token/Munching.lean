-- What a token depends on. It is cut out of a text as before if the text behind it begins as before, or
-- if it did end and still ends before a character that goes on with no token.
import RouteTypes.Proofs.Token.Tiling

namespace RouteTypes

namespace Text

/-- The characters of a set, one by one. -/
def Ranges.chars (ranges : Ranges) : List Char :=
  ranges.flatMap fun (low, high) => (List.range' low (high + 1 - low)).map Char.ofNat

theorem Ranges.mem_chars {ranges : Ranges} {c : Char} (h : ranges.has c = true) : c ∈ ranges.chars := by
  obtain ⟨range, hrange, hlow, hhigh⟩ := (ranges.has_iff c).mp h
  refine List.mem_flatMap.mpr ⟨range, hrange, List.mem_map.mpr ⟨c.toNat, ?_, Char.ofNat_toNat c⟩⟩
  rw [List.mem_range'_1]
  omega

end Text

namespace TokenKind

/-- Whether a token of that kind ends before any stop. No blank or comment does, and a slash starts a
comment with another one. -/
def isClosed (kind : TokenKind) : Bool := !(kind.isTrivia || kind == .slash || kind == .error)

theorem isTrivia_of_isClosed {kind : TokenKind} (h : kind.isClosed = true) : kind.isTrivia = false := by
  simp only [isClosed, Bool.not_eq_true', Bool.or_eq_false_iff] at h
  exact h.1.1

/-- Blanks and comments, and the parenthesis that closes arguments. -/
def startsWithStop (kind : TokenKind) : Bool := kind.isTrivia || kind == .rParen

end TokenKind

namespace Token

open Text

/-! ## Stops -/

/-- The characters that go on with no token but blanks and comments. -/
def stops : List Char := ',' :: ')' :: '/' :: blankRanges.chars

/-- Whether a token that is neither blank nor comment may go on with the character. -/
def goesOn (d : Char) : Bool :=
  isNamePart d || isDigitOrBar d || isHexDigitOrBar d || isRadixMark d ||
    ['.', '=', '>', '&', '|', '?', '+', '-', 'e', 'E'].contains d

theorem stops_apart {d : Char} (hd : d ∈ stops) : goesOn d = false := by
  have hall : stops.all (!goesOn ·) = true := by decide +kernel
  exact (Bool.not_eq_true' _).mp (List.all_eq_true.mp hall d hd)

theorem stop_ne {c d : Char} (hd : d ∈ stops) (hc : c ∉ stops) : d ≠ c := by
  rintro rfl
  exact hc hd

theorem stop_noDigit {d : Char} (hd : d ∈ stops) : d.isDigit = false := by
  have hapart := stops_apart hd
  simp only [goesOn, Bool.or_eq_false_iff, isDigitOrBar] at hapart
  exact hapart.1.1.1.2.1

section

variable {d : Char} {rest : List Char} {p : Char → Bool}

/-! ## Runs -/

/-- A run ends at a character without the property, whatever stands behind it. -/
theorem run_append (front : List Char) (hp : p d = false) : run p (front ++ d :: rest) = run p front := by
  unfold run
  rw [List.takeWhile_append]
  split
  · rename_i hall
    rw [List.takeWhile_cons, hp, hall]
    simp
  · rfl

/-- A run goes on up to its end. -/
theorem run_eq_length {front : List Char} :
    run p (front ++ d :: rest) = front.length ↔ (∀ c ∈ front, p c = true) ∧ p d = false := by
  unfold run
  induction front with
  | nil => cases hp : p d <;> simp [hp]
  | cons c front ih => cases hp : p c <;> simp [hp, ih]

/-- A run goes over all of a text that has the property throughout, and no other. -/
theorem run_eq_length_iff {cs : List Char} : run p cs = cs.length ↔ ∀ c ∈ cs, p c = true := by
  unfold run
  induction cs with
  | nil => simp
  | cons c cs ih => cases hp : p c <;> simp [hp, ih]

/-! ## Numbers -/

theorem fractionLength_le (cs : List Char) : fractionLength cs ≤ cs.length := by
  unfold fractionLength
  split
  · exact Nat.zero_le _
  · rename_i rest _
    have hrun := run_le_length isDigitOrBar rest
    rw [List.length_cons]
    omega
  · exact Nat.zero_le _

theorem exponentLength_le (cs : List Char) : exponentLength cs ≤ cs.length := by
  match cs with
  | [] => exact Nat.le_refl _
  | [e] => simp [exponentLength, run]
  | e :: sign :: digits =>
    have hbehind := run_le_length Char.isDigit digits
    have hall := run_le_length Char.isDigit (sign :: digits)
    rw [List.length_cons] at hall
    simp only [exponentLength, List.head?_cons, List.tail_cons, List.length_cons]
    by_cases hsign : (some sign == some '+' || some sign == some '-') = true
    · simp only [hsign, if_true]
      split
      · split <;> omega
      · omega
    · simp only [hsign, if_false, Bool.false_eq_true]
      split
      · split <;> omega
      · omega

/-- No fraction starts or goes on with a character that is none of its own. -/
theorem fractionLength_append (front : List Char) (hp : isDigitOrBar d = false) (hdot : d ≠ '.') :
    fractionLength (front ++ d :: rest) = fractionLength front := by
  match front with
  | [] => simp [fractionLength, hdot]
  | [a] =>
    by_cases ha : a = '.'
    · have hrun := @run_append d rest isDigitOrBar [] hp
      simpa [ha, fractionLength, hdot] using hrun
    · simp [fractionLength, ha]
  | a :: b :: more =>
    by_cases ha : a = '.'
    · by_cases hb : b = '.'
      · simp [fractionLength, ha, hb]
      · have hrun := @run_append d rest isDigitOrBar (b :: more) hp
        simpa [fractionLength, ha, hb] using hrun
    · simp [fractionLength, ha]

theorem exponentLength_append (front : List Char) (hp : d.isDigit = false) (hsign : d ≠ '+' ∧ d ≠ '-')
    (hmark : d ≠ 'e' ∧ d ≠ 'E') :
    exponentLength (front ++ d :: rest) = exponentLength front := by
  match front with
  | [] => simp [exponentLength, hmark]
  | [e] =>
    have hrun : run Char.isDigit (d :: rest) = run Char.isDigit [] := run_append [] hp
    simp [exponentLength, hsign, hrun]
  | e :: sign :: digits =>
    have hbehind := @run_append d rest Char.isDigit digits hp
    have hall : run Char.isDigit (sign :: (digits ++ d :: rest)) = run Char.isDigit (sign :: digits) :=
      run_append (sign :: digits) hp
    rw [List.cons_append, List.cons_append, exponentLength, exponentLength, List.head?_cons, List.head?_cons,
      List.tail_cons, List.tail_cons]
    cases some sign == some '+' || some sign == some '-' with
    | true => simp only [hbehind, if_true]
    | false => simp only [hall, Bool.false_eq_true, if_false]

theorem numberLength_le (cs : List Char) : numberLength cs ≤ cs.length := by
  unfold numberLength
  split
  · rename_i hradix
    match cs with
    | [] | [c] => simp at hradix
    | c :: mark :: digits =>
      have hdigits := run_le_length isHexDigitOrBar digits
      simp only [List.drop_succ_cons, List.drop_zero, List.length_cons]
      omega
  · have hwhole := run_le_length isDigitOrBar cs
    have hfraction := fractionLength_le (cs.drop (run isDigitOrBar cs))
    have hexponent := exponentLength_le (cs.drop (run isDigitOrBar cs + fractionLength (cs.drop (run isDigitOrBar cs))))
    simp only [List.length_drop] at hfraction hexponent ⊢
    omega

/-- No number starts or goes on with a stop. -/
theorem numberLength_append (front : List Char) (h : d ∈ stops) :
    numberLength (front ++ d :: rest) = numberLength front := by
  have hapart := stops_apart h
  simp only [goesOn, Bool.or_eq_false_iff, List.contains_eq_mem, decide_eq_false_iff_not, List.mem_cons, not_or] at hapart
  obtain ⟨⟨⟨⟨-, hdigit⟩, hhex⟩, hmark⟩, hdot, -, -, -, -, -, hplus, hminus, hsmall, hlarge, -⟩ := hapart
  have hplain := stop_noDigit h
  have hradix : ((front ++ d :: rest).head? == some '0' && (front ++ d :: rest).tail.head?.any isRadixMark) =
      (front.head? == some '0' && front.tail.head?.any isRadixMark) := by
    match front with
    | [] => simp [stop_ne h (by decide : '0' ∉ stops)]
    | [c] => simp [hmark]
    | c :: mark :: digits => rfl
  have hwhole := @run_append d rest isDigitOrBar front hdigit
  have hfits := run_le_length isDigitOrBar front
  have hfraction := fractionLength_le (front.drop (run isDigitOrBar front))
  rw [List.length_drop] at hfraction
  have hend : run isDigitOrBar front + fractionLength (front.drop (run isDigitOrBar front)) ≤ front.length := by
    omega
  rw [numberLength, numberLength, hradix, hwhole]
  dsimp only
  split
  · rename_i hboth
    match front with
    | [] | [c] => simp at hboth
    | c :: mark :: digits => rw [List.drop_append_of_le_length (by simp), run_append _ hhex]
  · rw [List.drop_append_of_le_length hfits, fractionLength_append _ hdigit hdot,
      List.drop_append_of_le_length hend, exponentLength_append _ hplain ⟨hplus, hminus⟩ ⟨hsmall, hlarge⟩]

end

/-! ## Strings and comments -/

section

variable {quote e e' : Char} {kind : TokenKind} {rest rest' : List Char}

theorem stringBody_le (quote : Char) (cs : List Char) : (stringBody quote cs).2 ≤ cs.length := by
  fun_induction stringBody quote cs <;> simp +zetaDelta <;> omega

theorem blockCommentBody_le (cs : List Char) : (blockCommentBody cs).2 ≤ cs.length := by
  fun_induction blockCommentBody cs with
  | case1 => exact Nat.le_refl _
  | case2 rest => simp
  | case3 c rest _ inner ih => exact Nat.succ_le_succ ih

theorem stringBody_escape (quote c : Char) (rest : List Char) : stringBody quote ('\\' :: c :: rest) =
    ((stringBody quote rest).1, (stringBody quote rest).2 + 2) := by
  rw [stringBody]

theorem stringBody_plain {c : Char} (hc : c ≠ '\\') : stringBody quote (c :: rest) =
    if c = '\n' ∧ quote ≠ '\x60' then (.error, 0)
    else if c = quote then (.stringLiteral, 1)
    else ((stringBody quote rest).1, (stringBody quote rest).2 + 1) := by
  rw [stringBody]
  · intro h
    exact absurd h hc
  · intro _ _ h
    exact absurd h hc

/-- Only before a line feed a string has ended at once. -/
theorem stringBody_nothing (h : stringBody quote (e :: rest) = (kind, 0)) :
    kind = .error ∧ ∀ rest', stringBody quote (e :: rest') = (kind, 0) := by
  have hplain : e ≠ '\\' := by
    rintro rfl
    cases rest with
    | nil => cases h
    | cons c rest => simp [stringBody_escape] at h
  rw [stringBody_plain hplain] at h
  split at h
  · rename_i hfeed
    obtain ⟨rfl, -⟩ := Prod.mk.inj h
    refine ⟨rfl, fun rest' => ?_⟩
    rw [stringBody_plain hplain, if_pos hfeed]
  · split at h <;> simp at h

theorem stringBody_next {c : Char} {body : List Char} (hc : c ≠ '\\')
    (h : stringBody quote (c :: (body ++ e :: rest)) = (kind, body.length + 1))
    (ih : stringBody quote (body ++ e :: rest) = (kind, body.length) →
      stringBody quote (body ++ e' :: rest') = (kind, body.length)) :
    stringBody quote (c :: (body ++ e' :: rest')) = (kind, body.length + 1) := by
  rw [stringBody_plain hc] at h ⊢
  split
  · rename_i hfeed
    rw [if_pos hfeed] at h
    exact h
  · rename_i hfeed
    rw [if_neg hfeed] at h
    split
    · rename_i hquote
      rw [if_pos hquote] at h
      exact h
    · rename_i hquote
      rw [if_neg hquote] at h
      obtain ⟨hkind, hlength⟩ := Prod.mk.inj h
      rw [ih (Prod.ext hkind (Nat.add_right_cancel hlength))]

/-- A string is measured up to its closing quote. One that is not closed ends before a line feed. -/
theorem stringBody_again (hnext : e' = e ∨ kind ≠ .error) : ∀ body : List Char,
    stringBody quote (body ++ e :: rest) = (kind, body.length) →
      stringBody quote (body ++ e' :: rest') = (kind, body.length)
  | [], h => by
    obtain ⟨herror, hall⟩ := stringBody_nothing h
    rw [hnext.resolve_right fun hne => hne herror]
    exact hall rest'
  | [c], h => by
    by_cases hc : c = '\\'
    · rw [hc, List.singleton_append, stringBody_escape] at h
      simp at h
    · exact @stringBody_next quote e e' kind rest rest' c [] hc h (stringBody_again hnext [])
  | c :: c' :: body, h => by
    by_cases hc : c = '\\'
    · rw [hc, List.cons_append, List.cons_append, stringBody_escape] at h ⊢
      obtain ⟨hkind, hlength⟩ := Prod.mk.inj h
      rw [stringBody_again hnext body (Prod.ext hkind (Nat.add_right_cancel hlength))]
      rfl
    · exact stringBody_next hc h (stringBody_again hnext (c' :: body))

theorem blockCommentBody_cons {c : Char} {cs : List Char} (h : ¬ (c = '*' ∧ cs.head? = some '/')) :
    blockCommentBody (c :: cs) = ((blockCommentBody cs).1, (blockCommentBody cs).2 + 1) := by
  rw [blockCommentBody]
  rintro rest hc rfl
  exact h ⟨hc, rfl⟩

/-- Where something is left a comment has not ended before it begins. -/
theorem blockCommentBody_pos (e : Char) (rest : List Char) : (blockCommentBody (e :: rest)).2 ≠ 0 := by
  by_cases h : e = '*' ∧ rest.head? = some '/'
  · obtain ⟨rfl, hslash⟩ := h
    obtain ⟨more, rfl⟩ : ∃ more, rest = '/' :: more := by
      cases rest with
      | nil => cases hslash
      | cons d more => exact ⟨more, by rw [Option.some_inj.mp hslash]⟩
    exact Nat.succ_ne_zero 1
  · rw [blockCommentBody_cons h]
    exact Nat.succ_ne_zero _

/-- A comment that does not go to the end of the text is measured up to its closing. -/
theorem blockCommentBody_again : ∀ body : List Char,
    blockCommentBody (body ++ e :: rest) = (kind, body.length) →
      blockCommentBody (body ++ e' :: rest') = (kind, body.length)
  | [], h => absurd (congrArg Prod.snd h) (blockCommentBody_pos e rest)
  | [c], h => by
    exfalso
    by_cases hclose : c = '*' ∧ e = '/'
    · obtain ⟨rfl, rfl⟩ := hclose
      cases h
    · have hopen : ¬ (c = '*' ∧ (e :: rest).head? = some '/') :=
        fun hboth => hclose ⟨hboth.1, Option.some_inj.mp hboth.2⟩
      rw [List.singleton_append, blockCommentBody_cons hopen] at h
      exact blockCommentBody_pos e rest (Nat.add_right_cancel (congrArg Prod.snd h))
  | c :: c' :: body, h => by
    by_cases hclose : c = '*' ∧ c' = '/'
    · obtain ⟨rfl, rfl⟩ := hclose
      rw [List.cons_append, List.cons_append, blockCommentBody] at h ⊢
      exact h
    · have hopen : ∀ more, ¬ (c = '*' ∧ (c' :: body ++ more).head? = some '/') :=
        fun more hboth => hclose ⟨hboth.1, Option.some_inj.mp hboth.2⟩
      rw [List.cons_append, blockCommentBody_cons (hopen _)] at h ⊢
      obtain ⟨hkind, hlength⟩ := Prod.mk.inj h
      rw [blockCommentBody_again (c' :: body) (Prod.ext hkind (Nat.add_right_cancel hlength))]
      rfl

end

/-! ## The next token -/

section

variable {c d : Char} {rest : List Char}

/-- The characters that are a token alone, whatever stands behind them. -/
def brackets : List Char := ['(', ')', '[', ']', '{', '}', ',', ':', ';', '+', '-', '*', '%']

/-- The characters that start an operator, with those that go on with it. -/
def operators : List (Char × List Char) :=
  [('=', ['>', '=']), ('!', ['=']), ('<', ['=']), ('>', ['=']), ('&', ['&']), ('|', ['|']), ('?', ['?', '.'])]

/-- The characters that start any other token than a blank, a number or a word. -/
def marks : List Char := brackets ++ operators.map Prod.fst ++ ['.', '/', '"', '\x27', '\x60']

theorem munch_bracket (h : c ∈ brackets) : munch c rest = ((munch c []).1, 0) := by
  simp only [brackets, List.mem_cons, List.not_mem_nil, or_false] at h
  rcases h with rfl | rfl | rfl | rfl | rfl | rfl | rfl | rfl | rfl | rfl | rfl | rfl | rfl <;> rfl

theorem operators_solid : ∀ entry ∈ operators, isBlank entry.1 = false := by decide

theorem operators_apart {entry : Char × List Char} (h : entry ∈ operators) (hd : d ∈ stops) : d ∉ entry.2 := by
  have hall : operators.all (fun entry => entry.2.all goesOn) = true := by decide +kernel
  intro hmem
  have hgoes := List.all_eq_true.mp (List.all_eq_true.mp hall entry h) d hmem
  rw [stops_apart hd] at hgoes
  cases hgoes

/-- What goes on with no operator does not count. -/
theorem munch_operator_alone {a : Char} {entry : Char × List Char} (h : entry ∈ operators) (ha : a ∉ entry.2) :
    munch entry.1 (a :: rest) = munch entry.1 [] := by
  have hsolid := operators_solid entry h
  simp only [operators, List.mem_cons, List.not_mem_nil, or_false] at h
  rcases h with rfl | rfl | rfl | rfl | rfl | rfl | rfl
  all_goals
    simp only [List.mem_cons, List.not_mem_nil, or_false, not_or] at ha
    simp [munch.eq_def, hsolid, ha]

/-- An operator looks at two characters behind its first one. -/
theorem munch_operator_more {a b : Char} {entry : Char × List Char} (h : entry ∈ operators) (ha : a ∈ entry.2) :
    munch entry.1 (a :: b :: rest) = munch entry.1 [a, b] := by
  have hsolid := operators_solid entry h
  simp only [operators, List.mem_cons, List.not_mem_nil, or_false] at h
  rcases h with rfl | rfl | rfl | rfl | rfl | rfl | rfl
  all_goals
    simp only [List.mem_cons, List.not_mem_nil, or_false] at ha
    rcases ha with rfl | rfl
    all_goals first | rfl | by_cases hb : b = '=' <;> simp [munch.eq_def, hsolid, hb]

theorem munch_operator_last {a : Char} {entry : Char × List Char} (h : entry ∈ operators) (ha : a ∈ entry.2)
    (heq : d ≠ '=') (hdigit : d.isDigit = false) : munch entry.1 [a, d] = munch entry.1 [a] := by
  have hsolid := operators_solid entry h
  simp only [operators, List.mem_cons, List.not_mem_nil, or_false] at h
  rcases h with rfl | rfl | rfl | rfl | rfl | rfl | rfl
  all_goals
    simp only [List.mem_cons, List.not_mem_nil, or_false] at ha
    rcases ha with rfl | rfl
    all_goals first | rfl | simp [munch.eq_def, hsolid, heq, hdigit]

/-- No operator goes on with a stop. -/
theorem munch_operator {entry : Char × List Char} (h : entry ∈ operators) (hd : d ∈ stops) (front : List Char) :
    munch entry.1 (front ++ d :: rest) = munch entry.1 front := by
  match front with
  | [] => exact munch_operator_alone h (operators_apart h hd)
  | a :: front =>
    by_cases ha : a ∈ entry.2
    · match front with
      | [] =>
        rw [List.singleton_append, munch_operator_more h ha]
        exact munch_operator_last h ha (stop_ne hd (by decide)) (stop_noDigit hd)
      | b :: front => exact (munch_operator_more h ha).trans (munch_operator_more h ha).symm
    · exact (munch_operator_alone h ha).trans (munch_operator_alone h ha).symm

theorem munch_word (hblank : isBlank c = false) (h : c ∉ marks) : munch c rest =
    if c.isDigit then (.numberLiteral, numberLength (c :: rest) - 1)
    else if isNameStart c then
      (wordKind (String.ofList (c :: rest.take (run isNamePart rest))), run isNamePart rest)
    else (.error, 0) := by
  unfold munch
  rw [hblank, if_neg Bool.false_ne_true]
  split
  all_goals first | rfl | exact absurd (by decide) h

theorem munch_dot (h : ∀ more, rest ≠ '.' :: '.' :: more) : munch '.' rest =
    if rest.head?.any Char.isDigit then (.numberLiteral, numberLength ('.' :: rest) - 1) else (.dot, 0) := by
  have hsolid : isBlank '.' = false := by decide
  simp [munch.eq_def, hsolid]

theorem munch_dot_append (hd : d ∈ stops) (front : List Char) :
    munch '.' (front ++ d :: rest) = munch '.' front := by
  have hdot : d ≠ '.' := stop_ne hd (by decide)
  by_cases hdots : ∃ more, front = '.' :: '.' :: more
  · obtain ⟨more, rfl⟩ := hdots
    rfl
  · have hfront : ∀ more, front ≠ '.' :: '.' :: more := fun more hmore => hdots ⟨more, hmore⟩
    have hall : ∀ more, front ++ d :: rest ≠ '.' :: '.' :: more := by
      intro more hmore
      match front with
      | [] => exact hdot (List.cons.inj hmore).1
      | [a] => exact hdot (List.cons.inj (List.cons.inj hmore).2).1
      | a :: b :: front =>
        obtain ⟨ha, hmore⟩ := List.cons.inj hmore
        obtain ⟨hb, -⟩ := List.cons.inj hmore
        exact hfront front (by rw [ha, hb])
    have hhead : (front ++ d :: rest).head?.any Char.isDigit = front.head?.any Char.isDigit := by
      cases front with
      | nil => exact stop_noDigit hd
      | cons a front => rfl
    rw [munch_dot hfront, munch_dot hall, hhead, ← List.cons_append, numberLength_append _ hd]

/-- What is neither blank nor comment nor string ends before a stop, whatever stands behind that. -/
theorem munch_append (hd : d ∈ stops) (hblank : isBlank c = false) (hc : c ∉ ['/', '"', '\x27', '\x60'])
    (front : List Char) : munch c (front ++ d :: rest) = munch c front := by
  by_cases hmark : c ∈ marks
  · simp only [marks, List.mem_append, List.mem_cons] at hmark hc
    rcases hmark with (hbracket | hoperator) | rfl | hother
    · exact (munch_bracket hbracket).trans (munch_bracket hbracket).symm
    · obtain ⟨entry, hentry, rfl⟩ := List.mem_map.mp hoperator
      exact munch_operator hentry hd front
    · exact munch_dot_append hd front
    · exact absurd hother hc
  · have hrun := run_le_length isNamePart front
    have hname := stops_apart hd
    simp only [goesOn, Bool.or_eq_false_iff] at hname
    rw [munch_word hblank hmark, munch_word hblank hmark, ← List.cons_append, numberLength_append _ hd,
      run_append _ hname.1.1.1.1, List.take_append_of_le_length hrun]

/-- A token goes no further than the text. -/
theorem munch_le (c : Char) (rest : List Char) : (munch c rest).2 ≤ rest.length := by
  have hnumber := numberLength_le (c :: rest)
  rw [List.length_cons] at hnumber
  unfold munch
  split
  · exact run_le_length _ _
  · split <;> (repeat' split) <;>
      first
      | exact Nat.zero_le _
      | exact run_le_length _ _
      | exact stringBody_le _ _
      | exact Nat.succ_le_succ (blockCommentBody_le _)
      | (simp only [List.length_cons]; omega)

end

/-! ## What stands behind a token -/

section

variable {c d d' e e' quote : Char} {kind : TokenKind} {body between rest rest' : List Char}

theorem munch_blank (h : isBlank c = true) : munch c rest = (.whitespace, run isBlank rest) := by
  unfold munch
  rw [if_pos h]

theorem munch_quote (h : quote ∈ ['"', '\x27', '\x60']) : munch quote rest = stringBody quote rest := by
  simp only [List.mem_cons, List.not_mem_nil, or_false] at h
  rcases h with rfl | rfl | rfl <;> rfl

theorem munch_slash (h : e ≠ '/') (h' : e ≠ '*') : munch '/' (e :: rest) = (.slash, 0) := by
  have hsolid : isBlank '/' = false := by decide
  simp [munch.eq_def, hsolid, h, h']

theorem slash_again (h : munch '/' (body ++ e :: rest) = (kind, body.length))
    (hnext : e' = e ∨ kind.isClosed = true) : munch '/' (body ++ e' :: rest') = (kind, body.length) := by
  match body with
  | [] =>
    by_cases hline : e = '/'
    · subst hline
      cases (Prod.mk.inj h).2
    · by_cases hblock : e = '*'
      · subst hblock
        cases (Prod.mk.inj h).2
      · rw [List.nil_append, munch_slash hline hblock] at h
        obtain ⟨rfl, -⟩ := Prod.mk.inj h
        rw [hnext.resolve_right Bool.false_ne_true]
        exact munch_slash hline hblock
  | a :: body =>
    by_cases hline : a = '/'
    · subst hline
      have hmunch : ∀ more, munch '/' ('/' :: more) = (.lineComment, run (· ≠ '\n') ('/' :: more)) := fun _ => rfl
      rw [List.cons_append, hmunch] at h ⊢
      obtain ⟨rfl, hlength⟩ := Prod.mk.inj h
      obtain ⟨hall, hstop⟩ := (@run_eq_length e rest _ ('/' :: body)).mp hlength
      obtain rfl := hnext.resolve_right Bool.false_ne_true
      rw [← List.cons_append, run_eq_length.mpr ⟨hall, hstop⟩]
    · by_cases hblock : a = '*'
      · subst hblock
        have hmunch : ∀ more, munch '/' ('*' :: more) =
          ((blockCommentBody more).1, (blockCommentBody more).2 + 1) := fun _ => rfl
        rw [List.cons_append, hmunch] at h ⊢
        obtain ⟨hkind, hlength⟩ := Prod.mk.inj h
        rw [blockCommentBody_again body (Prod.ext hkind (Nat.add_right_cancel hlength))]
        rfl
      · rw [List.cons_append, munch_slash hline hblock] at h
        cases (Prod.mk.inj h).2

/-- A token is cut out as before if the text behind it begins as before, or if it is closed and stops come
next. -/
theorem munch_again (hd : d ∈ stops) (hd' : d' ∈ stops)
    (h : munch c (body ++ (between ++ d :: rest)) = (kind, body.length))
    (hnext : between ≠ [] ∨ kind.isClosed = true) :
    munch c (body ++ (between ++ d' :: rest')) = (kind, body.length) := by
  obtain ⟨e, e', more, more', hmore, hmore', hsame⟩ : ∃ e e' more more', between ++ d :: rest = e :: more ∧
      between ++ d' :: rest' = e' :: more' ∧ (e' = e ∨ kind.isClosed = true) := by
    cases between with
    | nil => exact ⟨d, d', rest, rest', rfl, rfl, .inr (hnext.resolve_left fun hne => hne rfl)⟩
    | cons e between => exact ⟨e, e, _, _, rfl, rfl, .inl rfl⟩
  by_cases hblank : isBlank c = true
  · rw [hmore, munch_blank hblank] at h
    obtain ⟨rfl, hlength⟩ := Prod.mk.inj h
    obtain ⟨hall, hstop⟩ := run_eq_length.mp hlength
    obtain rfl := hsame.resolve_right Bool.false_ne_true
    rw [hmore', munch_blank hblank, run_eq_length.mpr ⟨hall, hstop⟩]
  · by_cases hslash : c = '/'
    · rw [hslash, hmore] at h
      rw [hslash, hmore']
      exact slash_again h hsame
    · by_cases hquote : c ∈ ['"', '\x27', '\x60']
      · rw [hmore, munch_quote hquote] at h
        rw [hmore', munch_quote hquote]
        refine stringBody_again (hsame.imp_right fun hclosed => ?_) body h
        rintro rfl
        cases hclosed
      · have hother : c ∉ ['/', '"', '\x27', '\x60'] := by
          intro hc
          exact (List.mem_cons.mp hc).elim hslash hquote
        have hsolid := eq_false_of_ne_true hblank
        rw [← List.append_assoc, munch_append hd hsolid hother] at h
        rw [← List.append_assoc, munch_append hd' hsolid hother]
        exact h

theorem stringBody_startsWithStop (quote : Char) (cs : List Char) :
    (stringBody quote cs).1.startsWithStop = false :=
  stringBody_of (P := (·.startsWithStop = false)) rfl rfl quote cs

theorem wordKind_startsWithStop (word : String) : (wordKind word).startsWithStop = false :=
  wordKind_of (P := (·.startsWithStop = false)) rfl (by decide) word

theorem munch_stop (h : (munch c rest).1.startsWithStop = true) : c ∈ stops := by
  by_cases hblank : isBlank c = true
  · exact List.mem_cons_of_mem _ (List.mem_cons_of_mem _ (List.mem_cons_of_mem _ (Ranges.mem_chars hblank)))
  · unfold munch at h
    rw [if_neg hblank] at h
    split at h <;> (repeat' split at h) <;>
      first
      | decide
      | cases h
      | exact absurd h (by rw [stringBody_startsWithStop]; exact Bool.false_ne_true)
      | exact absurd h (by rw [wordKind_startsWithStop]; exact Bool.false_ne_true)

end

end Token

end RouteTypes
