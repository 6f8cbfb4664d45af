-- Tokens that are cut out again where groups of tokens have been put in between them. Told without any
-- grammar: a group may stand behind a token that ends by itself, if what follows starts with a stop and so
-- does the group.
import RouteTypes.Proofs.Token.Munching

namespace RouteTypes.Token

open Text

/-- The characters of tokens. -/
def chars (tokens : List Token) : List Char := tokens.flatMap (·.text.toList)

theorem chars_cons (token : Token) (tokens : List Token) :
    chars (token :: tokens) = token.text.toList ++ chars tokens := List.flatMap_cons

theorem chars_append (tokens others : List Token) : chars (tokens ++ others) = chars tokens ++ chars others :=
  List.flatMap_append

/-! ## Tokens of their own text -/

/-- The tokens are the ones that their text is cut into. -/
inductive Cut : List Token → Prop
  | done : Cut [⟨.eof, ""⟩]
  | next {c : Char} {body : List Char} {kind : TokenKind} {tokens : List Token}
      (munched : munch c (body ++ chars tokens) = (kind, body.length)) (others : Cut tokens) :
      Cut (⟨kind, String.ofList (c :: body)⟩ :: tokens)

theorem chars_scan (cs : List Char) : chars (scan cs) = cs := by
  fun_induction scan cs with
  | case1 => rfl
  | case2 c rest next ih =>
    rw [chars_cons, ih, String.toList_ofList, List.cons_append, List.take_append_drop]

theorem cut_scan (cs : List Char) : Cut (scan cs) := by
  fun_induction scan cs with
  | case1 => exact .done
  | case2 c rest next ih =>
    refine .next ?_ ih
    rw [chars_scan, List.take_append_drop, List.length_take, Nat.min_eq_left (munch_le c rest)]

theorem Cut.scan {tokens : List Token} (h : Cut tokens) : Token.scan (chars tokens) = tokens := by
  induction h with
  | done => simp [chars, Token.scan]
  | @next c body kind tokens munched others ih =>
    rw [chars_cons, String.toList_ofList, List.cons_append, Token.scan]
    simp only [munched, List.take_left, List.drop_left, ih]

theorem toList_join (tokens : List Token) : (String.join (tokens.map (·.text))).toList = chars tokens := by
  induction tokens with
  | nil => simp [chars]
  | cons token rest ih => rw [List.map_cons, String.join_cons, String.toList_append, ih, chars_cons]

/-! ## Groups -/

/-- Tokens that can be put in: they start with a stop, and are cut out before any others. -/
structure Group (group : List Token) : Prop where
  starts : ∃ d rest, chars group = d :: rest ∧ d ∈ stops
  cuts : ∀ tokens, Cut tokens → Cut (group ++ tokens)

/-- A blank, a comment or a closing parenthesis comes next. -/
def BeforeStop (tokens : List Token) : Prop := ∃ next ∈ tokens.head?, next.kind.startsWithStop = true

/-- Whether the second tokens are the first ones with groups put in behind closed tokens. -/
inductive Filled : List Token → List Token → Prop
  | nil : Filled [] []
  | keep (token : Token) {tokens tokens' : List Token} (others : Filled tokens tokens') :
      Filled (token :: tokens) (token :: tokens')
  | put {token : Token} {group tokens tokens' : List Token} (closed : token.kind.isClosed = true)
      (fits : Group group) (before : BeforeStop tokens) (others : Filled tokens tokens') :
      Filled (token :: tokens) (token :: (group ++ tokens'))

variable {tokens tokens' others others' : List Token}

theorem BeforeStop.append (h : BeforeStop tokens) (others : List Token) : BeforeStop (tokens ++ others) := by
  obtain ⟨next, hnext, hstops⟩ := h
  exact ⟨next, by rw [List.head?_append, hnext]; rfl, hstops⟩

theorem BeforeStop.starts (h : BeforeStop tokens) (hcut : Cut tokens) :
    ∃ d rest, chars tokens = d :: rest ∧ d ∈ stops := by
  obtain ⟨next, hnext, hstops⟩ := h
  cases hcut with
  | done =>
    obtain rfl := Option.some_inj.mp hnext
    cases hstops
  | @next c body kind tokens munched others =>
    obtain rfl := Option.some_inj.mp hnext
    refine ⟨c, body ++ chars tokens, ?_, munch_stop (by rw [munched]; exact hstops)⟩
    rw [chars_cons, String.toList_ofList, List.cons_append]

namespace Filled

theorem refl : ∀ tokens : List Token, Filled tokens tokens
  | [] => .nil
  | token :: rest => .keep token (refl rest)

theorem append (h : Filled tokens tokens') (h' : Filled others others') :
    Filled (tokens ++ others) (tokens' ++ others') := by
  induction h with
  | nil => exact h'
  | keep token _ ih => exact .keep token ih
  | put closed fits before _ ih =>
    rw [List.cons_append, List.cons_append, List.append_assoc]
    exact .put closed fits (before.append _) ih

/-- A group can stand behind tokens whose last one is closed. -/
theorem behind {front group : List Token} {token : Token} (h : Filled (front ++ [token]) tokens')
    (closed : token.kind.isClosed = true) (fits : Group group) (before : BeforeStop others)
    (h' : Filled others others') : Filled (front ++ [token] ++ others) (tokens' ++ (group ++ others')) := by
  induction front generalizing tokens' with
  | nil =>
    cases h with
    | keep _ hnone =>
      cases hnone
      have hput : Filled (token :: others) (token :: (group ++ others')) := .put closed fits before h'
      exact hput
    | put _ _ hbefore _ =>
      obtain ⟨next, hnext, -⟩ := hbefore
      cases hnext
  | cons first front ih =>
    cases h with
    | keep _ hothers => exact .keep first (ih hothers)
    | put hclosed hfits hbefore hothers =>
      have hput := Filled.put hclosed hfits (hbefore.append others) (ih hothers)
      rw [← List.append_assoc, ← List.cons_append, ← List.cons_append] at hput
      exact hput

/-- Where groups are put in the text is as it was, or it is different behind its first token only, from a
stop to a stop. -/
theorem differs (h : Filled tokens tokens') (hcut : Cut tokens) : chars tokens' = chars tokens ∨
    ∃ between d rest d' rest', between ≠ [] ∧ chars tokens = between ++ d :: rest ∧
      chars tokens' = between ++ d' :: rest' ∧ d ∈ stops ∧ d' ∈ stops := by
  induction h with
  | nil => cases hcut
  | keep token others ih =>
    cases hcut with
    | done =>
      cases others
      exact .inl rfl
    | @next c body kind _ munched hothers =>
      rw [chars_cons, chars_cons, String.toList_ofList]
      rcases ih hothers with hsame | ⟨between, d, rest, d', rest', hne, hchars, hchars', hstops⟩
      · exact .inl (by rw [hsame])
      · refine .inr ⟨c :: body ++ between, d, rest, d', rest', List.cons_ne_nil _ _, ?_, ?_, hstops⟩
        · rw [hchars, List.append_assoc]
        · rw [hchars', List.append_assoc]
  | @put token group tokens tokens' closed fits before others ih =>
    cases hcut with
    | done =>
      obtain ⟨next, hnext, -⟩ := before
      cases hnext
    | @next c body kind _ munched hothers =>
      obtain ⟨d, rest, hchars, hd⟩ := before.starts hothers
      obtain ⟨d', rest', hchars', hd'⟩ := fits.starts
      refine .inr ⟨c :: body, d, rest, d', rest' ++ chars tokens', List.cons_ne_nil _ _, ?_, ?_, hd, hd'⟩
      · rw [chars_cons, hchars, String.toList_ofList]
      · rw [chars_cons, chars_append, hchars', String.toList_ofList]
        rfl

/-- Tokens with groups put in are cut out again. -/
theorem cut (h : Filled tokens tokens') (hcut : Cut tokens) : Cut tokens' := by
  induction h with
  | nil => exact hcut
  | keep token others ih =>
    cases hcut with
    | done =>
      cases others
      exact .done
    | @next c body kind tokens munched hothers =>
      refine .next ?_ (ih hothers)
      rcases others.differs hothers with hsame | ⟨between, d, rest, d', rest', hne, hchars, hchars', hd, hd'⟩
      · rw [hsame, munched]
      · rw [hchars] at munched
        rw [hchars']
        exact munch_again hd hd' munched (.inl hne)
  | @put token group tokens tokens' closed fits before others ih =>
    cases hcut with
    | done =>
      obtain ⟨next, hnext, -⟩ := before
      cases hnext
    | @next c body kind _ munched hothers =>
      obtain ⟨d, rest, hchars, hd⟩ := before.starts hothers
      obtain ⟨d', rest', hchars', hd'⟩ := fits.starts
      refine .next ?_ (fits.cuts _ (ih hothers))
      rw [hchars] at munched
      rw [chars_append, hchars']
      exact @munch_again c d d' kind body [] rest (rest' ++ chars tokens') hd hd' munched (.inr closed)

end Filled

/-! ## Words and numbers -/

/-- What is alone a token is cut out before anything. -/
theorem cut_bracket {c : Char} (hc : c ∈ brackets) (h : Cut tokens) :
    Cut (⟨(munch c []).1, String.ofList [c]⟩ :: tokens) :=
  @Cut.next c [] _ tokens (munch_bracket hc) h

/-- A blank is cut out before anything but blanks. -/
theorem cut_blank {next : Token} (hnext : next.kind ≠ .whitespace) (h : Cut (next :: tokens)) :
    Cut (⟨.whitespace, " "⟩ :: next :: tokens) := by
  have hrun : run isBlank (chars (next :: tokens)) = 0 := by
    cases h with
    | done => simp [chars, run]
    | @next c body kind _ munched others =>
      have hblank : isBlank c = false := by
        refine eq_false_of_ne_true fun hblank => hnext ?_
        rw [munch_blank hblank] at munched
        exact (Prod.mk.inj munched).1.symm
      rw [chars_cons, String.toList_ofList]
      exact run_append [] hblank
  refine @Cut.next ' ' [] _ (next :: tokens) ?_ h
  rw [List.nil_append, munch_blank (by decide), hrun]
  rfl

/-- The digits. -/
def digits : List Char := Ranges.chars [(0x30, 0x39)]

theorem mem_digits {c : Char} (h : c.isDigit = true) : c ∈ digits := by
  refine Ranges.mem_chars ((Ranges.has_iff _ _).mpr ⟨_, List.mem_singleton_self _, ?_⟩)
  simpa [Char.isDigit, UInt32.le_iff_toNat_le] using h

theorem digits_solid {c : Char} (h : c.isDigit = true) : isBlank c = false ∧ c ∉ marks ∧ isRadixMark c = false := by
  have hall : digits.all (fun c => !isBlank c && !marks.contains c && !isRadixMark c) = true := by decide +kernel
  have hone := List.all_eq_true.mp hall c (mem_digits h)
  simpa [and_assoc] using hone

theorem numberLength_digits {cs : List Char} (h : ∀ c ∈ cs, c.isDigit = true) : numberLength cs = cs.length := by
  have hradix : cs.tail.head?.any isRadixMark = false := by
    match cs with
    | [] | [_] => rfl
    | _ :: mark :: _ =>
      exact (digits_solid (h mark (List.mem_cons_of_mem _ List.mem_cons_self))).2.2
  have hwhole : run isDigitOrBar cs = cs.length := by
    have hall : ∀ c ∈ cs, isDigitOrBar c = true := fun c hc => by
      rw [isDigitOrBar, h c hc]
      rfl
    exact run_eq_length_iff.mpr hall
  rw [numberLength, hradix, Bool.and_false, if_neg Bool.false_ne_true, hwhole]
  simp [fractionLength, exponentLength]

theorem cut_number (value : Nat) {d : Char} {rest : List Char} (hnext : chars tokens = d :: rest)
    (hd : d ∈ stops) (h : Cut tokens) : Cut (⟨.numberLiteral, toString value⟩ :: tokens) := by
  rw [Nat.toString_eq_ofList_toDigits]
  have hdigits : ∀ c ∈ Nat.toDigits 10 value, c.isDigit = true := fun c hc =>
    Nat.isDigit_of_mem_toDigits (by decide) (by decide) hc
  obtain ⟨c, body, hbody⟩ := List.exists_cons_of_ne_nil (@Nat.toDigits_ne_nil value 10)
  rw [hbody] at hdigits ⊢
  refine .next ?_ h
  have hfirst := hdigits c List.mem_cons_self
  obtain ⟨hblank, hmark, -⟩ := digits_solid hfirst
  rw [munch_word hblank hmark, if_pos hfirst, hnext, ← List.cons_append, numberLength_append _ hd,
    numberLength_digits hdigits]
  rfl

/-- The first character of a name starts no other token. -/
theorem nameStart_apart {c : Char} (h : isNameStart c = true) :
    isBlank c = false ∧ c ∉ marks ∧ c.isDigit = false := by
  have hall : (marks ++ digits ++ blankRanges.chars).all (!isNameStart ·) = true := by decide +kernel
  have hapart : c ∉ marks ++ digits ++ blankRanges.chars := fun hc => by
    have hone := List.all_eq_true.mp hall c hc
    rw [h] at hone
    cases hone
  rw [List.mem_append, List.mem_append, not_or, not_or] at hapart
  exact ⟨eq_false_of_ne_true fun hblank => hapart.2 (Ranges.mem_chars hblank), hapart.1.1,
    eq_false_of_ne_true fun hdigit => hapart.1.2 (mem_digits hdigit)⟩

/-- A character that starts a name is taken for nothing else, and the name goes on as far as it can. -/
theorem munch_name {c : Char} (h : isNameStart c = true) (rest : List Char) : munch c rest =
    (wordKind (String.ofList (c :: rest.take (run isNamePart rest))), run isNamePart rest) := by
  obtain ⟨hblank, hmark, hdigit⟩ := nameStart_apart h
  rw [munch_word hblank hmark, hdigit, if_neg Bool.false_ne_true, if_pos h]

/-- What is a name is cut out before anything that goes on with no name. -/
theorem cut_word {word : String} (hword : isName word = true) {d : Char} {rest : List Char}
    (hnext : chars tokens = d :: rest) (hd : isNamePart d = false) (h : Cut tokens) :
    Cut (⟨wordKind word, word⟩ :: tokens) := by
  have hspelled : String.ofList word.toList = word := String.ofList_toList
  unfold isName at hword
  split at hword
  · cases hword
  · rename_i c body hbody
    rw [Bool.and_eq_true, List.all_eq_true] at hword
    rw [hbody] at hspelled
    have hrun : run isNamePart (body ++ d :: rest) = body.length := run_eq_length.mpr ⟨hword.2, hd⟩
    rw [← hspelled]
    refine .next ?_ h
    rw [munch_name hword.1, hnext, hrun, List.take_left]

end RouteTypes.Token
