-- Matching programs are checked in step, with as many or more questions within questions for the second one. It may
-- take more rounds, since records are asked about too; those work out nothing that both have, because by then
-- everything in the first program is known.
import RouteTypes.Proofs.Typing.Alone
import RouteTypes.Proofs.Typing.Completing
import RouteTypes.Proofs.Typing.Declaring

namespace RouteTypes

open List Check
open Facts (noting)

variable {P : Pairing} {w : Sync}

/-! ## Going on alone -/

/-- From facts in step with these, the second check does this alone. -/
def AsideFrom (P : Pairing) (w : Sync) (f : Facts) {α : Type} (check' : Check α) : Prop :=
  ∀ (pending' : Pending) (f' : Facts), InStep P w f f' →
    ∃ out' w', check' pending' f' = some out' ∧ w ≤ w' ∧ InStep P w' f out'.2

namespace AsideFrom

variable {α β : Type} {f : Facts}

theorem ofAside {check' : Check α} (h : Aside P w check') : AsideFrom P w f check' :=
  fun pending' f' hf => h pending' f f' hf

protected theorem pure (a : α) : AsideFrom P w f (pure a : Check α) := ofAside (.pure a)

protected theorem bind {check' : Check α} {next' : α → Check β} (h : AsideFrom P w f check')
    (hnext : ∀ {w'} a, w ≤ w' → AsideFrom P w' f (next' a)) : AsideFrom P w f (check' >>= next') := by
  intro pending' f' hf
  obtain ⟨⟨a, g'⟩, w', hcheck, hle, hg⟩ := h pending' f' hf
  obtain ⟨out', w'', hrest, hle', hg'⟩ := hnext a hle pending' g' hg
  exact ⟨out', w'', Option.bind_eq_some_iff.mpr ⟨_, hcheck, hrest⟩, hle.trans hle', hg'⟩

protected theorem get {next' : Facts → Check α} (h : ∀ {f'}, InStep P w f f' → AsideFrom P w f (next' f')) :
    AsideFrom P w f (get >>= next') :=
  fun pending' f' hf => h hf pending' f' hf

protected theorem forM {check' : α → Check PUnit} : ∀ {w : Sync} (items : List α),
    (∀ item ∈ items, ∀ w', w ≤ w' → AsideFrom P w' f (check' item)) → AsideFrom P w f (items.forM check')
  | _, [], _ => .pure ()
  | w, item :: rest, h => .bind (h item mem_cons_self w le_rfl) fun _ hle =>
      AsideFrom.forM rest fun item hin w'' hle' => h item (mem_cons_of_mem _ hin) w'' (hle.trans hle')

/-- What is answered at once. -/
theorem known {check' : Check α} (h : ∀ {pending' f'}, InStep P w f f' → ∃ a, check' pending' f' = some (a, f')) :
    AsideFrom P w f check' := by
  intro pending' f' hf
  obtain ⟨a, ha⟩ : ∃ a, check' pending' f' = some (a, f') := h hf
  exact ⟨_, w, ha, le_rfl, hf⟩

end AsideFrom

/-- Before two checks in step, the second may do more alone. -/
theorem Aside.before {α β γ : Type} {R : Sync → α → β → Prop} {check : Check α} {check' : Check β}
    {first' : Check γ} (hfirst : Aside P w first') (h : ∀ {w'}, w ≤ w' → Follows P w' R check check') :
    Follows P w R check (first' >>= fun _ => check') := by
  intro pending pending' hpending f f' hf out hout
  obtain ⟨⟨_, g'⟩, w', hrun, hle, hg⟩ := hfirst pending' f f' hf
  obtain ⟨out', hrest, w'', hle', hstep, hR⟩ := h hle _ _ (hpending.mono hle) _ _ hg _ hout
  exact ⟨out', Option.bind_eq_some_iff.mpr ⟨_, hrun, hrest⟩, w'', hle.trans hle', hstep, hR⟩

/-! ## Ways to answer -/

/-- What is known is answered at once. -/
structure Recalls (ask : Ask) : Prop where
  valueOf : ∀ {id type pending s}, s.symbolTypes.get? id = some type → ask (.valueOf id) pending s = some (type, s)
  declared : ∀ {id type pending s}, s.declaredTypes.get? id = some type → ask (.declared id) pending s = some (type, s)
  members : ∀ {id pending s}, (∀ object, s.typeData id = .object object → object.hasMembers = true) →
    ask (.members id) pending s = some (id, s)
  returnOf : ∀ {id type pending s}, (s.signature id).returns = some type →
    ask (.returnOf id) pending s = some (type, s)

/-- Two ways to answer questions in step, the second of which answers what concerns a record by itself. -/
structure AsksBoth (P : Pairing) (ask ask' : Ask) : Prop extends Asks P ask ask' where
  recalls : Recalls ask'
  literal : ∀ {w : Sync} {node : Node}, P.grows = true → Put P.root P.root' node → node.kind = .literal →
    Aside P w (ask' (.expression node))
  other : ∀ {w : Sync} {id' : SymbolId}, w.OtherSymbol id' → Aside P w (ask' (.valueOf id'))
  filled : ∀ {w : Sync} {type' : TypeId}, w.types[type'.index]? = some false → Aside P w (ask' (.members type'))

theorem answer_recalls (depth : Nat) : Recalls (answer (depth + 1)) where
  valueOf {id type pending s} h := by
    show valueOf (answer depth) id pending s = _
    rw [Check.valueOf, get_bind, h]
    rfl
  declared {id type pending s} h := by
    show declared (answer depth) id pending s = _
    rw [Check.declared, get_bind, h]
    rfl
  members {id pending s} h := by
    show fillMembers (answer depth) id pending s = _
    rw [fillMembers, get_bind]
    cases hobject : s.object? id with
    | none => rfl
    | some object =>
      obtain ⟨kind, symbol, members, calls, constructs, stringIndex, typeParams, target, args, hasMembers⟩ := object
      obtain rfl : hasMembers = true := h _ (Facts.object?_eq_some hobject).2
      cases target <;> rfl
  returnOf {id type pending s} h := by
    show returnOf (answer depth) id pending s = _
    rw [Check.returnOf, get_bind, h]
    rfl

/-- With questions two deeper than in the first check there is an answer for all that concerns a record. -/
theorem answer_asksBoth {depth deeper : Nat} (hle : depth ≤ deeper + 1) (hgrows : P.grows = true → depth < deeper) :
    AsksBoth P (answer depth) (answer (deeper + 1)) where
  toAsks := answer_asks hle fun h => Nat.lt_succ_of_lt (hgrows h)
  recalls := answer_recalls deeper
  literal _ hput hkind := literal_aside hput hkind (answer deeper)
  other hid pending' f f' hf := by
    obtain ⟨symbol, -, hmade⟩ := hf.symbols.other hid
    obtain ⟨record, -, hrecord, -⟩ := hmade.declared
    obtain ⟨deepest, rfl⟩ := Nat.exists_eq_succ_of_ne_zero (Nat.ne_of_gt (Nat.lt_of_le_of_lt (Nat.zero_le _)
      (hgrows hrecord.grows)))
    exact valueOf_aside hid (fun hput hkind => literal_aside hput hkind (answer deepest)) pending' f f' hf
  filled htype := members_aside htype (answer deeper)

/-! ## Looking at both programs -/

section

variable {ask ask' : Ask}

mutual

/-- In a record only the numbers are looked at. -/
theorem lookAt_aside (hask : AsksBoth P ask ask') (hgrows : P.grows = true) {outer : Node} (houter : Put P.root P.root' outer) :
    ∀ {w : Sync} (part : Part), part ∈ outer.parts → Part.Still [part] →
      Aside P w (lookAt ask' outer.source (some outer) part)
  | _, .leaf _ _, _, _ => .pure ()
  | _, .node span kind parts, hpart, hstill => by
    let here : Node := ⟨outer.source, kind, span, parts, some outer⟩
    have hhere : Put P.root P.root' here := houter.child (Node.mem_children.mpr ⟨span, kind, parts, hpart, rfl⟩)
    obtain ⟨hkind, hparts⟩ := hstill.node
    have hbelow : ∀ {w}, Aside P w (lookAtAll ask' outer.source (some here) parts) :=
      lookAtAll_aside hask hgrows hhere parts (fun _ => id) hparts
    have hkinds : kind = .propertyAssignment ∨ kind = .name ∨ kind = .literal := by
      simpa [NodeKind.isStill, or_assoc] using hkind
    rw [lookAt]
    rcases hkinds with rfl | rfl | rfl
    · exact hbelow
    · exact hbelow
    · exact .bind (hask.literal hgrows hhere rfl) fun _ _ => hbelow

theorem lookAtAll_aside (hask : AsksBoth P ask ask') (hgrows : P.grows = true) {outer : Node}
    (houter : Put P.root P.root' outer) : ∀ {w : Sync} (parts : List Part), (∀ part ∈ parts, part ∈ outer.parts) → Part.Still parts →
      Aside P w (lookAtAll ask' outer.source (some outer) parts)
  | _, [], _, _ => .pure ()
  | _, part :: rest, hparts, hstill => by
    rw [lookAtAll]
    exact .bind (lookAt_aside hask hgrows houter part (hparts part mem_cons_self) hstill.first) fun _ _ =>
      lookAtAll_aside hask hgrows houter rest (fun part hin => hparts part (mem_cons_of_mem _ hin)) hstill.left

end

theorem lookAtAll_leaves {source : Source} {parent : Option Node} {parts : List Part}
    (h : ∀ part ∈ parts, part.isLeaf = true) : lookAtAll ask source parent parts = pure () := by
  induction parts with
  | nil => rfl
  | cons part rest ih =>
    rw [lookAtAll, ih fun part hin => h part (mem_cons_of_mem _ hin)]
    cases part with
    | leaf _ _ => rfl
    | node _ _ _ => cases h _ mem_cons_self

variable (hask : AsksBoth P ask ask')

include hask

/-- Both programs are looked at in step. -/
theorem Pairing.Twin.lookAtAll_follows {outer outer' : Node} (h : P.Twin outer outer') :
    Follows P w Follows.Nothing (lookAtAll ask outer.source (some outer) outer.parts)
      (lookAtAll ask' outer'.source (some outer') outer'.parts) := by
  refine h.walk (motive := fun outer outer' parts parts' => ∀ {w}, Follows P w Follows.Nothing
    (lookAtAll ask outer.source (some outer) parts) (lookAtAll ask' outer'.source (some outer') parts')) ?_ ?_ ?_ ?_ ?_
  · exact fun _ => .pure trivial
  · intro outer outer' part parts parts' hpart hrest
    cases part with
    | leaf _ _ => exact hrest
    | node _ _ _ => cases hpart
  · intro outer outer' part parts parts' hpart hrest
    cases part with
    | leaf _ _ => exact hrest
    | node _ _ _ => cases hpart
  · intro outer outer' span span' kind inner inner' parts parts' htwin hinner hrest w
    rw [lookAtAll, lookAtAll, lookAt, lookAt]
    dsimp only
    refine .bind (R := Follows.Nothing) ?_ fun _ _ => hrest
    cases htype : kind.isType
    · cases hexpression : kind.isExpression
      · exact hinner
      · exact .bind (hask.expression (htwin.alike hexpression rfl)) fun _ _ => hinner
    · exact .bind (hask.written (htwin.alike htype rfl)) fun _ _ => .pure trivial
  · intro outer outer' span kind parts inner behind htwin _ hrecord hparts hbehind w
    obtain ⟨rfl, hinner⟩ := Part.IsRecord.still hrecord.isRecord
    have hbelow : ∀ {w}, Aside P w (lookAtAll ask' outer'.source
        (some ⟨outer'.source, .objectLiteral, span, inner, some outer'⟩) inner) :=
      lookAtAll_aside hask hrecord.grows hrecord.put inner (fun _ => id) hinner
    rw [lookAtAll_leaves hparts, lookAtAll, lookAtAll_leaves hbehind, lookAt]
    exact Aside.before (.bind (hask.record hrecord) fun _ _ => hbelow) fun _ => .pure trivial

omit hask in
/-- What is done for each number: what is shared, in step; what the second check has alone, aside. -/
theorem marked_follows (marksOf : Sync → List Bool) (hmono : ∀ {w w'}, w ≤ w' → marksOf w <+: marksOf w')
    {check check' : Nat → Check PUnit}
    (hsame : ∀ {w i j}, Shared (marksOf w) i j → Follows P w Follows.Nothing (check i) (check' j))
    (hother : ∀ {w j}, (marksOf w)[j]? = some false → Aside P w (check' j)) :
    ∀ (rest taken : List Bool) {w : Sync}, taken ++ rest <+: marksOf w →
      Follows P w Follows.Nothing ((range' (taken.count true) (rest.count true)).forM check)
        ((range' taken.length rest.length).forM check')
  | [], _, _, _ => .pure trivial
  | mark :: rest, taken, w, hprefix => by
    have hnext : ∀ {w'}, w ≤ w' → (taken ++ [mark]) ++ rest <+: marksOf w' := fun hle => by
      rw [append_assoc, singleton_append]
      exact hprefix.trans (hmono hle)
    have hrest := fun {w'} (hle : w ≤ w') => marked_follows marksOf hmono hsame hother rest (taken ++ [mark]) (hnext hle)
    have hmark : (taken ++ mark :: rest)[taken.length]? = some mark := by simp
    cases mark with
    | true =>
      have hshared : Shared (taken ++ true :: rest) (taken.count true) taken.length := ⟨hmark, by simp⟩
      simp only [count_append, count_singleton_self, length_append, length_singleton] at hrest
      rw [count_cons_self, length_cons, range'_succ, range'_succ]
      exact .bind (hsame (hshared.mono hprefix)) fun hle _ => hrest hle
    | false =>
      simp only [count_append, length_append, length_singleton] at hrest
      rw [length_cons, range'_succ]
      refine Aside.before (hother ?_) fun hle => hrest hle
      obtain ⟨more, hmore⟩ := hprefix
      rw [← hmore]
      simp

/-! ## Rounds -/

omit hask in
/-- A symbol in both checks is asked the same in both. -/
theorem InStep.symbolQuery {f f' : Facts} (hf : InStep P w f f') {i j : Nat} (h : Shared w.symbols i j) :
    QueriesMatch P w (symbolQuery f i) (symbolQuery f' j) := by
  have hid : w.SameSymbol ⟨i⟩ ⟨j⟩ := h
  rw [Check.symbolQuery, Check.symbolQuery, (hf.symbol hid).kind]
  split
  · exact .valueOf hid
  · exact .declared hid

omit hask in
/-- A symbol of the second check alone is a property, so it is asked for its value. -/
theorem InStep.otherQuery {f f' : Facts} (hf : InStep P w f f') {j : Nat} (h : w.symbols[j]? = some false) :
    Check.symbolQuery f' j = .valueOf ⟨j⟩ := by
  obtain ⟨symbol, hsymbol, hmade⟩ := hf.symbols.other h
  have hfound : f'.symbol ⟨j⟩ = symbol := by
    rw [Facts.symbol, Array.getD_eq_getD_getElem?, hsymbol]
    rfl
  rw [Check.symbolQuery, hfound, hmade.kind]
  rfl

theorem symbols_follow {f f' : Facts} (hf : InStep P w f f') : Follows P w Follows.Nothing
    (forAll ask f.symbols.size Check.symbolQuery) (forAll ask' f'.symbols.size Check.symbolQuery) := by
  rw [forAll, forAll, hf.symbols.size, hf.symbols.size', range_eq_range', range_eq_range']
  refine marked_follows Sync.symbols (fun hle => hle.symbols) (fun h => .get fun hf => ?_)
    (fun h => .get fun hf => ?_) w.symbols [] (prefix_refl _)
  · exact .bind (hask.same (hf.symbolQuery h)) fun _ _ => .pure trivial
  · rw [hf.otherQuery h]
    exact .bind (hask.other h) fun _ _ => .pure ()

theorem types_follow {f f' : Facts} (hf : InStep P w f f') : Follows P w Follows.Nothing
    (forAll ask f.types.size fun _ index => .members ⟨index⟩)
    (forAll ask' f'.types.size fun _ index => .members ⟨index⟩) := by
  rw [forAll, forAll, hf.types.size, hf.types.size', range_eq_range', range_eq_range']
  refine marked_follows Sync.types (fun hle => hle.types) (fun {w i j} h => .get fun hf => ?_)
    (fun h => .get fun hf => ?_) w.types [] (prefix_refl _)
  · have htype : w.SameType ⟨i⟩ ⟨j⟩ := h
    exact .bind (hask.members htype) fun _ _ => .pure trivial
  · exact .bind (hask.filled h) fun _ _ => .pure ()

theorem signatures_follow {f f' : Facts} (hf : InStep P w f f') : Follows P w Follows.Nothing
    (forAll ask f.signatures.size fun _ index => .returnOf ⟨index⟩)
    (forAll ask' f'.signatures.size fun _ index => .returnOf ⟨index⟩) := by
  rw [forAll, forAll, hf.signatures.size]
  have hall : Forall₂ (· = ·) (range f.signatures.size) (range f.signatures.size) := forall₂_same.mpr fun _ _ => rfl
  refine .forM (A := fun _ => (· = ·)) (kept_const _) hall fun {w i j} _ h => ?_
  subst h
  exact .get fun _ => .bind (hask.returnOf ⟨i⟩) fun _ _ => .pure trivial

theorem round_follows : Follows P w Follows.Nothing (round ask) (round ask') :=
  .get fun hf => .bind (symbols_follow hask hf) fun _ _ => .get fun hf => .bind (types_follow hask hf) fun _ _ =>
    .get fun hf => signatures_follow hask hf

/-! ## Further rounds -/

variable {f : Facts} (hcomplete : f.Complete)

include hcomplete

omit hcomplete hask in
/-- What is done for each number alone, if nothing is left to do for what is shared. -/
theorem marked_aside (marksOf : Sync → List Bool) (hmono : ∀ {w w'}, w ≤ w' → marksOf w <+: marksOf w')
    {check' : Nat → Check PUnit} (hsame : ∀ {w i j}, Shared (marksOf w) i j → AsideFrom P w f (check' j))
    (hother : ∀ {w j}, (marksOf w)[j]? = some false → AsideFrom P w f (check' j)) :
    AsideFrom P w f ((range (marksOf w).length).forM check') := by
  refine .forM _ fun j hin w' hle => ?_
  have hlt : j < (marksOf w').length := Nat.lt_of_lt_of_le (mem_range.mp hin) (hmono hle).length_le
  have hmark := getElem?_eq_getElem hlt
  cases hvalue : (marksOf w')[j]
  · exact hother (hmark.trans (congrArg some hvalue))
  · obtain ⟨i, hi⟩ := Shared.exists_left (hmark.trans (congrArg some hvalue))
    exact hsame hi

theorem symbols_aside {f' : Facts} (hf : InStep P w f f') :
    AsideFrom P w f (forAll ask' f'.symbols.size Check.symbolQuery) := by
  rw [forAll, hf.symbols.size']
  refine marked_aside Sync.symbols (fun hle => hle.symbols) (fun {w i j} h => ?_) fun h => ?_
  · refine .get fun {f'} hf => .bind (.known fun {pending' g'} hg => ?_) fun _ _ => .pure ()
    have hid : w.SameSymbol ⟨i⟩ ⟨j⟩ := h
    have hhas : f.HasSymbol ⟨i⟩ := Nat.lt_of_lt_of_eq h.lt_count hf.symbols.size.symm
    rw [Check.symbolQuery, (hf.symbol hid).kind]
    cases hvalue : (f.symbol ⟨i⟩).kind.isValue
    · obtain ⟨type, htype⟩ := hcomplete.named hhas hvalue
      obtain ⟨type', htype', -⟩ := (hg.declaredTypes.get? w.symbolKeys' hid).right htype
      exact ⟨type', hask.recalls.declared htype'⟩
    · obtain ⟨type, htype⟩ := hcomplete.valued hhas hvalue
      obtain ⟨type', htype', -⟩ := (hg.symbolTypes.get? w.symbolKeys hid).right htype
      exact ⟨type', hask.recalls.valueOf htype'⟩
  · refine .get fun hf => ?_
    rw [hf.otherQuery h]
    exact .bind (.ofAside (hask.other h)) fun _ _ => .pure ()

theorem types_aside {f' : Facts} (hf : InStep P w f f') :
    AsideFrom P w f (forAll ask' f'.types.size fun _ index => .members ⟨index⟩) := by
  rw [forAll, hf.types.size']
  refine marked_aside Sync.types (fun hle => hle.types) (fun {w i j} h => ?_) fun h => ?_
  · refine .get fun {f'} hf => .bind (.known fun {pending' g'} hg => ⟨⟨j⟩, ?_⟩) fun _ _ => .pure ()
    have hid : w.SameType ⟨i⟩ ⟨j⟩ := h
    have hhas : f.HasType ⟨i⟩ := Nat.lt_of_lt_of_eq h.lt_count hf.types.size.symm
    refine hask.recalls.members fun object' hobject' => ?_
    have hdata := hg.typeData hid
    rw [hobject'] at hdata
    generalize hobject : f.typeData ⟨i⟩ = data at hdata
    cases hdata with
    | object h => rw [h.hasMembers, hcomplete.filled hhas hobject]
  · exact .get fun hf => .bind (.ofAside (hask.filled h)) fun _ _ => .pure ()

theorem signatures_aside {f' : Facts} (hf : InStep P w f f') :
    AsideFrom P w f (forAll ask' f'.signatures.size fun _ index => .returnOf ⟨index⟩) := by
  refine .forM _ fun j hin w' hle => .get fun _ => .bind (.known fun {pending' g'} hg => ?_) fun _ _ => .pure ()
  have hhas : f.HasSignature ⟨j⟩ := Nat.lt_of_lt_of_eq (mem_range.mp hin) hf.signatures.size
  obtain ⟨type, htype⟩ := hcomplete.returned hhas
  obtain ⟨type', htype', -⟩ := (hg.signature ⟨j⟩).returns.right htype
  exact ⟨type', hask.recalls.returnOf htype'⟩

theorem round_aside : AsideFrom P w f (round ask') :=
  .get fun hf => .bind (symbols_aside hask hcomplete hf) fun _ _ => .get fun hf =>
    .bind (types_aside hask hcomplete hf) fun _ _ => .get fun hf => signatures_aside hask hcomplete hf

theorem rounds_aside : ∀ {w : Sync} (more : Nat), AsideFrom P w f (rounds ask' more)
  | _, 0 => .pure ()
  | _, more + 1 => by
    refine .get fun _ => .bind (round_aside hask hcomplete) fun _ _ => .get fun _ => ?_
    split
    · exact rounds_aside more
    · exact .pure ()

omit hask hcomplete in
/-- If something has come up in the first check, then in the second too. -/
theorem extent_ne {w' : Sync} {f f' g g' : Facts} (hf : InStep P w f f') (hg : InStep P w' g g') (hle : w ≤ w')
    (h : extent g ≠ extent f) : extent g' ≠ extent f' := by
  intro hsame
  obtain ⟨hsymbols, hothers⟩ := Prod.mk.inj hsame
  obtain ⟨htypes, hsignatures⟩ := Prod.mk.inj hothers
  have hsymbols : w.symbols = w'.symbols :=
    hle.symbols.eq_of_length (by rw [← hf.symbols.size', ← hg.symbols.size', hsymbols])
  have htypes : w.types = w'.types :=
    hle.types.eq_of_length (by rw [← hf.types.size', ← hg.types.size', htypes])
  refine h (Prod.ext ?_ (Prod.ext ?_ ?_))
  · exact hg.symbols.size.trans (hsymbols ▸ hf.symbols.size.symm)
  · exact hg.types.size.trans (htypes ▸ hf.types.size.symm)
  · exact hg.signatures.size.symm.trans (hsignatures.trans hf.signatures.size)

omit hcomplete in
/-- The second check takes as many rounds as the first or more. -/
theorem rounds_follow {known : Node → Prop} (hanswers : Answers known ask) (hkeeps : Keeps known ask) :
    ∀ (more : Nat) {w : Sync} {f f' g : Facts}, InStep P w f f' → (noting known []).holds f →
      rounds ask more .empty f = some ((), g) →
        ∃ g' w', rounds ask' more .empty f' = some ((), g') ∧ w ≤ w' ∧ InStep P w' g g'
  | 0, w, f, f', g, hf, _, hrun => by
    cases hrun
    exact ⟨f', w, rfl, le_rfl, hf⟩
  | more + 1, w, f, f', g, hf, hholds, hrun => by
    obtain ⟨⟨_, f₁⟩, hround, hagain⟩ := Option.bind_eq_some_iff.mp
      (show (round ask >>= fun _ => do if extent (← get) ≠ extent f then rounds ask more) .empty f = some ((), g)
        from hrun)
    obtain ⟨⟨_, f₁'⟩, hround', w₁, hle, hf₁, -⟩ := round_follows hask .empty .empty (.empty w) f f' hf _ hround
    have hrest : ∀ g', (if extent f₁' ≠ extent f' then rounds ask' more else pure ()) .empty f₁' = some ((), g') →
        rounds ask' (more + 1) .empty f' = some ((), g') := fun g' hg' =>
      Option.bind_eq_some_iff.mpr ⟨_, hround', hg'⟩
    replace hagain : (if extent f₁ ≠ extent f then rounds ask more else pure ()) .empty f₁ = some ((), g) := hagain
    split at hagain
    · rename_i hmore
      obtain ⟨hholds₁, -, -⟩ := round_obeys hanswers .empty () f₁ hround hholds
      obtain ⟨g', w', hg', hle', hg⟩ := rounds_follow hanswers hkeeps more hf₁ hholds₁ hagain
      exact ⟨g', w', hrest g' (by rw [if_pos (extent_ne hf hf₁ hle hmore)]; exact hg'), hle.trans hle', hg⟩
    · rename_i hsame
      cases hagain
      have hcomplete := round_completes hanswers hkeeps hholds hround (not_not.mp hsame)
      by_cases hmore : extent f₁' = extent f'
      · exact ⟨f₁', w₁, hrest f₁' (by rw [if_neg (not_not.mpr hmore)]; rfl), hle, hf₁⟩
      · obtain ⟨⟨_, g'⟩, w', hg', hle', hg⟩ := rounds_aside hask hcomplete more .empty f₁' hf₁
        exact ⟨g', w', hrest g' (by rw [if_pos hmore]; exact hg'), hle.trans hle', hg⟩

end

/-! ## Whole programs -/

/-- Where a program is checked, one whose tree matches is checked in step, if as many questions within questions are
allowed; two more where the second program may have records. -/
theorem Checked.follows_upTo {text : String} {prelude : Tree} {checked : Checked} {depth deeper : Nat}
    (hprelude : P.prelude = Node.ofTree .prelude prelude)
    (hroot : P.root = (Program.ofSource text).root) (hle : depth ≤ deeper + 1) (hgrows : P.grows = true → depth < deeper)
    (h : upTo depth P.prelude P.root = some checked) :
    ∃ checked' w, upTo (deeper + 1) P.prelude P.root' = some checked' ∧ InStep P w checked.facts checked'.facts := by
  have hask := answer_asksBoth hle hgrows
  obtain ⟨⟨_, g⟩, hrun, rfl⟩ := Option.map_eq_some_iff.mp h
  obtain ⟨⟨_, f⟩, hlook, hrounds⟩ := Option.bind_eq_some_iff.mp hrun
  obtain ⟨w, hbound⟩ := InStep.bound P
  obtain ⟨⟨_, f'⟩, hlook', w₁, hle₁, hf, -⟩ :=
    P.twin_root.lookAtAll_follows hask .empty .empty (.empty w) _ _ hbound _ hlook
  have hnodes := Program.visible_closed text prelude
  have hholds : (noting (Visible (Node.ofTree .prelude prelude) (Program.ofSource text).root) []).holds f := by
    rw [hprelude, hroot] at hlook
    exact holds_lookAtAll hlook
  obtain ⟨g', w', hrounds', hle', hg⟩ := rounds_follow hask (answer_values hnodes depth) (answer_keeps hnodes depth) 16
    hf hholds hrounds
  exact ⟨⟨g'⟩, w', Option.map_eq_some_iff.mpr ⟨_, Option.bind_eq_some_iff.mpr ⟨_, hlook', hrounds'⟩, rfl⟩, hg⟩

end RouteTypes
