-- Two checks of matching programs that go on in step: where the first has a result, the second has the same one
-- but for the numbers. What is put together from such checks goes on in step too.
import RouteTypes.Proofs.Typing.Combining

namespace RouteTypes

open List

/-- The same is being worked out in both checks. -/
structure PendingMatch (w : Sync) (pending pending' : Pending) : Prop where
  values : Forall₂ w.SameSymbol pending.values pending'.values
  aliases : Forall₂ w.SameSymbol pending.aliases pending'.aliases
  returns : pending'.returns = pending.returns

theorem PendingMatch.mono {w w' : Sync} {pending pending' : Pending} (h : PendingMatch w pending pending')
    (hle : w ≤ w') : PendingMatch w' pending pending' :=
  ⟨sameSymbols_mono h.values hle, sameSymbols_mono h.aliases hle, h.returns⟩

/-- Nothing is being worked out in either. -/
theorem PendingMatch.empty (w : Sync) : PendingMatch w .empty .empty := ⟨.nil, .nil, rfl⟩

namespace Check

variable {P : Pairing} {w : Sync}

/-! ## Checks in step -/

/-- From facts in step, if the first check gives something, the second gives what is related to it, and the facts
stay in step. -/
def Follows (P : Pairing) (w : Sync) {α β : Type} (R : Sync → α → β → Prop) (check : Check α) (check' : Check β) :
    Prop :=
  ∀ pending pending' : Pending, PendingMatch w pending pending' → ∀ f f' : Facts, InStep P w f f' →
    ∀ out : α × Facts, check pending f = some out → ∃ out', check' pending' f' = some out' ∧ Out P w R out out'

namespace Follows

variable {α β γ δ : Type} {R : Sync → α → β → Prop} {S : Sync → γ → δ → Prop} {check : Check α} {check' : Check β}

protected theorem tooDeep {check' : Check β} : Follows P w R Check.tooDeep check' := by
  intro _ _ _ _ _ _ _ hout
  cases hout

protected theorem pure {a : α} {b : β} (h : R w a b) : Follows P w R (pure a) (pure b) := by
  intro _ _ _ _ f' hf out hout
  cases hout
  exact ⟨(b, f'), rfl, .here hf h⟩

protected theorem bind {next : α → Check γ} {next' : β → Check δ} (h : Follows P w R check check')
    (hnext : ∀ {w' a b}, w ≤ w' → R w' a b → Follows P w' S (next a) (next' b)) :
    Follows P w S (check >>= next) (check' >>= next') := by
  intro pending pending' hpending f f' hf out hout
  obtain ⟨⟨a, g⟩, hfirst, hrest⟩ := Option.bind_eq_some_iff.mp hout
  obtain ⟨⟨b, g'⟩, hfirst', w', hle, hg, hR⟩ := h _ _ hpending _ _ hf _ hfirst
  obtain ⟨out', hrest', w'', hle', hstep, hS⟩ := hnext hle hR _ _ (hpending.mono hle) _ _ hg _ hrest
  exact ⟨out', Option.bind_eq_some_iff.mpr ⟨_, hfirst', hrest'⟩, w'', Sync.le_trans hle hle', hstep, hS⟩

protected theorem map {change : α → γ} {change' : β → δ} (h : Follows P w R check check')
    (hchange : ∀ {w' a b}, w ≤ w' → R w' a b → S w' (change a) (change' b)) :
    Follows P w S (change <$> check) (change' <$> check') := by
  rw [map_eq_pure_bind, map_eq_pure_bind]
  exact .bind h fun hle hR => .pure (hchange hle hR)

protected theorem get {next : Facts → Check α} {next' : Facts → Check β}
    (h : ∀ {f f'}, InStep P w f f' → Follows P w R (next f) (next' f')) :
    Follows P w R (get >>= next) (get >>= next') :=
  fun _ _ hpending _ _ hf _ hout => h hf _ _ hpending _ _ hf _ hout

protected theorem read {next : Pending → Check α} {next' : Pending → Check β}
    (h : ∀ {pending pending'}, PendingMatch w pending pending' → Follows P w R (next pending) (next' pending')) :
    Follows P w R (read >>= next) (read >>= next') :=
  fun _ _ hpending _ _ hf _ hout => h hpending _ _ hpending _ _ hf _ hout

protected theorem withReader {change change' : Pending → Pending}
    (hchange : ∀ {pending pending'}, PendingMatch w pending pending' →
      PendingMatch w (change pending) (change' pending')) (h : Follows P w R check check') :
    Follows P w R (withReader change check) (withReader change' check') :=
  fun _ _ hpending _ _ hf _ hout => h _ _ (hchange hpending) _ _ hf _ hout

protected theorem modifyGet {note : Facts → α × Facts} {note' : Facts → β × Facts}
    (h : ∀ {f f'}, InStep P w f f' → Out P w R (note f) (note' f')) :
    Follows P w R (modifyGet note) (modifyGet note') := by
  intro _ _ _ _ f' hf out hout
  cases Option.some_inj.mp hout
  exact ⟨note' f', rfl, h hf⟩

/-- Two checks that give nothing. -/
abbrev Nothing (_ : Sync) (_ _ : PUnit) : Prop := True

protected theorem modify {note note' : Facts → Facts} (h : ∀ {f f'}, InStep P w f f' → InStep P w (note f) (note' f')) :
    Follows P w Nothing (modify note) (modify note') :=
  .modifyGet fun hf => .here (h hf) trivial

protected theorem ite {c c' : Prop} [Decidable c] [Decidable c'] (hc : c' ↔ c) {other : Check α} {other' : Check β}
    (h : Follows P w R check check') (hother : Follows P w R other other') :
    Follows P w R (if c then check else other) (if c' then check' else other') := by
  by_cases h' : c
  · rw [if_pos h', if_pos (hc.mpr h')]
    exact h
  · rw [if_neg h', if_neg fun hc' => h' (hc.mp hc')]
    exact hother

/-- Behind a problem checking goes on in the same way, whatever is said about it. -/
protected theorem reported {node node' : Node} (h : node'.source = node.source) {span span' : Text.Span}
    {problem problem' : Problem TypeId} :
    Follows P w Sync.SameType (do report node span problem; return .any)
      (do report node' span' problem'; return .any) :=
  .bind (.modify fun hf => hf.report h _ _ _ _) fun {w' _ _} _ _ => .pure w'.sameType_any

/-! ### Lists -/

variable {A : Sync → α → β → Prop}

protected theorem mapM {check : α → Check γ} {check' : β → Check δ} (hA : Kept A) (hS : Kept S) :
    ∀ {w : Sync} {items : List α} {items' : List β}, Forall₂ (A w) items items' →
      (∀ {w' a b}, w ≤ w' → A w' a b → Follows P w' S (check a) (check' b)) →
        Follows P w (fun w => Forall₂ (S w)) (items.mapM check) (items'.mapM check')
  | _, _, _, .nil, _ => by
    rw [List.mapM_nil, List.mapM_nil]
    exact .pure .nil
  | w, _, _, .cons hab hrest, h => by
    rw [List.mapM_cons, List.mapM_cons]
    refine .bind (h w.le_refl hab) fun hle hone => .bind (Follows.mapM hA hS (hA.list.mono hle hrest)
      fun hle' => h (Sync.le_trans hle hle')) fun hle' hall => ?_
    exact .pure (.cons (hS.mono hle' hone) hall)

protected theorem foldlM {check : γ → α → Check γ} {check' : δ → β → Check δ} (hA : Kept A) :
    ∀ {w : Sync} {items : List α} {items' : List β} {start : γ} {start' : δ}, Forall₂ (A w) items items' →
      (∀ {w' a b c d}, w ≤ w' → A w' a b → S w' c d → Follows P w' S (check c a) (check' d b)) →
        S w start start' → Follows P w S (items.foldlM check start) (items'.foldlM check' start')
  | _, _, _, _, _, .nil, _, hstart => by
    rw [List.foldlM_nil, List.foldlM_nil]
    exact .pure hstart
  | w, _, _, _, _, .cons hab hrest, h, hstart => by
    rw [List.foldlM_cons, List.foldlM_cons]
    exact .bind (h w.le_refl hab hstart) fun hle hnext =>
      Follows.foldlM hA (hA.list.mono hle hrest) (fun hle' => h (Sync.le_trans hle hle')) hnext

protected theorem forM {check : α → Check PUnit} {check' : β → Check PUnit} (hA : Kept A) :
    ∀ {w : Sync} {items : List α} {items' : List β}, Forall₂ (A w) items items' →
      (∀ {w' a b}, w ≤ w' → A w' a b → Follows P w' Nothing (check a) (check' b)) →
        Follows P w Nothing (items.forM check) (items'.forM check')
  | _, _, _, .nil, _ => .pure trivial
  | w, _, _, .cons hab hrest, h => .bind (h w.le_refl hab) fun hle _ =>
      Follows.forM hA (hA.list.mono hle hrest) fun hle' => h (Sync.le_trans hle hle')

/-! ### Options -/

protected theorem optionMapM {check : α → Check γ} {check' : β → Check δ} {item : Option α} {item' : Option β}
    (hitem : Option.Rel (A w) item item') (h : ∀ {a b}, A w a b → Follows P w S (check a) (check' b)) :
    Follows P w (fun w => Option.Rel (S w)) (item.mapM check) (item'.mapM check') :=
  hitem.elim (fun _ _ hab => .map (h hab) fun _ hS => .some hS) (.pure .none)

protected theorem optionForM {check : α → Check PUnit} {check' : β → Check PUnit} {item : Option α}
    {item' : Option β} (hitem : Option.Rel (A w) item item')
    (h : ∀ {a b}, A w a b → Follows P w Nothing (check a) (check' b)) :
    Follows P w Nothing (item.forM check) (item'.forM check') :=
  hitem.elim (fun _ _ hab => h hab) (.pure trivial)

end Follows

end Check

end RouteTypes
