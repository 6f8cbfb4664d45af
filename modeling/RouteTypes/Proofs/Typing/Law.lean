-- Laws that checks obey. A law says what facts fulfil and how they may become others; a check obeys it if
-- it keeps both and what it gives has a property. Each way to put checks together has its rule, so what
-- a check obeys follows from what its parts obey. A check without a result obeys every law.
import RouteTypes.Typing.Checked

namespace RouteTypes

/-- What facts fulfil, and what may become of them step by step. -/
structure Law where
  holds : Facts → Prop
  step : Facts → Facts → Prop
  refl : ∀ s, step s s
  trans : ∀ {s s' s''}, step s s' → step s' s'' → step s s''

/-- A property that what becomes of facts still has. -/
def Law.Stable {α : Type} (law : Law) (post : α → Facts → Prop) : Prop :=
  ∀ a s s', law.step s s' → post a s → post a s'

namespace Check

variable {law : Law} {α β γ : Type} {s : Facts}

/-- From these facts the check keeps the law, and what it gives has the property. -/
def Obeys (law : Law) (s : Facts) (check : Check α) (post : α → Facts → Prop) : Prop :=
  ∀ pending a s', check pending s = some (a, s') → law.holds s →
    law.holds s' ∧ law.step s s' ∧ post a s'

namespace Obeys

variable {check : Check α} {next : α → Check β} {mid : α → Facts → Prop} {post : β → Facts → Prop}

protected theorem tooDeep : Obeys law s (Check.tooDeep : Check β) post := by
  intro pending b s' h
  cases h

protected theorem pure {b : β} (h : law.holds s → post b s) : Obeys law s (pure b) post := by
  intro pending b' s' h' hs
  cases h'
  exact ⟨hs, law.refl s, h hs⟩

protected theorem bind (hcheck : Obeys law s check mid)
    (hnext : ∀ a s', law.holds s' → law.step s s' → mid a s' → Obeys law s' (next a) post) :
    Obeys law s (check >>= next) post := by
  intro pending b s'' h hs
  obtain ⟨⟨a, s'⟩, hfirst, hrest⟩ := Option.bind_eq_some_iff.mp h
  obtain ⟨hs', hstep, ha⟩ := hcheck pending a s' hfirst hs
  obtain ⟨hs'', hstep', hb⟩ := hnext a s' hs' hstep ha pending b s'' hrest hs'
  exact ⟨hs'', law.trans hstep hstep', hb⟩

/-- What holds in the beginning may be used. -/
protected theorem given {check : Check β} (h : law.holds s → Obeys law s check post) : Obeys law s check post :=
  fun pending b s' hrun hs => h hs pending b s' hrun hs

protected theorem mono {check : Check β} {weaker : β → Facts → Prop} (h : Obeys law s check post)
    (hle : ∀ b s', law.holds s' → law.step s s' → post b s' → weaker b s') :
    Obeys law s check weaker := by
  intro pending b s' hrun hs
  obtain ⟨hs', hstep, hb⟩ := h pending b s' hrun hs
  exact ⟨hs', hstep, hle b s' hs' hstep hb⟩

/-- A check that obeys a law obeys one that the law is part of. -/
protected theorem lift {law' : Law} {check : Check β} (h : Obeys law s check post)
    (hholds : law'.holds s → law.holds s)
    (hstep : ∀ s', law'.holds s → law.holds s' → law.step s s' → law'.holds s' ∧ law'.step s s') :
    Obeys law' s check post := by
  intro pending b s' hrun hs
  obtain ⟨hs', hsteps, hb⟩ := h pending b s' hrun (hholds hs)
  obtain ⟨hs'', hsteps'⟩ := hstep s' hs hs' hsteps
  exact ⟨hs'', hsteps', hb⟩

protected theorem get {next : Facts → Check β} (h : law.holds s → Obeys law s (next s) post) :
    Obeys law s (get >>= next) post :=
  fun pending b s' hrun hs => h hs pending b s' hrun hs

protected theorem read {next : Pending → Check β} (h : ∀ pending, Obeys law s (next pending) post) :
    Obeys law s (read >>= next) post :=
  fun pending b s' hrun hs => h pending pending b s' hrun hs

protected theorem withReader {change : Pending → Pending} {check : Check β} (h : Obeys law s check post) :
    Obeys law s (withReader change check) post :=
  fun pending b s' hrun hs => h (change pending) b s' hrun hs

protected theorem modifyGet {note : Facts → β × Facts}
    (h : law.holds s → law.holds (note s).2 ∧ law.step s (note s).2 ∧ post (note s).1 (note s).2) :
    Obeys law s (modifyGet note) post := by
  intro pending b s' hrun hs
  have hnote : note s = (b, s') := Option.some_inj.mp hrun
  rw [hnote] at h
  exact h hs

protected theorem modify {note : Facts → Facts} {post : Unit → Facts → Prop}
    (h : law.holds s → law.holds (note s) ∧ law.step s (note s) ∧ post () (note s)) :
    Obeys law s (modify note) post := by
  intro pending b s' hrun hs
  cases hrun
  exact h hs

/-! ### Lists -/

/-- What is worked out for each item has the property, if it stays true while the others are worked out. -/
protected theorem mapM {check : α → Check β} (hstable : law.Stable post) : ∀ {s : Facts} (items : List α),
    (∀ item ∈ items, ∀ s', law.holds s' → law.step s s' → Obeys law s' (check item) post) →
      Obeys law s (items.mapM check) fun bs s' => ∀ b ∈ bs, post b s'
  | s, [], _ => by
    rw [List.mapM_nil]
    exact .pure fun _ b hb => absurd hb List.not_mem_nil
  | s, item :: rest, h => by
    rw [List.mapM_cons]
    refine .bind (.given fun hs => h item List.mem_cons_self s hs (law.refl s)) fun b s' hs' hstep hb => ?_
    refine .bind (Obeys.mapM hstable rest fun item hitem s'' hs'' hstep' =>
      h item (List.mem_cons_of_mem _ hitem) s'' hs'' (law.trans hstep hstep')) fun bs s'' _ hstep' hbs => ?_
    refine .pure fun _ b' hb' => ?_
    rcases List.mem_cons.mp hb' with rfl | hb'
    · exact hstable _ _ _ hstep' hb
    · exact hbs b' hb'

/-- What is found for each item in the end is what was worked out for it, if that stays. -/
protected theorem mapM_map {check : α → Check β} (find : Facts → α → Option β)
    (hkeeps : ∀ {s s' item b}, law.step s s' → find s item = some b → find s' item = some b) :
    ∀ {s : Facts} (items : List α), (∀ item ∈ items, ∀ s', law.holds s' → law.step s s' →
      Obeys law s' (check item) fun b s' => find s' item = some b) →
        Obeys law s (items.mapM check) fun bs s' => items.map (find s') = bs.map some
  | s, [], _ => by
    rw [List.mapM_nil]
    exact .pure fun _ => rfl
  | s, item :: rest, h => by
    rw [List.mapM_cons]
    refine .bind (.given fun hs => h item List.mem_cons_self s hs (law.refl s)) fun b s' hs' hstep hb => ?_
    refine .bind (Obeys.mapM_map find hkeeps rest fun other hother s'' hs'' hstep' =>
      h other (List.mem_cons_of_mem _ hother) s'' hs'' (law.trans hstep hstep')) fun bs s'' _ hstep' hbs => ?_
    exact .pure fun _ => by rw [List.map_cons, List.map_cons, hkeeps hstep' hb, hbs]

/-- As much is worked out as there are items. -/
theorem length_mapM {check : α → Check β} {pending : Pending} : ∀ {s : Facts} (items : List α) {bs : List β}
    {s' : Facts}, items.mapM check pending s = some (bs, s') → bs.length = items.length
  | s, [], bs, s', h => by
    rw [List.mapM_nil] at h
    cases h
    rfl
  | s, item :: rest, bs, s', h => by
    rw [List.mapM_cons] at h
    obtain ⟨⟨b, s₁⟩, -, h⟩ := Option.bind_eq_some_iff.mp h
    obtain ⟨⟨others, s₂⟩, hrest, h⟩ := Option.bind_eq_some_iff.mp h
    cases h
    exact congrArg (· + 1) (length_mapM rest hrest)

protected theorem counted {check : α → Check β} {items : List α} {post : List β → Facts → Prop}
    (h : Obeys law s (items.mapM check) post) :
    Obeys law s (items.mapM check) fun bs s' => bs.length = items.length ∧ post bs s' := by
  intro pending bs s' hrun hs
  obtain ⟨hs', hstep, hbs⟩ := h pending bs s' hrun hs
  exact ⟨hs', hstep, length_mapM items hrun, hbs⟩

/-- What holds before the first item and is kept by each holds behind the last. -/
protected theorem foldlM {check : β → α → Check β} : ∀ {s : Facts} (items : List α) {b : β},
    (∀ item ∈ items, ∀ b s', law.holds s' → law.step s s' → post b s' → Obeys law s' (check b item) post) →
      (law.holds s → post b s) → Obeys law s (items.foldlM check b) post
  | s, [], b, _, hb => by
    rw [List.foldlM_nil]
    exact .pure hb
  | s, item :: rest, b, h, hb => by
    rw [List.foldlM_cons]
    refine .bind (.given fun hs => h item List.mem_cons_self b s hs (law.refl s) (hb hs))
      fun b' s' _ hstep hb' => ?_
    exact Obeys.foldlM rest (fun item hitem b'' s'' hs'' hstep' hb'' =>
      h item (List.mem_cons_of_mem _ hitem) b'' s'' hs'' (law.trans hstep hstep') hb'') fun _ => hb'

/-- Moreover, what is true of each item once it is added is true in the end, if it stays true. -/
protected theorem foldlM_done {check : β → α → Check β} {done : α → Facts → Prop}
    (hstable : ∀ item s s', law.step s s' → done item s → done item s') : ∀ {s : Facts} (items : List α) {b : β},
    (∀ item ∈ items, ∀ b s', law.holds s' → law.step s s' → post b s' →
      Obeys law s' (check b item) fun b s => post b s ∧ done item s) →
      (law.holds s → post b s) → Obeys law s (items.foldlM check b) fun b s => post b s ∧ ∀ item ∈ items, done item s
  | s, [], b, _, hb => by
    rw [List.foldlM_nil]
    exact .pure fun hs => ⟨hb hs, fun _ hitem => absurd hitem List.not_mem_nil⟩
  | s, item :: rest, b, h, hb => by
    rw [List.foldlM_cons]
    refine .bind (.given fun hs => h item List.mem_cons_self b s hs (law.refl s) (hb hs))
      fun b' s' _ hstep hb' => ?_
    refine (Obeys.foldlM_done hstable rest (fun item hitem b'' s'' hs'' hstep' hb'' =>
      h item (List.mem_cons_of_mem _ hitem) b'' s'' hs'' (law.trans hstep hstep') hb'') fun _ => hb'.1).mono
      fun b'' s'' _ hstep' hrest => ⟨hrest.1, fun other hother => ?_⟩
    rcases List.mem_cons.mp hother with rfl | hother
    · exact hstable _ _ _ hstep' hb'.2
    · exact hrest.2 other hother

/-- What is true of each item once something is done for it is true in the end, if it stays true. -/
protected theorem forEach {check : α → Check PUnit} {post : α → Facts → Prop}
    (hstable : ∀ item s s', law.step s s' → post item s → post item s') : ∀ {s : Facts} (items : List α),
    (∀ item ∈ items, ∀ s', law.holds s' → law.step s s' → Obeys law s' (check item) fun _ => post item) →
      Obeys law s (items.forM check) fun _ s' => ∀ item ∈ items, post item s'
  | s, [], _ => .pure fun _ _ hitem => absurd hitem List.not_mem_nil
  | s, item :: rest, h => by
    refine .bind (.given fun hs => h item List.mem_cons_self s hs (law.refl s)) fun _ s' _ hstep hitem => ?_
    refine (Obeys.forEach hstable rest fun other hother s'' hs'' hstep' =>
      h other (List.mem_cons_of_mem _ hother) s'' hs'' (law.trans hstep hstep')).mono
      fun _ s'' _ hstep' hrest other hother => ?_
    rcases List.mem_cons.mp hother with rfl | hother
    · exact hstable _ _ _ hstep' hitem
    · exact hrest other hother

protected theorem forM {check : α → Check PUnit} (items : List α)
    (h : ∀ item ∈ items, ∀ s', law.holds s' → law.step s s' → Obeys law s' (check item) fun _ _ => True) :
    Obeys law s (items.forM check) fun _ _ => True :=
  (Obeys.forEach (fun _ _ _ _ _ => trivial) items h).mono fun _ _ _ _ _ => trivial

protected theorem map {change : α → β} (hcheck : Obeys law s check mid)
    (h : ∀ a s', law.holds s' → mid a s' → post (change a) s') : Obeys law s (change <$> check) post := by
  rw [map_eq_pure_bind]
  exact .bind hcheck fun a s' _ _ ha => .pure fun hs' => h a s' hs' ha

end Obeys

/-! ## Steps that are taken together -/

/-- The check keeps the law if what has become of the facts since the start counts as one step. -/
def ObeysSince (law : Law) (start s : Facts) (check : Check α) (post : α → Facts → Prop) : Prop :=
  ∀ pending a s', check pending s = some (a, s') → law.holds s → law.step start s →
    law.holds s' ∧ law.step start s' ∧ post a s'

namespace ObeysSince

variable {check : Check α} {next : α → Check β} {mid : α → Facts → Prop} {post : β → Facts → Prop}
  {start : Facts}

/-- A check that keeps the law from its own beginning on obeys it. -/
protected theorem obeys {check : Check β} (h : ObeysSince law s s check post) : Obeys law s check post :=
  fun pending b s' hrun hs => h pending b s' hrun hs (law.refl s)

/-- A check that obeys the law by itself does so whatever came before it. -/
protected theorem ofObeys {check : Check β} (h : Obeys law s check post) : ObeysSince law start s check post := by
  intro pending b s' hrun hs hstart
  obtain ⟨hs', hstep, hb⟩ := h pending b s' hrun hs
  exact ⟨hs', law.trans hstart hstep, hb⟩

protected theorem bind (hcheck : Obeys law s check mid)
    (hnext : ∀ a s', law.holds s' → law.step s s' → mid a s' → ObeysSince law start s' (next a) post) :
    ObeysSince law start s (check >>= next) post := by
  intro pending b s'' h hs hstart
  obtain ⟨⟨a, s'⟩, hfirst, hrest⟩ := Option.bind_eq_some_iff.mp h
  obtain ⟨hs', hstep, ha⟩ := hcheck pending a s' hfirst hs
  exact hnext a s' hs' hstep ha pending b s'' hrest hs' (law.trans hstart hstep)

protected theorem mono {check : Check β} {weaker : β → Facts → Prop}
    (h : ObeysSince law start s check post)
    (hle : ∀ b s', law.holds s' → law.step start s' → post b s' → weaker b s') :
    ObeysSince law start s check weaker := by
  intro pending b s' hrun hs hstart
  obtain ⟨hs', hstart', hb⟩ := h pending b s' hrun hs hstart
  exact ⟨hs', hstart', hle b s' hs' hstart' hb⟩

/-- A note that is no step by itself is one together with what came before it. -/
protected theorem modify {note : Facts → Facts} {check : Check β}
    (h : law.holds s → law.step start s → law.holds (note s) ∧ law.step start (note s))
    (hcheck : law.holds s → law.step start s → ObeysSince law start (note s) check post) :
    ObeysSince law start s (modify note >>= fun _ => check) post := by
  intro pending b s' hrun hs hstart
  obtain ⟨hs', hstart'⟩ := h hs hstart
  exact hcheck hs hstart pending b s' hrun hs' hstart'

protected theorem get {next : Facts → Check β} (h : law.holds s → ObeysSince law start s (next s) post) :
    ObeysSince law start s (get >>= next) post :=
  fun pending b s' hrun hs => h hs pending b s' hrun hs

end ObeysSince

end Check

end RouteTypes
