-- Lists and options whose items are related one by one: what is found, picked or counted in the first is
-- related to what is found, picked or counted in the second.
import Mathlib.Data.List.Forall2

open List

variable {α β γ δ : Type} {R : α → β → Prop} {S : γ → δ → Prop}

/-! ## Options -/

namespace Option.Rel

variable {a : Option α} {b : Option β}

/-- What is shown for two related items and for none. -/
@[elab_as_elim] theorem elim {motive : Option α → Option β → Prop} (h : Option.Rel R a b)
    (some : ∀ x y, R x y → motive (Option.some x) (Option.some y)) (none : motive Option.none Option.none) :
    motive a b := by
  cases h with
  | some h => exact some _ _ h
  | none => exact none

theorem right {x : α} (h : Option.Rel R a b) (ha : a = Option.some x) : ∃ y, b = Option.some y ∧ R x y := by
  subst ha
  cases h with
  | some h => exact ⟨_, rfl, h⟩

theorem imp {R' : α → β → Prop} (h : Option.Rel R a b) (himp : ∀ x y, R x y → R' x y) : Option.Rel R' a b := by
  cases h with
  | none => exact .none
  | some h => exact .some (himp _ _ h)

theorem map {f : α → γ} {g : β → δ} (h : Option.Rel R a b) (hfg : ∀ x y, R x y → S (f x) (g y)) :
    Option.Rel S (a.map f) (b.map g) := by
  cases h with
  | none => exact .none
  | some h => exact .some (hfg _ _ h)

theorem bind {f : α → Option γ} {g : β → Option δ} (h : Option.Rel R a b)
    (hfg : ∀ x y, R x y → Option.Rel S (f x) (g y)) : Option.Rel S (a.bind f) (b.bind g) := by
  cases h with
  | none => exact .none
  | some h => exact hfg _ _ h

theorem filter {R' : α → β → Prop} {p : α → Bool} {q : β → Bool} (h : Option.Rel R a b)
    (hpq : ∀ x y, R x y → q y = p x) (himp : ∀ x y, R x y → p x = true → R' x y) :
    Option.Rel R' (a.filter p) (b.filter q) := by
  cases h with
  | none => exact .none
  | some h =>
    rw [Option.filter_some, Option.filter_some, hpq _ _ h]
    split
    · rename_i hp
      exact .some (himp _ _ h hp)
    · exact .none

theorem or {a' : Option α} {b' : Option β} (h : Option.Rel R a b) (h' : Option.Rel R a' b') :
    Option.Rel R (a.or a') (b.or b') := by
  cases h with
  | none => exact h'
  | some h => exact .some h

theorem getD {x : α} {y : β} (h : Option.Rel R a b) (hxy : R x y) : R (a.getD x) (b.getD y) := by
  cases h with
  | none => exact hxy
  | some h => exact h

theorem isSome_eq (h : Option.Rel R a b) : b.isSome = a.isSome := by
  cases h <;> rfl

theorem isNone_eq (h : Option.Rel R a b) : b.isNone = a.isNone := by
  cases h <;> rfl

theorem any_eq {p : α → Bool} {q : β → Bool} (h : Option.Rel R a b) (hpq : ∀ x y, R x y → q y = p x) :
    b.any q = a.any p := by
  cases h with
  | none => rfl
  | some h => exact hpq _ _ h

theorem map_eq {f : α → γ} {g : β → γ} (h : Option.Rel R a b) (hfg : ∀ x y, R x y → g y = f x) :
    b.map g = a.map f := by
  cases h with
  | none => rfl
  | some h => exact congrArg Option.some (hfg _ _ h)

/-- Options that look the same are related. -/
theorem of_map_eq {f : α → γ} {g : β → γ} (h : b.map g = a.map f) : Option.Rel (fun x y => g y = f x) a b := by
  cases a with
  | none =>
    cases b with
    | none => exact .none
    | some y => cases h
  | some x =>
    cases b with
    | none => cases h
    | some y => exact .some (Option.some_inj.mp h)

theorem toList (h : Option.Rel R a b) : Forall₂ R a.toList b.toList := by
  cases h with
  | none => exact .nil
  | some h => exact .cons h .nil

/-- Where equality means equality, two options are equal together with what they are related to. -/
theorem beq_eq [BEq α] [LawfulBEq α] [BEq β] [LawfulBEq β] (hR : ∀ {x x' y y'}, R x y → R x' y' → (x = x' ↔ y = y'))
    {a' : Option α} {b' : Option β} (h : Option.Rel R a b) (h' : Option.Rel R a' b') : (b == b') = (a == a') := by
  cases h with
  | none => cases h' <;> rfl
  | some h =>
    cases h' with
    | none => rfl
    | some h' =>
      rw [Option.some_beq_some, Option.some_beq_some, Bool.eq_iff_iff, beq_iff_eq, beq_iff_eq]
      exact (hR h h').symm

end Option.Rel

/-! ## Lists -/

namespace List.Forall₂

variable {as : List α} {bs : List β}

theorem find? {p : α → Bool} {q : β → Bool} (h : Forall₂ R as bs) (hpq : ∀ x y, R x y → q y = p x) :
    Option.Rel R (as.find? p) (bs.find? q) := by
  induction h with
  | nil => exact .none
  | cons hxy _ ih =>
    rw [List.find?_cons, List.find?_cons, hpq _ _ hxy]
    split
    · exact .some hxy
    · exact ih

theorem findSome? {f : α → Option γ} {g : β → Option δ} (h : Forall₂ R as bs)
    (hfg : ∀ x y, R x y → Option.Rel S (f x) (g y)) : Option.Rel S (as.findSome? f) (bs.findSome? g) := by
  induction h with
  | nil => exact .none
  | @cons x y _ _ hxy _ ih =>
    rw [List.findSome?_cons, List.findSome?_cons]
    have hrel := hfg _ _ hxy
    generalize f x = a at hrel ⊢
    generalize g y = b at hrel ⊢
    cases hrel with
    | none => exact ih
    | some h => exact .some h

theorem filter {p : α → Bool} {q : β → Bool} (h : Forall₂ R as bs) (hpq : ∀ x y, R x y → q y = p x) :
    Forall₂ R (as.filter p) (bs.filter q) := by
  induction h with
  | nil => exact .nil
  | cons hxy _ ih =>
    rw [List.filter_cons, List.filter_cons, hpq _ _ hxy]
    split
    · exact .cons hxy ih
    · exact ih

theorem filterMap {f : α → Option γ} {g : β → Option δ} (h : Forall₂ R as bs)
    (hfg : ∀ x y, R x y → Option.Rel S (f x) (g y)) : Forall₂ S (as.filterMap f) (bs.filterMap g) :=
  rel_filterMap (fun _ _ hxy => hfg _ _ hxy) h

theorem map {f : α → γ} {g : β → δ} (h : Forall₂ R as bs) (hfg : ∀ x y, R x y → S (f x) (g y)) :
    Forall₂ S (as.map f) (bs.map g) :=
  rel_map (fun _ _ hxy => hfg _ _ hxy) h

theorem flatMap {f : α → List γ} {g : β → List δ} (h : Forall₂ R as bs)
    (hfg : ∀ x y, R x y → Forall₂ S (f x) (g y)) : Forall₂ S (as.flatMap f) (bs.flatMap g) :=
  rel_flatMap h fun _ _ hxy => hfg _ _ hxy

theorem map_eq {f : α → γ} {g : β → γ} (h : Forall₂ R as bs) (hfg : ∀ x y, R x y → g y = f x) :
    bs.map g = as.map f := by
  induction h with
  | nil => rfl
  | cons hxy _ ih => rw [List.map_cons, List.map_cons, hfg _ _ hxy, ih]

theorem any_eq {p : α → Bool} {q : β → Bool} (h : Forall₂ R as bs) (hpq : ∀ x y, R x y → q y = p x) :
    bs.any q = as.any p := by
  induction h with
  | nil => rfl
  | cons hxy _ ih => rw [List.any_cons, List.any_cons, hpq _ _ hxy, ih]

theorem countP_eq {p : α → Bool} {q : β → Bool} (h : Forall₂ R as bs) (hpq : ∀ x y, R x y → q y = p x) :
    bs.countP q = as.countP p := by
  rw [List.countP_eq_length_filter, List.countP_eq_length_filter, (filter h hpq).length_eq]

theorem isEmpty_eq (h : Forall₂ R as bs) : bs.isEmpty = as.isEmpty := by
  cases h <;> rfl

theorem head? (h : Forall₂ R as bs) : Option.Rel R as.head? bs.head? := by
  cases h with
  | nil => exact .none
  | cons hxy _ => exact .some hxy

theorem getElem? (h : Forall₂ R as bs) (i : Nat) : Option.Rel R as[i]? bs[i]? := by
  induction h generalizing i with
  | nil => exact .none
  | cons hxy _ ih =>
    cases i with
    | zero => exact .some hxy
    | succ i => exact ih i

theorem getLast? (h : Forall₂ R as bs) : Option.Rel R as.getLast? bs.getLast? := by
  rw [List.getLast?_eq_getElem?, List.getLast?_eq_getElem?, h.length_eq]
  exact getElem? h _

theorem append {as' : List α} {bs' : List β} (h : Forall₂ R as bs) (h' : Forall₂ R as' bs') :
    Forall₂ R (as ++ as') (bs ++ bs') :=
  rel_append h h'

theorem zip {cs : List γ} {ds : List δ} (h : Forall₂ R as bs) (h' : Forall₂ S cs ds) :
    Forall₂ (fun x y => R x.1 y.1 ∧ S x.2 y.2) (as.zip cs) (bs.zip ds) := by
  induction h generalizing cs ds with
  | nil => exact .nil
  | cons hxy _ ih =>
    cases h' with
    | nil => exact .nil
    | cons hcd hrest => exact .cons ⟨hxy, hcd⟩ (ih hrest)

theorem set {x : α} {y : β} (h : Forall₂ R as bs) (hxy : R x y) (i : Nat) : Forall₂ R (as.set i x) (bs.set i y) := by
  induction h generalizing i with
  | nil => exact .nil
  | cons hab _ ih =>
    cases i with
    | zero => exact .cons hxy ‹_›
    | succ i => exact .cons hab (ih i)

theorem findIdx?_eq {p : α → Bool} {q : β → Bool} (h : Forall₂ R as bs) (hpq : ∀ x y, R x y → q y = p x) :
    bs.findIdx? q = as.findIdx? p := by
  induction h with
  | nil => rfl
  | cons hxy _ ih => rw [List.findIdx?_cons, List.findIdx?_cons, hpq _ _ hxy, ih]

section

variable [BEq α] [LawfulBEq α] [BEq β] [LawfulBEq β] (hR : ∀ {x x' y y'}, R x y → R x' y' → (x = x' ↔ y = y'))

include hR

theorem contains_eq {x : α} {y : β} (h : Forall₂ R as bs) (hxy : R x y) : bs.contains y = as.contains x := by
  induction h with
  | nil => rfl
  | cons hab _ ih =>
    have hsame : (y == _) = (x == _) := Bool.eq_iff_iff.mpr (by rw [beq_iff_eq, beq_iff_eq, hR hxy hab])
    rw [List.contains_cons, List.contains_cons, ih, hsame]

theorem eraseDups : ∀ {as : List α} {bs : List β}, Forall₂ R as bs → Forall₂ R as.eraseDups bs.eraseDups
  | [], _, .nil => .nil
  | x :: as, y :: bs, .cons hxy hrest => by
    rw [List.eraseDups_cons, List.eraseDups_cons]
    have hfilter : Forall₂ R (as.filter fun other => !other == x) (bs.filter fun other => !other == y) :=
      hrest.filter fun _ _ hab => by
        rw [Bool.eq_iff_iff.mpr (by rw [beq_iff_eq, beq_iff_eq, hR hab hxy] : (_ == y) = true ↔ (_ == x) = true)]
    exact .cons hxy (eraseDups hfilter)
termination_by as => as.length
decreasing_by
  have := List.length_filter_le (fun other => !other == x) as
  simp only [List.length_cons]
  omega

omit [BEq α] [LawfulBEq α] [BEq β] [LawfulBEq β] in
theorem eq_iff {as' : List α} {bs' : List β} (h : Forall₂ R as bs) (h' : Forall₂ R as' bs') : as = as' ↔ bs = bs' := by
  induction h generalizing as' bs' with
  | nil => cases h' <;> simp
  | cons hxy _ ih =>
    cases h' with
    | nil => simp
    | cons hxy' hrest => simp [hR hxy hxy', ih hrest]

end

end List.Forall₂
