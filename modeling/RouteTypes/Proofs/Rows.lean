-- Rows and lists. A row that gets longer keeps what it has; and what is left of a list when repetitions go does
-- not depend on whether they went from its parts before.
import Mathlib.Data.List.Nodup

namespace RouteTypes

/-! ## Rows -/

section

variable {α : Type} (xs : Array α) {x : α} (default : α)

theorem getD_push_size : (xs.push x).getD xs.size default = x := by
  rw [Array.getD_eq_getD_getElem?, Array.getElem?_push, if_pos rfl]
  rfl

theorem getD_push_of_lt {i : Nat} (hi : i < xs.size) : (xs.push x).getD i default = xs.getD i default := by
  rw [Array.getD_eq_getD_getElem?, Array.getElem?_push, if_neg (Nat.ne_of_lt hi),
    Array.getD_eq_getD_getElem?]

theorem lt_size_push : xs.size < (xs.push x).size := by
  rw [Array.size_push]
  exact Nat.lt_succ_self _

/-- What is true of the items and of the one behind them is true of all. -/
theorem getD_push_all {holds : α → Prop} (h : ∀ i < xs.size, holds (xs.getD i default)) (hx : holds x) :
    ∀ i < (xs.push x).size, holds ((xs.push x).getD i default) := by
  intro i hi
  rw [Array.size_push] at hi
  rcases Nat.lt_succ_iff_lt_or_eq.mp hi with hi | rfl
  · rw [getD_push_of_lt xs default hi]
    exact h i hi
  · rw [getD_push_size]
    exact hx

theorem getD_modify (change : α → α) {i j : Nat} (hj : j < xs.size) :
    (xs.modify i change).getD j default = if i = j then change (xs.getD j default) else xs.getD j default := by
  rw [Array.getD_eq_getD_getElem?, Array.getElem?_modify, Array.getD_eq_getD_getElem?,
    Array.getElem?_eq_getElem hj]
  split <;> rfl

end

/-! ## Lists without repetitions -/

section

variable {α : Type} [DecidableEq α]

theorem nodup_eraseDups (values : List α) : values.eraseDups.Nodup := by
  match values with
  | [] => simp
  | value :: rest =>
    rw [List.eraseDups_cons, List.nodup_cons]
    exact ⟨by simp, nodup_eraseDups (rest.filter fun other => !other == value)⟩
termination_by values.length
decreasing_by exact Nat.lt_succ_of_le (List.length_filter_le _ _)

/-- Where there are no repetitions, none go. -/
theorem eraseDups_of_nodup {values : List α} (h : values.Nodup) : values.eraseDups = values := by
  induction values with
  | nil => rfl
  | cons value rest ih =>
    obtain ⟨hvalue, hrest⟩ := List.nodup_cons.mp h
    have hkeep : rest.filter (fun other => !other == value) = rest :=
      List.filter_eq_self.mpr fun other hother => by
        simp only [Bool.not_eq_true', beq_eq_false_iff_ne]
        rintro rfl
        exact hvalue hother
    rw [List.eraseDups_cons, hkeep, ih hrest]

theorem removeAll_congr (values : List α) {others others' : List α} (h : ∀ x, x ∈ others ↔ x ∈ others') :
    values.removeAll others = values.removeAll others' :=
  List.filter_congr fun value _ => by simp [h value]

theorem eraseDups_filter (keep : α → Bool) (values : List α) :
    (values.filter keep).eraseDups = values.eraseDups.filter keep := by
  match values with
  | [] => rfl
  | value :: rest =>
    have hrest := eraseDups_filter keep (rest.filter fun other => !other == value)
    rw [List.filter_comm] at hrest
    by_cases hvalue : keep value = true
    · rw [List.filter_cons_of_pos hvalue, List.eraseDups_cons, List.eraseDups_cons, List.filter_cons_of_pos hvalue, hrest]
    · rw [List.filter_cons_of_neg hvalue, List.eraseDups_cons, List.filter_cons_of_neg hvalue, ← hrest]
      congr 1
      refine (List.filter_eq_self.mpr fun other hother => ?_).symm
      have hkeep := (List.mem_filter.mp hother).2
      simp only [Bool.not_eq_true', beq_eq_false_iff_ne]
      rintro rfl
      exact hvalue hkeep
termination_by values.length
decreasing_by exact Nat.lt_succ_of_le (List.length_filter_le _ _)

/-- Repetitions may go from the front before. -/
theorem eraseDups_eraseDups_append (front back : List α) :
    (front.eraseDups ++ back).eraseDups = (front ++ back).eraseDups := by
  rw [List.eraseDups_append, List.eraseDups_append, eraseDups_of_nodup (nodup_eraseDups front),
    removeAll_congr back fun x => List.mem_eraseDups]

/-- Repetitions may go from the back before. -/
theorem eraseDups_append_eraseDups (front back : List α) :
    (front ++ back.eraseDups).eraseDups = (front ++ back).eraseDups := by
  rw [List.eraseDups_append, List.eraseDups_append, List.removeAll, List.removeAll, ← eraseDups_filter,
    eraseDups_of_nodup (nodup_eraseDups _)]

/-- Repetitions may go from all parts before. -/
theorem eraseDups_flatMap_eraseDups {β : Type} (part : β → List α) : ∀ items : List β,
    (items.flatMap fun item => (part item).eraseDups).eraseDups = (items.flatMap part).eraseDups
  | [] => rfl
  | item :: rest => by
    rw [List.flatMap_cons, List.flatMap_cons, eraseDups_eraseDups_append, ← eraseDups_append_eraseDups,
      eraseDups_flatMap_eraseDups part rest, eraseDups_append_eraseDups]

/-- A list behind itself adds nothing. -/
theorem eraseDups_append_self (values : List α) : (values ++ values).eraseDups = values.eraseDups := by
  have hnone : values.removeAll values = [] := List.filter_eq_nil_iff.mpr fun value hvalue => by simp [hvalue]
  rw [List.eraseDups_append, hnone, List.eraseDups_nil, List.append_nil]

end

end RouteTypes
