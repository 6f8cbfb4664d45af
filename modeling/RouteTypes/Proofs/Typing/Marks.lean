-- Two counts of which the second may skip ahead of the first: what is counted by both gets a number from each,
-- and marks tell which numbers of the second count are shared.
import RouteTypes.Typing.Checked
import RouteTypes.Proofs.Tree.Related

namespace RouteTypes

open List

/-! ## Marks -/

/-- Whether both counts mean the same by these numbers: the second one is marked as shared, and as many are
shared before it as the first one says. -/
def Shared (marks : List Bool) (i j : Nat) : Prop := marks[j]? = some true ∧ (marks.take j).count true = i

namespace Shared

variable {marks marks' : List Bool} {i i' j j' : Nat}

theorem mono (h : Shared marks i j) (hle : marks <+: marks') : Shared marks' i j := by
  obtain ⟨more, rfl⟩ := hle
  obtain ⟨hmark, hcount⟩ := h
  obtain ⟨hj, -⟩ := List.getElem?_eq_some_iff.mp hmark
  refine ⟨by rw [List.getElem?_append_left hj, hmark], ?_⟩
  rw [List.take_append_of_le_length (Nat.le_of_lt hj), hcount]

theorem lt_length (h : Shared marks i j) : j < marks.length := (List.getElem?_eq_some_iff.mp h.1).1

theorem lt_of_lt (h : Shared marks i j) (h' : Shared marks i' j') (hlt : j < j') : i < i' := by
  obtain ⟨hj, hmark⟩ := List.getElem?_eq_some_iff.mp h.1
  have hle : (marks.take (j + 1)).count true ≤ (marks.take j').count true :=
    (List.take_sublist_take_left hlt).count_le true
  rw [List.take_add_one, h.1] at hle
  simp only [Option.toList_some, List.count_append, h.2, h'.2, List.count_singleton_self] at hle
  exact hle

theorem lt_iff (h : Shared marks i j) (h' : Shared marks i' j') : i < i' ↔ j < j' := by
  refine ⟨fun hlt => ?_, h.lt_of_lt h'⟩
  by_contra hnot
  rcases Nat.lt_or_eq_of_le (Nat.le_of_not_lt hnot) with hgt | rfl
  · exact absurd hlt (Nat.lt_asymm (h'.lt_of_lt h hgt))
  · rw [← h.2, ← h'.2] at hlt
    exact Nat.lt_irrefl _ hlt

theorem eq_iff (h : Shared marks i j) (h' : Shared marks i' j') : i = i' ↔ j = j' := by
  have hlt := h.lt_iff h'
  have hgt := h'.lt_iff h
  omega

theorem lt_count (h : Shared marks i j) : i < marks.count true := by
  obtain ⟨hj, hmark⟩ := List.getElem?_eq_some_iff.mp h.1
  have hsplit : marks = marks.take j ++ true :: marks.drop (j + 1) := by
    rw [← hmark, ← List.drop_eq_getElem_cons hj, List.take_append_drop]
  rw [hsplit, List.count_append, h.2, List.count_cons_self]
  omega

/-- A number behind all others is shared, if both counts go on. -/
theorem next (marks : List Bool) : Shared (marks ++ [true]) (marks.count true) marks.length := by
  refine ⟨by simp, ?_⟩
  rw [List.take_append_of_le_length (Nat.le_refl _), List.take_length]

theorem of_append {mark : Bool} (h : Shared (marks ++ [mark]) i j) :
    Shared marks i j ∨ mark = true ∧ i = marks.count true ∧ j = marks.length := by
  obtain ⟨hmark, hcount⟩ := h
  rcases Nat.lt_or_ge j marks.length with hj | hj
  · rw [List.getElem?_append_left hj] at hmark
    rw [List.take_append_of_le_length (Nat.le_of_lt hj)] at hcount
    exact .inl ⟨hmark, hcount⟩
  · obtain ⟨hj', -⟩ := List.getElem?_eq_some_iff.mp hmark
    rw [List.length_append, List.length_singleton] at hj'
    obtain rfl : j = marks.length := by omega
    rw [List.getElem?_append_right hj, Nat.sub_self, List.getElem?_cons_zero, Option.some_inj] at hmark
    rw [List.take_append_of_le_length hj, List.take_length] at hcount
    exact .inr ⟨hmark, hcount.symm, rfl⟩

theorem exists_left (h : marks[j]? = some true) : ∃ i, Shared marks i j := ⟨_, h, rfl⟩

/-- Where nothing is skipped both numbers are the same. -/
theorem replicate {n : Nat} (h : i < n) : Shared (List.replicate n true) i i := by
  refine ⟨by simp [h], ?_⟩
  rw [List.take_replicate, List.count_replicate_self]
  omega

end Shared

/-! ## Rows of entries -/

/-- Two rows of entries: those with shared numbers are related, all others of the second are of one sort. -/
structure Entries {α : Type} (marks : List Bool) (R : α → α → Prop) (extra : α → Prop) (row row' : Array α) :
    Prop where
  size : row.size = marks.count true
  size' : row'.size = marks.length
  shared : ∀ {i j : Nat}, Shared marks i j → ∃ x x', row[i]? = some x ∧ row'[j]? = some x' ∧ R x x'
  other : ∀ {j : Nat}, marks[j]? = some false → ∃ x', row'[j]? = some x' ∧ extra x'

namespace Entries

variable {α : Type} {marks : List Bool} {R S : α → α → Prop} {extra : α → Prop} {row row' : Array α}

theorem imp (h : Entries marks R extra row row') (himp : ∀ x y, R x y → S x y) : Entries marks S extra row row' where
  size := h.size
  size' := h.size'
  shared hij :=
    have ⟨x, x', hx, hx', hR⟩ := h.shared hij
    ⟨x, x', hx, hx', himp x x' hR⟩
  other := h.other

theorem getD (h : Entries marks R extra row row') {i j : Nat} (hij : Shared marks i j) (x x' : α) :
    R (row.getD i x) (row'.getD j x') := by
  obtain ⟨y, y', hy, hy', hR⟩ := h.shared hij
  rw [Array.getD_eq_getD_getElem?, Array.getD_eq_getD_getElem?, hy, hy']
  exact hR

theorem push (h : Entries marks R extra row row') {x x' : α} (hR : R x x') :
    Entries (marks ++ [true]) R extra (row.push x) (row'.push x') where
  size := by rw [Array.size_push, h.size, List.count_append, List.count_singleton_self]
  size' := by rw [Array.size_push, h.size', List.length_append, List.length_singleton]
  shared {i j} hij := by
    rcases hij.of_append with hij | ⟨-, rfl, rfl⟩
    · obtain ⟨y, y', hy, hy', hyR⟩ := h.shared hij
      refine ⟨y, y', ?_, ?_, hyR⟩
      · rw [Array.getElem?_push, if_neg (by have := hij.lt_count; have := h.size; omega), hy]
      · rw [Array.getElem?_push, if_neg (by have := hij.lt_length; have := h.size'; omega), hy']
    · exact ⟨x, x', by rw [← h.size, Array.getElem?_push_size], by rw [← h.size', Array.getElem?_push_size], hR⟩
  other {j} hj := by
    rcases Nat.lt_or_ge j marks.length with hlt | hge
    · rw [List.getElem?_append_left hlt] at hj
      obtain ⟨y', hy', hextra⟩ := h.other hj
      exact ⟨y', by rw [Array.getElem?_push, if_neg (by have := h.size'; omega), hy'], hextra⟩
    · obtain ⟨hlt, hmark⟩ := List.getElem?_eq_some_iff.mp hj
      rw [List.getElem_append_right hge, List.getElem_singleton] at hmark
      cases hmark

theorem pushOther (h : Entries marks R extra row row') {x' : α} (hextra : extra x') :
    Entries (marks ++ [false]) R extra row (row'.push x') where
  size := by rw [h.size, List.count_append]; rfl
  size' := by rw [Array.size_push, h.size', List.length_append, List.length_singleton]
  shared {i j} hij := by
    rcases hij.of_append with hij | ⟨hmark, -, -⟩
    · obtain ⟨y, y', hy, hy', hyR⟩ := h.shared hij
      exact ⟨y, y', hy, by rw [Array.getElem?_push, if_neg (by have := hij.lt_length; have := h.size'; omega), hy'], hyR⟩
    · cases hmark
  other {j} hj := by
    rcases Nat.lt_or_ge j marks.length with hlt | hge
    · rw [List.getElem?_append_left hlt] at hj
      obtain ⟨y', hy', hy⟩ := h.other hj
      exact ⟨y', by rw [Array.getElem?_push, if_neg (by have := h.size'; omega), hy'], hy⟩
    · obtain ⟨hlt, -⟩ := List.getElem?_eq_some_iff.mp hj
      rw [List.length_append, List.length_singleton] at hlt
      obtain rfl : j = marks.length := by omega
      exact ⟨x', by rw [← h.size', Array.getElem?_push_size], hextra⟩

/-- An entry that both have is changed in both. -/
theorem modify (h : Entries marks R extra row row') {i j : Nat} (hij : Shared marks i j) {g k : α → α}
    (hchange : ∀ x x', R x x' → R (g x) (k x')) :
    Entries marks R extra (row.modify i g) (row'.modify j k) where
  size := by rw [Array.size_modify, h.size]
  size' := by rw [Array.size_modify, h.size']
  shared {m n} hmn := by
    obtain ⟨y, y', hy, hy', hyR⟩ := h.shared hmn
    rw [Array.getElem?_modify, Array.getElem?_modify, hy, hy']
    by_cases hsame : i = m
    · rw [if_pos hsame, if_pos ((hij.eq_iff hmn).mp hsame)]
      exact ⟨_, _, rfl, rfl, hchange _ _ hyR⟩
    · rw [if_neg hsame, if_neg fun hsame' => hsame ((hij.eq_iff hmn).mpr hsame')]
      exact ⟨_, _, rfl, rfl, hyR⟩
  other {n} hn := by
    obtain ⟨y', hy', hextra⟩ := h.other hn
    have hne : j ≠ n := by
      rintro rfl
      rw [hij.1] at hn
      cases hn
    exact ⟨y', by rw [Array.getElem?_modify, if_neg hne, hy'], hextra⟩

end Entries

/-- Two rows of entries that are related one by one. -/
structure Alongside {α : Type} (R : α → α → Prop) (row row' : Array α) : Prop where
  size : row'.size = row.size
  each : ∀ {i : Nat} {x x' : α}, row[i]? = some x → row'[i]? = some x' → R x x'

namespace Alongside

variable {α : Type} {R S : α → α → Prop} {row row' : Array α}

theorem imp (h : Alongside R row row') (himp : ∀ x y, R x y → S x y) : Alongside S row row' where
  size := h.size
  each hx hx' := himp _ _ (h.each hx hx')

theorem getElem? (h : Alongside R row row') (i : Nat) : Option.Rel R row[i]? row'[i]? := by
  rcases Nat.lt_or_ge i row.size with hi | hi
  · have hi' : i < row'.size := h.size ▸ hi
    rw [Array.getElem?_eq_getElem hi, Array.getElem?_eq_getElem hi']
    exact .some (h.each (Array.getElem?_eq_getElem hi) (Array.getElem?_eq_getElem hi'))
  · rw [Array.getElem?_eq_none hi, Array.getElem?_eq_none (h.size ▸ hi)]
    exact .none

theorem getD (h : Alongside R row row') (i : Nat) {x x' : α} (hR : R x x') : R (row.getD i x) (row'.getD i x') := by
  rw [Array.getD_eq_getD_getElem?, Array.getD_eq_getD_getElem?]
  exact (h.getElem? i).getD hR

theorem push (h : Alongside R row row') {x x' : α} (hR : R x x') : Alongside R (row.push x) (row'.push x') where
  size := by rw [Array.size_push, Array.size_push, h.size]
  each {i y y'} hy hy' := by
    rw [Array.getElem?_push] at hy hy'
    rw [h.size] at hy'
    split at hy
    · rename_i hlast
      rw [if_pos hlast] at hy'
      cases hy
      cases hy'
      exact hR
    · rename_i hlast
      rw [if_neg hlast] at hy'
      exact h.each hy hy'

theorem modify (h : Alongside R row row') (i : Nat) {g k : α → α}
    (hchange : ∀ x x', R x x' → R (g x) (k x')) :
    Alongside R (row.modify i g) (row'.modify i k) where
  size := by rw [Array.size_modify, Array.size_modify, h.size]
  each {n y y'} hy hy' := by
    rw [Array.getElem?_modify] at hy hy'
    split at hy
    · rename_i hsame
      rw [if_pos hsame] at hy'
      obtain ⟨x, hx, rfl⟩ := Option.map_eq_some_iff.mp hy
      obtain ⟨x', hx', rfl⟩ := Option.map_eq_some_iff.mp hy'
      exact hchange _ _ (h.each hx hx')
    · rename_i hsame
      rw [if_neg hsame] at hy'
      exact h.each hy hy'

end Alongside

/-! ## Tables -/

/-- Keys that are related one by one, and others of the second table. -/
structure Keys {κ : Type} (K : κ → κ → Prop) (other : κ → Prop) : Prop where
  eq_iff : ∀ {a a' b b' : κ}, K a a' → K b b' → (a = b ↔ a' = b')
  apart : ∀ {a a' : κ}, K a a' → ¬ other a'

/-- Keys of two parts that are related one by one. -/
def Both {α β : Type} (K : α → α → Prop) (L : β → β → Prop) (pair pair' : α × β) : Prop :=
  K pair.1 pair'.1 ∧ L pair.2 pair'.2

theorem Keys.both {α β : Type} {K : α → α → Prop} {L : β → β → Prop} {other : α → Prop} {other' : β → Prop}
    (hK : Keys K other) (hL : Keys L other') : Keys (Both K L) fun _ => False where
  eq_iff h h' := by rw [Prod.ext_iff, Prod.ext_iff, hK.eq_iff h.1 h'.1, hL.eq_iff h.2 h'.2]
  apart _ := id

/-- Two tables: what the first has under a key the second has under the related key, and it has nothing else
but under other keys. -/
structure Tables {κ ν : Type} [Keyed κ] (K : κ → κ → Prop) (other : κ → Prop) (V : ν → ν → Prop)
    (table table' : Table κ ν) : Prop where
  left : ∀ {key value}, table.get? key = some value →
    ∃ key' value', K key key' ∧ table'.get? key' = some value' ∧ V value value'
  right : ∀ {key' value'}, table'.get? key' = some value' →
    other key' ∨ ∃ key value, K key key' ∧ table.get? key = some value

namespace Tables

variable {κ ν : Type} [Keyed κ] {K K₂ : κ → κ → Prop} {other other₂ : κ → Prop} {V V₂ : ν → ν → Prop}
  {table table' : Table κ ν}

theorem empty : Tables K other V (Table.empty : Table κ ν) Table.empty where
  left h := by rw [Table.get?_empty] at h; cases h
  right h := by rw [Table.get?_empty] at h; cases h

theorem imp (h : Tables K other V table table') (hK : ∀ a b, K a b → K₂ a b) (hother : ∀ a, other a → other₂ a)
    (hV : ∀ x y, V x y → V₂ x y) : Tables K₂ other₂ V₂ table table' where
  left hvalue :=
    have ⟨key', value', hkey, hvalue', hrel⟩ := h.left hvalue
    ⟨key', value', hK _ _ hkey, hvalue', hV _ _ hrel⟩
  right hvalue' := (h.right hvalue').imp (hother _) fun ⟨key, value, hkey, hvalue⟩ => ⟨key, value, hK _ _ hkey, hvalue⟩

/-- What is found under related keys. -/
theorem get? (h : Tables K other V table table') (hkeys : Keys K other) {key key' : κ} (hkey : K key key') :
    Option.Rel V (table.get? key) (table'.get? key') := by
  cases hvalue : table.get? key with
  | some value =>
    obtain ⟨own, value', hown, hvalue', hrel⟩ := h.left hvalue
    cases (hkeys.eq_iff hkey hown).mp rfl
    rw [hvalue']
    exact .some hrel
  | none =>
    cases hvalue' : table'.get? key' with
    | none => exact .none
    | some value' =>
      rcases h.right hvalue' with hother | ⟨own, value, hown, hvalue'⟩
      · exact absurd hother (hkeys.apart hkey)
      · cases (hkeys.eq_iff hkey hown).mpr rfl
        rw [hvalue] at hvalue'
        cases hvalue'

theorem insert [DecidableEq κ] (h : Tables K other V table table') (hkeys : Keys K other) {key key' : κ}
    (hkey : K key key') {value value' : ν} (hrel : V value value') :
    Tables K other V (table.insert key value) (table'.insert key' value') where
  left {own found} hfound := by
    rw [Table.get?_insert] at hfound
    split at hfound
    · rename_i hsame
      cases hfound
      subst hsame
      exact ⟨key', value', hkey, Table.get?_insert_self _ _ _, hrel⟩
    · rename_i hne
      obtain ⟨own', found', hown, hfound', hfoundRel⟩ := h.left hfound
      refine ⟨own', found', hown, ?_, hfoundRel⟩
      rw [Table.get?_insert_of_ne fun hsame => hne ((hkeys.eq_iff hkey hown).mpr hsame), hfound']
  right {own' found'} hfound := by
    rw [Table.get?_insert] at hfound
    split at hfound
    · rename_i hsame
      subst hsame
      exact .inr ⟨key, value, hkey, Table.get?_insert_self _ _ _⟩
    · refine (h.right hfound).imp_right fun ⟨own, found, hown, hfound⟩ => ?_
      by_cases hsame : key = own
      · exact ⟨own, value, hown, by rw [hsame, Table.get?_insert_self]⟩
      · exact ⟨own, found, hown, by rw [Table.get?_insert_of_ne hsame, hfound]⟩

theorem contains_eq (h : Tables K other V table table') (hkeys : Keys K other) {key key' : κ} (hkey : K key key') :
    table'.contains key' = table.contains key :=
  (h.get? hkeys hkey).isSome_eq

theorem insertIfNew [DecidableEq κ] (h : Tables K other V table table') (hkeys : Keys K other) {key key' : κ}
    (hkey : K key key') {value value' : ν} (hrel : V value value') :
    Tables K other V (table.insertIfNew key value) (table'.insertIfNew key' value') := by
  rw [Table.insertIfNew, Table.insertIfNew, h.contains_eq hkeys hkey]
  split
  · exact h
  · exact h.insert hkeys hkey hrel

theorem keepFirst [DecidableEq κ] (h : Tables K other V table table') (hkeys : Keys K other) {key key' : κ}
    (hkey : K key key') {value value' : ν} (hrel : V value value') :
    V (table.keepFirst key value).1 (table'.keepFirst key' value').1 ∧
      Tables K other V (table.keepFirst key value).2 (table'.keepFirst key' value').2 := by
  have hfound := h.get? hkeys hkey
  rw [Table.keepFirst, Table.keepFirst]
  revert hfound
  generalize table.get? key = found
  generalize table'.get? key' = found'
  rintro (hfound | _)
  · exact ⟨hfound, h⟩
  · exact ⟨hrel, h.insert hkeys hkey hrel⟩

/-- What the second table has under another key does not matter. -/
theorem insertOther [DecidableEq κ] (h : Tables K other V table table') (hkeys : Keys K other) {key' : κ}
    (hother : other key') {value' : ν} : Tables K other V table (table'.insert key' value') where
  left hfound := by
    obtain ⟨own', found', hown, hfound', hrel⟩ := h.left hfound
    refine ⟨own', found', hown, ?_, hrel⟩
    rw [Table.get?_insert_of_ne, hfound']
    rintro rfl
    exact hkeys.apart hown hother
  right {own' found'} hfound := by
    rw [Table.get?_insert] at hfound
    split at hfound
    · rename_i hsame
      exact .inl (hsame ▸ hother)
    · exact h.right hfound

end Tables

end RouteTypes
