-- Tables: what is known under keys. A key has a code, a row of numbers that no other key has, and the
-- table is kept in the order of the codes. The laws say what a look-up finds after each operation.
import Std.Data.TreeMap

namespace RouteTypes

/-! ## Keys -/

/-- Keys that are told apart by rows of numbers. -/
class Keyed (κ : Type) where
  code : κ → List Nat
  eq_of_code_eq : ∀ {a b : κ}, code a = code b → a = b

namespace Keyed

theorem code_eq_iff {κ : Type} [Keyed κ] {a b : κ} : code a = code b ↔ a = b :=
  ⟨eq_of_code_eq, congrArg code⟩

/-- A code with its length in front, so that it can be told where it ends. -/
def framed {κ : Type} [Keyed κ] (key : κ) : List Nat := (code key).length :: code key

theorem framed_append_inj {κ : Type} [Keyed κ] {a b : κ} {s t : List Nat}
    (h : framed a ++ s = framed b ++ t) : a = b ∧ s = t := by
  simp only [framed, List.cons_append, List.cons.injEq] at h
  obtain ⟨codes, rest⟩ := List.append_inj h.2 h.1
  exact ⟨eq_of_code_eq codes, rest⟩

instance : Keyed String where
  code text := text.toList.map Char.toNat
  eq_of_code_eq h :=
    String.toList_inj.1 ((List.map_inj_right fun _ _ => Char.toNat_inj.1).1 h)

instance {α β : Type} [Keyed α] [Keyed β] : Keyed (α × β) where
  code pair := framed pair.1 ++ code pair.2
  eq_of_code_eq h :=
    have h := framed_append_inj h
    Prod.ext h.1 (eq_of_code_eq h.2)

/-- Codes that can be told where they end, one behind the other. -/
def codes {κ : Type} [Keyed κ] (keys : List κ) : List Nat := keys.flatMap framed

theorem eq_of_codes_eq {κ : Type} [Keyed κ] : ∀ {as bs : List κ}, codes as = codes bs → as = bs
  | [], [], _ => rfl
  | [], _ :: _, h => by simp [codes, framed] at h
  | _ :: _, [], h => by simp [codes, framed] at h
  | a :: as, b :: bs, h => by
    obtain ⟨rfl, rest⟩ := framed_append_inj (s := codes as) (t := codes bs) h
    rw [eq_of_codes_eq rest]

instance {κ : Type} [Keyed κ] : Keyed (List κ) where
  code := codes
  eq_of_code_eq := eq_of_codes_eq

end Keyed

/-! ## Tables -/

/-- What is known under keys. -/
structure Table (κ ν : Type) where
  rows : Std.TreeMap (List Nat) ν

namespace Table

variable {κ ν : Type}

/-- Nothing is known. -/
def empty : Table κ ν := ⟨∅⟩

instance : Inhabited (Table κ ν) := ⟨empty⟩

variable [Keyed κ]

/-- What the table has for the key. -/
def get? (table : Table κ ν) (key : κ) : Option ν := table.rows[Keyed.code key]?

def contains (table : Table κ ν) (key : κ) : Bool := (table.get? key).isSome

/-- Has the value for the key, whatever was there before. -/
def insert (key : κ) (value : ν) (table : Table κ ν) : Table κ ν :=
  ⟨table.rows.insert (Keyed.code key) value⟩

/-- Has the value for the key, unless there was one before. -/
def insertIfNew (key : κ) (value : ν) (table : Table κ ν) : Table κ ν :=
  if table.contains key then table else table.insert key value

/-- What the table has for the key, once the value is there if nothing was. -/
def keepFirst (key : κ) (value : ν) (table : Table κ ν) : ν × Table κ ν :=
  match table.get? key with
  | some kept => (kept, table)
  | none => (value, table.insert key value)

/-! ### What is found -/

@[simp] theorem get?_empty (key : κ) : (empty : Table κ ν).get? key = none := by
  simp [get?, empty]

theorem get?_insert [DecidableEq κ] (key other : κ) (value : ν) (table : Table κ ν) :
    (table.insert key value).get? other =
      if key = other then some value else table.get? other := by
  simp [get?, insert, Std.TreeMap.getElem?_insert, Keyed.code_eq_iff]

@[simp] theorem get?_insert_self (key : κ) (value : ν) (table : Table κ ν) :
    (table.insert key value).get? key = some value := by
  simp [get?, insert]

theorem get?_insert_of_ne {key other : κ} (h : key ≠ other) (value : ν) (table : Table κ ν) :
    (table.insert key value).get? other = table.get? other := by
  simp [get?, insert, Std.TreeMap.getElem?_insert, Keyed.code_eq_iff, h]

/-- Once there is something for the key, it stays. -/
theorem get?_insertIfNew_of_some {key other : κ} {known : ν} (value : ν) {table : Table κ ν}
    (h : table.get? other = some known) :
    (table.insertIfNew key value).get? other = some known := by
  unfold insertIfNew
  split
  · exact h
  · next absent =>
    have ne : key ≠ other := by
      rintro rfl
      simp [contains, h] at absent
    rw [get?_insert_of_ne ne, h]

theorem get?_insertIfNew_of_ne {key other : κ} (h : key ≠ other) (value : ν) (table : Table κ ν) :
    (table.insertIfNew key value).get? other = table.get? other := by
  unfold insertIfNew
  split
  · rfl
  · exact get?_insert_of_ne h value table

theorem get?_keepFirst_self (key : κ) (value : ν) (table : Table κ ν) :
    (table.keepFirst key value).2.get? key = some (table.keepFirst key value).1 := by
  unfold keepFirst
  split
  · assumption
  · exact get?_insert_self key value table

theorem get?_keepFirst_of_ne {key other : κ} (h : key ≠ other) (value : ν) (table : Table κ ν) :
    (table.keepFirst key value).2.get? other = table.get? other := by
  unfold keepFirst
  split
  · rfl
  · exact get?_insert_of_ne h value table

theorem get?_keepFirst_of_some {key other : κ} {known : ν} (value : ν) {table : Table κ ν}
    (h : table.get? other = some known) :
    (table.keepFirst key value).2.get? other = some known := by
  unfold keepFirst
  split
  · exact h
  · next absent =>
    have ne : key ≠ other := by
      rintro rfl
      simp [absent] at h
    rw [get?_insert_of_ne ne, h]

end Table

end RouteTypes
