-- The fields of a schema and the members of the type that it says something about. Each name of a member is the
-- name of one field. Where several members have one name, an access finds the first of them, but the field is
-- made of the last.
import RouteTypes.Proofs.Route.Unfolding

namespace RouteTypes

open List

/-- The fields of the schema of a class, an interface or an anonymous object. -/
def Schema.fields? : Schema → Option (List (String × Schema))
  | .namedObject _ fields | .anonymousObject fields => some fields
  | _ => none

namespace TypeTable

variable {types : TypeTable} {type : TypeId} {schema : Schema} {fields : List (String × Schema)}

/-! ## Deeper searches -/

section

variable {lower lower' : TypeId → Except Cause Schema}
  (hlower : ∀ {next schema}, lower next = .ok schema → lower' next = .ok schema)

include hlower

theorem lowerFields_mono {properties : List (String × TypeId)} {start : List (String × Schema)}
    (h : lowerFields lower properties start = .ok fields) : lowerFields lower' properties start = .ok fields := by
  induction properties generalizing start with
  | nil => exact h
  | cons property rest ih =>
    obtain ⟨name, next⟩ := property
    rw [lowerFields] at h ⊢
    cases hschema : lower next with
    | error cause =>
      rw [hschema] at h
      cases h
    | ok schema =>
      rw [hschema] at h
      rw [hlower hschema]
      exact ih h

theorem lowerObject_mono {sort : ObjectSort} (hsort : types.sort type = .object sort)
    (h : types.lowerObject lower type sort = .ok schema) : types.lowerObject lower' type sort = .ok schema := by
  by_cases hsingle : sort = .array
  · subst hsingle
    obtain ⟨element, inner, harg, hinner, rfl⟩ := lowerObject_array_eq_ok h
    rw [lowerObject_of_arg harg, hlower hinner]
    rfl
  · rw [lowerObject_eq hsort hsingle] at h ⊢
    split at h
    · exact h
    · rename_i make _ _
      cases hfields : lowerFields lower (types.properties type) [] with
      | error cause =>
        rw [hfields] at h
        cases h
      | ok fields =>
        rw [hfields] at h
        rw [lowerFields_mono hlower hfields]
        exact h
    · cases h

end

/-- A schema that is found within some types is found within fewer of them too, however much deeper the search
may go. -/
theorem lowerWithin_mono {depth deeper : Nat} {around fewer : List TypeId}
    (h : types.lowerWithin depth around type = .ok schema) (hdepth : depth ≤ deeper) (hfewer : fewer ⊆ around) :
    types.lowerWithin deeper fewer type = .ok schema := by
  induction depth generalizing deeper around fewer type schema with
  | zero =>
    cases hsort : types.sort type with
    | object sort => simp [lowerWithin, hsort] at h
    | other => simp [lowerWithin, hsort] at h
    | _ => simpa [lowerWithin, hsort] using h
  | succ depth ih =>
    cases hsort : types.sort type with
    | object sort =>
      obtain ⟨deeper, rfl⟩ := Nat.exists_eq_succ_of_ne_zero (Nat.ne_of_gt (Nat.lt_of_lt_of_le depth.succ_pos hdepth))
      rw [lowerWithin_object hsort] at h ⊢
      split at h
      · cases h
      · rename_i hnew
        rw [if_neg fun hon => hnew (by simpa using hfewer (by simpa using hon))]
        exact lowerObject_mono (fun hnext => ih hnext (Nat.le_of_succ_le_succ hdepth) (cons_subset_cons type hfewer))
          hsort h
    | other => simp [lowerWithin, hsort] at h
    | _ => simpa [lowerWithin, hsort] using h

/-! ## Fields of one type -/

/-- A row for each property: its name, and the schema of its type. -/
def Rows (types : TypeTable) (properties : List (String × TypeId)) (rows : List (String × Schema)) : Prop :=
  Forall₂ (fun property row => row.1 = property.1 ∧ types.lower property.2 = .ok row.2) properties rows

/-- What is found within one type has a schema by itself. -/
theorem lower_of_lowerWithin {depth : Nat} {around : List TypeId} (hdepth : depth ≤ types.size)
    (h : types.lowerWithin depth around type = .ok schema) : types.lower type = .ok schema :=
  lowerWithin_mono h (Nat.le_succ_of_le hdepth) (nil_subset around)

theorem rows_of_zip : ∀ {properties : List (String × TypeId)} {rows : List (String × Schema)},
    properties.map Prod.fst = rows.map Prod.fst →
      (∀ entry ∈ properties.zip rows, types.lower entry.1.2 = .ok entry.2.2) → types.Rows properties rows
  | [], [], _, _ => .nil
  | _ :: _, _ :: _, hnames, heach =>
    .cons ⟨(cons.inj hnames).1.symm, heach _ mem_cons_self⟩
      (rows_of_zip (cons.inj hnames).2 fun entry hentry => heach entry (mem_cons_of_mem _ hentry))

/-- Fields are made of a row for each property. -/
theorem rows_of_lowerFields {properties : List (String × TypeId)}
    (h : lowerFields (types.lowerWithin types.size [type]) properties [] = .ok fields) :
    ∃ rows, types.Rows properties rows ∧ OnceEach rows fields := by
  obtain ⟨rows, hnames, heach, rfl⟩ := lowerFields_eq_ok h
  exact ⟨rows, rows_of_zip hnames fun entry hentry => lower_of_lowerWithin le_rfl (heach entry hentry),
    onceEach_setFields rows⟩

/-- Where a schema has fields, they are made of the properties of the type. -/
theorem exists_rows (h : types.lower type = .ok schema) (hfields : schema.fields? = some fields) :
    ∃ rows, types.Rows (types.properties type) rows ∧ OnceEach rows fields := by
  unfold lower at h
  cases hsort : types.sort type with
  | object sort =>
    rw [lowerWithin_object hsort, if_neg (by simp)] at h
    by_cases hsingle : sort = .array
    · subst hsingle
      obtain ⟨_, _, -, -, rfl⟩ := lowerObject_array_eq_ok h
      cases hfields
    · rw [lowerObject_eq hsort hsingle] at h
      split at h
      · rename_i known hknown
        cases h
        unfold builtin? at hknown
        split at hknown
        · cases hknown
          cases hfields
        · split at hknown
          · cases hknown
            cases hfields
          · cases hknown
      · rename_i make _ hmake
        cases hlowered : lowerFields (types.lowerWithin types.size [type]) (types.properties type) [] with
        | error cause =>
          rw [hlowered] at h
          cases h
        | ok others =>
          rw [hlowered] at h
          cases h
          unfold ofFields? at hmake
          split at hmake
          · cases hmake
            cases hfields
            exact rows_of_lowerFields hlowered
          · cases hmake
            cases hfields
            exact rows_of_lowerFields hlowered
          · cases hmake
      · cases h
  | _ =>
    simp only [lowerWithin, hsort] at h
    cases h <;> cases hfields

/-- A row has the schema of the first property of its name, in whatever order the properties are gone through. -/
theorem Rows.lookup_iff {properties : List (String × TypeId)} {rows : List (String × Schema)}
    (h : types.Rows properties rows) (name : String) : rows.lookup name = some schema ↔
      ∃ property, properties.find? (·.1 == name) = some property ∧ types.lower property.2 = .ok schema := by
  induction h with
  | nil => simp
  | @cons property row _ _ hrow _ ih =>
    obtain ⟨rowName, rowSchema⟩ := row
    obtain ⟨hname, hschema⟩ := hrow
    dsimp only at hname hschema
    subst hname
    rw [lookup_cons_eq]
    by_cases hkey : name = property.1
    · rw [if_pos hkey, find?_cons_of_pos (by simp [hkey])]
      simp [hschema]
    · rw [if_neg hkey, find?_cons_of_neg (by simpa using Ne.symm hkey)]
      exact ih

end TypeTable

namespace Checked

variable (checked : Checked)

/-- The last member of that name. -/
def lastMember? (type : TypeId) (name : String) : Option SymbolId :=
  (checked.members type).reverse.find? fun id => (checked.symbol id).name == name

/-- The fields are those of the members of the type. -/
structure HasFields (type : TypeId) (fields : List (String × Schema)) : Prop where
  /-- Each name of a member is the name of one field. -/
  names : fields.map Prod.fst = ((checked.members type).map fun id => (checked.symbol id).name).eraseDups
  /-- A field has the schema of the last member of its name. -/
  last : ∀ name schema, fields.lookup name = some schema ↔ ∃ member, checked.lastMember? type name = some member ∧
    checked.typeTable.lower (checked.typeOfSymbol member) = .ok schema
  /-- An access finds that member if no other one has the name. -/
  accessed : ∀ name, (∀ member ∈ checked.members type, ∀ other ∈ checked.members type,
    (checked.symbol member).name = name → (checked.symbol other).name = name → member = other) →
      checked.property? type name = checked.lastMember? type name

/-- Where only one of the items passes, it is the first one that does and the last one. -/
theorem find?_eq_find?_reverse {α : Type} {passes : α → Bool} {items : List α}
    (h : ∀ a ∈ items, ∀ b ∈ items, passes a = true → passes b = true → a = b) :
    items.find? passes = items.reverse.find? passes := by
  cases hfirst : items.find? passes with
  | none =>
    refine (find?_eq_none.mpr fun a ha => ?_).symm
    exact find?_eq_none.mp hfirst a (mem_reverse.mp ha)
  | some first =>
    cases hlast : items.reverse.find? passes with
    | none => exact absurd (find?_some hfirst) (find?_eq_none.mp hlast first (mem_reverse.mpr (mem_of_find?_eq_some hfirst)))
    | some last =>
      rw [h first (mem_of_find?_eq_some hfirst) last (mem_reverse.mp (mem_of_find?_eq_some hlast))
        (find?_some hfirst) (find?_some hlast)]

/-- Whatever is known of a program, a schema with fields has one for each name of a member, and what it says there
is the schema of the last member of that name. It is the member that an access finds, if no other has the name. -/
theorem fields_are_members {checked : Checked} {type : TypeId} {schema : Schema} {fields : List (String × Schema)}
    (hlower : checked.typeTable.lower type = .ok schema) (hfields : schema.fields? = some fields) :
    checked.HasFields type fields := by
  obtain ⟨rows, hrows, honce⟩ := TypeTable.exists_rows hlower hfields
  constructor
  case names =>
    rw [honce.names, ← show (checked.typeTable.properties type).map Prod.fst = rows.map Prod.fst from
      forall₂_eq_eq_eq ▸ forall₂_map_left_iff.mpr (forall₂_map_right_iff.mpr (hrows.imp fun _ _ hrow => hrow.1.symm))]
    exact congrArg eraseDups (map_map ..)
  case last =>
    intro name schema
    have hlast : checked.typeTable.Rows (checked.typeTable.properties type).reverse rows.reverse :=
      forall₂_reverse_iff.mpr hrows
    rw [honce.schemas, hlast.lookup_iff, show checked.typeTable.properties type = (checked.members type).map _ from rfl,
      ← map_reverse, find?_map, lastMember?]
    constructor
    · rintro ⟨property, hproperty, hschema⟩
      obtain ⟨member, hmember, rfl⟩ := Option.map_eq_some_iff.mp hproperty
      exact ⟨member, hmember, hschema⟩
    · rintro ⟨member, hmember, hschema⟩
      exact ⟨_, Option.map_eq_some_iff.mpr ⟨member, hmember, rfl⟩, hschema⟩
  case accessed =>
    intro name hsingle
    refine find?_eq_find?_reverse fun member hmember other hother hname hname' => ?_
    exact hsingle member hmember other hother (beq_iff_eq.mp hname) (beq_iff_eq.mp hname')

/-- Both declarations of an interface say what its member is. -/
def declaredTwice : String :=
  "interface N \x7b n: number; \x7d interface A \x7b x: \x7b n: number \x7d; \x7d interface A \x7b x: N; \x7d declare const a: A;"

/-- The type has a field of the name that is made of something with a name, while the member that an access finds
has the schema of something without a name. -/
def isNamedAnew (checked : Checked) (name : String) (type : TypeId) : Bool :=
  match checked.typeTable.lower type, checked.property? type name with
  | .ok (.namedObject _ fields), some member =>
    match fields.lookup name, checked.typeTable.lower (checked.typeOfSymbol member) with
    | some (.namedObject _ _), .ok (.anonymousObject _) => true
    | _, _ => false
  | _, _ => false

theorem exists_named_anew : ∃ checked type,
    upTo 40 (Node.ofTree .prelude (Program.ofSource "").tree) (Program.ofSource declaredTwice).root = some checked ∧
      checked.isNamedAnew "x" type = true := by
  have hall : ((upTo 40 (Node.ofTree .prelude (Program.ofSource "").tree)
      (Program.ofSource declaredTwice).root).any fun checked => (List.range checked.facts.types.size).any fun index =>
        checked.isNamedAnew "x" ⟨index⟩) = true := by decide +kernel
  obtain ⟨checked, hchecked, hall⟩ := (Option.any_eq_true _ _).mp hall
  obtain ⟨index, -, hnamed⟩ := any_eq_true.mp hall
  exact ⟨checked, ⟨index⟩, hchecked, hnamed⟩

/-- The interface has a schema with fields, and they are made of its members. -/
theorem declaredTwice_has_fields : ∃ checked type fields,
    upTo 40 (Node.ofTree .prelude (Program.ofSource "").tree) (Program.ofSource declaredTwice).root = some checked ∧
      (∃ schema, checked.typeTable.lower type = .ok schema ∧ schema.fields? = some fields) ∧ fields ≠ [] ∧
      checked.HasFields type fields := by
  obtain ⟨checked, type, hchecked, hnamed⟩ := exists_named_anew
  unfold isNamedAnew at hnamed
  split at hnamed
  · rename_i typeName fields member hlower _
    refine ⟨checked, type, fields, hchecked, ⟨_, hlower, rfl⟩, ?_, fields_are_members hlower rfl⟩
    rintro rfl
    cases hnamed
  · cases hnamed

/-- Its field is made of the second declaration of the member, and an access finds the first. -/
theorem declaredTwice_is_named_anew : ∃ checked type typeName fields inner innerFields member plainFields,
    upTo 40 (Node.ofTree .prelude (Program.ofSource "").tree) (Program.ofSource declaredTwice).root = some checked ∧
      checked.typeTable.lower type = .ok (.namedObject typeName fields) ∧
      fields.lookup "x" = some (.namedObject inner innerFields) ∧ checked.property? type "x" = some member ∧
      checked.typeTable.lower (checked.typeOfSymbol member) = .ok (.anonymousObject plainFields) := by
  obtain ⟨checked, type, hchecked, hnamed⟩ := exists_named_anew
  unfold isNamedAnew at hnamed
  split at hnamed
  · rename_i typeName fields member hlower hmember
    split at hnamed
    · rename_i inner innerFields plainFields hfield hplain
      exact ⟨checked, type, typeName, fields, inner, innerFields, member, plainFields, hchecked, hlower, hfield,
        hmember, hplain⟩
    · cases hnamed
  · cases hnamed

end Checked

end RouteTypes
