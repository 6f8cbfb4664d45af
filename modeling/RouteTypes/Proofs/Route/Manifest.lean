-- What the manifest says can be read back. A schema is written as an object that names its sort under `name`,
-- while the fields of an object may be called `name` as well: they stand one level further in, and what stands
-- there is read by the same rules again. So no two schemas are written alike.
import Mathlib.Data.List.Nodup
import Std.Data.String.ToNat
import RouteTypes.Route.Registry

namespace RouteTypes

/-! ## Schemas -/

namespace Schema

-- The reader goes on as the writer went: by the sorts of schemas, and through the fields one by one.
mutual

theorem read?_toJson (isInner : Bool) (schema : Schema) : read? isInner schema.toJson = some schema := by
  cases schema with
  | undefined | string | number | boolean | date | arrayBuffer => rfl
  | array element =>
    have hinner := read?_toJson true element
    simp [toJson, read?, partsOf, Parts.schema?, nameOf?, hinner]
  | namedObject typeName fields =>
    have hfields := fieldsOf?_fieldsToJson fields
    simp [toJson, read?, partsOf, Parts.schema?, nameOf?, Json.string?, hfields]
  | anonymousObject fields =>
    have hfields := fieldsOf?_fieldsToJson fields
    simp [toJson, read?, partsOf, Parts.schema?, nameOf?, hfields]

theorem fieldsOf?_fieldsToJson (fields : List (String × Schema)) :
    fieldsOf? (fieldsToJson fields) = some fields := by
  match fields with
  | [] => rfl
  | (name, schema) :: rest =>
    have hfirst := read?_toJson true schema
    have hrest := fieldsOf?_fieldsToJson rest
    simp [fieldsToJson, fieldsOf?, hfirst, hrest]

end

@[simp] theorem ofJson?_toJson (schema : Schema) : ofJson? schema.toJson = some schema :=
  read?_toJson false schema

theorem toJson_injective : Function.Injective toJson := fun schema other h => by
  have hread := congrArg ofJson? h
  rw [ofJson?_toJson, ofJson?_toJson] at hread
  exact Option.some.inj hread

end Schema

/-! ## Registries -/

namespace Registry

/-- The registry in which the schemas are filed, one after the other. -/
def filing (schemas : List Schema) : Registry :=
  schemas.foldl (fun registry schema => (registry.register schema).2) .empty

theorem schemas_foldl (schemas : List Schema) : ∀ registry : Registry,
    (schemas.foldl (fun registry schema => (registry.register schema).2) registry).schemas =
      registry.schemas ++ schemas := by
  induction schemas with
  | nil => simp
  | cons schema rest ih =>
    intro registry
    rw [List.foldl_cons, ih, register, List.append_assoc, List.singleton_append]

@[simp] theorem schemas_filing (schemas : List Schema) : (filing schemas).schemas = schemas :=
  schemas_foldl schemas .empty

/-- The members of the manifest are under the numbers, in order. -/
theorem keys_entriesFrom (schemas : List Schema) : ∀ first : Nat,
    (entriesFrom first schemas).map Prod.fst = (List.range' first schemas.length).map toString := by
  induction schemas with
  | nil => intro first; rfl
  | cons schema rest ih => intro first; simp [entriesFrom, ih, List.range'_succ]

theorem getElem?_entriesFrom (schemas : List Schema) : ∀ first i : Nat,
    (entriesFrom first schemas)[i]? = schemas[i]?.map fun schema => (toString (first + i), schema.toJson) := by
  induction schemas with
  | nil => intro first i; rfl
  | cons schema rest ih =>
    intro first i
    cases i with
    | zero => rfl
    | succ i => simp [entriesFrom, ih, Nat.add_assoc, Nat.add_comm 1 i]

theorem keys_nodup (first count : Nat) : ((List.range' first count).map (toString : Nat → String)).Nodup :=
  List.Nodup.map (fun _ _ h => Nat.repr_injective h) List.nodup_range'

end Registry

/-! ## Looking up what is written -/

/-- Among members with names of their own each is found under its name. -/
theorem Json.member?_of_nodup {members : List (String × Json)} (h : (members.map Prod.fst).Nodup)
    {key : String} {value : Json} (hmem : (key, value) ∈ members) :
    (Json.object members).member? key = some value := by
  have hfind : ∀ rows : List (String × Json), (rows.map Prod.fst).Nodup → (key, value) ∈ rows →
      rows.find? (·.1 == key) = some (key, value) := by
    intro rows
    induction rows with
    | nil => simp
    | cons row rest ih =>
      intro hnodup hrow
      rw [List.map_cons, List.nodup_cons] at hnodup
      rcases List.mem_cons.mp hrow with rfl | hrow
      · simp
      · have hother : row.1 ≠ key := by
          intro hsame
          exact hnodup.1 (hsame ▸ List.mem_map_of_mem (f := Prod.fst) hrow)
        rw [List.find?_cons_of_neg (by simpa using hother)]
        exact ih hnodup.2 hrow
  rw [member?, hfind members.reverse _ (List.mem_reverse.mpr hmem)]
  · rfl
  · rw [List.map_reverse]
    exact List.nodup_reverse.mpr h

/-- Whatever a schema is made of and however its fields are called, what is written of it is read as that
schema again, with its fields in their order. So no two schemas are written alike. Of schemas that are filed
one after the other, the manifest has each under the number that it got when it was filed, in their order and
with nothing else beside them, and there it is read as that schema again. -/
theorem schemas_are_read_back :
    (∀ schema : Schema, Schema.ofJson? schema.toJson = some schema) ∧
    Function.Injective Schema.toJson ∧
    ∀ schemas : List Schema, ∃ members, (Registry.filing schemas).toJson = .object members ∧
      members.map Prod.fst = (List.range schemas.length).map toString ∧
      (members.map Prod.fst).Nodup ∧
      ∀ (i : Nat) (schema : Schema), schemas[i]? = some schema →
        ((Registry.filing (schemas.take i)).register schema).1 = i ∧
        ((Registry.filing schemas).toJson.member? (toString i)).bind Schema.ofJson? = some schema := by
  refine ⟨Schema.ofJson?_toJson, Schema.toJson_injective, fun schemas =>
    ⟨Registry.entriesFrom 0 schemas, ?_, ?_, ?_, fun i schema hschema => ⟨?_, ?_⟩⟩⟩
  · rw [Registry.toJson, Registry.schemas_filing]
  · rw [Registry.keys_entriesFrom, List.range_eq_range']
  · rw [Registry.keys_entriesFrom]
    exact Registry.keys_nodup 0 schemas.length
  · obtain ⟨hlt, -⟩ := List.getElem?_eq_some_iff.mp hschema
    rw [Registry.register, Registry.size, Registry.schemas_filing, List.length_take, Nat.min_eq_left (Nat.le_of_lt hlt)]
  · have hentry : (toString i, schema.toJson) ∈ Registry.entriesFrom 0 schemas := by
      refine List.mem_of_getElem? (i := i) ?_
      rw [Registry.getElem?_entriesFrom, hschema, Nat.zero_add]
      rfl
    have hnodup : ((Registry.entriesFrom 0 schemas).map Prod.fst).Nodup := by
      rw [Registry.keys_entriesFrom]
      exact Registry.keys_nodup 0 schemas.length
    rw [Registry.toJson, Registry.schemas_filing, Json.member?_of_nodup hnodup hentry, Option.bind_some,
      Schema.ofJson?_toJson]

end RouteTypes
