-- Which types have a schema, and which one. Told without the run that finds it out: a type has a schema if it
-- unfolds to a finite tree of plain data. That a type turns up in several branches does not matter, but on a
-- path it must not turn up again.
import Mathlib.Data.Fintype.Card
import Mathlib.Logic.Relation
import RouteTypes.Proofs.Rows
import RouteTypes.Route.Lowering

namespace RouteTypes

/-! ## Fields under their names -/

/-- Whether the fields are the rows with each name only once: where it stands first, with the schema that it
has last. -/
structure OnceEach (rows fields : List (String × Schema)) : Prop where
  names : fields.map Prod.fst = (rows.map Prod.fst).eraseDups
  schemas : ∀ name, fields.lookup name = rows.reverse.lookup name

theorem lookup_cons_eq {α β : Type} [DecidableEq α] (key name : α) (value : β) (rest : List (α × β)) :
    ((key, value) :: rest).lookup name = if name = key then some value else rest.lookup name := by
  by_cases h : name = key
  · simp [h]
  · simp [List.lookup_cons, beq_false_of_ne h, h]

theorem Schema.lookup_setField (name : String) (schema : Schema) (fields : List (String × Schema))
    (other : String) : (setField name schema fields).lookup other =
      if other = name then some schema else fields.lookup other := by
  induction fields with
  | nil => rw [setField, lookup_cons_eq]
  | cons field rest ih =>
    rw [setField]
    split
    · rename_i hkey
      rw [lookup_cons_eq, lookup_cons_eq, hkey]
      split <;> rfl
    · rename_i hkey
      rw [lookup_cons_eq, lookup_cons_eq, ih]
      split <;> split <;> simp_all

theorem Schema.names_setField (name : String) (schema : Schema) (fields : List (String × Schema)) :
    (setField name schema fields).map Prod.fst =
      if name ∈ fields.map Prod.fst then fields.map Prod.fst else fields.map Prod.fst ++ [name] := by
  induction fields with
  | nil => simp [setField]
  | cons field rest ih =>
    rw [setField]
    split
    · rename_i hkey
      simp [hkey]
    · rename_i hkey
      have hne : name ≠ field.1 := fun h => hkey h.symm
      simp only [List.map_cons, ih, List.mem_cons, hne, false_or]
      split <;> rfl

/-- Setting the rows one after the other leaves each name once. -/
theorem onceEach_setFields (rows : List (String × Schema)) :
    OnceEach rows (rows.foldl (fun fields row => Schema.setField row.1 row.2 fields) []) := by
  induction rows using List.reverseRecOn with
  | nil => exact ⟨rfl, fun _ => rfl⟩
  | append_singleton rows row ih =>
    rw [List.foldl_append, List.foldl_cons, List.foldl_nil]
    refine ⟨?_, fun name => ?_⟩
    · rw [Schema.names_setField, ih.names, List.map_append, List.map_singleton, List.eraseDups_append]
      by_cases h : row.1 ∈ rows.map Prod.fst
      · simp only [List.mem_eraseDups, h, if_true]
        simp [List.removeAll, h]
      · simp only [List.mem_eraseDups, h, if_false]
        simp [List.removeAll, h, List.eraseDups_cons]
    · rw [Schema.lookup_setField, ih.schemas, List.reverse_append, List.reverse_singleton,
        List.singleton_append, lookup_cons_eq]

/-- Fields with names of their own are known by their names, and by what is found under them. -/
theorem eq_of_lookup {fields others : List (String × Schema)}
    (hnames : fields.map Prod.fst = others.map Prod.fst) (hnodup : (fields.map Prod.fst).Nodup)
    (hlookup : ∀ name, fields.lookup name = others.lookup name) : fields = others := by
  induction fields generalizing others with
  | nil => exact (List.map_eq_nil_iff.mp hnames.symm).symm
  | cons field rest ih =>
    obtain ⟨name, schema⟩ := field
    match others, hnames with
    | (name', schema') :: rest', hnames =>
      obtain ⟨hname, hrest⟩ := List.cons.inj hnames
      obtain rfl : name = name' := hname
      rw [List.map_cons, List.nodup_cons] at hnodup
      have hfirst := hlookup name
      rw [lookup_cons_eq, lookup_cons_eq, if_pos rfl, if_pos rfl, Option.some.injEq] at hfirst
      rw [hfirst, ih hrest hnodup.2 fun other => ?_]
      have hother := hlookup other
      rw [lookup_cons_eq, lookup_cons_eq] at hother
      by_cases h : other = name
      · have hnone : ∀ more : List (String × Schema), name ∉ more.map Prod.fst → more.lookup name = none := by
          intro more hmore
          refine List.lookup_eq_none_iff.mpr fun field hfield => bne_iff_ne.mpr fun heq => hmore ?_
          exact heq ▸ List.mem_map_of_mem (f := Prod.fst) hfield
        rw [h, hnone rest hnodup.1, hnone rest' (hrest ▸ hnodup.1)]
      · rwa [if_neg h, if_neg h] at hother

theorem OnceEach.unique {rows fields others : List (String × Schema)} (h : OnceEach rows fields)
    (h' : OnceEach rows others) : fields = others := by
  refine eq_of_lookup (h.names.trans h'.names.symm) ?_ fun name => ?_
  · rw [h.names]
    exact nodup_eraseDups _
  · rw [h.schemas, h'.schemas]

/-- Of rows that are as long as others each stands beside one of them. -/
theorem exists_mem_zip {α β γ : Type} {rows : List (α × β)} {others : List (α × γ)}
    (h : rows.map Prod.fst = others.map Prod.fst) {row : α × β} (hrow : row ∈ rows) :
    ∃ entry ∈ rows.zip others, entry.1 = row := by
  obtain ⟨i, hi, rfl⟩ := List.getElem_of_mem hrow
  have hlength : rows.length = others.length := by simpa using congrArg List.length h
  have hzip : i < (rows.zip others).length := by simpa [← hlength] using hi
  exact ⟨(rows.zip others)[i], List.getElem_mem hzip, by rw [List.getElem_zip]⟩

/-- Rows are the same as others that stand beside the same ones, if what is beside them decides them. -/
theorem eq_of_zip {α β γ : Type} {decides : β → γ → Prop} {rows : List (α × β)} {some others : List (α × γ)}
    (h : rows.map Prod.fst = some.map Prod.fst) (h' : rows.map Prod.fst = others.map Prod.fst)
    (hunique : ∀ entry ∈ rows.zip some, ∀ value, decides entry.1.2 value → entry.2.2 = value)
    (hothers : ∀ entry ∈ rows.zip others, decides entry.1.2 entry.2.2) : some = others := by
  induction rows generalizing some others with
  | nil => rw [List.map_eq_nil_iff.mp h.symm, List.map_eq_nil_iff.mp h'.symm]
  | cons row rest ih =>
    match some, others, h, h' with
    | (name, value) :: some, (name', value') :: others, h, h' =>
      obtain ⟨hname, hrest⟩ := List.cons.inj h
      obtain ⟨hname', hrest'⟩ := List.cons.inj h'
      have hfirst : value = value' :=
        hunique (row, name, value) List.mem_cons_self value' (hothers (row, name', value') List.mem_cons_self)
      have hmore : some = others := ih hrest hrest'
        (fun entry hentry => hunique entry (List.mem_cons_of_mem _ hentry))
        (fun entry hentry => hothers entry (List.mem_cons_of_mem _ hentry))
      rw [hfirst, hmore, ← show row.1 = name from hname, ← show row.1 = name' from hname']

namespace TypeTable

variable (types : TypeTable)

/-! ## The graph of types -/

/-- The schema of a type that is taken for one that every program sees. -/
def builtin? (type : TypeId) : Option Schema :=
  if types.isBuiltin type "Date" "getTime" then some .date
  else if types.isBuiltin type "ArrayBuffer" "byteLength" then some .arrayBuffer
  else none

/-- How a schema is made of fields: for a class or an interface with a name, and for an anonymous object. -/
def ofFields? (type : TypeId) : Option (List (String × Schema) → Schema) :=
  match types.sort type, types.name? type with
  | .object .declared, some name => some (.namedObject name)
  | .object .anonymous, _ => some .anonymousObject
  | _, _ => none

/-- Whether an object is an array, a class or an interface with a name, or an anonymous object. -/
def IsPlain (type : TypeId) : Prop := types.sort type = .object .array ∨ (types.ofFields? type).isSome = true

/-- Where a schema goes on: from an array to its elements, from an object to its properties. Nothing comes
behind a type that is taken for one that every program sees. -/
inductive Step (type next : TypeId) : Prop
  | element (array : types.sort type = .object .array) (arg : types.typeArguments type = [next])
  | property (name : String) (plain : (types.ofFields? type).isSome = true) (own : types.builtin? type = none)
      (has : (name, next) ∈ types.properties type)

/-- Which types are met behind one, with those on the path to them, the last one first. -/
inductive Meets (first : TypeId) : List TypeId → TypeId → Prop
  | first : Meets first [] first
  | next {around : List TypeId} {type next : TypeId} (before : Meets first around type)
      (step : types.Step type next) : Meets first (type :: around) next

/-- What keeps a type that is met on a path from having a schema. -/
inductive Bars (around : List TypeId) (type : TypeId) : Prop
  | kind (other : types.sort type = .other)
  | object (sort : ObjectSort) (object : types.sort type = .object sort) (own : types.builtin? type = none)
      (plain : ¬ types.IsPlain type)
  | arity (array : types.sort type = .object .array) (args : (types.typeArguments type).length ≠ 1)
  | again (on : type ∈ around)

/-- Whether the schema is what the type unfolds to, through elements and properties, as far as they go. -/
inductive Unfolds : TypeId → Schema → Prop
  | undefined {type : TypeId} (sort : types.sort type = .undefined) : Unfolds type .undefined
  | string {type : TypeId} (sort : types.sort type = .string) : Unfolds type .string
  | number {type : TypeId} (sort : types.sort type = .number) : Unfolds type .number
  | boolean {type : TypeId} (sort : types.sort type = .boolean) : Unfolds type .boolean
  | array {type element : TypeId} {schema : Schema} (array : types.sort type = .object .array)
      (arg : types.typeArguments type = [element]) (inner : Unfolds element schema) :
      Unfolds type (.array schema)
  | builtin {type : TypeId} {sort : ObjectSort} {schema : Schema} (object : types.sort type = .object sort)
      (single : sort ≠ .array) (known : types.builtin? type = some schema) : Unfolds type schema
  | object {type : TypeId} {make : List (String × Schema) → Schema} {rows fields : List (String × Schema)}
      (plain : types.ofFields? type = some make) (own : types.builtin? type = none)
      (names : (types.properties type).map Prod.fst = rows.map Prod.fst)
      (each : ∀ entry ∈ (types.properties type).zip rows, Unfolds entry.1.2 entry.2.2)
      (once : OnceEach rows fields) : Unfolds type (make fields)

variable {types} {type next first : TypeId} {around : List TypeId} {schema : Schema}

theorem sort_of_ofFields? {make : List (String × Schema) → Schema} (h : types.ofFields? type = some make) :
    types.sort type = .object .declared ∨ types.sort type = .object .anonymous := by
  unfold ofFields? at h
  split at h
  · exact .inl ‹_›
  · exact .inr ‹_›
  · cases h

/-! ## One type -/

/-- What is made of an object, by the three sorts of objects that something is made of. -/
theorem lowerObject_eq {lower : TypeId → Except Cause Schema} {sort : ObjectSort}
    (hsort : types.sort type = .object sort) (hsingle : sort ≠ .array) :
    types.lowerObject lower type sort =
      match types.builtin? type, types.ofFields? type with
      | some schema, _ => .ok schema
      | none, some make => make <$> lowerFields lower (types.properties type) []
      | none, none => .error (types.unsupported type
          "only classes, interfaces and plain object types have a schema") := by
  unfold lowerObject builtin? ofFields?
  rw [if_neg hsingle, hsort]
  split
  · rfl
  · split
    · rfl
    · cases sort with
      | array => exact absurd rfl hsingle
      | declared => cases types.name? type <;> rfl
      | anonymous => rfl
      | other => rfl

/-- Fields come about if each property has a schema, and are set in the order of the properties. -/
theorem lowerFields_eq_ok {lower : TypeId → Except Cause Schema} {properties : List (String × TypeId)}
    {start fields : List (String × Schema)} (h : lowerFields lower properties start = .ok fields) :
    ∃ rows, properties.map Prod.fst = rows.map Prod.fst ∧
      (∀ entry ∈ properties.zip rows, lower entry.1.2 = .ok entry.2.2) ∧
      fields = rows.foldl (fun fields row => Schema.setField row.1 row.2 fields) start := by
  induction properties generalizing start with
  | nil =>
    cases h
    exact ⟨[], rfl, by simp, rfl⟩
  | cons property rest ih =>
    obtain ⟨name, type⟩ := property
    rw [lowerFields] at h
    cases hschema : lower type with
    | error cause =>
      rw [hschema] at h
      cases h
    | ok schema =>
      rw [hschema] at h
      obtain ⟨rows, hnames, heach, hfields⟩ := ih h
      refine ⟨(name, schema) :: rows, by rw [List.map_cons, List.map_cons, hnames], ?_, hfields⟩
      rintro entry (_ | ⟨_, hentry⟩)
      · exact hschema
      · exact heach entry hentry

theorem exists_lowerFields {lower : TypeId → Except Cause Schema} {properties : List (String × TypeId)}
    (h : ∀ property ∈ properties, ∃ schema, lower property.2 = .ok schema) (start : List (String × Schema)) :
    ∃ fields, lowerFields lower properties start = .ok fields := by
  induction properties generalizing start with
  | nil => exact ⟨start, rfl⟩
  | cons property rest ih =>
    obtain ⟨schema, hschema⟩ := h property List.mem_cons_self
    rw [lowerFields, hschema]
    exact ih (fun other hother => h other (List.mem_cons_of_mem _ hother)) _

theorem lowerFields_congr {lower lower' : TypeId → Except Cause Schema} {properties : List (String × TypeId)}
    (h : ∀ property ∈ properties, lower property.2 = lower' property.2) (start : List (String × Schema)) :
    lowerFields lower properties start = lowerFields lower' properties start := by
  induction properties generalizing start with
  | nil => rfl
  | cons property rest ih =>
    rw [lowerFields, lowerFields, h property List.mem_cons_self]
    exact congrArg _ (funext fun schema => ih (fun other hother => h other (List.mem_cons_of_mem _ hother)) _)

section

variable {lower : TypeId → Except Cause Schema} {sort : ObjectSort} (hsort : types.sort type = .object sort)

theorem lowerObject_of_arg {element : TypeId} (harg : types.typeArguments type = [element]) :
    types.lowerObject lower type .array = .array <$> lower element := by
  unfold lowerObject
  rw [if_pos rfl, harg]

theorem lowerObject_array_eq_ok (h : types.lowerObject lower type .array = .ok schema) :
    ∃ element inner, types.typeArguments type = [element] ∧ lower element = .ok inner ∧
      schema = .array inner := by
  unfold lowerObject at h
  rw [if_pos rfl] at h
  split at h
  · rename_i element harg
    cases hinner : lower element with
    | error cause =>
      rw [hinner] at h
      cases h
    | ok inner =>
      rw [hinner] at h
      cases h
      exact ⟨element, inner, harg, hinner, rfl⟩
  · cases h

include hsort

/-- What is made of an object is what it unfolds to, if that holds behind it. -/
theorem unfolds_of_lowerObject (hlower : ∀ next schema, lower next = .ok schema → types.Unfolds next schema)
    (h : types.lowerObject lower type sort = .ok schema) : types.Unfolds type schema := by
  by_cases hsingle : sort = .array
  · subst hsingle
    obtain ⟨element, inner, harg, hinner, rfl⟩ := lowerObject_array_eq_ok h
    exact .array hsort harg (hlower element inner hinner)
  · rw [lowerObject_eq hsort hsingle] at h
    split at h
    · rename_i known hknown
      cases h
      exact .builtin hsort hsingle hknown
    · rename_i make hown hmake
      cases hfields : lowerFields lower (types.properties type) [] with
      | error cause =>
        rw [hfields] at h
        cases h
      | ok fields =>
        rw [hfields] at h
        cases h
        obtain ⟨rows, hnames, heach, rfl⟩ := lowerFields_eq_ok hfields
        exact .object hmake hown hnames (fun entry hentry => hlower _ _ (heach entry hentry))
          (onceEach_setFields rows)
    · cases h

/-- Something is made of an object that nothing keeps from it, if that holds behind it. -/
theorem exists_lowerObject (hlower : ∀ next, types.Step type next → ∃ schema, lower next = .ok schema)
    (hfree : ¬ types.Bars around type) : ∃ schema, types.lowerObject lower type sort = .ok schema := by
  by_cases hsingle : sort = .array
  · subst hsingle
    have hlength : (types.typeArguments type).length = 1 := by
      by_contra hlength
      exact hfree (.arity hsort hlength)
    obtain ⟨element, harg⟩ := List.length_eq_one_iff.mp hlength
    obtain ⟨inner, hinner⟩ := hlower element (.element hsort harg)
    exact ⟨.array inner, by rw [lowerObject_of_arg harg, hinner]; rfl⟩
  · rw [lowerObject_eq hsort hsingle]
    cases hown : types.builtin? type with
    | some known => exact ⟨known, rfl⟩
    | none =>
      cases hmake : types.ofFields? type with
      | some make =>
        obtain ⟨fields, hfields⟩ := exists_lowerFields (fun property hproperty =>
          hlower property.2 (.property property.1 (by rw [hmake]; rfl) hown hproperty)) []
        exact ⟨make fields, by simp only [hfields]; rfl⟩
      | none =>
        refine absurd (.object sort hsort hown ?_) hfree
        rintro (harray | hplain)
        · exact hsingle (TypeSort.object.inj (hsort.symm.trans harray))
        · rw [hmake] at hplain
          cases hplain

/-- What is made of an object depends on nothing but what comes right behind it. -/
theorem lowerObject_congr {lower' : TypeId → Except Cause Schema}
    (h : ∀ next, types.Step type next → lower next = lower' next) :
    types.lowerObject lower type sort = types.lowerObject lower' type sort := by
  by_cases hsingle : sort = .array
  · subst hsingle
    unfold lowerObject
    rw [if_pos rfl, if_pos rfl]
    split
    · rename_i element harg
      rw [h element (.element hsort harg)]
    · rfl
  · rw [lowerObject_eq hsort hsingle, lowerObject_eq hsort hsingle]
    split
    · rfl
    · rename_i make hown hmake
      rw [lowerFields_congr fun property hproperty =>
        h property.2 (.property property.1 (by rw [hmake]; rfl) hown hproperty)]
    · rfl

theorem lowerWithin_object (depth : Nat) : types.lowerWithin (depth + 1) around type =
    if around.contains type then .error (types.unsupported type "recursive type")
    else types.lowerObject (types.lowerWithin depth (type :: around)) type sort := by
  simp only [lowerWithin, hsort]

end

/-! ## What is lowered unfolds -/

theorem unfolds_of_lowerWithin {depth : Nat} (h : types.lowerWithin depth around type = .ok schema) :
    types.Unfolds type schema := by
  induction depth generalizing around type schema with
  | zero =>
    cases hsort : types.sort type with
    | object sort => simp [lowerWithin, hsort] at h
    | other => simp [lowerWithin, hsort] at h
    | undefined | string | number | boolean =>
      simp only [lowerWithin, hsort, Except.ok.injEq] at h
      subst h
      constructor
      exact hsort
  | succ depth ih =>
    cases hsort : types.sort type with
    | object sort =>
      rw [lowerWithin_object hsort] at h
      split at h
      · cases h
      · exact unfolds_of_lowerObject hsort (fun next schema => ih) h
    | other => simp [lowerWithin, hsort] at h
    | undefined | string | number | boolean =>
      simp only [lowerWithin, hsort, Except.ok.injEq] at h
      subst h
      constructor
      exact hsort

/-! ## What unfolds meets nothing that keeps it from that -/

/-- A type without elements and properties has nothing behind it. -/
theorem not_step_of_sort (harray : types.sort type ≠ .object .array)
    (hdeclared : types.sort type ≠ .object .declared) (hanonymous : types.sort type ≠ .object .anonymous) :
    ¬ types.Step type next := by
  rintro (⟨hsort, -⟩ | ⟨name, hplain, -, -⟩)
  · exact harray hsort
  · obtain ⟨make, hmake⟩ := Option.isSome_iff_exists.mp hplain
    rcases sort_of_ofFields? hmake with hsort | hsort
    · exact hdeclared hsort
    · exact hanonymous hsort

/-- Behind what unfolds, everything unfolds, and nothing is endless. -/
theorem Unfolds.behind (h : types.Unfolds type schema) : ∀ next, types.Step type next →
    (∃ inner, types.Unfolds next inner) ∧ Acc (fun next type => types.Step type next) next := by
  induction h with
  | undefined hsort | string hsort | number hsort | boolean hsort =>
    intro next hstep
    exact absurd hstep (not_step_of_sort (by simp [hsort]) (by simp [hsort]) (by simp [hsort]))
  | @array type element schema harray harg hinner ih =>
    rintro next (⟨-, harg'⟩ | ⟨name, hplain, -, -⟩)
    · obtain rfl := List.singleton_inj.mp (harg.symm.trans harg')
      exact ⟨⟨schema, hinner⟩, .intro element fun next hnext => (ih next hnext).2⟩
    · obtain ⟨make, hmake⟩ := Option.isSome_iff_exists.mp hplain
      rcases sort_of_ofFields? hmake with hsort | hsort <;> rw [harray] at hsort <;> cases hsort
  | builtin hobject hsingle hknown =>
    rintro next (⟨harray, -⟩ | ⟨name, -, hown, -⟩)
    · exact absurd (TypeSort.object.inj (hobject.symm.trans harray)) hsingle
    · rw [hown] at hknown
      cases hknown
  | object hplain hown hnames heach honce ih =>
    rintro next (⟨harray, -⟩ | ⟨name, -, -, hproperty⟩)
    · rcases sort_of_ofFields? hplain with hsort | hsort <;> rw [harray] at hsort <;> cases hsort
    · obtain ⟨⟨property, row⟩, hentry, rfl⟩ := exists_mem_zip hnames hproperty
      exact ⟨⟨row.2, heach _ hentry⟩, .intro _ fun next hnext => (ih _ hentry next hnext).2⟩

/-- Nothing that is endless comes behind itself. -/
theorem not_again {α : Type} {r : α → α → Prop} {a : α} (h : Acc r a) : ¬ Relation.TransGen r a a := by
  induction h with
  | intro a _ ih =>
    intro hagain
    obtain ⟨b, hab, hba⟩ := Relation.TransGen.tail'_iff.mp hagain
    exact ih b hba (Relation.TransGen.head' hba hab)

/-- Only what is already on the path keeps a type that unfolds from having a schema. -/
theorem Unfolds.not_bars (h : types.Unfolds type schema) (hagain : type ∉ around) :
    ¬ types.Bars around type := by
  rintro (hother | ⟨sort, hobject, hown, hplain⟩ | ⟨harray, hargs⟩ | hon)
  · cases h with
    | object hmake =>
      rcases sort_of_ofFields? hmake with hsort | hsort <;> rw [hother] at hsort <;> cases hsort
    | undefined hsort | string hsort | number hsort | boolean hsort | array hsort | builtin hsort =>
      rw [hother] at hsort
      cases hsort
  · cases h with
    | array harray => exact hplain (.inl harray)
    | object hmake => exact hplain (.inr (by rw [hmake]; rfl))
    | builtin _ _ hknown =>
      rw [hown] at hknown
      cases hknown
    | undefined hsort | string hsort | number hsort | boolean hsort =>
      rw [hobject] at hsort
      cases hsort
  · cases h with
    | array _ harg => exact hargs (by rw [harg]; rfl)
    | builtin hobject hsingle => exact hsingle (TypeSort.object.inj (hobject.symm.trans harray))
    | object hmake =>
      rcases sort_of_ofFields? hmake with hsort | hsort <;> rw [harray] at hsort <;> cases hsort
    | undefined hsort | string hsort | number hsort | boolean hsort =>
      rw [harray] at hsort
      cases hsort
  · exact hagain hon

theorem Meets.chain (h : types.Meets first around type) :
    ∀ before ∈ around, Relation.TransGen (fun next type => types.Step type next) type before := by
  induction h with
  | first => simp
  | @next around type next _ hstep ih =>
    intro before hbefore
    rcases List.mem_cons.mp hbefore with rfl | hbefore
    · exact .single hstep
    · exact .head hstep (ih before hbefore)

theorem Meets.unfolds (h : types.Meets first around type) (hfirst : types.Unfolds first schema) :
    ∃ inner, types.Unfolds type inner := by
  induction h with
  | first => exact ⟨schema, hfirst⟩
  | next _ hstep ih =>
    obtain ⟨inner, hinner⟩ := ih
    exact (hinner.behind _ hstep).1

theorem Meets.not_bars (h : types.Meets first around type) (hfirst : types.Unfolds first schema) :
    ¬ types.Bars around type := by
  obtain ⟨inner, hinner⟩ := h.unfolds hfirst
  have hacc : Acc (fun next type => types.Step type next) type :=
    .intro type fun next hstep => (hinner.behind next hstep).2
  exact hinner.not_bars fun hon => not_again hacc (h.chain type hon)

/-- A type unfolds to one schema at most. -/
theorem Unfolds.unique {other : Schema} (h : types.Unfolds type schema) (h' : types.Unfolds type other) :
    schema = other := by
  induction h generalizing other with
  | undefined hsort | string hsort | number hsort | boolean hsort =>
    cases h' with
    | object hmake =>
      rcases sort_of_ofFields? hmake with hsort' | hsort' <;> rw [hsort] at hsort' <;> cases hsort'
    | undefined hsort' | string hsort' | number hsort' | boolean hsort' | array hsort' | builtin hsort' =>
      first | rfl | exact absurd (hsort.symm.trans hsort') (by simp)
  | array harray harg hinner ih =>
    cases h' with
    | array _ harg' hinner' =>
      obtain rfl := List.singleton_inj.mp (harg.symm.trans harg')
      rw [ih hinner']
    | builtin hobject hsingle => exact absurd (TypeSort.object.inj (hobject.symm.trans harray)) hsingle
    | object hmake =>
      rcases sort_of_ofFields? hmake with hsort | hsort <;> rw [harray] at hsort <;> cases hsort
    | undefined hsort | string hsort | number hsort | boolean hsort =>
      rw [harray] at hsort
      cases hsort
  | builtin hobject hsingle hknown =>
    cases h' with
    | builtin _ _ hknown' => exact Option.some.inj (hknown.symm.trans hknown')
    | array harray => exact absurd (TypeSort.object.inj (hobject.symm.trans harray)) hsingle
    | object _ hown =>
      rw [hown] at hknown
      cases hknown
    | undefined hsort | string hsort | number hsort | boolean hsort =>
      rw [hobject] at hsort
      cases hsort
  | @object type make rows fields hmake hown hnames heach honce ih =>
    cases h' with
    | @object _ make' rows' fields' hmake' hown' hnames' heach' honce' =>
      obtain rfl := Option.some.inj (hmake.symm.trans hmake')
      obtain rfl := eq_of_zip hnames hnames' (fun entry hentry inner => ih entry hentry) heach'
      rw [honce.unique honce']
    | builtin _ _ hknown =>
      rw [hown] at hknown
      cases hknown
    | undefined hsort | string hsort | number hsort | boolean hsort | array hsort =>
      rcases sort_of_ofFields? hmake with hsort' | hsort' <;> rw [hsort] at hsort' <;> cases hsort'

/-! ## How long a path can be -/

/-- If no type mentions another one than those of the table, none is met. -/
theorem Meets.lt_of_closed (hargs : ∀ type, ∀ next ∈ types.typeArguments type, next.index < types.size)
    (hproperties : ∀ type, ∀ property ∈ types.properties type, property.2.index < types.size)
    (hfirst : first.index < types.size) (h : types.Meets first around type) : type.index < types.size := by
  cases h with
  | first => exact hfirst
  | @next around type next _ hstep =>
    rcases hstep with ⟨-, harg⟩ | ⟨name, -, -, hproperty⟩
    · exact hargs _ _ (harg ▸ List.mem_singleton_self _)
    · exact hproperties _ _ hproperty

theorem Meets.lt_size (hbound : ∀ around met, types.Meets first around met → met.index < types.size)
    (h : types.Meets first around type) : ∀ met ∈ around, met.index < types.size := by
  induction h with
  | first => simp
  | @next around type next hbefore hstep ih =>
    intro met hmet
    rcases List.mem_cons.mp hmet with rfl | hmet
    · exact hbound around met hbefore
    · exact ih met hmet

/-- A path without repetitions is no longer than there are types. -/
theorem Meets.length_le (hbound : ∀ around met, types.Meets first around met → met.index < types.size)
    (h : types.Meets first around type) (hnodup : around.Nodup) : around.length ≤ types.size := by
  have hindices : (around.map TypeId.index).Nodup := by
    refine hnodup.map ?_
    intro a b hab
    cases a
    cases b
    exact congrArg _ hab
  have hsub : around.map TypeId.index ⊆ List.range types.size := by
    intro index hindex
    obtain ⟨met, hmet, rfl⟩ := List.mem_map.mp hindex
    exact List.mem_range.mpr (h.lt_size hbound met hmet)
  have hlength := (List.subperm_of_subset hindices hsub).length_le
  simpa using hlength

/-- How many types may be around does not matter, as long as there are no more of them than types. -/
theorem lowerWithin_succ (hbound : ∀ around met, types.Meets first around met → met.index < types.size)
    {depth : Nat} (h : types.Meets first around type) (hnodup : around.Nodup)
    (hdepth : types.size < depth + around.length) :
    types.lowerWithin (depth + 1) around type = types.lowerWithin depth around type := by
  induction depth generalizing around type with
  | zero =>
    have := h.length_le hbound hnodup
    omega
  | succ depth ih =>
    cases hsort : types.sort type with
    | object sort =>
      rw [lowerWithin_object hsort, lowerWithin_object hsort]
      split
      · rfl
      · rename_i hnew
        refine lowerObject_congr hsort fun next hstep => ih (h.next hstep) ?_ ?_
        · exact List.nodup_cons.mpr ⟨by simpa using hnew, hnodup⟩
        · rw [List.length_cons]
          omega
    | undefined | string | number | boolean | other => simp only [lowerWithin, hsort]

/-- A type has a schema if nothing that is met behind it is kept from that. -/
theorem exists_lowerWithin (hbound : ∀ around met, types.Meets first around met → met.index < types.size)
    (hfree : ∀ around met, types.Meets first around met → ¬ types.Bars around met)
    {depth : Nat} (h : types.Meets first around type) (hnodup : around.Nodup)
    (hdepth : types.size < depth + around.length) :
    ∃ schema, types.lowerWithin depth around type = .ok schema := by
  induction depth generalizing around type with
  | zero =>
    have := h.length_le hbound hnodup
    omega
  | succ depth ih =>
    have hnew : type ∉ around := fun hon => hfree around type h (.again hon)
    cases hsort : types.sort type with
    | object sort =>
      rw [lowerWithin_object hsort, if_neg (by simpa using hnew)]
      refine exists_lowerObject hsort (fun next hstep => ih (h.next hstep) ?_ ?_) (hfree around type h)
      · exact List.nodup_cons.mpr ⟨hnew, hnodup⟩
      · rw [List.length_cons]
        omega
    | other => exact absurd (.kind hsort) (hfree around type h)
    | undefined | string | number | boolean =>
      simp only [lowerWithin, hsort]
      exact ⟨_, rfl⟩

/-! ## Which types have a schema -/

/-- Of finitely many types, those have a schema behind which nothing is met that keeps a type from having one:
no type of another kind, no object that is neither plain nor taken for one that every program sees, no array
without exactly one type argument, and no type that is already on the path. The schema is the one that the type
unfolds to, however often a type turns up in different branches; and how deep the search may go changes nothing,
once it may go as deep as there are types. -/
theorem lowered_iff_nothing_bars (types : TypeTable) (type : TypeId)
    (hbound : ∀ around met, types.Meets type around met → met.index < types.size) :
    ((∃ schema, types.lower type = .ok schema) ↔
      ∀ around met, types.Meets type around met → ¬ types.Bars around met) ∧
    (∀ schema, types.lower type = .ok schema ↔ types.Unfolds type schema) ∧
    ∀ depth, types.size < depth → types.lowerWithin depth [] type = types.lower type := by
  have hdepth : types.size < types.size + 1 + ([] : List TypeId).length := by simp
  have hfound : (∀ around met, types.Meets type around met → ¬ types.Bars around met) →
      ∃ schema, types.lower type = .ok schema := fun hfree =>
    exists_lowerWithin hbound hfree .first List.nodup_nil hdepth
  refine ⟨⟨?_, hfound⟩, fun schema => ⟨unfolds_of_lowerWithin, fun hunfolds => ?_⟩, fun depth hlarge => ?_⟩
  · rintro ⟨schema, hlower⟩ around met hmet
    exact hmet.not_bars (unfolds_of_lowerWithin hlower)
  · obtain ⟨other, hlower⟩ := hfound fun around met hmet => hmet.not_bars hunfolds
    rw [hlower, (unfolds_of_lowerWithin hlower).unique hunfolds]
  · induction depth, hlarge using Nat.le_induction with
    | base => rfl
    | succ depth hlarge ih =>
      rw [lowerWithin_succ hbound .first List.nodup_nil hlarge, ih]

/-- The number, a point, two places that share one point and change their names once, and an array. -/
def sharing : TypeTable where
  size := 4
  sort
    | ⟨0⟩ => .number
    | ⟨1⟩ => .object .declared
    | ⟨2⟩ => .object .anonymous
    | ⟨3⟩ => .object .array
    | _ => .other
  name?
    | ⟨1⟩ => some "Point"
    | ⟨3⟩ => some "Array"
    | _ => none
  properties
    | ⟨1⟩ => [("x", ⟨0⟩)]
    | ⟨2⟩ => [("from", ⟨1⟩), ("to", ⟨1⟩), ("from", ⟨3⟩)]
    | _ => []
  typeArguments
    | ⟨3⟩ => [⟨1⟩]
    | _ => []
  display type := toString type.index

/-- The two places have a schema, with the point in both of them. -/
theorem sharing_has_schema :
    (∀ around met, sharing.Meets ⟨2⟩ around met → met.index < sharing.size) ∧
    sharing.Unfolds ⟨2⟩ (.anonymousObject
      [("from", .array (.namedObject "Point" [("x", .number)])), ("to", .namedObject "Point" [("x", .number)])]) ∧
    ∀ around met, sharing.Meets ⟨2⟩ around met → ¬ sharing.Bars around met := by
  have hbound : ∀ around met, sharing.Meets ⟨2⟩ around met → met.index < sharing.size := by
    intro around met h
    refine h.lt_of_closed (fun type => ?_) (fun type => ?_) (by decide)
    · rcases type with ⟨_ | _ | _ | _ | _⟩ <;> simp [sharing]
    · rcases type with ⟨_ | _ | _ | _ | _⟩ <;> simp [sharing]
  obtain ⟨hiff, hunfolds, -⟩ := lowered_iff_nothing_bars sharing ⟨2⟩ hbound
  exact ⟨hbound, (hunfolds _).mp rfl, hiff.mp ⟨_, rfl⟩⟩

/-- A number, and an object of no other sort that is called as dates are and has their member. -/
def dateLike : TypeTable where
  size := 2
  sort
    | ⟨0⟩ => .number
    | ⟨1⟩ => .object .other
    | _ => .other
  name?
    | ⟨1⟩ => some "Date"
    | _ => none
  properties
    | ⟨1⟩ => [("getTime", ⟨0⟩)]
    | _ => []
  typeArguments _ := []
  display
    | ⟨1⟩ => "Date<string>"
    | _ => "number"

/-- It is not so that a type has a schema just if all objects that are met are plain: this one is met by itself
and has a schema, while it is neither an array nor a class or an interface nor anonymous. -/
theorem dateLike_has_schema :
    ¬ ((∃ schema, dateLike.lower ⟨1⟩ = .ok schema) ↔ ∀ around met, dateLike.Meets ⟨1⟩ around met →
      dateLike.sort met ≠ .other ∧
      (∀ sort, dateLike.sort met = .object sort → dateLike.IsPlain met) ∧
      (dateLike.sort met = .object .array → (dateLike.typeArguments met).length = 1) ∧
      met ∉ around) := by
  intro h
  obtain ⟨-, hplain, -⟩ := h.mp ⟨.date, rfl⟩ [] ⟨1⟩ .first
  rcases hplain .other rfl with harray | hfields
  · exact absurd harray (by decide)
  · exact absurd hfields (by decide)

end TypeTable

end RouteTypes
