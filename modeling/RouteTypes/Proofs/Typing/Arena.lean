-- The arena of types: all types there are, and the table by which unions are shared. While a program is checked
-- it changes by steps: a type is added, an object type gets its parts, or types are united. No step leaves the
-- normal form, in which unions have at least two members, all different and none of them a union again, and
-- there is one union for each list of members. It is what makes it enough to look at the members of unions once.
import Mathlib.Logic.Relation
import RouteTypes.Proofs.Rows
import RouteTypes.Typing.Combine

namespace RouteTypes

/-! ## Arenas -/

namespace TypeData

def isUnion : TypeData → Bool
  | .union _ => true
  | _ => false

/-- The types that are added as they are: literals, objects and type parameters. -/
def isSingle : TypeData → Bool
  | .literal _ | .object _ | .param _ => true
  | _ => false

end TypeData

theorem primitive_plain : ∀ i < TypeData.primitives.length,
    (TypeData.primitives.getD i .any).isSingle = false ∧ (TypeData.primitives.getD i .any).isUnion = false := by
  decide

/-- The types by their numbers, and the numbers of unions by their members. -/
structure Arena where
  types : Array TypeData
  unions : Table (List TypeId) TypeId

def Facts.arena (facts : Facts) : Arena := ⟨facts.types, facts.unions⟩

namespace Arena

def data (arena : Arena) (id : TypeId) : TypeData := arena.types.getD id.index .any

def Has (arena : Arena) (id : TypeId) : Prop := id.index < arena.types.size

/-- Nothing but the primitive types. -/
def initial : Arena := Facts.initial.arena

/-- What may happen to an arena while a program is checked. -/
inductive Step : Arena → Arena → Prop where
  | add (facts : Facts) (data : TypeData) (h : data.isSingle = true) : Step facts.arena (facts.addType data).2.arena
  | fill (facts : Facts) (id : TypeId) (change : ObjectType → ObjectType) :
    Step facts.arena (facts.modifyObject id change).arena
  | unite (facts : Facts) (types : List TypeId) (h : ∀ type ∈ types, facts.arena.Has type) :
    Step facts.arena (facts.union types).2.arena

/-- One arena becomes another step by step. -/
def Becomes : Arena → Arena → Prop := Relation.ReflTransGen Step

/-- What a member of a union may be. -/
structure Joins (arena : Arena) (id : TypeId) : Prop where
  has : arena.Has id
  any : arena.data id ≠ .any
  never : arena.data id ≠ .never
  union : (arena.data id).isUnion = false

/-- The members of a union are at least two, all different, and may be members. -/
structure Proper (arena : Arena) (members : List TypeId) : Prop where
  two : 2 ≤ members.length
  nodup : members.Nodup
  joins : ∀ member ∈ members, arena.Joins member

/-- Unions are proper, and the table has all of them under their members. The primitive types are those with the
first numbers only. -/
structure Normal (arena : Arena) : Prop where
  size : TypeData.primitives.length ≤ arena.types.size
  primitive : ∀ {id : TypeId}, id.index < TypeData.primitives.length →
    arena.data id = TypeData.primitives.getD id.index .any
  other : ∀ {id : TypeId}, TypeData.primitives.length ≤ id.index → arena.Has id →
    (arena.data id).isSingle = true ∨ (arena.data id).isUnion = true
  proper : ∀ {id members}, arena.data id = .union members → arena.Proper members
  shared : ∀ {id members}, arena.data id = .union members ↔ arena.unions.get? members = some id

variable {arena arena' : Arena}

/-- What is there stays, though an object type may get other parts. -/
structure Keeps (arena arena' : Arena) : Prop where
  has : ∀ {id}, arena.Has id → arena'.Has id
  object : ∀ {id object}, arena.Has id → arena.data id = .object object → ∃ after, arena'.data id = .object after
  other : ∀ {id}, arena.Has id → (∀ object, arena.data id ≠ .object object) → arena'.data id = arena.data id

theorem Keeps.refl (arena : Arena) : Keeps arena arena := ⟨id, fun _ h => ⟨_, h⟩, fun _ _ => rfl⟩

theorem Keeps.trans {arena'' : Arena} (h : Keeps arena arena') (h' : Keeps arena' arena'') : Keeps arena arena'' where
  has hid := h'.has (h.has hid)
  object hid hobject := by
    obtain ⟨after, hafter⟩ := h.object hid hobject
    exact h'.object (h.has hid) hafter
  other hid hother := by
    have hsame := h.other hid hother
    exact (h'.other (h.has hid) fun object hobject => hother object (hsame.symm.trans hobject)).trans hsame

/-- A member of a union goes on to be one. -/
theorem Joins.keeps {id : TypeId} (h : arena.Joins id) (hle : Keeps arena arena') : arena'.Joins id := by
  by_cases hobject : ∃ object, arena.data id = .object object
  · obtain ⟨object, hobject⟩ := hobject
    obtain ⟨after, hafter⟩ := hle.object h.has hobject
    exact ⟨hle.has h.has, by rw [hafter]; exact TypeData.noConfusion, by rw [hafter]; exact TypeData.noConfusion,
      by rw [hafter]; rfl⟩
  · have hsame := hle.other h.has fun object heq => hobject ⟨object, heq⟩
    exact ⟨hle.has h.has, hsame ▸ h.any, hsame ▸ h.never, hsame ▸ h.union⟩

theorem Proper.keeps {members : List TypeId} (h : arena.Proper members) (hle : Keeps arena arena') :
    arena'.Proper members :=
  ⟨h.two, h.nodup, fun member hmember => (h.joins member hmember).keeps hle⟩

theorem data_of_not_has {id : TypeId} (h : ¬arena.Has id) : arena.data id = .any := by
  rw [data, Array.getD_eq_getD_getElem?, Array.getElem?_eq_none (Nat.le_of_not_lt h)]
  rfl

theorem has_of_union {id : TypeId} {members : List TypeId} (h : arena.data id = .union members) : arena.Has id := by
  by_contra hnot
  rw [data_of_not_has hnot] at h
  cases h

namespace Normal

variable (h : arena.Normal)

include h

theorem has_any : arena.Has .any := Nat.lt_of_lt_of_le (by decide) h.size

theorem has_never : arena.Has .never := Nat.lt_of_lt_of_le (by decide) h.size

theorem data_any : arena.data .any = .any := h.primitive (by decide)

theorem data_never : arena.data .never = .never := h.primitive (by decide)

/-- No other number is that of a primitive type. -/
theorem eq_of_data {id own : TypeId} (hown : own.index < TypeData.primitives.length) (hid : arena.Has id)
    (hsame : arena.data id = arena.data own) : id = own := by
  rw [h.primitive hown] at hsame
  by_cases hlt : id.index < TypeData.primitives.length
  · rw [h.primitive hlt] at hsame
    obtain ⟨i⟩ := id
    obtain ⟨j⟩ := own
    rw [← List.getElem_eq_getD (h := hlt), ← List.getElem_eq_getD (h := hown)] at hsame
    have hdistinct : TypeData.primitives.Nodup := by decide
    exact congrArg TypeId.mk (hdistinct.getElem_inj_iff.mp hsame)
  · have hother := h.other (Nat.le_of_not_lt hlt) hid
    rw [hsame] at hother
    obtain ⟨hsingle, hunion⟩ := primitive_plain own.index hown
    rw [hsingle, hunion] at hother
    rcases hother with hother | hother <;> cases hother

end Normal

/-! ## Types that are added -/

section

variable {facts : Facts} {data : TypeData}

theorem data_addType {id : TypeId} (hid : facts.arena.Has id) :
    (facts.addType data).2.arena.data id = facts.arena.data id :=
  getD_push_of_lt _ _ hid

theorem data_addType_new : (facts.addType data).2.arena.data (facts.addType data).1 = data :=
  getD_push_size _ _

theorem has_addType {id : TypeId} : (facts.addType data).2.arena.Has id ↔
    facts.arena.Has id ∨ id = (facts.addType data).1 := by
  unfold Arena.Has Facts.arena Facts.addType
  rw [Array.size_push, Nat.lt_succ_iff_lt_or_eq]
  exact or_congr_right ⟨fun h => congrArg TypeId.mk h, fun h => congrArg TypeId.index h⟩

theorem keeps_addType : Keeps facts.arena (facts.addType data).2.arena where
  has hid := has_addType.mpr (.inl hid)
  object hid hobject := ⟨_, (data_addType hid).trans hobject⟩
  other hid _ := data_addType hid

/-- What the new arena has for a number was there before, or the number is new. -/
theorem of_data_addType {id : TypeId} {found : TypeData} (h : (facts.addType data).2.arena.data id = found)
    (hid : (facts.addType data).2.arena.Has id) : facts.arena.Has id ∧ facts.arena.data id = found ∨
      id = (facts.addType data).1 ∧ data = found := by
  rcases has_addType.mp hid with hold | rfl
  · exact .inl ⟨hold, (data_addType hold).symm.trans h⟩
  · exact .inr ⟨rfl, data_addType_new.symm.trans h⟩

theorem Normal.add (h : facts.arena.Normal) (hdata : data.isSingle = true) : (facts.addType data).2.arena.Normal where
  size := Nat.le_trans h.size (by unfold Facts.arena Facts.addType; rw [Array.size_push]; exact Nat.le_succ _)
  primitive hid := (data_addType (Nat.lt_of_lt_of_le hid h.size)).trans (h.primitive hid)
  other hid hhas := by
    rcases of_data_addType rfl hhas with ⟨hold, hsame⟩ | ⟨-, hsame⟩
    · exact hsame ▸ h.other hid hold
    · exact hsame ▸ .inl hdata
  proper hunion := by
    rcases of_data_addType hunion (has_of_union hunion) with ⟨-, hold⟩ | ⟨-, rfl⟩
    · exact (h.proper hold).keeps keeps_addType
    · cases hdata
  shared {id members} := by
    refine Iff.trans ⟨fun hunion => ?_, fun hunion => ?_⟩ h.shared
    · rcases of_data_addType hunion (has_of_union hunion) with ⟨-, hold⟩ | ⟨-, rfl⟩
      · exact hold
      · cases hdata
    · exact (data_addType (has_of_union hunion)).trans hunion

end

/-! ## Objects that get their parts -/

section

variable {facts : Facts} {id : TypeId} {change : ObjectType → ObjectType}

theorem has_modifyObject {other : TypeId} : (facts.modifyObject id change).arena.Has other ↔ facts.arena.Has other := by
  unfold Arena.Has Facts.arena Facts.modifyObject
  rw [Array.size_modify]

/-- An object type stays one, and anything else stays as it is. -/
theorem data_modifyObject {other : TypeId} (hother : facts.arena.Has other) :
    (facts.modifyObject id change).arena.data other = facts.arena.data other ∨
      ∃ before after, facts.arena.data other = .object before ∧
        (facts.modifyObject id change).arena.data other = .object after := by
  have hget : (facts.modifyObject id change).arena.data other = if id.index = other.index then _
      else facts.arena.data other := getD_modify _ _ _ hother
  have hdata : facts.types.getD other.index .any = facts.arena.data other := rfl
  rw [hget, hdata]
  split
  · cases facts.arena.data other with
    | object before => exact .inr ⟨before, change before, rfl, rfl⟩
    | _ => exact .inl rfl
  · exact .inl rfl

theorem keeps_modifyObject : Keeps facts.arena (facts.modifyObject id change).arena where
  has hother := has_modifyObject.mpr hother
  object hother hobject := by
    rcases data_modifyObject hother with hsame | ⟨_, after, -, hafter⟩
    · exact ⟨_, hsame.trans hobject⟩
    · exact ⟨after, hafter⟩
  other hother hnone := by
    rcases data_modifyObject hother with hsame | ⟨before, _, hbefore, -⟩
    · exact hsame
    · exact absurd hbefore (hnone before)

theorem data_modifyObject_union {other : TypeId} {members : List TypeId} :
    (facts.modifyObject id change).arena.data other = .union members ↔ facts.arena.data other = .union members := by
  constructor
  · intro hunion
    have hhas : facts.arena.Has other := has_modifyObject.mp (has_of_union hunion)
    rcases data_modifyObject hhas with hsame | ⟨_, after, -, hafter⟩
    · exact hsame.symm.trans hunion
    · rw [hafter] at hunion
      cases hunion
  · intro hunion
    exact (keeps_modifyObject.other (has_of_union hunion) fun object hobject => by rw [hunion] at hobject; cases hobject).trans
      hunion

theorem Normal.fill (h : facts.arena.Normal) : (facts.modifyObject id change).arena.Normal where
  size := Nat.le_trans h.size (Nat.le_of_eq Array.size_modify.symm)
  primitive {other} hlt := by
    refine (keeps_modifyObject.other (Nat.lt_of_lt_of_le hlt h.size) fun object hobject => ?_).trans (h.primitive hlt)
    have hsingle := (primitive_plain other.index hlt).1
    rw [← h.primitive hlt, hobject] at hsingle
    cases hsingle
  other hlt hhas := by
    rw [has_modifyObject] at hhas
    rcases data_modifyObject hhas with hsame | ⟨_, _, -, hafter⟩
    · rw [hsame]
      exact h.other hlt hhas
    · rw [hafter]
      exact .inl rfl
  proper hunion := (h.proper (data_modifyObject_union.mp hunion)).keeps keeps_modifyObject
  shared := data_modifyObject_union.trans h.shared

end

/-! ## Types that are united -/

section

variable {facts : Facts} {types : List TypeId}

/-- What is there for a type when it becomes part of a union may be a member of it. -/
theorem Normal.joins_unionParts (h : facts.arena.Normal) {type part : TypeId} (htype : facts.arena.Has type)
    (hpart : part ∈ facts.unionParts type) (hany : part ≠ .any) : facts.arena.Joins part := by
  unfold Facts.unionParts at hpart
  split at hpart
  · rename_i members hunion
    exact (h.proper hunion).joins part hpart
  · cases hpart
  · rename_i hunion hnever
    obtain rfl := List.mem_singleton.mp hpart
    refine ⟨htype, fun hdata => hany (h.eq_of_data (by decide) htype (hdata.trans h.data_any.symm)), hnever, ?_⟩
    cases hdata : facts.arena.data part with
    | union members => exact absurd hdata (hunion members)
    | _ => rfl

/-- What is left of the types in a union: the members of those that are unions, each once. -/
def joined (facts : Facts) (types : List TypeId) : List TypeId := (types.flatMap facts.unionParts).eraseDups

theorem union_eq (facts : Facts) (types : List TypeId) : facts.union types =
    if .any ∈ joined facts types then (.any, facts)
    else match joined facts types with
      | [] => (.never, facts)
      | [only] => (only, facts)
      | members => facts.unionType members := by
  have hany : (types.flatMap facts.unionParts).contains .any = true ↔ .any ∈ joined facts types := by
    rw [joined, List.mem_eraseDups, List.contains_iff_mem]
  exact if_congr hany rfl rfl

theorem union_of_any (h : .any ∈ joined facts types) : facts.union types = (.any, facts) := by
  rw [union_eq, if_pos h]

theorem union_of_many (hany : .any ∉ joined facts types) (htwo : 2 ≤ (joined facts types).length) :
    facts.union types = facts.unionType (joined facts types) := by
  rw [union_eq, if_neg hany]
  split
  · rename_i hnil
    rw [hnil] at htwo
    cases htwo
  · rename_i honly
    rw [honly] at htwo
    cases htwo
    contradiction
  · rfl

/-- Where the same is left of types, the same is their union. -/
theorem union_congr {others : List TypeId} (h : joined facts types = joined facts others) :
    facts.union types = facts.union others := by
  rw [union_eq, union_eq, h]

/-- Unless the union is `any`, it adds to another union what was left of the types. -/
theorem Normal.proper_joined (h : facts.arena.Normal) (htypes : ∀ type ∈ types, facts.arena.Has type)
    (hany : .any ∉ joined facts types) (htwo : 2 ≤ (joined facts types).length) :
    facts.arena.Proper (joined facts types) where
  two := htwo
  nodup := nodup_eraseDups _
  joins part hpart := by
    obtain ⟨type, htype, hmem⟩ := List.mem_flatMap.mp (List.mem_eraseDups.mp hpart)
    exact h.joins_unionParts (htypes type htype) hmem fun heq => hany (heq ▸ hpart)

/-- The union of proper members is noted, and nothing else changes. -/
structure Shares (facts : Facts) (members : List TypeId) (result : TypeId × Facts) : Prop where
  normal : result.2.arena.Normal
  keeps : Keeps facts.arena result.2.arena
  found : result.2.unions.get? members = some result.1

/-- A union that is not there yet is added with its row in the table. -/
theorem Normal.shares_new (h : facts.arena.Normal) {members : List TypeId} (hproper : facts.arena.Proper members)
    (hnone : facts.unions.get? members = none) {added : TypeId × Facts} (hadded : facts.addType (.union members) = added) :
    Shares facts members (added.1, { added.2 with unions := added.2.unions.insert members added.1 }) := by
  subst hadded
  let added := facts.addType (.union members)
  let after : Facts := { added.2 with unions := added.2.unions.insert members added.1 }
  have hkeeps : Keeps facts.arena after.arena := { (keeps_addType : Keeps facts.arena added.2.arena) with }
  have hown : after.arena.data added.1 = .union members := data_addType_new
  have hold : ∀ {id}, facts.arena.Has id → after.arena.data id = facts.arena.data id := data_addType
  have hdata : ∀ {id found}, after.arena.data id = .union found →
      facts.arena.data id = .union found ∨ id = added.1 ∧ members = found := by
    intro id found hunion
    rcases of_data_addType hunion (has_of_union hunion) with ⟨-, hold⟩ | ⟨hnew, hsame⟩
    · exact .inl hold
    · exact .inr ⟨hnew, TypeData.union.inj hsame⟩
  refine ⟨?_, hkeeps, Table.get?_insert_self _ _ _⟩
  constructor
  case size => exact Nat.le_trans h.size (Nat.le_of_lt (lt_size_push _))
  case primitive => exact fun hlt => (hold (Nat.lt_of_lt_of_le hlt h.size)).trans (h.primitive hlt)
  case other =>
    intro id hlt hhas
    rcases has_addType.mp hhas with hid | rfl
    · rw [hold hid]
      exact h.other hlt hid
    · exact .inr (congrArg TypeData.isUnion hown)
  case proper =>
    intro id found hunion
    rcases hdata hunion with hold | ⟨-, rfl⟩
    · exact (h.proper hold).keeps hkeeps
    · exact hproper.keeps hkeeps
  case shared =>
    intro id found
    by_cases hsame : members = found
    · subst hsame
      refine ⟨fun hunion => ?_, fun hget => ?_⟩
      · rcases hdata hunion with hbefore | ⟨rfl, -⟩
        · cases hnone.symm.trans (h.shared.mp hbefore)
        · exact Table.get?_insert_self _ _ _
      · obtain rfl := Option.some_inj.mp ((Table.get?_insert_self _ _ _).symm.trans hget)
        exact hown
    · refine Iff.trans ⟨fun hunion => ?_, fun hbefore => ?_⟩
        (h.shared.trans (Eq.congr_left (Table.get?_insert_of_ne hsame _ _).symm))
      · rcases hdata hunion with hbefore | ⟨-, heq⟩
        · exact hbefore
        · exact absurd heq hsame
      · exact (hold (has_of_union hbefore)).trans hbefore

theorem Normal.shares (h : facts.arena.Normal) {members : List TypeId} (hproper : facts.arena.Proper members) :
    Shares facts members (facts.unionType members) := by
  unfold Facts.unionType
  split
  · rename_i id hid
    exact ⟨h, .refl _, hid⟩
  · exact h.shares_new hproper ‹_› rfl

/-- Where types are united, the normal form stays, and so does what is there. -/
theorem Normal.unite (h : facts.arena.Normal) (htypes : ∀ type ∈ types, facts.arena.Has type) :
    (facts.union types).2.arena.Normal ∧ Keeps facts.arena (facts.union types).2.arena := by
  by_cases hany : .any ∈ joined facts types
  · rw [union_of_any hany]
    exact ⟨h, .refl _⟩
  · by_cases htwo : 2 ≤ (joined facts types).length
    · rw [union_of_many hany htwo]
      have hshares := h.shares (h.proper_joined htypes hany htwo)
      exact ⟨hshares.normal, hshares.keeps⟩
    · have hsame : (facts.union types).2 = facts := by
        rw [union_eq, if_neg hany]
        split
        · rfl
        · rfl
        · rename_i hnil honly
          match hjoined : joined facts types with
          | [] => exact absurd hjoined hnil
          | [only] => exact absurd hjoined (honly only)
          | _ :: _ :: _ =>
            rw [hjoined] at htwo
            exact absurd (Nat.le_add_left 2 _) htwo
      rw [hsame]
      exact ⟨h, .refl _⟩

end

/-! ## Whatever happens to an arena -/

theorem data_initial (id : TypeId) : initial.data id = TypeData.primitives.getD id.index .any := by
  rw [data, Array.getD_eq_getD_getElem?, List.getD_eq_getElem?_getD]
  exact congrArg (Option.getD · TypeData.any) List.getElem?_toArray

theorem initial_no_union {id : TypeId} {members : List TypeId} : initial.data id ≠ .union members := by
  intro hunion
  have hprimitive := (primitive_plain id.index (has_of_union hunion)).2
  rw [← data_initial, hunion] at hprimitive
  cases hprimitive

theorem normal_initial : initial.Normal where
  size := Nat.le_refl _
  primitive {id} _ := data_initial id
  other hle hhas := absurd hhas (Nat.not_lt_of_le hle)
  proper hunion := absurd hunion initial_no_union
  shared {_ members} := ⟨fun hunion => absurd hunion initial_no_union, fun hget => by
    cases (Table.get?_empty members).symm.trans hget⟩

/-- No step leaves the normal form. -/
theorem Normal.step (h : arena.Normal) (hstep : Step arena arena') : arena'.Normal ∧ Keeps arena arena' := by
  cases hstep with
  | add facts data hdata => exact ⟨h.add hdata, keeps_addType⟩
  | fill facts id change => exact ⟨h.fill, keeps_modifyObject⟩
  | unite facts types htypes => exact h.unite htypes

theorem Normal.becomes (h : arena.Normal) (hsteps : Becomes arena arena') : arena'.Normal ∧ Keeps arena arena' := by
  induction hsteps with
  | refl => exact ⟨h, .refl arena⟩
  | tail _ hstep ih =>
    obtain ⟨hnormal, hkeeps⟩ := ih.1.step hstep
    exact ⟨hnormal, ih.2.trans hkeeps⟩

/-! ## Unions of unions -/

section

variable {facts facts' : Facts} {types : List TypeId} {id : TypeId}

/-- The union of the types is known already. -/
def Unites (facts : Facts) (types : List TypeId) (id : TypeId) : Prop := facts.union types = (id, facts)

theorem unionParts_keeps (hle : Keeps facts.arena facts'.arena) {type : TypeId} (htype : facts.arena.Has type) :
    facts'.unionParts type = facts.unionParts type := by
  by_cases hobject : ∃ object, facts.arena.data type = .object object
  · obtain ⟨object, hobject⟩ := hobject
    obtain ⟨after, hafter⟩ := hle.object htype hobject
    unfold Facts.unionParts
    rw [show facts.typeData type = _ from hobject, show facts'.typeData type = _ from hafter]
  · have hsame := hle.other htype fun object heq => hobject ⟨object, heq⟩
    unfold Facts.unionParts
    rw [show facts'.typeData type = facts.typeData type from hsame]

/-- What is left of types in a union does not change. -/
theorem joined_keeps (hle : Keeps facts.arena facts'.arena) (htypes : ∀ type ∈ types, facts.arena.Has type) :
    joined facts' types = joined facts types := by
  unfold joined
  rw [List.flatMap_congr fun type htype => unionParts_keeps hle (htypes type htype)]

/-- The type that is the union, if this is what is left of its members. -/
def IsUnion (arena : Arena) (id : TypeId) : List TypeId → Prop
  | [] => id = .never
  | [only] => id = only
  | members => arena.unions.get? members = some id

theorem isUnion_of_many {members : List TypeId} (htwo : 2 ≤ members.length) :
    arena.IsUnion id members ↔ arena.unions.get? members = some id := by
  match members with
  | [] => cases htwo
  | [_] => exact (Nat.lt_irrefl 1 htwo).elim
  | _ :: _ :: _ => exact Iff.rfl

theorem unites_iff_of_any (h : .any ∈ joined facts types) : Unites facts types id ↔ id = .any := by
  rw [Unites, union_of_any h, Prod.mk.injEq]
  exact ⟨fun heq => heq.1.symm, fun heq => ⟨heq.symm, rfl⟩⟩

theorem unites_iff (h : .any ∉ joined facts types) : Unites facts types id ↔ facts.arena.IsUnion id (joined facts types) := by
  rw [Unites, union_eq, if_neg h]
  generalize joined facts types = members
  match members with
  | [] => exact ⟨fun heq => (Prod.mk.inj heq).1.symm, fun heq => heq ▸ rfl⟩
  | [only] => exact ⟨fun heq => (Prod.mk.inj heq).1.symm, fun heq => heq ▸ rfl⟩
  | first :: second :: rest =>
    change facts.unionType (first :: second :: rest) = (id, facts) ↔ facts.unions.get? (first :: second :: rest) = some id
    unfold Facts.unionType
    split
    · rename_i found hfound
      rw [hfound]
      exact ⟨fun heq => congrArg some (Prod.mk.inj heq).1, fun heq => Option.some_inj.mp heq ▸ rfl⟩
    · rename_i hnone
      rw [hnone]
      refine ⟨fun heq => ?_, fun heq => by cases heq⟩
      have hsize := congrArg (fun facts : Facts => facts.types.size) (Prod.mk.inj heq).2
      exact absurd hsize (Nat.ne_of_gt (lt_size_push _))

theorem IsUnion.keeps {members : List TypeId} (h : arena.IsUnion id members) (hnormal : arena.Normal)
    (hnormal' : arena'.Normal) (hle : Keeps arena arena') : arena'.IsUnion id members := by
  match members with
  | [] => exact h
  | [only] => exact h
  | first :: second :: rest =>
    have hunion := hnormal.shared.mpr h
    exact hnormal'.shared.mp ((hle.other (has_of_union hunion) fun object heq => by
      rw [hunion] at heq
      cases heq).trans hunion)

section

variable (h : facts.arena.Normal) (htypes : ∀ type ∈ types, facts.arena.Has type)

include h htypes

/-- A union that is known goes on to be the union of its types. -/
theorem Unites.keeps (hunites : Unites facts types id) (h' : facts'.arena.Normal)
    (hle : Keeps facts.arena facts'.arena) : Unites facts' types id := by
  have hsame := joined_keeps hle htypes
  by_cases hany : .any ∈ joined facts types
  · exact (unites_iff_of_any (hsame ▸ hany)).mpr ((unites_iff_of_any hany).mp hunites)
  · refine (unites_iff (hsame ▸ hany)).mpr ?_
    rw [hsame]
    exact ((unites_iff hany).mp hunites).keeps h h' hle

/-- Once types are united, their union is known. -/
theorem union_unites : Unites (facts.union types).2 types (facts.union types).1 := by
  obtain ⟨-, hle⟩ := h.unite htypes
  have hsame := joined_keeps hle htypes
  by_cases hany : .any ∈ joined facts types
  · exact (unites_iff_of_any (hsame ▸ hany)).mpr (by rw [union_of_any hany])
  · refine (unites_iff (hsame ▸ hany)).mpr ?_
    rw [hsame]
    by_cases htwo : 2 ≤ (joined facts types).length
    · rw [isUnion_of_many htwo, union_of_many hany htwo]
      exact (h.shares (h.proper_joined htypes hany htwo)).found
    · rw [union_eq, if_neg hany]
      generalize joined facts types = members at htwo
      match members with
      | [] => rfl
      | [only] => rfl
      | _ :: _ :: _ => exact absurd (Nat.le_add_left 2 _) htwo

/-- What a union adds to another one: itself, if it is `any`, and else what was left of its types. -/
theorem Unites.parts (hunites : Unites facts types id) :
    .any ∈ joined facts types ∧ id = .any ∨ .any ∉ joined facts types ∧ facts.unionParts id = joined facts types := by
  by_cases hany : .any ∈ joined facts types
  · exact .inl ⟨hany, (unites_iff_of_any hany).mp hunites⟩
  · refine .inr ⟨hany, ?_⟩
    have hunion := (unites_iff hany).mp hunites
    match hjoined : joined facts types with
    | [] =>
      rw [hjoined] at hunion
      obtain rfl : id = .never := hunion
      unfold Facts.unionParts
      rw [show facts.typeData .never = .never from h.data_never]
    | [only] =>
      rw [hjoined] at hunion hany
      obtain rfl : id = only := hunion
      obtain ⟨type, htype, hmem⟩ := List.mem_flatMap.mp
        (List.mem_eraseDups.mp (show id ∈ joined facts types by rw [hjoined]; exact List.mem_singleton_self id))
      have hjoins := h.joins_unionParts (htypes type htype) hmem fun heq => hany (heq ▸ List.mem_singleton_self id)
      unfold Facts.unionParts
      cases hdata : facts.typeData id with
      | union members =>
        have hnone := hjoins.union
        rw [show facts.arena.data id = _ from hdata] at hnone
        cases hnone
      | never => exact absurd hdata hjoins.never
      | _ => rfl
    | first :: second :: rest =>
      rw [hjoined] at hunion
      have hdata : facts.typeData id = .union (first :: second :: rest) := h.shared.mpr hunion
      unfold Facts.unionParts
      rw [hdata]

end

end

end Arena

end RouteTypes
