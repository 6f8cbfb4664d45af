-- Unions while a program is checked. Whatever a check notes, the arena of types changes by steps that do not leave
-- the normal form; and where that holds, uniting types has the laws that one expects of a union. The union of
-- types is the one of their unions, piece by piece, whichever of them is asked for first.
import RouteTypes.Proofs.Typing.Programs

namespace RouteTypes

namespace Arena

variable {facts : Facts} {pieces : List (List TypeId)}

/-! ## Laws of unions -/

theorem any_mem_joined (h : facts.arena.Normal) {types : List TypeId} (hany : .any ∈ types) :
    .any ∈ joined facts types := by
  refine List.mem_eraseDups.mpr (List.mem_flatMap.mpr ⟨.any, hany, ?_⟩)
  unfold Facts.unionParts
  rw [show facts.typeData .any = .any from h.data_any]
  exact List.mem_singleton_self _

/-- A type is the union of itself. -/
theorem Normal.unites_self (h : facts.arena.Normal) {type : TypeId} (htype : facts.arena.Has type) :
    Unites facts [type] type := by
  have hjoined : joined facts [type] = (facts.unionParts type).eraseDups := by
    rw [joined, List.flatMap_cons, List.flatMap_nil, List.append_nil]
  by_cases hany : type = .any
  · exact (unites_iff_of_any (any_mem_joined h (hany ▸ List.mem_singleton_self _))).mpr hany
  · have hdata : facts.typeData type ≠ .any := fun hdata =>
      hany (h.eq_of_data (by decide) htype (hdata.trans h.data_any.symm))
    cases hown : facts.typeData type with
    | any => exact absurd hown hdata
    | never =>
      have hparts : joined facts [type] = [] := by rw [hjoined, Facts.unionParts, hown]; rfl
      rw [unites_iff (by rw [hparts]; exact List.not_mem_nil), hparts]
      exact h.eq_of_data (by decide) htype (hown.trans h.data_never.symm)
    | union members =>
      have hproper := h.proper (show facts.arena.data type = .union members from hown)
      have hparts : joined facts [type] = members := by
        rw [hjoined, Facts.unionParts, hown]
        exact eraseDups_of_nodup hproper.nodup
      rw [unites_iff fun hmem => (hproper.joins .any (hparts ▸ hmem)).any h.data_any, hparts,
        isUnion_of_many hproper.two]
      exact h.shared.mp hown
    | _ =>
      have hparts : joined facts [type] = [type] := by rw [hjoined, Facts.unionParts, hown]; rfl
      rw [unites_iff fun hmem => hany (List.mem_singleton.mp (hparts ▸ hmem)).symm, hparts]
      rfl

theorem joined_flatten (facts : Facts) (pieces : List (List TypeId)) :
    joined facts pieces.flatten = (pieces.flatMap (joined facts)).eraseDups := by
  unfold joined
  rw [eraseDups_flatMap_eraseDups, List.flatMap_def, List.flatMap_def, List.map_flatten, List.flatten_flatten,
    List.map_map]
  rfl

/-- The union of types is the one of their unions, piece by piece. -/
theorem Normal.union_flatten (h : facts.arena.Normal) {unions : List TypeId}
    (hunites : List.Forall₂ (Unites facts) pieces unions)
    (hpieces : ∀ piece ∈ pieces, ∀ type ∈ piece, facts.arena.Has type) :
    facts.union unions = facts.union pieces.flatten := by
  have hparts : ∀ {piece union}, piece ∈ pieces → Unites facts piece union → _ := fun hmem hunion =>
    Unites.parts h (hpieces _ hmem) hunion
  by_cases hany : ∃ piece ∈ pieces, .any ∈ joined facts piece
  · obtain ⟨piece, hpiece, hany⟩ := hany
    have hflat : .any ∈ joined facts pieces.flatten := by
      rw [joined_flatten]
      exact List.mem_eraseDups.mpr (List.mem_flatMap.mpr ⟨piece, hpiece, hany⟩)
    have hunion : .any ∈ unions := by
      clear hpieces hparts hflat
      induction hunites with
      | nil => cases hpiece
      | cons hfirst _ ih =>
        rcases List.mem_cons.mp hpiece with rfl | hpiece
        · exact (unites_iff_of_any hany).mp hfirst ▸ List.mem_cons_self
        · exact List.mem_cons_of_mem _ (ih hpiece)
    rw [union_of_any hflat, union_of_any (any_mem_joined h hunion)]
  · refine union_congr ?_
    have hsame : unions.flatMap facts.unionParts = pieces.flatMap (joined facts) := by
      clear hpieces
      induction hunites with
      | nil => rfl
      | cons hfirst _ ih =>
        rw [List.flatMap_cons, List.flatMap_cons, ih (fun hmem => hparts (List.mem_cons_of_mem _ hmem))
          fun ⟨piece, hmem, hin⟩ => hany ⟨piece, List.mem_cons_of_mem _ hmem, hin⟩]
        rcases hparts List.mem_cons_self hfirst with ⟨hin, -⟩ | ⟨-, hown⟩
        · exact absurd ⟨_, List.mem_cons_self, hin⟩ hany
        · rw [hown]
    rw [joined_flatten, ← hsame]
    rfl

/-- Once pieces are united one after the other, the union of each is known. -/
theorem Normal.each_unites : ∀ {facts : Facts} (pieces : List (List TypeId)), facts.arena.Normal →
    (∀ piece ∈ pieces, ∀ type ∈ piece, facts.arena.Has type) →
      List.Forall₂ (Unites (Facts.each Facts.union pieces facts).2) pieces (Facts.each Facts.union pieces facts).1 ∧
        (Facts.each Facts.union pieces facts).2.arena.Normal ∧
        Keeps facts.arena (Facts.each Facts.union pieces facts).2.arena
  | facts, [], h, _ => ⟨.nil, h, .refl _⟩
  | facts, piece :: rest, h, hpieces => by
    have hpiece := hpieces piece List.mem_cons_self
    obtain ⟨hnormal, hkeeps⟩ := h.unite hpiece
    obtain ⟨hrest, hnormal', hkeeps'⟩ := Normal.each_unites rest hnormal fun piece hmem type htype =>
      hkeeps.has (hpieces piece (List.mem_cons_of_mem _ hmem) type htype)
    refine ⟨.cons ?_ hrest, hnormal', hkeeps.trans hkeeps'⟩
    exact Unites.keeps hnormal (fun type htype => hkeeps.has (hpiece type htype)) (union_unites h hpiece) hnormal' hkeeps'

end Arena

namespace Facts

/-- Every union has at least two members, all different, and none of them is `any`, `never` or a union; and unions
with the same members are the same. -/
structure UnionsAreNormal (s : Facts) : Prop where
  two : ∀ {id members}, s.typeData id = .union members → 2 ≤ members.length
  different : ∀ {id members}, s.typeData id = .union members → members.Nodup
  members : ∀ {id members}, s.typeData id = .union members → ∀ member ∈ members, s.HasType member ∧
    s.typeData member ≠ .any ∧ s.typeData member ≠ .never ∧ ∀ inner, s.typeData member ≠ .union inner
  shared : ∀ {id id' members}, s.typeData id = .union members → s.typeData id' = .union members → id = id'

/-- How types are united: twice the same is as much as once, `never` adds nothing, `any` takes everything, and it
does not matter whether pieces of a list are united first. -/
structure UnitesWell (s : Facts) : Prop where
  self : ∀ {type}, s.HasType type → s.union [type] = (type, s)
  twice : ∀ types, s.union (types ++ types) = s.union types
  never : ∀ before behind, s.union (before ++ .never :: behind) = s.union (before ++ behind)
  any : ∀ {types}, .any ∈ types → s.union types = (.any, s)
  /-- The unions of the pieces are united, and then the types of all pieces. -/
  pieces : ∀ {pieces : List (List TypeId)}, (∀ piece ∈ pieces, ∀ type ∈ piece, s.HasType type) →
    ∀ {unions s'}, each union pieces s = (unions, s') → s'.union unions = s'.union pieces.flatten
  /-- The types of all pieces are united, and then the unions of the pieces. -/
  whole : ∀ {pieces : List (List TypeId)}, (∀ piece ∈ pieces, ∀ type ∈ piece, s.HasType type) →
    ∀ {id s' unions s''}, s.union pieces.flatten = (id, s') → each union pieces s' = (unions, s'') →
      s''.union unions = (id, s'')

theorem unions_are_normal {s : Facts} (h : s.arena.Normal) : s.UnionsAreNormal where
  two hunion := (h.proper hunion).two
  different hunion := (h.proper hunion).nodup
  members hunion member hmember := by
    have hjoins := (h.proper hunion).joins member hmember
    refine ⟨hjoins.has, hjoins.any, hjoins.never, fun inner hinner => ?_⟩
    have hnone := hjoins.union
    rw [show s.arena.data member = _ from hinner] at hnone
    cases hnone
  shared hunion hunion' := Option.some_inj.mp ((h.shared.mp hunion).symm.trans (h.shared.mp hunion'))

theorem unites_well {s : Facts} (h : s.arena.Normal) : s.UnitesWell where
  self htype := h.unites_self htype
  twice types := Arena.union_congr (by
    unfold Arena.joined
    rw [List.flatMap_append, eraseDups_append_self])
  never before behind := Arena.union_congr (by
    have hnone : s.unionParts .never = [] := by
      unfold unionParts
      rw [show s.typeData .never = .never from h.data_never]
    unfold Arena.joined
    rw [List.flatMap_append, List.flatMap_cons, hnone, List.nil_append, List.flatMap_append])
  any hany := Arena.union_of_any (Arena.any_mem_joined h hany)
  pieces hpieces unions s' hunions := by
    obtain ⟨hunites, hnormal, hkeeps⟩ := h.each_unites _ hpieces
    rw [hunions] at hunites hnormal hkeeps
    exact hnormal.union_flatten hunites fun piece hmem type htype => hkeeps.has (hpieces piece hmem type htype)
  whole {pieces} hpieces id s' unions s'' hunion hunions := by
    have hflat : ∀ type ∈ pieces.flatten, s.arena.Has type := fun type htype => by
      obtain ⟨piece, hpiece, htype⟩ := List.mem_flatten.mp htype
      exact hpieces piece hpiece type htype
    obtain ⟨hnormal, hkeeps⟩ := h.unite hflat
    have hunites := Arena.union_unites h hflat
    rw [hunion] at hnormal hkeeps hunites
    have hpieces' : ∀ piece ∈ pieces, ∀ type ∈ piece, s'.arena.Has type := fun piece hmem type htype =>
      hkeeps.has (hpieces piece hmem type htype)
    obtain ⟨hall, hnormal', hkeeps'⟩ := hnormal.each_unites _ hpieces'
    rw [hunions] at hall hnormal' hkeeps'
    rw [hnormal'.union_flatten hall fun piece hmem type htype => hkeeps'.has (hpieces' piece hmem type htype)]
    exact hunites.keeps hnormal (fun type htype => hkeeps.has (hflat type htype)) hnormal' hkeeps'

/-- When checking begins there are the primitive types only. -/
theorem arena_bound {known : Node → Prop} (hnodes : Node.Closed known) {prelude root : Node} (hprelude : known prelude)
    (hroot : known root) (hprelude' : prelude.source = .prelude) (hroot' : root.source = .program) :
    (bound prelude root).arena = Arena.initial := by
  obtain ⟨_, _, hfirst⟩ := bindPrelude_declares hnodes hprelude hprelude'
  obtain ⟨_, hsecond, -⟩ := bindProgram_declares hnodes hfirst.named hroot hroot'
  have harena := congrArg arena hsecond.named.rest
  exact harena

end Facts

namespace Checked

/-- While a program is checked the arena of types changes by steps only, and whatever comes about by such steps, all
unions are normal and types are united as they should. -/
theorem unions_stay_normal {text : String} {prelude : Tree} {depth : Nat} {checked : Checked}
    (hchecked : upTo depth (Node.ofTree .prelude prelude) (Program.ofSource text).root = some checked) :
    Arena.initial.Becomes checked.facts.arena ∧
      ∀ facts : Facts, Arena.initial.Becomes facts.arena → facts.UnionsAreNormal ∧ facts.UnitesWell := by
  refine ⟨?_, fun facts hsteps => ?_⟩
  · have hsteps := (ends_upTo hchecked).later.arena
    rwa [Facts.arena_bound (Program.visible_closed text prelude) (.inl (Node.self_mem_descendants _))
      (.inr (Node.self_mem_descendants _)) (Node.source_ofTree _ _) (Node.source_ofTree _ _)] at hsteps
  · obtain ⟨hnormal, -⟩ := Arena.normal_initial.becomes hsteps
    exact ⟨Facts.unions_are_normal hnormal, Facts.unites_well hnormal⟩

/-- The members of a union are united again where its type parameter gets a type that is one of them. -/
def collapsingUnion : String :=
  "type Or<T> = T | string | (number | T); declare const a: Or<string>; declare const b: string | number;"

/-- The symbol with that number has the name and stands for a string or a number. -/
def isStringOrNumber (checked : Checked) (name : String) (index : Nat) : Bool :=
  (checked.symbol ⟨index⟩).name == name &&
    checked.typeData (checked.typeOfSymbol ⟨index⟩) == .union [.string, .number]

/-- The union of strings, strings and numbers is the one of strings and numbers that is written elsewhere. -/
theorem collapsingUnion_is_shared : ∃ checked a b,
    upTo 40 (Node.ofTree .prelude (Program.ofSource "").tree) (Program.ofSource collapsingUnion).root = some checked ∧
      (checked.symbol a).name = "a" ∧ (checked.symbol b).name = "b" ∧
      checked.typeData (checked.typeOfSymbol a) = .union [.string, .number] ∧
      checked.typeOfSymbol a = checked.typeOfSymbol b ∧ checked.facts.UnitesWell := by
  have hall : ((upTo 40 (Node.ofTree .prelude (Program.ofSource "").tree)
      (Program.ofSource collapsingUnion).root).any fun checked =>
        (List.range checked.facts.symbols.size).any (checked.isStringOrNumber "a") &&
          (List.range checked.facts.symbols.size).any (checked.isStringOrNumber "b")) = true := by decide +kernel
  obtain ⟨checked, hchecked, hall⟩ := (Option.any_eq_true _ _).mp hall
  obtain ⟨ha, hb⟩ := Bool.and_eq_true_iff.mp hall
  obtain ⟨a, -, ha⟩ := List.any_eq_true.mp ha
  obtain ⟨b, -, hb⟩ := List.any_eq_true.mp hb
  obtain ⟨hnameA, hunionA⟩ := Bool.and_eq_true_iff.mp ha
  obtain ⟨hnameB, hunionB⟩ := Bool.and_eq_true_iff.mp hb
  obtain ⟨hsteps, hwell⟩ := unions_stay_normal hchecked
  obtain ⟨hnormal, hunites⟩ := hwell checked.facts hsteps
  exact ⟨checked, ⟨a⟩, ⟨b⟩, hchecked, beq_iff_eq.mp hnameA, beq_iff_eq.mp hnameB, beq_iff_eq.mp hunionA,
    hnormal.shared (beq_iff_eq.mp hunionA) (beq_iff_eq.mp hunionB), hunites⟩

end Checked

end RouteTypes
