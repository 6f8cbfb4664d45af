-- What a row of children shows to someone who looks only for some kinds. The text of the grammar tells it: as
-- long as nothing that repeats is looked for, there are only a few rows that can be seen, and they can be
-- listed. So it is decided once for all programs whether a node has exactly one name, or an operator between
-- two expressions.
import RouteTypes.Proofs.Grammar.Direct

namespace RouteTypes

/-! ## What is seen of a row -/

section

variable {α : Type} [DecidableEq α] (see : Kind → Option α)

/-- The views of rows behind each other. -/
def viewsBehind (first rest : List (List α)) : List (List α) :=
  (first.flatMap fun one => rest.map (one ++ ·)).dedup

/-- The views of one part of several kinds. -/
def viewsOf (kinds : List Kind) : List (List α) := (kinds.map fun kind => (see kind).toList).dedup

/-- The views of what the steps read, if they can be listed. -/
def Steps.views : Steps → Option (List (List α))
  | .done => some [[]]
  | .take kinds => some (viewsOf see (kinds.map .token))
  | .refuse _ => some []
  | .seq first rest => first.views.bind fun first => rest.views.map (viewsBehind first)
  | .branch question yes no =>
    question.ways (fun yes no => yes.bind fun yes => no.map (yes ++ ·)) yes.views no.views
  | .loop _ body => if body.allIn fun kind => (see kind).isNone then some [[]] else none
  | .part phrase => some (viewsOf see ((NodeKind.all.filter fun kind => phrase.makes kind).map .node))
  | .enclosed _ inside => inside.views.map fun inside => viewsBehind inside (viewsOf see [.token .rBrace])

/-- The views of the children of a node of that kind, if they can be listed. -/
def Body.views (kind : NodeKind) : Body → Option (List (List α))
  | .close own => some (if own = kind then [[]] else [])
  | .seq first rest => (first.views see).bind fun first => (rest.views kind).map (viewsBehind first)
  | .branch question yes no =>
    question.ways (fun yes no => yes.bind fun yes => no.map (yes ++ ·)) (yes.views kind) (no.views kind)

/-- The views of the children of a node of that form and that kind, if they can be listed. -/
def NodeForm.views (kind : NodeKind) (form : NodeForm) : Option (List (List α)) :=
  match form.inner with
  | none => form.body.views see kind
  | some inner => (form.body.views see kind).map (viewsBehind (viewsOf see (inner.map .node)))

variable {see}

theorem mem_viewsBehind {first rest : List (List α)} {one other : List α} (hone : one ∈ first)
    (hother : other ∈ rest) : one ++ other ∈ viewsBehind first rest :=
  List.mem_dedup.mpr (List.mem_flatMap.mpr ⟨one, hone, List.mem_map_of_mem hother⟩)

theorem mem_viewsOf {kinds : List Kind} {kind : Kind} (h : kind ∈ kinds) :
    [kind].filterMap see ∈ viewsOf see kinds := by
  refine List.mem_dedup.mpr (List.mem_map.mpr ⟨kind, h, ?_⟩)
  rw [List.filterMap_cons, List.filterMap_nil]
  cases see kind <;> rfl

omit [DecidableEq α] in
/-- Views of two ways to go on are listed only with those of both. -/
theorem Question.mem_views {row : List Kind} {question : Question} {yes no : Language Kind}
    {yes' no' : Option (List (List α))} {views : List (List α)}
    (hviews : question.ways (fun yes no => yes.bind fun yes => no.map (yes ++ ·)) yes' no' = some views)
    (h : row ∈ question.ways (· + ·) yes no)
    (hyes : ∀ views, yes' = some views → row ∈ yes → row.filterMap see ∈ views)
    (hno : ∀ views, no' = some views → row ∈ no → row.filterMap see ∈ views) :
    row.filterMap see ∈ views := by
  unfold Question.ways at hviews h
  split at h <;> rename_i hsettled <;> rw [hsettled] at hviews
  · exact hyes views hviews h
  · exact hno views hviews h
  · obtain ⟨yesViews, hyesViews, hviews⟩ := Option.bind_eq_some_iff.mp hviews
    obtain ⟨noViews, hnoViews, rfl⟩ := Option.map_eq_some_iff.mp hviews
    rcases (Language.mem_add _ _ _).mp h with h | h
    · exact List.mem_append_left _ (hyes _ hyesViews h)
    · exact List.mem_append_right _ (hno _ hnoViews h)

theorem Steps.view_of_row : ∀ (steps : Steps) (row : List Kind) (views : List (List α)),
    steps.views see = some views → row ∈ steps.language → row.filterMap see ∈ views
  | .done, row, views, hviews, h => by
    cases hviews
    rw [(Language.mem_one _).mp h]
    exact List.mem_singleton_self _
  | .take kinds, row, views, hviews, ⟨kind, hkind, hrow⟩ => by
    cases hviews
    rw [hrow]
    exact mem_viewsOf (List.mem_map_of_mem hkind)
  | .refuse _, _, _, _, h => absurd h (Language.notMem_zero _)
  | .seq first rest, row, views, hviews, h => by
    obtain ⟨one, hone, other, hother, rfl⟩ := Language.mem_mul.mp h
    obtain ⟨firstViews, hfirst, hviews⟩ := Option.bind_eq_some_iff.mp hviews
    obtain ⟨restViews, hrest, rfl⟩ := Option.map_eq_some_iff.mp hviews
    rw [List.filterMap_append]
    exact mem_viewsBehind (first.view_of_row one _ hfirst hone) (rest.view_of_row other _ hrest hother)
  | .branch _ yes no, row, views, hviews, h =>
    Question.mem_views hviews h (fun views => yes.view_of_row row views)
      (fun views => no.view_of_row row views)
  | .loop question body, row, views, hviews, h => by
    rw [Steps.views] at hviews
    split at hviews
    · rename_i hall
      cases hviews
      have hrow := (Steps.loop question body).all_of_row row hall h
      rw [List.filterMap_eq_nil_iff.mpr fun kind hkind => Option.isNone_iff_eq_none.mp (hrow kind hkind)]
      exact List.mem_singleton_self _
    · cases hviews
  | .part phrase, row, views, hviews, ⟨kind, hkind, hrow⟩ => by
    cases hviews
    rw [hrow]
    exact mem_viewsOf (List.mem_map_of_mem (List.mem_filter.mpr ⟨NodeKind.mem_all kind, hkind⟩))
  | .enclosed _ inside, row, views, hviews, h => by
    obtain ⟨one, hone, other, hother, rfl⟩ := Language.mem_mul.mp h
    obtain ⟨insideViews, hinside, rfl⟩ := Option.map_eq_some_iff.mp hviews
    rw [List.filterMap_append, Set.mem_singleton_iff.mp hother]
    exact mem_viewsBehind (inside.view_of_row one _ hinside hone) (mem_viewsOf (List.mem_singleton_self _))

theorem Body.view_of_row {kind : NodeKind} : ∀ (body : Body) (row : List Kind) (views : List (List α)),
    body.views see kind = some views → row ∈ body.language kind → row.filterMap see ∈ views
  | .close own, row, views, hviews, h => by
    cases hviews
    rw [Body.language] at h
    split at h
    · rename_i hown
      rw [(Language.mem_one _).mp h, if_pos hown]
      exact List.mem_singleton_self _
    · exact absurd h (Language.notMem_zero _)
  | .seq first rest, row, views, hviews, h => by
    obtain ⟨one, hone, other, hother, rfl⟩ := Language.mem_mul.mp h
    obtain ⟨firstViews, hfirst, hviews⟩ := Option.bind_eq_some_iff.mp hviews
    obtain ⟨restViews, hrest, rfl⟩ := Option.map_eq_some_iff.mp hviews
    rw [List.filterMap_append]
    exact mem_viewsBehind (first.view_of_row one _ hfirst hone) (rest.view_of_row other _ hrest hother)
  | .branch _ yes no, row, views, hviews, h =>
    Question.mem_views hviews h (fun views => yes.view_of_row row views)
      (fun views => no.view_of_row row views)

theorem NodeForm.view_of_row {kind : NodeKind} {form : NodeForm} {row : List Kind}
    {views : List (List α)} (hviews : form.views see kind = some views) (h : row ∈ form.language kind) :
    row.filterMap see ∈ views := by
  obtain ⟨inner, body⟩ := form
  cases inner with
  | none => exact body.view_of_row row views hviews h
  | some inner =>
    obtain ⟨first, hfirst, rest, hrest, rfl⟩ := h
    obtain ⟨restViews, hbody, rfl⟩ := Option.map_eq_some_iff.mp hviews
    rw [← List.singleton_append, List.filterMap_append]
    exact mem_viewsBehind (mem_viewsOf (List.mem_map_of_mem hfirst)) (body.view_of_row rest _ hbody hrest)

/-! ## What the grammar shows -/

namespace Grammar

/-- Whether each node of that kind shows one of these views. -/
def shows (see : Kind → Option α) (kind : NodeKind) (wanted : List (List α)) : Bool :=
  directForms.all fun form => !form.body.closes kind ||
    (form.views see kind).any fun views => views.all fun view => decide (view ∈ wanted)

theorem view_of_form {kind : NodeKind} {wanted : List (List α)} (hshows : shows see kind wanted = true)
    {form : NodeForm} (hform : form ∈ directForms) (hcloses : form.body.closes kind = true) {row : List Kind}
    (h : row ∈ form.language kind) : row.filterMap see ∈ wanted := by
  have hone := List.all_eq_true.mp hshows form hform
  rw [hcloses, Bool.not_true, Bool.false_or] at hone
  obtain ⟨views, hviews, hall⟩ := (Option.any_eq_true _ _).mp hone
  exact of_decide_eq_true (List.all_eq_true.mp hall _ (NodeForm.view_of_row hviews h))

end Grammar

end

end RouteTypes
