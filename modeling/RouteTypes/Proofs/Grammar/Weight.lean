-- Which nodes can cover the same text. The text of the grammar tells which rows of children have nothing
-- with bytes in them, and what can be the only child with bytes of a node: kinds have ranks, and such a
-- child has a lower rank than its node. So no node covers the same text as another of its kind in it.
import RouteTypes.Proofs.Grammar.Ending
import RouteTypes.Proofs.Route.Insertion

namespace RouteTypes

open RouteTypes.Tree

/-! ## Rows without weight -/

/-- Every kind but those of a whole program and of its statements, which may have no bytes. -/
def NodeKind.isPlain (kind : NodeKind) : Bool := kind != .sourceFile && kind != .stmtList

/-- Whether a part of that kind may have no bytes. -/
def Kind.isLight : Kind → Bool
  | .token kind => kind == .eof
  | .node kind => !kind.isPlain
  | .tombstone => false

/-- What is left of a row of kinds without those that may have no bytes. -/
def weighty (row : List Kind) : List Kind := row.filter (!·.isLight)

theorem weighty_append (row other : List Kind) : weighty (row ++ other) = weighty row ++ weighty other :=
  List.filter_append ..

/-- Whether the steps can read nothing with bytes. -/
def Steps.canBeLight : Steps → Bool
  | .done | .loop _ _ => true
  | .take kinds => kinds.any fun kind => (Kind.token kind).isLight
  | .refuse _ | .enclosed _ _ => false
  | .seq first rest => first.canBeLight && rest.canBeLight
  | .branch question yes no => question.ways (· || ·) yes.canBeLight no.canBeLight
  | .part phrase => NodeKind.all.any fun kind => phrase.makes kind && (Kind.node kind).isLight

/-- Whether a node of that kind can hold nothing with bytes. -/
def Body.canBeLight (kind : NodeKind) : Body → Bool
  | .close own => own == kind
  | .seq first rest => first.canBeLight && rest.canBeLight kind
  | .branch question yes no => question.ways (· || ·) (yes.canBeLight kind) (no.canBeLight kind)

/-- Whether what the steps read alone, without anything else that has bytes, has the property. -/
def Steps.loneIn (ok : Kind → Bool) : Steps → Bool
  | .done | .refuse _ => true
  | .take kinds => kinds.all fun kind => ok (.token kind)
  | .seq first rest =>
    (!rest.canBeLight || first.loneIn ok) && (!first.canBeLight || rest.loneIn ok)
  | .branch _ yes no => yes.loneIn ok && no.loneIn ok
  | .loop _ body => body.loneIn ok
  | .part phrase => NodeKind.all.all fun kind => !phrase.makes kind || ok (.node kind)
  | .enclosed _ inside => !inside.canBeLight || ok (.token .rBrace)

def Body.loneIn (ok : Kind → Bool) (kind : NodeKind) : Body → Bool
  | .close _ => true
  | .seq first rest =>
    (!rest.canBeLight kind || first.loneIn ok) && (!first.canBeLight || rest.loneIn ok kind)
  | .branch _ yes no =>
    (!yes.closes kind || yes.loneIn ok kind) && (!no.closes kind || no.loneIn ok kind)

namespace NodeForm

def canBeLight (kind : NodeKind) (form : NodeForm) : Bool :=
  form.body.canBeLight kind && form.inner.all fun inner => inner.any fun kind => (Kind.node kind).isLight

def loneIn (ok : Kind → Bool) (kind : NodeKind) (form : NodeForm) : Bool :=
  match form.inner with
  | none => form.body.loneIn ok kind
  | some inner =>
    (!form.body.canBeLight kind || inner.all fun kind => ok (.node kind)) &&
      (!(inner.any fun kind => (Kind.node kind).isLight) || form.body.loneIn ok kind)

end NodeForm

theorem canBeLight_of_makes {phrase : Phrase} {kind : NodeKind} (hmakes : phrase.makes kind = true)
    (hlight : (Kind.node kind).isLight = true) :
    (NodeKind.all.any fun kind => phrase.makes kind && (Kind.node kind).isLight) = true :=
  List.any_eq_true.mpr ⟨kind, NodeKind.mem_all kind, by rw [hmakes, hlight]; rfl⟩

theorem weighty_singleton_eq_nil {kind : Kind} (h : weighty [kind] = []) : kind.isLight = true := by
  simpa [weighty] using h

theorem weighty_singleton {kind only : Kind} (h : weighty [kind] = [only]) : kind = only := by
  have hmem : only ∈ [kind] := List.mem_of_mem_filter (h ▸ List.mem_singleton_self only)
  exact (List.mem_singleton.mp hmem).symm

theorem Steps.canBeLight_of_row {row : List Kind} : ∀ steps : Steps, row ∈ steps.language →
    weighty row = [] → steps.canBeLight = true
  | .done, _, _ | .loop _ _, _, _ => rfl
  | .take kinds, ⟨kind, hkind, hrow⟩, hlight => by
    rw [hrow] at hlight
    exact List.any_eq_true.mpr ⟨kind, hkind, weighty_singleton_eq_nil hlight⟩
  | .refuse _, h, _ => absurd h (Language.notMem_zero _)
  | .seq first rest, h, hlight => by
    obtain ⟨one, hone, other, hother, rfl⟩ := Language.mem_mul.mp h
    obtain ⟨hlight, hlight'⟩ := List.append_eq_nil_iff.mp ((weighty_append one other).symm.trans hlight)
    rw [Steps.canBeLight, first.canBeLight_of_row hone hlight, rest.canBeLight_of_row hother hlight']
    rfl
  | .branch _ yes no, h, hlight =>
    Question.canFit_ways h (yes.canBeLight_of_row · hlight) (no.canBeLight_of_row · hlight)
  | .part phrase, ⟨kind, hkind, hrow⟩, hlight => by
    rw [hrow] at hlight
    exact canBeLight_of_makes hkind (weighty_singleton_eq_nil hlight)
  | .enclosed _ inside, h, hlight => by
    obtain ⟨one, hone, other, hother, rfl⟩ := Language.mem_mul.mp h
    rw [Set.mem_singleton_iff.mp hother, weighty_append] at hlight
    exact absurd (List.append_eq_nil_iff.mp hlight).2 (List.cons_ne_nil _ _)

theorem Body.canBeLight_of_row {kind : NodeKind} {row : List Kind} : ∀ body : Body,
    row ∈ body.language kind → weighty row = [] → body.canBeLight kind = true
  | .close own, h, _ => (Body.close own).closes_of_row h
  | .seq first rest, h, hlight => by
    obtain ⟨one, hone, other, hother, rfl⟩ := Language.mem_mul.mp h
    obtain ⟨hlight, hlight'⟩ := List.append_eq_nil_iff.mp ((weighty_append one other).symm.trans hlight)
    rw [Body.canBeLight, first.canBeLight_of_row hone hlight, rest.canBeLight_of_row hother hlight']
    rfl
  | .branch _ yes no, h, hlight =>
    Question.canFit_ways h (yes.canBeLight_of_row · hlight) (no.canBeLight_of_row · hlight)

/-- If one thing with bytes is left of two rows, then of one of them nothing is left. -/
theorem weighty_append_eq_singleton {row other : List Kind} {only : Kind}
    (h : weighty (row ++ other) = [only]) :
    (weighty row = [only] ∧ weighty other = []) ∨ (weighty row = [] ∧ weighty other = [only]) := by
  rw [weighty_append] at h
  rcases List.append_eq_singleton_iff.mp h with ⟨hrow, hother⟩ | ⟨hrow, hother⟩
  · exact .inr ⟨hrow, hother⟩
  · exact .inl ⟨hrow, hother⟩

section

variable {ok : Kind → Bool} {only : Kind}

theorem Steps.lone_of_row : ∀ (steps : Steps) (row : List Kind), steps.loneIn ok = true →
    row ∈ steps.language → weighty row = [only] → ok only = true
  | .done, row, _, h, honly => by
    rw [(Language.mem_one _).mp h] at honly
    cases honly
  | .take kinds, row, hlone, ⟨kind, hkind, hrow⟩, honly => by
    rw [hrow] at honly
    rw [← weighty_singleton honly]
    exact List.all_eq_true.mp hlone kind hkind
  | .refuse _, _, _, h, _ => absurd h (Language.notMem_zero _)
  | .seq first rest, row, hlone, h, honly => by
    obtain ⟨one, hone, other, hother, rfl⟩ := Language.mem_mul.mp h
    rw [Steps.loneIn, Bool.and_eq_true] at hlone
    rcases weighty_append_eq_singleton honly with ⟨honly, hlight⟩ | ⟨hlight, honly⟩
    · rw [rest.canBeLight_of_row hother hlight] at hlone
      exact first.lone_of_row one hlone.1 hone honly
    · rw [first.canBeLight_of_row hone hlight] at hlone
      exact rest.lone_of_row other hlone.2 hother honly
  | .branch _ yes no, row, hlone, h, honly => by
    rw [Steps.loneIn, Bool.and_eq_true] at hlone
    rcases Question.mem_of_ways h with h | h
    · exact yes.lone_of_row row hlone.1 h honly
    · exact no.lone_of_row row hlone.2 h honly
  | .loop _ body, row, hlone, h, honly => by
    obtain ⟨rows, rfl, hrows⟩ := Language.mem_kstar.mp h
    have hone : ∀ one ∈ rows, weighty one = [only] → ok only = true :=
      fun one hone => body.lone_of_row one hlone (hrows one hone)
    clear h hrows
    induction rows with
    | nil => cases honly
    | cons one rows ih =>
      rw [List.flatten_cons] at honly
      rcases weighty_append_eq_singleton honly with ⟨honly, -⟩ | ⟨-, honly⟩
      · exact hone one List.mem_cons_self honly
      · exact ih honly fun other hother => hone other (List.mem_cons_of_mem _ hother)
  | .part phrase, row, hlone, ⟨kind, hkind, hrow⟩, honly => by
    rw [hrow] at honly
    have hok := List.all_eq_true.mp hlone kind (NodeKind.mem_all kind)
    rw [hkind] at hok
    rw [← weighty_singleton honly]
    exact hok
  | .enclosed _ inside, row, hlone, h, honly => by
    obtain ⟨one, hone, other, hother, rfl⟩ := Language.mem_mul.mp h
    rw [Set.mem_singleton_iff.mp hother] at honly
    rcases weighty_append_eq_singleton honly with ⟨-, hlight⟩ | ⟨hlight, honly⟩
    · cases hlight
    · rw [Steps.loneIn, inside.canBeLight_of_row hone hlight] at hlone
      rw [← weighty_singleton honly]
      exact hlone

theorem Body.lone_of_row {kind : NodeKind} : ∀ (body : Body) (row : List Kind),
    body.loneIn ok kind = true → row ∈ body.language kind → weighty row = [only] → ok only = true
  | .close own, row, _, h, honly => by
    rw [Body.language] at h
    split at h
    · rw [(Language.mem_one _).mp h] at honly
      cases honly
    · exact absurd h (Language.notMem_zero _)
  | .seq first rest, row, hlone, h, honly => by
    obtain ⟨one, hone, other, hother, rfl⟩ := Language.mem_mul.mp h
    rw [Body.loneIn, Bool.and_eq_true] at hlone
    rcases weighty_append_eq_singleton honly with ⟨honly, hlight⟩ | ⟨hlight, honly⟩
    · rw [rest.canBeLight_of_row hother hlight] at hlone
      exact first.lone_of_row one hlone.1 hone honly
    · rw [first.canBeLight_of_row hone hlight] at hlone
      exact rest.lone_of_row other hlone.2 hother honly
  | .branch _ yes no, row, hlone, h, honly => by
    rw [Body.loneIn, Bool.and_eq_true] at hlone
    rcases Question.mem_of_ways h with h | h
    · rw [yes.closes_of_row h] at hlone
      exact yes.lone_of_row row hlone.1 h honly
    · rw [no.closes_of_row h] at hlone
      exact no.lone_of_row row hlone.2 h honly

end

namespace NodeForm

variable {kind : NodeKind} {form : NodeForm} {row : List Kind}

theorem canBeLight_of_row (h : row ∈ form.language kind) (hlight : weighty row = []) :
    form.canBeLight kind = true := by
  obtain ⟨inner, body⟩ := form
  cases inner with
  | none =>
    rw [canBeLight, body.canBeLight_of_row h hlight]
    rfl
  | some inner =>
    obtain ⟨first, hfirst, rest, hrest, rfl⟩ := h
    obtain ⟨hone, hlight⟩ := List.append_eq_nil_iff.mp
      ((weighty_append [.node first] rest).symm.trans hlight)
    have hany : (inner.any fun kind => (Kind.node kind).isLight) = true :=
      List.any_eq_true.mpr ⟨first, hfirst, weighty_singleton_eq_nil hone⟩
    rw [canBeLight, body.canBeLight_of_row hrest hlight, Option.all_some, hany]
    rfl

/-- The only child with bytes has the property. -/
theorem lone_of_row {ok : Kind → Bool} {only : Kind} (hlone : form.loneIn ok kind = true)
    (h : row ∈ form.language kind) (honly : weighty row = [only]) : ok only = true := by
  obtain ⟨inner, body⟩ := form
  cases inner with
  | none => exact body.lone_of_row row hlone h honly
  | some inner =>
    obtain ⟨first, hfirst, rest, hrest, rfl⟩ := h
    rw [loneIn, Bool.and_eq_true] at hlone
    have hsplit : weighty ([.node first] ++ rest) = [only] := honly
    rcases weighty_append_eq_singleton hsplit with ⟨hone, hlight⟩ | ⟨hlight, hone⟩
    · rw [body.canBeLight_of_row hrest hlight] at hlone
      rw [← weighty_singleton hone]
      exact List.all_eq_true.mp hlone.1 first hfirst
    · have hany : (inner.any fun kind => (Kind.node kind).isLight) = true :=
        List.any_eq_true.mpr ⟨first, hfirst, weighty_singleton_eq_nil hlight⟩
      rw [hany] at hlone
      exact body.lone_of_row rest hlone.2 hrest hone

end NodeForm

/-! ## Ranks -/

namespace NodeKind

/-- A node that covers the same text as one around it has a lower rank than that. -/
def rank : NodeKind → Nat
  | .sourceFile => 5
  | .stmtList => 4
  | .paramList => 2
  | .name | .nameRef | .objectBindingPattern => 0
  | kind => if kind.isStatement then 3 else 1

end NodeKind

/-- Tokens, and nodes of a lower rank. -/
def Kind.isBelow (kind : NodeKind) : Kind → Bool
  | .token _ => true
  | .node inner => inner.rank < kind.rank
  | .tombstone => false

namespace Grammar

theorem forms_weigh : forms.all (fun form => NodeKind.all.all fun kind =>
    !kind.isPlain || !form.body.closes kind ||
      (!form.canBeLight kind && form.loneIn (Kind.isBelow kind) kind)) = true := by
  decide +kernel

theorem weigh_of_form {form : NodeForm} {kind : NodeKind} (hform : form ∈ forms)
    (hplain : kind.isPlain = true) (hcloses : form.body.closes kind = true) :
    form.canBeLight kind = false ∧ form.loneIn (Kind.isBelow kind) kind = true := by
  have hone := List.all_eq_true.mp (List.all_eq_true.mp forms_weigh form hform) kind (NodeKind.mem_all kind)
  rw [hplain, hcloses] at hone
  simpa using hone

/-- A node that may have no bytes, if the part is one. -/
def plainPart : Kind → Bool
  | .node kind => kind.isPlain
  | .token _ | .tombstone => true

theorem forms_plain : forms.all (fun form => NodeKind.all.all fun kind =>
    kind == .sourceFile || !form.body.closes kind || form.allIn plainPart) = true := by
  decide +kernel

end Grammar

/-! ## Bytes -/

namespace Tree

/-- The bytes of a tree. -/
def size (tree : Tree) : Nat := Token.sizeOf tree.tokens

/-- Every token in it but the end of the text has bytes. -/
def Weighs (tree : Tree) : Prop := ∀ token ∈ tree.tokens, token.kind ≠ .eof → 0 < token.size

variable {kind : NodeKind} {children : List Tree}

theorem mem_tokensOf {tree : Tree} {trees : List Tree} (h : tree ∈ trees) {token : Token}
    (htoken : token ∈ tree.tokens) : token ∈ tokensOf trees := by
  obtain ⟨before, behind, rfl⟩ := List.append_of_mem h
  rw [tokensOf_append]
  exact List.mem_append_right _ (List.mem_append_left _ htoken)

theorem Weighs.child (h : (Tree.node kind children).Weighs) : ∀ child ∈ children, child.Weighs :=
  fun _ hchild token htoken => h token (mem_tokensOf hchild htoken)

theorem size_split (kind : NodeKind) (before : List Tree) (tree : Tree) (behind : List Tree) :
    (Tree.node kind (before ++ tree :: behind)).size =
      Token.sizeOf (tokensOf before) + tree.size + Token.sizeOf (tokensOf behind) := by
  rw [size, tokens, tokensOf_append, tokensOf, Token.sizeOf_append, Token.sizeOf_append, size,
    Nat.add_assoc]

theorem size_le_of_mem {tree : Tree} {trees : List Tree} (h : tree ∈ trees) :
    tree.size ≤ Token.sizeOf (tokensOf trees) := by
  obtain ⟨before, behind, rfl⟩ := List.append_of_mem h
  have hsplit := size_split .stmtList before tree behind
  rw [size, tokens] at hsplit
  omega

theorem token_size_le {tree : Tree} {token : Token} (h : token ∈ tree.tokens) :
    token.size ≤ tree.size := by
  obtain ⟨before, behind, htokens⟩ := List.append_of_mem h
  rw [size, htokens, Token.sizeOf_append]
  simp only [Token.sizeOf, List.map_cons, List.sum_cons]
  omega

/-- A plain node has bytes. -/
theorem Sound.size_pos {tree : Tree} (h : tree.Sound Grammar.forms) (hweighs : tree.Weighs)
    (hkind : ¬ tree.kind.isLight = true) : 0 < tree.size := by
  induction h with
  | leaf token =>
    have hmem : token ∈ (Tree.leaf token).tokens := List.mem_singleton_self token
    have hpos := hweighs token hmem (by simpa [Tree.kind, Kind.isLight] using hkind)
    exact Nat.lt_of_lt_of_le hpos (token_size_le hmem)
  | @node kind children form hform hrow hlast hsound ih =>
    have hplain : kind.isPlain = true := by simpa [Tree.kind, Kind.isLight] using hkind
    obtain ⟨own, hown, hcloses, hrow⟩ := (Sound.node hform hrow hlast hsound).exists_form
    have hheavy := (Grammar.weigh_of_form hown hplain hcloses).1
    have hne : weighty (significantKinds children) ≠ [] := fun hnil => by
      rw [NodeForm.canBeLight_of_row hrow hnil] at hheavy
      cases hheavy
    obtain ⟨only, honly⟩ := List.exists_mem_of_ne_nil _ hne
    obtain ⟨hmem, hnot⟩ := List.mem_filter.mp honly
    obtain ⟨child, hchild, rfl⟩ := List.mem_map.mp hmem
    have hin : child ∈ children := List.mem_of_mem_filter hchild
    exact Nat.lt_of_lt_of_le (ih child hin (hweighs.child child hin) (by simpa using hnot))
      (size_le_of_mem hin)

/-- Only a whole program holds a node that may have no bytes. -/
theorem Sound.child_plain (h : (Tree.node kind children).Sound Grammar.forms) (hkind : kind ≠ .sourceFile)
    {inner : NodeKind} {parts : List Tree} (hchild : .node inner parts ∈ children) : inner.isPlain = true := by
  obtain ⟨form, hform, hcloses, hrow⟩ := h.exists_form
  have hplain := List.all_eq_true.mp (List.all_eq_true.mp Grammar.forms_plain form hform) kind (NodeKind.mem_all kind)
  rw [hcloses, beq_eq_false_iff_ne.mpr hkind] at hplain
  exact NodeForm.all_of_row hplain hrow (.node inner) (List.mem_map_of_mem (List.mem_filter.mpr ⟨hchild, rfl⟩))

/-- What has no bytes may have none by its kind. -/
theorem isLight_of_size {tree : Tree} (h : tree.Sound Grammar.forms) (hweighs : tree.Weighs)
    (hsize : tree.size = 0) : tree.kind.isLight = true := by
  by_contra hkind
  have hpos := h.size_pos hweighs hkind
  omega

theorem weighty_of_size {trees : List Tree} (h : ∀ tree ∈ trees, tree.Sound Grammar.forms)
    (hweighs : ∀ tree ∈ trees, tree.Weighs) (hsize : Token.sizeOf (tokensOf trees) = 0) :
    weighty (significantKinds trees) = [] := by
  refine List.filter_eq_nil_iff.mpr fun kind hkind => ?_
  obtain ⟨tree, htree, rfl⟩ := List.mem_map.mp hkind
  have hin : tree ∈ trees := List.mem_of_mem_filter htree
  have hle := size_le_of_mem hin
  rw [isLight_of_size (h tree hin) (hweighs tree hin) (by omega)]
  exact Bool.false_ne_true

/-- A child that has all the bytes of a plain node is of a lower rank, and plain too. -/
theorem Sound.rank_lt {kind inner : NodeKind} {before behind parts : List Tree}
    (h : (Tree.node kind (before ++ .node inner parts :: behind)).Sound Grammar.forms)
    (hweighs : (Tree.node kind (before ++ .node inner parts :: behind)).Weighs)
    (hplain : kind.isPlain = true) (hbefore : Token.sizeOf (tokensOf before) = 0)
    (hbehind : Token.sizeOf (tokensOf behind) = 0) : inner.rank < kind.rank ∧ inner.isPlain = true := by
  obtain ⟨form, hform, hcloses, hrow⟩ := h.exists_form
  obtain ⟨hheavy, hlone⟩ := Grammar.weigh_of_form hform hplain hcloses
  have hlight := weighty_of_size (fun tree htree => h.child tree (List.mem_append_left _ htree))
    (fun tree htree => hweighs.child tree (List.mem_append_left _ htree)) hbefore
  have hlight' := weighty_of_size
    (fun tree htree => h.child tree (List.mem_append_right _ (List.mem_cons_of_mem _ htree)))
    (fun tree htree => hweighs.child tree (List.mem_append_right _ (List.mem_cons_of_mem _ htree)))
    hbehind
  have hone : significantKinds [.node inner parts] = [.node inner] := rfl
  rw [← List.singleton_append, significantKinds_append, significantKinds_append, hone] at hrow
  have hall : weighty (significantKinds before ++ ([.node inner] ++ significantKinds behind)) =
      weighty [.node inner] := by
    rw [weighty_append, weighty_append, hlight, hlight', List.nil_append, List.append_nil]
  cases hinner : inner.isPlain with
  | false =>
    have hnil : weighty [.node inner] = [] := by simp [weighty, Kind.isLight, hinner]
    rw [NodeForm.canBeLight_of_row hrow (hall.trans hnil)] at hheavy
    cases hheavy
  | true =>
    have honly : weighty [.node inner] = [.node inner] := by simp [weighty, Kind.isLight, hinner]
    have hbelow := NodeForm.lone_of_row hlone hrow (hall.trans honly)
    exact ⟨of_decide_eq_true hbelow, rfl⟩

end Tree

end RouteTypes
