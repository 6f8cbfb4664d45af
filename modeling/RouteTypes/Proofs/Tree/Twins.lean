-- Two programs that see the same declarations and whose trees match. Nodes at the same place are twins, and
-- what is read off a node is read off its twin too; only a list of arguments may have a record more.
import RouteTypes.Proofs.Tree.Matching
import RouteTypes.Proofs.Tree.Related

namespace RouteTypes

open List

/-- Two programs whose trees match, with what both can see besides their own declarations. -/
structure Pairing where
  grows : Bool
  prelude : Node
  root : Node
  root' : Node
  rooted : Rooted grows root root'
  top : prelude.parent = none
  visible : prelude.source = .prelude
  own : root.source = .program
  distinct : root.Distinct
  distinct' : root'.Distinct

namespace Pairing

variable (P : Pairing)

/-- Whether the nodes are at the same place of the two programs, or of what both can see. -/
def Twin (node node' : Node) : Prop :=
  SamePlace P.prelude P.prelude node node' ∨ SamePlace P.root P.root' node node'

/-- Twins that look the same from above: no lists of arguments, which may have grown. -/
structure Alike (node node' : Node) : Prop where
  twin : P.Twin node node'
  plain : node.kind ≠ .argList

/-- A record that the second program alone has. -/
structure Record (node' : Node) : Prop where
  put : Put P.root P.root' node'
  isRecord : node'.part.IsRecord
  grows : P.grows = true

variable {P} {node node' : Node}

theorem Record.kind (h : P.Record node') : node'.kind = .objectLiteral :=
  have ⟨_, _, _, herase⟩ := h.isRecord
  (Tree.node.inj herase).1

theorem rooted_prelude (P : Pairing) : Rooted P.grows P.prelude P.prelude :=
  ⟨⟨rfl, rfl, .refl _⟩, P.top, P.top⟩

/-! ## Twins -/

theorem twin_root (P : Pairing) : P.Twin P.root P.root' := .inr (.refl _ _)

theorem twin_prelude (P : Pairing) : P.Twin P.prelude P.prelude := .inl (.refl _ _)

namespace Twin

theorem kin (h : P.Twin node node') : Kin P.grows node node' :=
  h.elim (·.kin P.rooted_prelude) (·.kin P.rooted)

theorem kind (h : P.Twin node node') : node'.kind = node.kind := h.kin.kind

theorem source (h : P.Twin node node') : node'.source = node.source := h.kin.source

theorem parent (h : P.Twin node node') : Option.Rel P.Twin node.parent node'.parent := by
  rcases h with h | h
  · exact (h.parent P.rooted_prelude).imp fun _ _ => .inl
  · exact (h.parent P.rooted).imp fun _ _ => .inr

theorem child (h : P.Twin node node') {i : Nat} {child child' : Node} (hchild : node.children[i]? = some child)
    (hchild' : node'.children[i]? = some child') : P.Twin child child' :=
  h.imp (·.child hchild hchild') (·.child hchild hchild')

/-- A record stands behind all nodes that have a twin. -/
theorem record (h : P.Twin node node') (hgrows : P.grows = true) {i : Nat} {record : Node}
    (hlength : node.children.length ≤ i) (hrecord : node'.children[i]? = some record)
    (his : record.part.IsRecord) : P.Record record := by
  rcases h with h | h
  · -- What both can see p the same, so it has not grown.
    obtain ⟨way, hway, hway'⟩ := h
    cases hway.symm.trans hway'
    rw [List.getElem?_eq_none hlength] at hrecord
    cases hrecord
  · obtain ⟨way, hway, hway'⟩ := h
    refine ⟨⟨way ++ [i], ?_, ?_⟩, his, hgrows⟩
    · rw [Node.down_concat, hway]
      exact List.getElem?_eq_none hlength
    · rw [Node.down_concat, hway']
      exact hrecord

/-- The nodes right below have twins, and the second list of arguments may have a record behind them. -/
theorem children (h : P.Twin node node') : ∃ own put, node'.children = own ++ put ∧
    Forall₂ P.Twin node.children own ∧
      (put = [] ∨ node.kind = .argList ∧ ∃ record, put = [record] ∧ P.Record record) := by
  obtain ⟨own, put, hchildren, hlength, hput⟩ := h.kin.children
  refine ⟨own, put, hchildren, forall₂_iff_get.mpr ⟨hlength.symm, fun i hi hi' => ?_⟩,
    hput.imp_right fun ⟨hgrows, hkind, record, hrecord, his⟩ => ⟨hkind, record, hrecord, ?_⟩⟩
  · refine h.child (i := i) (List.getElem?_eq_getElem hi) ?_
    rw [hchildren, List.getElem?_append_left hi']
    exact List.getElem?_eq_getElem hi'
  · refine h.record hgrows (Nat.le_of_eq hlength.symm) (?_ : node'.children[own.length]? = _) his
    rw [hchildren, hrecord]
    simp

theorem around : ∀ {node node' : Node}, P.Twin node node' → Forall₂ P.Twin node.around node'.around
  | ⟨_, _, _, _, none⟩, ⟨_, _, _, _, parent'⟩, h => by
    have hparent : Option.Rel P.Twin none parent' := h.parent
    cases hparent
    exact .nil
  | ⟨_, _, _, _, some outer⟩, ⟨_, _, _, _, parent'⟩, h => by
    have hparent : Option.Rel P.Twin (some outer) parent' := h.parent
    cases hparent with
    | some houter => exact .cons houter (around houter)

theorem outwards (h : P.Twin node node') : Forall₂ P.Twin node.outwards node'.outwards := .cons h h.around

theorem alike (h : P.Twin node node') {p : NodeKind → Bool} (hkind : p node.kind = true)
    (his : p .argList = false) : P.Alike node node' :=
  ⟨h, fun hlist => by rw [hlist, his] at hkind; cases hkind⟩

end Twin

/-! ## What is read off nodes -/

theorem filter_alike {nodes nodes' : List Node} (h : Forall₂ P.Twin nodes nodes') {p : NodeKind → Bool}
    (his : p .argList = false) : Forall₂ P.Alike (nodes.filter (p ·.kind)) (nodes'.filter (p ·.kind)) := by
  induction h with
  | nil => exact .nil
  | @cons node node' _ _ htwin _ ih =>
    rw [List.filter_cons, List.filter_cons, htwin.kind]
    split
    · rename_i hkind
      exact .cons (htwin.alike hkind his) ih
    · exact ih

theorem find?_alike {nodes nodes' : List Node} (h : Forall₂ P.Twin nodes nodes') {p : NodeKind → Bool}
    (his : p .argList = false) : Option.Rel P.Alike (nodes.find? (p ·.kind)) (nodes'.find? (p ·.kind)) := by
  rw [← List.head?_filter, ← List.head?_filter]
  exact (filter_alike h his).head?

end Pairing

/-- The tokens right below a node that are neither blanks nor comments. -/
def Node.solids (node : Node) : List Token := (node.tokens.map (·.token)).filter (!·.isTrivia)

/-- The tokens of a row of parts that are neither blanks nor comments. -/
def Part.solids (parts : List Part) : List Token := (parts.filterMap Part.token?).filter (!·.isTrivia)

theorem Node.solids_eq (node : Node) : node.solids = Part.solids node.parts := by
  rw [solids, tokens, Part.solids, List.map_filterMap]
  congr 2
  funext part
  cases part <;> rfl

theorem Part.solids_trivia {part : Part} (h : part.isTrivia = true) (parts : List Part) :
    Part.solids (part :: parts) = Part.solids parts := by
  cases part with
  | node _ _ _ => cases h
  | leaf span token =>
    have htoken : token.isTrivia = true := h
    simp [Part.solids, Part.token?, htoken]

theorem Matches.solids {grows list : Bool} {parts parts' : List Part} (h : Matches grows list parts parts') :
    list = false → Part.solids parts' = Part.solids parts := by
  induction h with
  | nil => exact fun _ => rfl
  | blank trivia _ ih => exact fun hlist => by rw [Part.solids_trivia trivia, ih hlist]
  | blank' trivia _ ih => exact fun hlist => by rw [Part.solids_trivia trivia, ih hlist]
  | leaf solid _ ih =>
    intro hlist
    have hrest := ih hlist
    simp only [Part.solids] at hrest
    simp [Part.solids, Part.token?, solid, hrest]
  | node _ _ _ ih => exact ih
  | grown => exact fun hlist => by cases hlist

/-- A question about tokens that is never answered by a blank or a comment. -/
def Meant (p : Token → Bool) : Prop := ∀ token, token.isTrivia = true → p token = false

theorem Meant.and_solid {p : Token → Bool} (h : Meant p) : (fun token => !token.isTrivia && p token) = p := by
  funext token
  cases htoken : token.isTrivia
  · rfl
  · exact (h token htoken).symm

/-- Whether it is one can be seen from the kinds. -/
theorem Meant.kind {p : TokenKind → Bool} (h : TokenKind.all.all (fun kind => !kind.isTrivia || !p kind) = true) :
    Meant fun token => p token.kind := by
  intro token htoken
  have hkind := List.all_eq_true.mp h token.kind (TokenKind.mem_all _)
  rw [show token.kind.isTrivia = true from htoken] at hkind
  simpa using hkind

namespace Node

theorem tokens_find? (node : Node) {p : Token → Bool} (h : Meant p) :
    (node.tokens.find? (p ·.token)).map (·.token) = node.solids.find? p := by
  rw [solids, List.find?_filter, List.find?_map]
  congr 2
  funext placed
  exact (congrFun h.and_solid placed.token).symm.trans (by simp)

theorem tokens_filter (node : Node) {p : Token → Bool} (h : Meant p) :
    (node.tokens.filter (p ·.token)).map (·.token) = node.solids.filter p := by
  rw [solids, List.filter_filter, List.filter_map]
  congr 2
  funext placed
  exact (congrFun h.and_solid placed.token).symm.trans (by simp [Bool.and_comm])

theorem tokens_any (node : Node) {p : Token → Bool} (h : Meant p) :
    node.tokens.any (p ·.token) = node.solids.any p := by
  rw [solids, List.any_filter, List.any_map]
  congr 1
  funext placed
  exact (congrFun h.and_solid placed.token).symm

end Node

namespace Pairing.Alike

variable {P : Pairing} {node node' : Node}

theorem kind (h : P.Alike node node') : node'.kind = node.kind := h.twin.kind

theorem source (h : P.Alike node node') : node'.source = node.source := h.twin.source

theorem solids (h : P.Alike node node') : node'.solids = node.solids := by
  rw [Node.solids_eq, Node.solids_eq]
  exact h.twin.kin.parts.solids (beq_eq_false_iff_ne.mpr h.plain)

theorem children (h : P.Alike node node') : Forall₂ P.Twin node.children node'.children := by
  obtain ⟨own, put, hchildren, hown, hput⟩ := h.twin.children
  rcases hput with rfl | ⟨hkind, -⟩
  · rw [hchildren, List.append_nil]
    exact hown
  · exact absurd hkind h.plain

theorem childrenOf (h : P.Alike node node') {p : NodeKind → Bool} (his : p .argList = false) :
    Forall₂ P.Alike (node.childrenOf p) (node'.childrenOf p) :=
  filter_alike h.children his

theorem child? (h : P.Alike node node') {p : NodeKind → Bool} (his : p .argList = false) :
    Option.Rel P.Alike (node.child? p) (node'.child? p) :=
  find?_alike h.children his

/-- The nodes below the first node of a kind. -/
theorem listed (h : P.Alike node node') {outer inner : NodeKind → Bool} (houter : outer .argList = false)
    (hinner : inner .argList = false) :
    Forall₂ P.Alike (((node.child? outer).map (·.childrenOf inner)).getD [])
      (((node'.child? outer).map (·.childrenOf inner)).getD []) :=
  ((h.child? houter).map fun _ _ hlist => hlist.childrenOf hinner).getD .nil

/-! ### Tokens -/

theorem find? (h : P.Alike node node') {p : Token → Bool} (hask : Meant p) :
    (node'.tokens.find? (p ·.token)).map (·.token) = (node.tokens.find? (p ·.token)).map (·.token) := by
  rw [Node.tokens_find? node' hask, Node.tokens_find? node hask, h.solids]

theorem firstToken? (h : P.Alike node node') :
    node'.firstToken?.map (·.token) = node.firstToken?.map (·.token) :=
  h.find? (.kind (p := (!·.isTrivia)) rfl)

theorem token? (h : P.Alike node node') {kind : TokenKind} (hkind : kind.isTrivia = false) :
    (node'.token? kind).map (·.token) = (node.token? kind).map (·.token) := by
  refine h.find? (p := fun token => token.kind == kind) fun token htoken => beq_eq_false_iff_ne.mpr ?_
  rintro rfl
  rw [show token.kind.isTrivia = true from htoken] at hkind
  cases hkind

theorem hasToken (h : P.Alike node node') {kind : TokenKind} (hkind : kind.isTrivia = false) :
    node'.hasToken kind = node.hasToken kind := by
  rw [Node.hasToken, Node.hasToken, ← Option.isSome_map (f := Placed.token), h.token? hkind, Option.isSome_map]

theorem nameText (h : P.Alike node node') : node'.nameText = node.nameText := by
  have htext : ∀ node : Node, node.nameText = match node.firstToken?.map (·.token) with
      | none => ""
      | some token => if token.kind == .stringLiteral then unquote token.text else token.text := by
    intro node
    rw [Node.nameText]
    cases node.firstToken? <;> rfl
  rw [htext, htext, h.firstToken?]

theorem refText (h : P.Alike node node') : node'.refText = node.refText := by
  have htext : ∀ node : Node, node.refText = (((node.token? .ident).map (·.token)).map (·.text)).getD "" := by
    intro node
    rw [Node.refText, Option.map_map]
    rfl
  rw [htext, htext, h.token? rfl]

theorem operator? (h : P.Alike node node') : node'.operator? = node.operator? := by
  have hkind : ∀ node : Node, node.operator? = (node.firstToken?.map (·.token)).map (·.kind) := by
    intro node
    rw [Node.operator?, Option.map_map]
    rfl
  rw [hkind, hkind, h.firstToken?]

theorem constant? (h : P.Alike node node') : node'.constant? = node.constant? := by
  rw [Node.constant?, Node.constant?, h.operator?]

theorem keyword? (h : P.Alike node node') : node'.keyword? = node.keyword? := by
  have hkeyword : ∀ node : Node, node.keyword? =
      ((node.tokens.find? (·.token.kind.isKeyword)).map (·.token)).map (·.kind) := by
    intro node
    rw [Node.keyword?, Option.map_map]
    rfl
  rw [hkeyword, hkeyword, h.find? (.kind (p := TokenKind.isKeyword) (by decide))]

theorem memberToken? (h : P.Alike node node') :
    node'.memberToken?.map (·.token) = node.memberToken?.map (·.token) := by
  have hlast : ∀ node : Node, node.memberToken?.map (·.token) =
      (node.solids.filter fun token => token.kind == .ident || token.kind.isKeyword).getLast? := by
    intro node
    rw [← Node.tokens_filter node (.kind (p := fun kind => kind == .ident || kind.isKeyword) (by decide)),
      List.getLast?_map]
    rfl
  rw [hlast, hlast, h.solids]

theorem memberName? (h : P.Alike node node') : node'.memberName? = node.memberName? := by
  have hname : ∀ node : Node, node.memberName? = (node.memberToken?.map (·.token)).map (·.text) := by
    intro node
    rw [Node.memberName?, Option.map_map]
    rfl
  rw [hname, hname, h.memberToken?]

theorem bindingKey? (h : P.Alike node node') :
    node'.bindingKey?.map (·.token) = node.bindingKey?.map (·.token) :=
  h.find? (.kind (p := fun kind => !kind.isTrivia && kind != .colon) (by decide))

/-! ### Modifiers -/

theorem hasModifier (h : P.Alike node node') {word : TokenKind} (hword : word.isTrivia = false) :
    node'.hasModifier word = node.hasModifier word :=
  (h.childrenOf (p := (· == .modifierList)) rfl).any_eq fun _ _ hlist => hlist.hasToken hword

theorem isAsync (h : P.Alike node node') : node'.isAsync = node.isAsync := by
  refine (h.childrenOf (p := (· == .modifierList)) rfl).any_eq fun list list' hlist => ?_
  have hmeant : Meant (· == (⟨.ident, "async"⟩ : Token)) := fun token htoken =>
    beq_eq_false_iff_ne.mpr fun hsame => by rw [hsame] at htoken; cases htoken
  rw [Node.tokens_any list' hmeant, Node.tokens_any list hmeant, hlist.solids]

theorem isStatic (h : P.Alike node node') : node'.isStatic = node.isStatic := h.hasModifier rfl

theorem isOptional (h : P.Alike node node') : node'.isOptional = node.isOptional := h.hasToken rfl

theorem isRest (h : P.Alike node node') : node'.isRest = node.isRest := h.hasToken rfl

theorem isParameterProperty (h : P.Alike node node') : node'.isParameterProperty = node.isParameterProperty := by
  simp only [Node.isParameterProperty, List.any_cons, List.any_nil]
  rw [h.hasModifier rfl, h.hasModifier rfl, h.hasModifier rfl, h.hasModifier rfl]

/-! ### Parts with names -/

theorem name? (h : P.Alike node node') : Option.Rel P.Alike node.name? node'.name? := h.child? rfl

theorem declaredName? (h : P.Alike node node') : node'.declaredName? = node.declaredName? :=
  h.name?.map_eq fun _ _ hname => hname.nameText

theorem nameRef? (h : P.Alike node node') : Option.Rel P.Alike node.nameRef? node'.nameRef? := h.child? rfl

theorem boundProperty (h : P.Alike node node') : node'.boundProperty = node.boundProperty := by
  have hkey : ∀ node : Node, node.boundProperty = match node.bindingKey?.map (·.token) with
      | some token => token.text
      | none => node.declaredName?.getD "" := by
    intro node
    rw [Node.boundProperty]
    cases node.bindingKey? <;> rfl
  rw [hkey, hkey, h.bindingKey?, h.declaredName?]

theorem expression? (h : P.Alike node node') : Option.Rel P.Alike node.expression? node'.expression? :=
  h.child? rfl

theorem expressionAt? (h : P.Alike node node') (n : Nat) :
    Option.Rel P.Alike (node.expressionAt? n) (node'.expressionAt? n) :=
  (h.childrenOf rfl).getElem? n

theorem type? (h : P.Alike node node') : Option.Rel P.Alike node.type? node'.type? := h.child? rfl

theorem types (h : P.Alike node node') : Forall₂ P.Alike node.types node'.types := h.childrenOf rfl

theorem ascription? (h : P.Alike node node') : Option.Rel P.Alike node.ascription? node'.ascription? := h.child? rfl

theorem ascribed? (h : P.Alike node node') : Option.Rel P.Alike node.ascribed? node'.ascribed? :=
  h.ascription?.bind fun _ _ hascription => hascription.type?

theorem params (h : P.Alike node node') : Forall₂ P.Alike node.params node'.params := h.listed rfl rfl

theorem paramsOf (h : P.Alike node node') : Forall₂ P.Alike node.paramsOf node'.paramsOf := h.childrenOf rfl

theorem block? (h : P.Alike node node') : Option.Rel P.Alike node.block? node'.block? := h.child? rfl

theorem arrowBody? (h : P.Alike node node') : Option.Rel P.Alike node.arrowBody? node'.arrowBody? :=
  h.children.getLast?.filter (fun _ _ hlast => by rw [hlast.kind]) fun _ _ hlast hbody =>
    hlast.alike (p := fun kind => kind == .block || kind.isExpression) hbody rfl

theorem typeArgs (h : P.Alike node node') : Forall₂ P.Alike node.typeArgs node'.typeArgs := h.listed rfl rfl

theorem elements (h : P.Alike node node') : Forall₂ P.Alike node.elements node'.elements := h.childrenOf rfl

theorem extended (h : P.Alike node node') : Forall₂ P.Alike node.extended node'.extended := h.listed rfl rfl

theorem classMembers (h : P.Alike node node') : Forall₂ P.Alike node.classMembers node'.classMembers :=
  h.listed rfl rfl

theorem typeLiteral? (h : P.Alike node node') : Option.Rel P.Alike node.typeLiteral? node'.typeLiteral? :=
  h.child? rfl

theorem typeMembers (h : P.Alike node node') : Forall₂ P.Alike node.typeMembers node'.typeMembers := h.childrenOf rfl

theorem objectMembers (h : P.Alike node node') : Forall₂ P.Alike node.objectMembers node'.objectMembers :=
  h.childrenOf rfl

theorem defaultType? (h : P.Alike node node') : Option.Rel P.Alike node.defaultType? node'.defaultType? := by
  rw [Node.defaultType?, Node.defaultType?, h.hasToken rfl]
  split
  · exact h.types.getLast?
  · exact .none

theorem parentOf? (h : P.Alike node node') {kind : NodeKind} (hkind : kind ≠ .argList) :
    Option.Rel P.Alike (node.parentOf? kind) (node'.parentOf? kind) :=
  h.twin.parent.filter (fun _ _ houter => by rw [houter.kind]) fun _ _ houter hsame =>
    houter.alike (p := (· == kind)) hsame (beq_eq_false_iff_ne.mpr hkind.symm)

/-- The first node around or of the node itself that is of one of the kinds. -/
theorem find?_outwards (h : P.Alike node node') {p : NodeKind → Bool} (his : p .argList = false) :
    Option.Rel P.Alike (node.outwards.find? (p ·.kind)) (node'.outwards.find? (p ·.kind)) :=
  find?_alike h.twin.outwards his

theorem find?_around (h : P.Alike node node') {p : NodeKind → Bool} (his : p .argList = false) :
    Option.Rel P.Alike (node.around.find? (p ·.kind)) (node'.around.find? (p ·.kind)) :=
  find?_alike h.twin.around his

theorem argList? (h : P.Alike node node') : Option.Rel P.Twin node.argList? node'.argList? :=
  h.children.find? fun _ _ hchild => by rw [hchild.kind]

/-- The arguments of a call, behind which the second call may have a record. -/
theorem args (h : P.Alike node node') : ∃ own put, node'.args = own ++ put ∧ Forall₂ P.Alike node.args own ∧
    (put = [] ∨ ∃ record, put = [record] ∧ P.Record record) := by
  have hlist := h.argList?
  rw [Node.args, Node.args]
  revert hlist
  generalize node.argList? = list
  generalize node'.argList? = list'
  rintro (hlist | _)
  · rename_i list list'
    obtain ⟨own, put, hchildren, hown, hput⟩ := hlist.children
    have helements : list'.elements = own.filter (·.kind.isElement) ++ put.filter (·.kind.isElement) := by
      rw [Node.elements, Node.childrenOf, hchildren, List.filter_append]
    refine ⟨_, _, helements, filter_alike hown rfl, hput.imp (fun hput => by rw [hput]; rfl) ?_⟩
    rintro ⟨-, record, rfl, hrecord⟩
    exact ⟨record, by simp [hrecord.kind, NodeKind.isElement, NodeKind.isExpression], hrecord⟩
  · exact ⟨[], [], rfl, .nil, .inl rfl⟩

end Pairing.Alike

namespace Pairing

variable {P : Pairing}

/-! ## Walking through both trees -/

/-- Two rows of parts at the ends of two nodes, with as many nodes before the first as before the second. -/
structure Along (P : Pairing) (outer outer' : Node) (parts parts' : List Part) : Prop where
  twin : P.Twin outer outer'
  behind : ∃ before before', outer.parts = before ++ parts ∧ outer'.parts = before' ++ parts' ∧
    (before'.filterMap outer'.inner?).length = (before.filterMap outer.inner?).length

namespace Along

variable {outer outer' : Node} {parts parts' : List Part}

theorem start (h : P.Twin outer outer') : P.Along outer outer' outer.parts outer'.parts :=
  ⟨h, [], [], rfl, rfl, rfl⟩

theorem left {part : Part} (hpart : part.isLeaf = true) (h : P.Along outer outer' (part :: parts) parts') :
    P.Along outer outer' parts parts' := by
  obtain ⟨htwin, before, before', hparts, hparts', hlength⟩ := h
  refine ⟨htwin, before ++ [part], before', by rw [hparts]; simp, hparts', ?_⟩
  rw [hlength, List.filterMap_append, List.filterMap_cons_none (Node.inner?_leaf hpart), List.filterMap_nil,
    List.append_nil]

theorem right {part : Part} (hpart : part.isLeaf = true) (h : P.Along outer outer' parts (part :: parts')) :
    P.Along outer outer' parts parts' := by
  obtain ⟨htwin, before, before', hparts, hparts', hlength⟩ := h
  refine ⟨htwin, before, before' ++ [part], hparts, by rw [hparts']; simp, ?_⟩
  rw [← hlength, List.filterMap_append, List.filterMap_cons_none (Node.inner?_leaf hpart), List.filterMap_nil,
    List.append_nil]

theorem both {span span' : Text.Span} {kind : NodeKind} {inner inner' : List Part}
    (h : P.Along outer outer' (.node span kind inner :: parts) (.node span' kind inner' :: parts')) :
    P.Twin ⟨outer.source, kind, span, inner, some outer⟩ ⟨outer'.source, kind, span', inner', some outer'⟩ ∧
      P.Along outer outer' parts parts' := by
  obtain ⟨htwin, before, before', hparts, hparts', hlength⟩ := h
  refine ⟨htwin.child (i := (before.filterMap outer.inner?).length) ?_ ?_,
    htwin, before ++ [.node span kind inner], before' ++ [.node span' kind inner'], ?_, ?_, ?_⟩
  · rw [Node.children, hparts, List.filterMap_append, Node.filterMap_node]
    simp
  · rw [Node.children, hparts', List.filterMap_append, Node.filterMap_node, ← hlength]
    simp
  · rw [hparts]
    simp
  · rw [hparts']
    simp
  · simp [List.filterMap_append, Node.filterMap_node, hlength]

end Along

theorem isLeaf_of_isTrivia {part : Part} (h : part.isTrivia = true) : part.isLeaf = true := by
  cases part with
  | leaf _ _ => rfl
  | node _ _ _ => cases h

/-- What is true of the parts of twins: it can be shown along both rows at once, and for what is below first. -/
theorem Twin.walk {motive : Node → Node → List Part → List Part → Prop}
    (nil : ∀ {outer outer' : Node}, P.Twin outer outer' → motive outer outer' [] [])
    (left : ∀ {outer outer' : Node} {part : Part} {parts parts' : List Part}, part.isLeaf = true →
      motive outer outer' parts parts' → motive outer outer' (part :: parts) parts')
    (right : ∀ {outer outer' : Node} {part : Part} {parts parts' : List Part}, part.isLeaf = true →
      motive outer outer' parts parts' → motive outer outer' parts (part :: parts'))
    (node : ∀ {outer outer' : Node} {span span' : Text.Span} {kind : NodeKind} {inner inner' parts parts' : List Part},
      P.Twin ⟨outer.source, kind, span, inner, some outer⟩ ⟨outer'.source, kind, span', inner', some outer'⟩ →
      motive ⟨outer.source, kind, span, inner, some outer⟩ ⟨outer'.source, kind, span', inner', some outer'⟩
        inner inner' →
      motive outer outer' parts parts' →
      motive outer outer' (.node span kind inner :: parts) (.node span' kind inner' :: parts'))
    (put : ∀ {outer outer' : Node} {span : Text.Span} {kind : NodeKind} {parts inner behind : List Part},
      P.Twin outer outer' → outer.kind = .argList → P.Record ⟨outer'.source, kind, span, inner, some outer'⟩ →
      (∀ part ∈ parts, part.isLeaf = true) → (∀ part ∈ behind, part.isLeaf = true) →
      motive outer outer' parts (.node span kind inner :: behind))
    {outer outer' : Node} (h : P.Twin outer outer') : motive outer outer' outer.parts outer'.parts := by
  have hwalk : ∀ {list : Bool} {parts parts' : List Part}, Matches P.grows list parts parts' →
      ∀ {outer outer' : Node}, list = (outer.kind == .argList) → P.Along outer outer' parts parts' →
        motive outer outer' parts parts' := by
    intro list parts parts' hmatches
    induction hmatches with
    | nil => exact fun _ halong => nil halong.twin
    | blank trivia _ ih =>
      exact fun hlist halong =>
        left (isLeaf_of_isTrivia trivia) (ih hlist (halong.left (isLeaf_of_isTrivia trivia)))
    | blank' trivia _ ih =>
      exact fun hlist halong =>
        right (isLeaf_of_isTrivia trivia) (ih hlist (halong.right (isLeaf_of_isTrivia trivia)))
    | leaf _ _ ih => exact fun hlist halong => left rfl (right rfl (ih hlist ((halong.left rfl).right rfl)))
    | node _ _ ihBelow ihRest =>
      exact fun hlist halong =>
        node halong.both.1 (ihBelow rfl (.start halong.both.1)) (ihRest hlist halong.both.2)
    | @grown parts before behind record hgrows hrecord leaves front back =>
      induction before with
      | nil =>
        intro outer outer' hlist halong
        obtain ⟨config, params, returned, herase⟩ := hrecord
        cases record with
        | leaf _ _ => cases herase
        | node span kind inner =>
          obtain ⟨htwin, front, front', hparts, hparts', hlength⟩ := halong
          refine put htwin (beq_iff_eq.mp hlist.symm) (htwin.record hgrows (i := (front.filterMap outer.inner?).length) ?_ ?_
            ⟨config, params, returned, herase⟩) leaves back
          · rw [Node.children, hparts, List.filterMap_append, Node.filterMap_leaves leaves, List.append_nil]
          · rw [Node.children, hparts', List.filterMap_append, List.nil_append, Node.filterMap_node, ← hlength]
            simp
      | cons part before ih =>
        intro outer outer' hlist halong
        have hpart := front part List.mem_cons_self
        exact right hpart (ih (fun part hin => front part (List.mem_cons_of_mem _ hin)) hlist (halong.right hpart))
  exact hwalk h.kin.parts rfl (.start h)

end Pairing

end RouteTypes
