-- Type expressions that need one another. What a type expression writes is worked out from the type expressions in
-- it, and from those that stand for what it leaves out. Nothing is said in advance while that is being done, so where
-- this leads on and on, there is no result, however deep questions may lead to questions.
import RouteTypes.Proofs.Typing.Prelude
import RouteTypes.Proofs.Typing.Programs
import RouteTypes.Proofs.Typing.Rules

namespace RouteTypes

variable {known : Node → Prop}

namespace Facts

/-! ## What a type expression needs -/

/-- The name that a reference to a type says. -/
def refName (node : Node) : String := (node.nameRef?.map (·.refText)).getD ""

/-- The type that stands for a type parameter that is left out. -/
def default? (s : Facts) (param : SymbolId) : Option Node := (s.symbol param).declarations.head?.bind (·.defaultType?)

/-- The node refers to the symbol. -/
structure RefersTo (s : Facts) (node : Node) (symbol : SymbolId) : Prop where
  kind : node.kind = .typeRef
  word : node.typeArgs = [] → TypeId.ofWord? (refName node) = none
  lookup : s.lookup node .type (refName node) = some symbol

/-- Something that may have type parameters, and they are declared. -/
structure IsGeneric (s : Facts) (symbol : SymbolId) : Prop where
  kind : (s.symbol symbol).kind = .classDecl ∨ (s.symbol symbol).kind = .interface ∨ (s.symbol symbol).kind = .alias
  params : ∀ node ∈ s.typeParamNodes symbol, ∃ param, s.declared? node = some param ∧ (s.symbol param).kind = .typeParam

/-- A type expression needs another one: there is no telling what it writes before the other one is told. -/
inductive Needs (s : Facts) (node : Node) : Node → Prop
  | element {inner : Node} (hkind : node.kind = .arrayType) (h : inner ∈ node.type?) : Needs s node inner
  | parens {inner : Node} (hkind : node.kind = .parenType) (h : inner ∈ node.type?) : Needs s node inner
  | member {inner : Node} (hkind : node.kind = .unionType) (h : inner ∈ node.types) : Needs s node inner
  | index {member inner : Node} (hkind : node.kind = .typeLiteral) (hmember : member ∈ node.typeMembers)
      (hindex : member.kind = .indexSignature) (h : inner ∈ member.ascribed?) : Needs s node inner
  | arg {symbol : SymbolId} {inner : Node} (hrefers : s.RefersTo node symbol) (h : inner ∈ node.typeArgs) :
      Needs s node inner
  | leftOut (symbol param : SymbolId) {inner : Node} (hrefers : s.RefersTo node symbol) (hgeneric : s.IsGeneric symbol)
      (hparam : param ∈ (s.declaredTypeParams symbol).drop node.typeArgs.length) (h : inner ∈ s.default? param) :
      Needs s node inner

variable {bound s : Facts} {symbol param : SymbolId} {node inner : Node}

theorem IsGeneric.of_mem (hgeneric : s.IsGeneric symbol) (hs : s.Closed known)
    (h : param ∈ s.declaredTypeParams symbol) : s.HasSymbol param ∧ (s.symbol param).kind = .typeParam := by
  rw [declaredTypeParams_eq] at h
  obtain ⟨node, hnode, hdeclared⟩ := List.mem_filterMap.mp h
  obtain ⟨own, hown, hkind⟩ := hgeneric.params node hnode
  cases hown.symm.trans hdeclared
  exact ⟨(hs.declarations hown).1, hkind⟩

/-! ### It is needed all along -/

namespace Since

variable (h : Since known bound s)

include h

theorem refersTo (hrefers : bound.RefersTo node symbol) : s.RefersTo node symbol :=
  { hrefers with lookup := (lookup_eq h.keeps.scopes node .type _).trans hrefers.lookup }

theorem default? (hparam : bound.HasSymbol param) (hkind : (bound.symbol param).kind = .typeParam) :
    s.default? param = bound.default? param := by
  unfold Facts.default?
  rw [h.keeps.head hparam (by rw [hkind]; decide)]

theorem typeParamNodes (hsymbol : bound.HasSymbol symbol) (hgeneric : bound.IsGeneric symbol) :
    s.typeParamNodes symbol = bound.typeParamNodes symbol := by
  unfold Facts.typeParamNodes
  rw [h.keeps.head hsymbol]
  rcases hgeneric.kind with hkind | hkind | hkind <;> rw [hkind] <;> decide

theorem declaredTypeParams (hsymbol : bound.HasSymbol symbol) (hgeneric : bound.IsGeneric symbol) :
    s.declaredTypeParams symbol = bound.declaredTypeParams symbol := by
  rw [declaredTypeParams_eq, declaredTypeParams_eq, h.typeParamNodes hsymbol hgeneric]
  refine List.filterMap_congr fun node hnode => ?_
  obtain ⟨param, hparam, -⟩ := hgeneric.params node hnode
  exact (h.keeps.declarations hparam).trans hparam.symm

end Since

/-- What a known node needs is known. -/
theorem Needs.is_known (hnodes : Node.Closed known) (hdeclared : s.DeclaredBy known) (hnode : known node)
    (h : s.Needs node inner) : known inner := by
  cases h with
  | element hkind h | parens hkind h => exact hnodes.child? hnode inner h
  | member hkind h => exact hnodes.childrenOf hnode inner h
  | index hkind hmember hindex h => exact hnodes.ascribed? (hnodes.childrenOf hnode _ hmember) inner h
  | arg hrefers h => exact hnodes.map_childrenOf hnode inner h
  | leftOut symbol param hrefers hgeneric hparam h =>
    obtain ⟨param, hin, hdefault⟩ := Option.bind_eq_some_iff.mp h
    have hknown := hdeclared _ param (List.mem_of_mem_head? hin)
    unfold Node.defaultType? at hdefault
    split at hdefault
    · exact hnodes.childrenOf hknown inner (List.mem_of_getLast? hdefault)
    · cases hdefault

end Facts

namespace Check

/-! ## Checks without a result -/

/-- Whatever is known, there is no result. -/
def Stuck (A : Setting) {α : Type} (check : Check α) : Prop := ∀ pending s, A.holds s → check pending s = none

namespace Stuck

variable {A : Setting} {α β : Type} {check : Check α} {n : Nat} {ask : Ask}

protected theorem bind (h : Stuck A check) (next : α → Check β) : Stuck A (check >>= next) := by
  intro pending s hs
  exact Option.bind_eq_none_iff.mpr fun result hresult => by rw [h pending s hs] at hresult; cases hresult

protected theorem get {next : Facts → Check α} (h : ∀ s, A.holds s → Stuck A (next s)) : Stuck A (get >>= next) :=
  fun pending s hs => h s hs pending s hs

variable (hA : A.Fits) (hask : Agrees A (fun _ => True) ask ask)

include hA hask

/-- There is none if what comes behind has none. -/
protected theorem behind {rule : Ask → Check α} {next : α → Check β} (hrule : Built A n rule)
    (h : ∀ pending s a s', rule ask pending s = some (a, s') → Stuck A (next a)) : Stuck A (rule ask >>= next) := by
  intro pending s hs
  refine Option.bind_eq_none_iff.mpr fun ⟨a, s'⟩ hrun => ?_
  obtain ⟨-, hs', -⟩ := hrule.runs hA (fun _ _ => trivial) hask trivial hs hrun
  exact h pending s a s' hrun pending s' hs'

protected theorem mapM {item : β → Ask → Check α} {items : List β} (hitems : ∀ b ∈ items, Built A 0 (item b)) {b : β}
    (hb : b ∈ items) (h : Stuck A (item b ask)) : Stuck A (items.mapM fun b => item b ask) := by
  induction items with
  | nil => cases hb
  | cons first rest ih =>
    rw [List.mapM_cons]
    rcases List.mem_cons.mp hb with rfl | hb
    · exact .bind h _
    · exact .behind hA hask (hitems first List.mem_cons_self) fun _ _ _ _ _ =>
        .bind (ih (fun other hother => hitems other (List.mem_cons_of_mem _ hother)) hb) _

protected theorem foldlM {item : α → β → Ask → Check α} {items : List β}
    (hitems : ∀ b ∈ items, ∀ a, Built A 0 (item a b)) {b : β} (hb : b ∈ items) (h : ∀ a, Stuck A (item a b ask))
    (a : α) : Stuck A (items.foldlM (fun a b => item a b ask) a) := by
  induction items generalizing a with
  | nil => cases hb
  | cons first rest ih =>
    rw [List.foldlM_cons]
    rcases List.mem_cons.mp hb with rfl | hb
    · exact .bind (h a) _
    · exact .behind hA hask (hitems first List.mem_cons_self a) fun _ _ next _ _ =>
        ih (fun other hother => hitems other (List.mem_cons_of_mem _ hother)) hb next

end Stuck

/-! ## Type expressions without a result -/

/-- Checks for which nothing is noted for some type expressions. -/
def unwritten (known : Node → Prop) (bound : Facts) (endless : NodeId → Prop) : Setting where
  known := known
  writes node := ¬ endless node.id
  holds s := Facts.Since known bound s ∧ ∀ id, endless id → s.writtenTypes.get? id = none
  step _ _ _ := True
  cost _ _ _ := 0

variable {bound : Facts} {endless : NodeId → Prop}

theorem unwritten_fits (hnodes : Node.Closed known) : (unwritten known bound endless).Fits where
  nodes := hnodes
  refl _ := trivial
  trans _ _ := trivial
  mono _ _ := trivial
  declared hs := hs.1.declared
  signed hs := hs.1.signed
  gains hs hgains := by
    refine ⟨⟨hs.1.gains hgains, fun id hid => ?_⟩, trivial⟩
    rw [hgains.writtenTypes]
    exact hs.2 id hid
  writing {s node} hs _ hwrites type := by
    refine ⟨⟨hs.1.same rfl rfl rfl rfl, fun id hid => ?_⟩, trivial⟩
    have hne : node.id ≠ id := fun hsame => hwrites (hsame ▸ hid)
    exact (Table.get?_insert_of_ne hne _ _).trans (hs.2 id hid)
  report {s} hs node span problem := by
    refine ⟨⟨hs.1.report node span problem, fun id hid => ?_⟩, trivial⟩
    obtain ⟨problems, hreport⟩ := Facts.problems_report node span problem s
    rw [hreport]
    exact hs.2 id hid

theorem length_of_mapM {item : Node → Check TypeId} : ∀ {items : List Node} {pending s types s'},
    items.mapM item pending s = some (types, s') → types.length = items.length
  | [], _, _, _, _, h => by
    rw [List.mapM_nil] at h
    cases h
    rfl
  | first :: rest, _, _, _, _, h => by
    rw [List.mapM_cons] at h
    obtain ⟨⟨type, _⟩, -, h⟩ := Option.bind_eq_some_iff.mp h
    obtain ⟨⟨types, _⟩, hrest, h⟩ := Option.bind_eq_some_iff.mp h
    cases h
    rw [List.length_cons, List.length_cons, length_of_mapM hrest]

section

variable {node inner : Node} {ask : Ask} (hnodes : Node.Closed known)
  (hask : Agrees (unwritten known bound endless) (fun _ => True) ask ask)
  (hinner : Stuck (unwritten known bound endless) (ask (.written inner)))

include hnodes hask hinner

theorem fillArgs_stuck {params : List SymbolId} {args : List TypeId} {param : SymbolId}
    (hparam : param ∈ params.drop args.length)
    (hdefault : ∀ s, (unwritten known bound endless).holds s → s.default? param = some inner) :
    Stuck (unwritten known bound endless) (fillArgs ask params args) := by
  have hA : (unwritten known bound endless).Fits := unwritten_fits hnodes
  refine .bind (.mapM hA hask (fun other _ => defaultOf_built hA other) hparam ?_) _
  intro pending s hs
  rw [← hinner pending s hs]
  exact congrFun (congrFun (congrArg (writtenType ask) (hdefault s hs)) pending) s

theorem namedType_stuck {name : String} {span : Text.Span} {symbol : SymbolId} (param : SymbolId) {args : List TypeId}
    (hsymbol : bound.HasSymbol symbol) (hgeneric : bound.IsGeneric symbol)
    (hparam : param ∈ (bound.declaredTypeParams symbol).drop args.length)
    (hdefault : ∀ s, (unwritten known bound endless).holds s → s.default? param = some inner) :
    Stuck (unwritten known bound endless) (namedType ask node name span symbol args) := by
  have hA : (unwritten known bound endless).Fits := unwritten_fits hnodes
  have hsome : ¬ (bound.declaredTypeParams symbol).isEmpty = true := fun hempty => by
    rw [List.isEmpty_iff.mp hempty, List.drop_nil] at hparam
    cases hparam
  have hrest : ∀ (plain : Check TypeId) (next : List TypeId → Check TypeId) (s : Facts),
      (unwritten known bound endless).holds s → Stuck (unwritten known bound endless) (do
        checkArgCount node name span (s.declaredTypeParams symbol) args.length
        if (s.declaredTypeParams symbol).isEmpty then plain
        else next (← fillArgs ask (s.declaredTypeParams symbol) args)) := by
    intro plain next s hs
    rw [hs.1.declaredTypeParams hsymbol hgeneric]
    refine .behind hA hask (checkArgCount_built _ _ (Nat.le_refl 0)) fun _ _ _ _ _ => ?_
    rw [if_neg hsome]
    exact .bind (fillArgs_stuck hnodes hask hinner hparam hdefault) _
  refine .get fun s hs => ?_
  rcases hgeneric.kind with hkind | hkind | hkind <;> rw [hs.1.keeps.kind hsymbol, hkind]
  · exact .behind hA hask (.ask (.declared symbol) trivial) fun _ _ generic _ _ => .get fun s hs => hrest _ _ s hs
  · exact .behind hA hask (.ask (.declared symbol) trivial) fun _ _ generic _ _ => .get fun s hs => hrest _ _ s hs
  · exact .get fun s hs => hrest _ _ s hs

omit hnodes hask hinner in
/-- The name of a reference and what it refers to are clear before its arguments are worked out. -/
theorem referredType_stuck {symbol : SymbolId} (hrefers : bound.RefersTo node symbol)
    (h : Stuck (unwritten known bound endless) (node.typeArgs.mapM (fun arg => ask (.written arg)) >>= fun args =>
      namedType ask node (Facts.refName node) (refSpan node) symbol args)) :
    Stuck (unwritten known bound endless) (referredType ask node) := by
  have hword : (if node.typeArgs.isEmpty = true then TypeId.ofWord? (Facts.refName node) else none) = none := by
    split
    · exact hrefers.word (List.isEmpty_iff.mp ‹_›)
    · rfl
  unfold referredType
  dsimp only
  split
  · rename_i hprimitive
    cases hword.symm.trans hprimitive
  · refine .get fun s hs => ?_
    have hlookup : s.lookup node .type ((node.nameRef?.map (·.refText)).getD "") = some symbol :=
      (hs.1.refersTo hrefers).lookup
    rw [hlookup]
    exact h

theorem readType_stuck (hbound : bound.Closed known) (hnode : known node) (hneeds : bound.Needs node inner) :
    Stuck (unwritten known bound endless) (readType ask node) := by
  have hA : (unwritten known bound endless).Fits := unwritten_fits hnodes
  have hargs : ∀ arg ∈ node.typeArgs, Built (unwritten known bound endless) 0 fun ask => ask (.written arg) :=
    fun arg harg => .ask (.written arg) (hnodes.map_childrenOf hnode arg harg)
  unfold readType
  cases hneeds with
  | element hkind h =>
    rw [hkind, show node.type? = some inner from h]
    exact .bind hinner _
  | parens hkind h =>
    rw [hkind, show node.type? = some inner from h]
    exact hinner
  | member hkind h =>
    have hmembers : ∀ member ∈ node.types, Built (unwritten known bound endless) 0 fun ask => ask (.written member) :=
      fun member hmember => .ask (.written member) (hnodes.childrenOf hnode member hmember)
    rw [hkind]
    exact .bind (.mapM hA hask hmembers h hinner) _
  | index hkind hmember hindex h =>
    rw [hkind]
    refine .bind (.foldlM hA hask (fun member hmember table =>
      typeMember_built hA (hnodes.childrenOf hnode member hmember) table) hmember (fun table => ?_) _) _
    rw [typeMember, hindex]
    dsimp only
    rw [indexMember, show Node.ascribed? _ = some inner from h]
    exact .bind hinner _
  | arg hrefers h =>
    rw [hrefers.kind]
    exact referredType_stuck hrefers (.bind (.mapM hA hask hargs h hinner) _)
  | leftOut symbol param hrefers hgeneric hparam h =>
    rw [hrefers.kind]
    refine referredType_stuck hrefers (.behind hA hask (.mapM node.typeArgs hargs) fun _ _ args _ hrun => ?_)
    refine namedType_stuck hnodes hask hinner param (hbound.lookup hrefers.lookup) hgeneric ?_ fun s hs => ?_
    · rwa [length_of_mapM hrun]
    · obtain ⟨hsymbol, hkind⟩ := hgeneric.of_mem hbound (List.mem_of_mem_drop hparam)
      exact (hs.1.default? hsymbol hkind).trans h

theorem written_stuck (hbound : bound.Closed known) (hnode : known node) (hneeds : bound.Needs node inner)
    (hendless : endless node.id) : Stuck (unwritten known bound endless) (written ask node) := by
  refine .get fun s hs => ?_
  rw [hs.2 node.id hendless]
  exact .bind (readType_stuck hnodes hask hinner hbound hnode hneeds) _

end

/-! ## Programs without a result -/

/-- Each of some type expressions needs one of them. -/
def Endless (known : Node → Prop) (bound : Facts) (endless : NodeId → Prop) : Prop :=
  ∀ node, known node → endless node.id → ∃ inner, endless inner.id ∧ bound.Needs node inner

variable (hnodes : Node.Closed known) (hbound : bound.Closed known) (hdeclared : bound.DeclaredBy known)
  (hendless : Endless known bound endless)

include hnodes hbound hdeclared hendless

/-- None of them has an answer, and whatever else is answered, nothing is noted for them. -/
theorem answer_stuck (depth : Nat) :
    Agrees (unwritten known bound endless) (fun _ => True) (answer depth) (answer depth) ∧
      ∀ node, known node → endless node.id → Stuck (unwritten known bound endless) (answer depth (.written node)) := by
  have hA : (unwritten known bound endless).Fits := unwritten_fits hnodes
  induction depth with
  | zero =>
    refine ⟨fun query _ pending s a s' _ _ hrun => ?_, fun _ _ _ _ _ _ => rfl⟩
    cases hrun
  | succ depth ih =>
    obtain ⟨hask, hstuck⟩ := ih
    have hnext : ∀ node, known node → endless node.id →
        Stuck (unwritten known bound endless) (answer (depth + 1) (.written node)) := by
      intro node hnode hin
      obtain ⟨inner, hinner, hneeds⟩ := hendless node hnode hin
      exact written_stuck hnodes hask (hstuck inner (hneeds.is_known hnodes hdeclared hnode) hinner) hbound hnode
        hneeds hin
    refine ⟨fun query hquery pending s a s' _ hs hrun => ?_, hnext⟩
    by_cases hcost : (unwritten known bound endless).AnswerCost 0 query
    · exact (answerWith_built hA hquery hcost).runs hA (fun _ _ => trivial) hask trivial hs hrun
    · -- Everything is free, so only what is written by one of them may not be noted.
      cases query with
      | written node =>
        have hin : endless node.id := by
          by_contra hout
          exact hcost ⟨hout, fun _ => Nat.le_refl 0, fun _ => Nat.le_refl 0⟩
        rw [hnext node hquery hin pending s hs] at hrun
        cases hrun
      | expression node =>
        refine absurd ⟨fun _ => ?_, fun _ _ _ => ?_, fun _ => ?_, fun _ => ?_⟩ hcost <;> exact Nat.le_refl 0
      | valueOf symbol => exact absurd (fun _ _ _ _ _ _ _ => Nat.le_refl 0) hcost
      | _ => exact absurd trivial hcost

omit hnodes hbound hdeclared hendless

/-- A type expression that is in no other one. -/
structure IsWholeType (node : Node) : Prop where
  type : node.kind.isType = true
  outside : ∀ outer ∈ node.around, outer.kind.isType = false

variable {target : Node}

mutual

/-- When a program is looked at, such a type expression is asked for. -/
theorem lookAt_stuck (htarget : IsWholeType target) {A : Setting} (hA : A.Fits) {ask : Ask}
    (hask : Agrees A (fun _ => True) ask ask) (hstuck : Stuck A (ask (.written target))) {source : Source}
    {outer : Node} : ∀ part : Part, part ∈ outer.parts → outer.source = source → A.known outer →
      target ∈ Node.nodesIn source (some outer) part → Stuck A (lookAt ask source (some outer) part)
  | .leaf _ _, _, _, _, hin => by cases hin
  | .node span kind parts, hpart, hsource, houter, hin => by
    have hhere : A.known ⟨source, kind, span, parts, some outer⟩ :=
      hA.nodes.child houter (Node.mem_children.mpr ⟨span, kind, parts, hpart, by rw [hsource]⟩)
    rw [lookAt]
    rw [Node.nodesIn] at hin
    dsimp only at hin ⊢
    rcases List.mem_cons.mp hin with rfl | hbelow
    · rw [if_pos htarget.type]
      exact .bind hstuck _
    · have hstill : Stuck A (lookAtAll ask source (some ⟨source, kind, span, parts, some outer⟩) parts) :=
        lookAtAll_stuck htarget hA hask hstuck parts (fun _ hin => hin) rfl hhere hbelow
      rw [if_neg (by rw [htarget.outside _ (Node.mem_around_of_mem_all parts hbelow)]; decide)]
      split
      · exact .behind hA hask (.ask (.expression _) hhere) fun _ _ _ _ _ => hstill
      · exact hstill

theorem lookAtAll_stuck (htarget : IsWholeType target) {A : Setting} (hA : A.Fits) {ask : Ask}
    (hask : Agrees A (fun _ => True) ask ask) (hstuck : Stuck A (ask (.written target))) {source : Source}
    {outer : Node} : ∀ parts : List Part, (∀ part ∈ parts, part ∈ outer.parts) → outer.source = source →
      A.known outer → target ∈ Node.nodesInAll source (some outer) parts →
        Stuck A (lookAtAll ask source (some outer) parts)
  | [], _, _, _, hin => by cases hin
  | part :: rest, hparts, hsource, houter, hin => by
    rw [lookAtAll]
    rw [Node.nodesInAll] at hin
    rcases List.mem_append.mp hin with hin | hin
    · exact .bind (lookAt_stuck htarget hA hask hstuck part (hparts part List.mem_cons_self) hsource houter hin) _
    · refine .behind hA hask (lookAt_built hA part (hparts part List.mem_cons_self) hsource houter) fun _ _ _ _ _ => ?_
      exact lookAtAll_stuck htarget hA hask hstuck rest (fun part hin => hparts part (List.mem_cons_of_mem _ hin))
        hsource houter hin

end

end Check

namespace Checked

variable {text : String} {prelude : Tree}

/-- Where type expressions of a program need one another without end, and one of them is in no other type expression,
the program has no result, however deep questions may lead to questions. -/
theorem upTo_eq_none_of_endless {endless : NodeId → Prop}
    (hendless : Check.Endless (Visible (Node.ofTree .prelude prelude) (Program.ofSource text).root)
      (Facts.bound (Node.ofTree .prelude prelude) (Program.ofSource text).root) endless)
    {target : Node} (hin : target ∈ Facts.below (Program.ofSource text).root) (htarget : Check.IsWholeType target)
    (hneeded : endless target.id) (depth : Nat) :
    upTo depth (Node.ofTree .prelude prelude) (Program.ofSource text).root = none := by
  have hnodes := Program.visible_closed text prelude
  have hroot : Visible (Node.ofTree .prelude prelude) (Program.ofSource text).root (Program.ofSource text).root :=
    .inr (Node.self_mem_descendants _)
  have hknown : Visible (Node.ofTree .prelude prelude) (Program.ofSource text).root target := by
    refine .inr ?_
    rw [Facts.descendants_eq]
    exact List.mem_cons_of_mem _ hin
  have hbegins := begins text prelude
  have hsince := hbegins.closed.since
  obtain ⟨hask, hstuck⟩ := Check.answer_stuck hnodes hbegins.closed hsince.declared hendless depth
  have hlook := Check.lookAtAll_stuck htarget (Check.unwritten_fits hnodes) hask (hstuck target hknown hneeded) _
    (fun _ hin => hin) rfl hroot hin
  have hrun : Check.program (Check.answer depth) (Program.ofSource text).root .empty _ = none :=
    hlook.bind (fun _ => Check.rounds (Check.answer depth) 16) .empty _ ⟨hsince, fun id _ => by
      rw [hbegins.writtenTypes, Table.get?_empty]⟩
  exact congrArg (Option.map _) hrun

/-- A type parameter that stands for its own interface if it is left out, and there it is left out. -/
def ownDefault : String := "interface D<T = D> \x7b a: T \x7d"

/-- The node leaves out a type argument for which a node with its own id stands. -/
def leavesOutItself (s : Facts) (node : Node) : Bool :=
  node.kind == .typeRef && node.typeArgs.isEmpty && (TypeId.ofWord? (Facts.refName node)).isNone &&
    (s.lookup node .type (Facts.refName node)).any fun symbol =>
      (s.symbol symbol).kind == .interface &&
        ((s.typeParamNodes symbol).all fun param => (s.declared? param).any fun id =>
          (s.symbol id).kind == .typeParam) &&
        (s.declaredTypeParams symbol).any fun param => (s.default? param).any fun inner => inner.id == node.id

theorem needs_of_leavesOutItself {s : Facts} {node : Node} (h : leavesOutItself s node = true) :
    ∃ inner, inner.id = node.id ∧ s.Needs node inner := by
  simp only [leavesOutItself, Bool.and_eq_true, Option.any_eq_true, List.any_eq_true, List.all_eq_true, beq_iff_eq,
    List.isEmpty_iff, Option.isNone_iff_eq_none] at h
  obtain ⟨⟨⟨hkind, hargs⟩, hword⟩, symbol, hlookup, ⟨hsymbol, hparams⟩, param, hparam, inner, hinner, hid⟩ := h
  refine ⟨inner, hid, .leftOut symbol param ⟨hkind, fun _ => hword, hlookup⟩ ⟨.inr (.inl hsymbol), hparams⟩ ?_ hinner⟩
  rwa [hargs]

/-- One of the nodes is a type expression in no other one that leaves out an argument for which it stands itself. -/
def anyLeavesOutItself (s : Facts) (nodes : List Node) : Bool :=
  nodes.any fun node => node.kind.isType && node.around.all (!·.kind.isType) && leavesOutItself s node

set_option maxRecDepth 100000 in
theorem ownDefault_leaves_out_itself : anyLeavesOutItself (Facts.bound preludeRoot (Program.ofSource ownDefault).root)
    (Facts.below (Program.ofSource ownDefault).root) = true := by
  obtain ⟨chars, hchars, hleaves⟩ : ∃ chars, preludeSource = String.ofList chars ∧
      anyLeavesOutItself (Facts.bound (Node.ofTree .prelude (treeOfChars chars)) (Program.ofSource ownDefault).root)
        (Facts.below (Program.ofSource ownDefault).root) = true := by
    refine ⟨_, rfl, ?_⟩
    decide +kernel
  rw [preludeRoot, hchars, Program.tree_ofList, hleaves]

theorem ownDefault_isOk : (Program.ofSource ownDefault).isOk = true := by decide +kernel

/-- The interface can be read, but a program that declares it is never checked to its end. -/
theorem ownDefault_is_endless : (Program.ofSource ownDefault).isOk = true ∧
    ∀ depth, upTo depth preludeRoot (Program.ofSource ownDefault).root = none := by
  obtain ⟨target, hin, hleaves⟩ := List.any_eq_true.mp ownDefault_leaves_out_itself
  simp only [Bool.and_eq_true, List.all_eq_true, Bool.not_eq_true'] at hleaves
  obtain ⟨⟨htype, houtside⟩, hleaves⟩ := hleaves
  have hdescendant : target ∈ (Program.ofSource ownDefault).root.descendants := by
    rw [Facts.descendants_eq]
    exact List.mem_cons_of_mem _ hin
  have hendless : Check.Endless (Visible preludeRoot (Program.ofSource ownDefault).root)
      (Facts.bound preludeRoot (Program.ofSource ownDefault).root) (· = target.id) := by
    intro node hnode hid
    rw [Program.eq_of_id ownDefault_isOk hdescendant hnode hid]
    exact needs_of_leavesOutItself hleaves
  exact ⟨ownDefault_isOk, upTo_eq_none_of_endless hendless hin ⟨htype, houtside⟩ rfl⟩

end Checked

end RouteTypes
