-- What calls give in the end. Each round asks about all signatures that there are by then, so a function whose
-- signature comes up while the program is looked at, or while the symbols of a round are asked about, has what it
-- gives noted. The methods of a class come up when the class is asked about, and one round later they are asked
-- about themselves.
import RouteTypes.Proofs.Tree.Returns
import RouteTypes.Proofs.Typing.Bounds
import RouteTypes.Proofs.Typing.Completing
import RouteTypes.Proofs.Typing.Naming

namespace RouteTypes

open Facts (noting)

variable {known : Node → Prop} {s s' : Facts}

/-! ## Rounds -/

/-- What a call of the function gives is noted with its signature. -/
def Facts.Returns (s : Facts) (node : Node) (type : TypeId) : Prop :=
  ∃ signature, s.declaredSignatures.get? node.id = some signature ∧ (s.signature signature).returns = some type

/-- Facts on the way to others: of all signatures that are there, what they give is noted in the end. -/
structure Facts.Answered (known : Node → Prop) (mid s' : Facts) : Prop where
  holds : (noting known []).holds mid
  later : mid.Later known s'
  returned : ∀ {id}, mid.HasSignature id → ∃ type, (s'.signature id).returns = some type

theorem Facts.Answered.trans {mid s'' : Facts} (h : mid.Answered known s') (hle : s'.Later known s'') :
    mid.Answered known s'' where
  holds := h.holds
  later := h.later.trans hle
  returned hid := by
    obtain ⟨type, htype⟩ := h.returned hid
    exact ⟨type, hle.known_returns (h.later.hasSignature hid) htype⟩

/-- A function that has its signature by then has noted what it gives. -/
theorem Facts.Answered.returns {mid : Facts} (h : mid.Answered known s') {node : Node}
    (hsome : (mid.declaredSignatures.get? node.id).isSome = true) : ∃ type, s'.Returns node type := by
  obtain ⟨signature, hsignature⟩ := Option.isSome_iff_exists.mp hsome
  obtain ⟨type, htype⟩ := h.returned (h.holds.1.declaredSignatures hsignature).1
  exact ⟨type, signature, h.later.declaredSignatures hsignature, htype⟩

namespace Check

variable {ask : Ask} (hask : Answers known ask) (hkeeps : Keeps known ask)

include hask hkeeps

/-- In the middle of a round the values of all symbols are known that were there before it. -/
theorem round_answers (hs : (noting known []).holds s) (hrun : round ask .empty s = some ((), s')) :
    ∃ mid : Facts, mid.Answered known s' ∧ s.Later known mid ∧ ∀ {id}, s.HasSymbol id →
      (s.symbol id).kind.isValue = true → ∃ type, mid.symbolTypes.get? id = some type := by
  obtain ⟨s₁, s₂, hsymbols, htypes, hsignatures⟩ := exists_of_round hrun
  obtain ⟨hs₁, hstep₁, -⟩ := symbols_obeys hask .empty () s₁ hsymbols hs
  obtain ⟨hs₂, hstep₂, -⟩ := types_obeys hask .empty () s₂ htypes hs₁
  obtain ⟨-, hstep₃, -⟩ := signatures_obeys hask .empty () s' hsignatures hs₂
  refine ⟨s₁, ⟨hs₁, hstep₂.trans hstep₃, fun {id} hid => ?_⟩, hstep₁, fun {id} hid hvalue => ?_⟩
  · exact asking_returned hask hkeeps _ hsignatures hs₂ (fun _ => List.mem_range.mp) id.index
      (List.mem_range.mpr (hstep₂.hasSignature hid))
  · exact asking_valued hask hkeeps.valued _ hsymbols hs (fun _ => List.mem_range.mp) id.index
      (List.mem_range.mpr hid) (hstep₁.kind hid ▸ hvalue)

/-- How far a program has been looked at in the middle of the first round: its expressions have their types, and so
have the values that were there before. What has come up by then has its value known a round later. -/
structure Halfway (known : Node → Prop) (root : Node) (s mid s' : Facts) : Prop extends mid.Answered known s' where
  since : s.Later known mid
  noticed : NoticedAmong mid (Facts.below root)
  valued : ∀ {id}, s.HasSymbol id → (s.symbol id).kind.isValue = true → ∃ type, mid.symbolTypes.get? id = some type
  next : ∀ {id}, mid.HasSymbol id → (mid.symbol id).kind.isValue = true → ∃ more : Facts,
    more.Answered known s' ∧ mid.Later known more ∧ ∃ type, more.symbolTypes.get? id = some type

theorem program_halfway (hnodes : Node.Closed known) {root : Node} (hroot : known root)
    (hkind : root.kind.hasHead = false) (hs : (noting known []).holds s)
    (hrun : program ask root .empty s = some ((), s')) : ∃ mid, Halfway known root s mid s' := by
  obtain ⟨⟨_, s₁⟩, hlook, hrounds⟩ := Option.bind_eq_some_iff.mp hrun
  obtain ⟨hs₁, hstep₁, hnoticed⟩ := lookAtAll_obeys hask hnodes root.parts (fun _ hin => hin) rfl hroot
    (fun hhead => by rw [hkind] at hhead; cases hhead) .empty () s₁ hlook hs
  obtain ⟨s₂, hround, hagain⟩ := exists_of_rounds hrounds
  obtain ⟨mid, hmid, hsince, hvalued⟩ := round_answers hask hkeeps hs₁ hround
  obtain ⟨hs₂, hstep₂, -⟩ := round_obeys hask .empty () s₂ hround hs₁
  obtain ⟨-, hstep₃, -⟩ := again_obeys (rounds_obeys hask 15) _ .empty () s' hagain hs₂
  refine ⟨mid, hmid.trans hstep₃, hstep₁.trans hsince, hnoticed.later hsince, fun {id} hid hvalue => ?_,
    fun {id} hid hvalue => ?_⟩
  · exact hvalued (hstep₁.hasSymbol hid) (hstep₁.kind hid ▸ hvalue)
  · by_cases hextent : extent s₂ = extent s₁
    · -- The symbol was there before the round.
      have hsize : s₂.symbols.size = s₁.symbols.size := congrArg Prod.fst hextent
      have hid₁ : s₁.HasSymbol id := Nat.lt_of_lt_of_eq (hmid.later.hasSymbol hid) hsize
      exact ⟨mid, hmid.trans hstep₃, .refl mid, hvalued hid₁ (hsince.kind hid₁ ▸ hvalue)⟩
    · rw [if_pos hextent] at hagain
      obtain ⟨s₃, hround', hagain'⟩ := exists_of_rounds hagain
      obtain ⟨more, hmore, hsince', hvalued'⟩ := round_answers hask hkeeps hs₂ hround'
      obtain ⟨hs₃, -, -⟩ := round_obeys hask .empty () s₃ hround' hs₂
      obtain ⟨-, hstep₄, -⟩ := again_obeys (rounds_obeys hask 14) _ .empty () s' hagain' hs₃
      have hid₂ := hmid.later.hasSymbol hid
      exact ⟨more, hmore.trans hstep₄, hmid.later.trans hsince', hvalued' hid₂ (hmid.later.kind hid ▸ hvalue)⟩

end Check

/-! ## Which functions -/

theorem NodeKind.takesReturns_of_isFunction {kind : NodeKind} (h : kind.isFunction = true) :
    kind.takesReturns = true := by
  cases kind <;> first | contradiction | rfl

/-- The class that a member stands in. -/
def Node.class? (node : Node) : Option Node := (node.parentOf? .classBody).bind (·.parentOf? .classDecl)

namespace Check.Halfway

variable {root : Node} {mid : Facts} (h : Halfway known root s mid s')

/-- A function or method whose value is known has noted what it gives. -/
theorem returns_of_valued {more : Facts} (hmore : more.Answered known s') {node : Node} (hunique : IsUnique known node)
    {id : SymbolId} (hid : more.declared? node = some id)
    (hkind : (more.symbol id).kind = .function ∨ (more.symbol id).kind = .method) {type : TypeId}
    (hvalued : more.symbolTypes.get? id = some type) : ∃ type, s'.Returns node type := by
  obtain ⟨hclosed, haccesses⟩ := hmore.holds
  have hsettled := (haccesses.valued hvalued).2.settled (hclosed.originals hid)
  exact hmore.returns (hsettled.functions hkind node hunique hid)

include h

/-- A function with a name has noted what it gives. -/
theorem returns_of_function {node : Node} (hunique : IsUnique known node) {id : SymbolId}
    (hid : s.declared? node = some id) (hsymbol : s.HasSymbol id) (hkind : (s.symbol id).kind = .function) :
    ∃ type, s'.Returns node type := by
  obtain ⟨type, htype⟩ := h.valued hsymbol (by rw [hkind]; rfl)
  exact returns_of_valued h.toAnswered hunique (h.since.declared? hid)
    (.inl ((h.since.kind hsymbol).trans hkind)) htype

/-- A function that is an expression has noted what it gives, if it is in no written type. -/
theorem returns_of_expression {node : Node} (hunique : IsUnique known node) (hnode : node ∈ Facts.below root)
    (hkind : node.kind = .arrowFunction ∨ node.kind = .functionExpr) (houter : node.OutsideTypes) :
    ∃ type, s'.Returns node type := by
  obtain ⟨type, htype⟩ := h.noticed node hnode (by rcases hkind with hkind | hkind <;> rw [hkind] <;> rfl) houter
  obtain ⟨signature, hsignature, -⟩ := (h.holds.2.found hunique htype).function hkind
  exact h.returns (Option.isSome_iff_exists.mpr ⟨signature, hsignature⟩)

/-- A method that has come up has noted what it gives. -/
theorem returns_of_method {node : Node} (hunique : IsUnique known node) (hkind : node.kind = .methodDecl)
    (hdeclared : (mid.declared? node).isSome = true) : ∃ type, s'.Returns node type := by
  obtain ⟨id, hid⟩ := Option.isSome_iff_exists.mp hdeclared
  obtain ⟨hsymbol, other, hother, hsame⟩ := h.holds.1.declarations hid
  have hmethod : (mid.symbol id).kind = .method :=
    ((h.holds.1.symbol id hsymbol).fits other hother).method ((NodeId.mk.inj hsame).2.1.trans hkind)
  obtain ⟨more, hmore, hle, type, htype⟩ := h.next hsymbol (by rw [hmethod]; rfl)
  exact returns_of_valued hmore hunique (hle.declared? hid) (.inr ((hle.kind hsymbol).trans hmethod)) htype

/-- The methods of a class have come up: those of instances in every declaration of the class, its own in the first
one. -/
theorem declared_of_class (hnone : s.declaredTypes = .empty) {node : Node} (hunique : IsUnique known node)
    {id : SymbolId} (hid : s.declared? node = some id) (hsymbol : s.HasSymbol id)
    (hkind : (s.symbol id).kind = .classDecl) {member : Node} (hmember : member ∈ node.classMembers)
    (hmethod : member.kind = .methodDecl)
    (hstatic : member.isStatic = true → (s.symbol id).declarations.head? = some node) :
    (mid.declared? member).isSome = true := by
  obtain ⟨type, htype⟩ := h.valued hsymbol (by rw [hkind]; rfl)
  have hid' := h.since.declared? hid
  have hkind' := (h.since.kind hsymbol).trans hkind
  have hsettled := (h.holds.2.valued htype).2.settled (h.holds.1.originals hid')
  obtain ⟨hdeclared, hown⟩ := hsettled.classes hkind'
  obtain ⟨declared, hdeclared⟩ := Option.isSome_iff_exists.mp hdeclared
  have hfinishes := h.since.finished (by rw [hnone, Table.get?_empty]) hdeclared
  cases hwhich : member.isStatic with
  | true => exact hown node ((h.since.head hsymbol).trans (hstatic hwhich)) member hmember hmethod hwhich
  | false =>
    refine hfinishes.2 hkind' node hunique hid' node (List.mem_singleton_self node) member hmember ?_
    rw [Node.isInstanceMethod, hmethod, hwhich]
    rfl

end Check.Halfway

/-! ## In the end -/

namespace Program

variable {text : String} (hread : (Program.ofSource text).isOk = true) {node : Node}
  (hnode : node ∈ (Program.ofSource text).root.descendants)

include hread hnode

/-- A node that stands only in nodes of one kind stands in one. -/
theorem exists_around {kind outer : NodeKind} (hkind : node.kind = kind) (hroot : kind ≠ .sourceFile)
    (hstands : ∀ other, Grammar.mayStandIn other (.node kind) = true → other = outer) :
    ∃ around ∈ (Program.ofSource text).root.descendants,
      node.parentOf? outer = some around ∧ around.kind = outer ∧ node ∈ around.children := by
  rcases Node.mem_children_of_parent _ hnode with ⟨hpart, -⟩ | ⟨around, hparent, hchild⟩
  · have hsame : (Program.ofSource text).root.kind = node.kind := Kind.node.inj (congrArg Part.kind hpart)
    rw [kind_root, hkind] at hsame
    exact absurd hsame.symm hroot
  · have haround := (nodes_closed text).parent hnode hparent
    have hown := hstands _ (hkind ▸ mayStandIn_of_mem hread haround hchild)
    refine ⟨around, haround, ?_, hown, hchild⟩
    rw [Node.parentOf?, hparent, Option.filter_some, if_pos (beq_iff_eq.mpr hown)]

/-- A method is a member of its class. -/
theorem exists_class (hkind : node.kind = .methodDecl) : ∃ declaration ∈ (Program.ofSource text).root.descendants,
    node.class? = some declaration ∧ declaration.kind = .classDecl ∧ node ∈ declaration.classMembers := by
  obtain ⟨body, hbody, hparent, hown, hchild⟩ := exists_around hread hnode hkind (by decide)
    fun other h => beq_iff_eq.mp h
  obtain ⟨declaration, hmem, houter, hclass, hin⟩ := exists_around hread hbody hown (by decide)
    fun other h => beq_iff_eq.mp h
  refine ⟨declaration, hmem, by rw [Node.class?, hparent, Option.bind_some, houter], hclass, ?_⟩
  obtain ⟨only, honly, hmembers⟩ := class_parts hread hmem hclass
  have hsame : body ∈ declaration.childrenOf (· == .classBody) := List.mem_filter.mpr ⟨hin, beq_iff_eq.mpr hown⟩
  rw [honly] at hsame
  rw [hmembers, ← List.mem_singleton.mp hsame]
  exact hchild

theorem isSome_declaredName? (hkind : node.kind ∈ NodeKind.holdsName) : node.declaredName?.isSome = true := by
  obtain ⟨name, hname, -⟩ := child?_eq_only hread hnode Grammar.holdsName_hasOne hkind
  rw [Node.declaredName?, Node.name?, hname]
  rfl

end Program

namespace Checked

variable {text declarations : String} {depth : Nat} {checked : Checked}

/-- The checker comes to the function: it has a name, or it is an expression outside of types. If a class is declared
more than once, then its first declaration says what methods it has of its own. -/
def Reaches (checked : Checked) (function : Node) : Prop :=
  match function.kind with
  | .functionDecl => True
  | .functionExpr | .arrowFunction => function.OutsideTypes
  | .methodDecl => function.isStatic = true → ∃ declaration symbol, function.class? = some declaration ∧
      checked.declared? declaration = some symbol ∧ (checked.symbol symbol).declarations.head? = some declaration
  | _ => False

/-- What the return statements of the function give: nothing, if it has none, or the union of the types that are
noted for their expressions, in the order of the source. -/
structure GivesOwn (checked : Checked) (function : Node) (type : TypeId) : Prop where
  nothing : function.ownReturns = [] → type = .void
  something : function.ownReturns ≠ [] → ∃ types, function.ownReturns.map checked.facts.givenType? = types.map some ∧
    checked.facts.union types = (type, checked.facts)

/-- The type is `Promise` of the other one. -/
def IsPromiseOf (checked : Checked) (given type : TypeId) : Prop :=
  ∃ symbol declared, checked.facts.promiseSymbol = some symbol ∧
    checked.facts.declaredTypes.get? symbol = some declared ∧
    checked.facts.reference declared [given] = (type, checked.facts)

/-- The container of the language is there. -/
theorem Ends.promiseSymbol (h : Ends (Node.ofTree .prelude (Program.ofSource declarations).tree)
    (Program.ofSource text).root checked) (hcontainers : HasContainers (Program.ofSource declarations).tree = true) :
    ∃ symbol, checked.facts.promiseSymbol = some symbol := by
  have hname : "Promise" ∈ ["Array", "Promise"] := List.mem_cons_of_mem _ List.mem_cons_self
  obtain ⟨symbol, hsymbol, -⟩ := Facts.exists_container hcontainers text hname
  exact ⟨symbol, h.later.promiseSymbol.trans ((Facts.promiseSymbol_bound _ _).trans hsymbol)⟩

/-- What is known in the end of what calls of the functions of a program give. -/
structure FunctionsReturn (root : Node) (checked : Checked) : Prop where
  recorded : ∀ function ∈ root.descendants, checked.Reaches function → ∃ type, checked.facts.Returns function type
  inferred : ∀ function ∈ root.descendants, function.kind.isFunction = true → function.block?.isSome = true →
    function.ascribed? = none → ∀ {type}, checked.facts.Returns function type →
      ∃ given, checked.GivesOwn function given ∧
        if function.isAsync then checked.IsPromiseOf given type else type = given

theorem halfway_upTo {prelude : Tree}
    (h : upTo depth (Node.ofTree .prelude prelude) (Program.ofSource text).root = some checked) :
    ∃ mid, Check.Halfway (Visible (Node.ofTree .prelude prelude) (Program.ofSource text).root)
      (Program.ofSource text).root (Facts.bound (Node.ofTree .prelude prelude) (Program.ofSource text).root) mid
      checked.facts := by
  obtain ⟨⟨_, facts⟩, hrun, rfl⟩ := Option.map_eq_some_iff.mp h
  have hnodes := Program.visible_closed text prelude
  have hbegins := begins text prelude
  exact Check.program_halfway (Check.answer_values hnodes depth) (Check.answer_keeps hnodes depth) hnodes
    (.inr (Node.self_mem_descendants _)) (by rw [Program.kind_root]; rfl) ⟨hbegins.closed, hbegins.accesses []⟩ hrun

section

variable (hread : (Program.ofSource text).isOk = true)
  (hchecked : upTo depth (Node.ofTree .prelude (Program.ofSource declarations).tree) (Program.ofSource text).root =
    some checked)

include hread hchecked

/-- Of a function to which the checker comes it is noted what calls give. -/
theorem returns_of_reaches (hdeclarations : (Program.ofSource declarations).isOk = true) {function : Node}
    (hfunction : function ∈ (Program.ofSource text).root.descendants) (hreaches : checked.Reaches function) :
    ∃ type, checked.facts.Returns function type := by
  obtain ⟨mid, hmid⟩ := halfway_upTo hchecked
  have hends := ends_upTo hchecked
  have hscopes := Program.scopes_say hdeclarations hread
  have hunique : IsUnique (Visible (Node.ofTree .prelude (Program.ofSource declarations).tree)
    (Program.ofSource text).root) function := Program.isUnique hread hfunction
  have hbelow : function.kind ≠ .sourceFile → function ∈ Facts.below (Program.ofSource text).root := fun hkind => by
    rw [Facts.descendants_eq] at hfunction
    refine (List.mem_cons.mp hfunction).resolve_left fun hroot => hkind ?_
    rw [hroot, Program.kind_root]
  unfold Reaches at hreaches
  split at hreaches
  · rename_i hkind
    have hname := Program.isSome_declaredName? hread hfunction (by rw [hkind]; decide)
    have hdeclares : function.declares? = some (.value, .function) := by rw [Node.declares?, hkind]
    obtain ⟨id, hid, hsymbol, hsort⟩ := hscopes.declared function (List.mem_append_right _ hfunction) hdeclares hname
    exact hmid.returns_of_function hunique hid hsymbol hsort
  · rename_i hkind
    exact hmid.returns_of_expression hunique (hbelow (by rw [hkind]; decide)) (.inr hkind) hreaches
  · rename_i hkind
    exact hmid.returns_of_expression hunique (hbelow (by rw [hkind]; decide)) (.inl hkind) hreaches
  · rename_i hkind
    obtain ⟨declaration, hmem, hclass, hown, hmember⟩ := Program.exists_class hread hfunction hkind
    have hname := Program.isSome_declaredName? hread hmem (by rw [hown]; decide)
    have hdeclares : declaration.declares? = some (.type, .classDecl) := by rw [Node.declares?, hown]
    obtain ⟨id, hid, hsymbol, hsort⟩ := hscopes.declared declaration (List.mem_append_right _ hmem) hdeclares hname
    refine hmid.returns_of_method hunique hkind (hmid.declared_of_class hends.begins.declaredTypes
      (Program.isUnique hread hmem) hid hsymbol hsort hmember hkind fun hstatic => ?_)
    obtain ⟨first, symbol, hfirst, hsame, hhead⟩ := hreaches hstatic
    obtain rfl := Option.some_inj.mp (hclass.symm.trans hfirst)
    obtain rfl := Option.some_inj.mp ((hends.declared?_of_bound hid).symm.trans hsame)
    exact (hends.later.head hsymbol).symm.trans hhead
  · cases hreaches

/-- What is noted of a function with a body is what its own return statements give. -/
theorem inferred_of_returns (hcontainers : HasContainers (Program.ofSource declarations).tree = true) {function : Node}
    (hfunction : function ∈ (Program.ofSource text).root.descendants) (hkind : function.kind.isFunction = true)
    (hblock : function.block?.isSome = true) (hnone : function.ascribed? = none) {type : TypeId}
    (hreturns : checked.facts.Returns function type) : ∃ given, checked.GivesOwn function given ∧
      if function.isAsync then checked.IsPromiseOf given type else type = given := by
  obtain ⟨body, hbody⟩ := Option.isSome_iff_exists.mp hblock
  have hends := ends_upTo hchecked
  obtain ⟨signature, hsignature, hreturns⟩ := hreturns
  obtain ⟨given, hgives, htype⟩ := hends.accesses.returned (Program.isUnique hread hfunction) hkind hsignature hreturns
    body hbody hnone
  have hown := Program.ownReturns_eq hread hfunction (NodeKind.takesReturns_of_isFunction hkind) hbody
  refine ⟨given, ⟨fun hnil => hgives.nothing (hown ▸ hnil), fun hsome => ?_⟩, ?_⟩
  · rw [hown] at hsome ⊢
    exact hgives.something hsome
  · split at htype
    · rw [if_pos ‹_›]
      obtain ⟨symbol, hsymbol⟩ := hends.promiseSymbol hcontainers
      have hone := (hends.regular hcontainers).promise symbol hsymbol (hends.closed.promiseSymbol symbol hsymbol)
      obtain ⟨declared, hdeclared, hrefers⟩ := htype symbol hsymbol hone.kind
      exact ⟨symbol, declared, hsymbol, hdeclared, hrefers.reference_eq⟩
    · rwa [if_neg ‹_›]

/-- In a checked program without misfits it is noted of every function to which the checker comes what calls give: if
it has a body and does not say it, what its own return statements give, wherever in the body they stand. -/
theorem functions_return (hdeclarations : (Program.ofSource declarations).isOk = true)
    (hcontainers : HasContainers (Program.ofSource declarations).tree = true) :
    ((Program.ofSource preludeSource).isOk = true ∧ HasContainers (Program.ofSource preludeSource).tree = true) ∧
      checked.FunctionsReturn (Program.ofSource text).root where
  left := ⟨prelude_isOk, prelude_hasContainers⟩
  right :=
    { recorded := fun _ hfunction hreaches => returns_of_reaches hread hchecked hdeclarations hfunction hreaches
      inferred := fun _ hfunction hkind hblock hnone _ hreturns =>
        inferred_of_returns hread hchecked hcontainers hfunction hkind hblock hnone hreturns }

end

/-- A function that returns in two places, with a function in it that returns too. -/
def innerReturn : String :=
  "const f = async (a: any) => \x7b if (a) \x7b return 1; \x7d const g = () => \x7b return 2; \x7d; return; \x7d;"

/-- The function gives a promise of what it returns in the two places. -/
theorem innerReturn_is_left_out : ∃ checked function type given,
    upTo 40 (Node.ofTree .prelude (Program.ofSource leastContainers).tree) (Program.ofSource innerReturn).root =
      some checked ∧ function ∈ (Program.ofSource innerReturn).root.descendants ∧ function.kind = .arrowFunction ∧
      function.ownReturns.length = 2 ∧ checked.facts.Returns function type ∧ checked.GivesOwn function given ∧
      checked.IsPromiseOf given type := by
  have hread : (Program.ofSource innerReturn).isOk = true := by decide +kernel
  have hchecked : (upTo 40 (Node.ofTree .prelude (Program.ofSource leastContainers).tree)
      (Program.ofSource innerReturn).root).isSome = true := by decide +kernel
  have hfunction : ((Program.ofSource innerReturn).root.descendants.any fun function =>
      function.kind == .arrowFunction && function.outwards.all (!·.kind.isType) && function.block?.isSome &&
        function.ascribed?.isNone && function.isAsync && function.ownReturns.length == 2) = true := by decide +kernel
  obtain ⟨checked, hchecked⟩ := Option.isSome_iff_exists.mp hchecked
  obtain ⟨function, hmem, hfunction⟩ := List.any_eq_true.mp hfunction
  simp only [Bool.and_eq_true, beq_iff_eq, Option.isNone_iff_eq_none] at hfunction
  obtain ⟨⟨⟨⟨⟨hkind, houter⟩, hblock⟩, hnone⟩, hasync⟩, hlength⟩ := hfunction
  have houtside : function.OutsideTypes := fun outer hmem =>
    (Bool.not_eq_true' _).mp (List.all_eq_true.mp houter outer hmem)
  obtain ⟨-, hrecorded, hinferred⟩ := functions_return hread hchecked (by decide +kernel) (by decide +kernel)
  obtain ⟨type, hreturns⟩ := hrecorded function hmem (by rw [Reaches, hkind]; exact houtside)
  obtain ⟨given, hgiven, htype⟩ := hinferred function hmem (by rw [hkind]; rfl) hblock hnone hreturns
  rw [if_pos hasync] at htype
  exact ⟨checked, function, type, given, hchecked, hmem, hkind, hlength, hreturns, hgiven, htype⟩

/-- A function within a type, and a method of a class itself that is declared for the second time. -/
def unreached : String :=
  "type F = (a: any = () => \x7b return 1; \x7d) => void; class A \x7b\x7d class A \x7b static m() \x7b return 1; \x7d \x7d"

/-- The checker does not come to these functions, so nothing is noted of what they give. -/
theorem unreached_return_nothing : (Program.ofSource unreached).isOk = true ∧ ∃ checked,
    upTo 40 (Node.ofTree .prelude (Program.ofSource "").tree) (Program.ofSource unreached).root = some checked ∧
      ∀ kind ∈ [NodeKind.arrowFunction, .methodDecl], ∃ function ∈ (Program.ofSource unreached).root.descendants,
        function.kind = kind ∧ function.block?.isSome = true ∧ function.ascribed? = none ∧
          function.ownReturns.length = 1 ∧ ∀ type, ¬checked.facts.Returns function type := by
  have hall : ((upTo 40 (Node.ofTree .prelude (Program.ofSource "").tree) (Program.ofSource unreached).root).any
      fun checked => [NodeKind.arrowFunction, .methodDecl].all fun kind =>
        (Program.ofSource unreached).root.descendants.any fun function =>
          function.kind == kind && function.block?.isSome && function.ascribed?.isNone &&
            function.ownReturns.length == 1 && (checked.facts.declaredSignatures.get? function.id).isNone) = true := by
    decide +kernel
  obtain ⟨checked, hchecked, hall⟩ := (Option.any_eq_true _ _).mp hall
  refine ⟨by decide +kernel, checked, hchecked, fun kind hkind => ?_⟩
  obtain ⟨function, hmem, hfunction⟩ := List.any_eq_true.mp (List.all_eq_true.mp hall kind hkind)
  simp only [Bool.and_eq_true, beq_iff_eq, Option.isNone_iff_eq_none] at hfunction
  obtain ⟨⟨⟨⟨hkind, hblock⟩, hnone⟩, hlength⟩, hunsigned⟩ := hfunction
  refine ⟨function, hmem, hkind, hblock, hnone, hlength, fun type hreturns => ?_⟩
  obtain ⟨signature, hsignature, -⟩ := hreturns
  rw [hunsigned] at hsignature
  cases hsignature

end Checked

end RouteTypes
