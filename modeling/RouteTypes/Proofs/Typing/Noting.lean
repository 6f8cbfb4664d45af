-- What noting something does to facts: they stay closed, what there is stays, and of types that are known
-- already only the references change that get their members now.
import RouteTypes.Proofs.Typing.Closed

namespace RouteTypes

namespace Facts

variable {known : Node → Prop} {s s' s'' : Facts}

/-! ## How facts grow -/

/-- An object type may get its members, once; no type changes otherwise. -/
def Fills (s s' : Facts) : Prop :=
  ∀ {id}, s.HasType id → s'.typeData id = s.typeData id ∨
    ∃ object members stringIndex, s.typeData id = .object object ∧ object.hasMembers = false ∧
      s'.typeData id = .object { object with members, stringIndex, hasMembers := true }

theorem Fills.trans (h : Fills s s') (htypes : s.types.size ≤ s'.types.size) (h' : Fills s' s'') : Fills s s'' := by
  intro id hid
  rcases h' (Nat.lt_of_lt_of_le hid htypes) with hsame' | ⟨object', members', index', hobject', hnone', hfilled'⟩
  · rw [hsame']
    exact h hid
  · rcases h hid with hsame | ⟨object, members, index, hobject, hnone, hfilled⟩
    · exact .inr ⟨object', members', index', hsame ▸ hobject', hnone', hfilled'⟩
    · -- What has its members already does not get them again.
      rw [hfilled] at hobject'
      cases hobject'
      cases hnone'

/-- The methods of the instances of classes with these declarations are declared. -/
def DeclaresMethods (s : Facts) (declarations : List Node) : Prop :=
  ∀ node ∈ declarations, ∀ member ∈ node.classMembers, member.isInstanceMethod = true → (s.declared? member).isSome = true

theorem DeclaresMethods.mono {declarations : List Node} (h : s.DeclaresMethods declarations) (hle : s.Extends known s') :
    s'.DeclaresMethods declarations :=
  fun node hnode member hmember hmethod => hle.isSome_declared? (h node hnode member hmember hmethod)

/-- If the symbol is a class, then the methods of its instances are declared. -/
def Finishes (known : Node → Prop) (s : Facts) (symbol : SymbolId) : Prop :=
  s.HasSymbol symbol ∧ ((s.symbol symbol).kind = .classDecl → ∀ node, IsUnique known node →
    s.declared? node = some symbol → s.DeclaresMethods [node])

theorem Finishes.mono {symbol : SymbolId} (h : s.Finishes known symbol) (hle : s.Extends known s') :
    s'.Finishes known symbol :=
  ⟨hle.hasSymbol h.1, fun hkind node hnode hdeclared => (h.2 (hle.kind h.1 ▸ hkind) node hnode
    ((hle.fresh hdeclared).resolve_right fun hnone => hnone h.1)).mono hle⟩

/-- What names a type but is no class has no methods. -/
theorem Finishes.other {symbol : SymbolId} (hsymbol : s.HasSymbol symbol) (hkind : (s.symbol symbol).kind ≠ .classDecl) :
    s.Finishes known symbol :=
  ⟨hsymbol, fun hclass => absurd hclass hkind⟩

/-- What there is stays as it is, but that a reference may have got its members. The methods of a class are declared
once its type is known. -/
structure Grows (known : Node → Prop) (s s' : Facts) : Prop extends Extends known s s' where
  typeData : Fills s s'
  declaredSignatures : ∀ {id signature}, s.declaredSignatures.get? id = some signature →
    s'.declaredSignatures.get? id = some signature
  paramTypes : ∀ {symbol type}, s.paramTypes.get? symbol = some type → s'.paramTypes.get? symbol = some type
  references : ∀ {key type}, s.references.get? key = some type → s'.references.get? key = some type
  declaredTypes : ∀ {symbol type}, s.declaredTypes.get? symbol = some type →
    s'.declaredTypes.get? symbol = some type
  finished : ∀ {symbol type}, s.declaredTypes.get? symbol = none → s'.declaredTypes.get? symbol = some type →
    s'.Finishes known symbol
  writtenTypes : ∀ {id type}, s.writtenTypes.get? id = some type → s'.writtenTypes.get? id = some type

/-- Where no type is noted for a symbol, there is nothing to finish. -/
theorem nothing_finished {symbol : SymbolId} {type : TypeId} {p : Prop} (hnone : s.declaredTypes.get? symbol = none)
    (hsome : s.declaredTypes.get? symbol = some type) : p := by
  rw [hnone] at hsome
  cases hsome

namespace Grows

theorem refl (s : Facts) : Grows known s s := ⟨.refl s, fun _ => .inl rfl, id, id, id, id, nothing_finished, id⟩

theorem trans (h : Grows known s s') (h' : Grows known s' s'') : Grows known s s'' where
  toExtends := h.toExtends.trans h'.toExtends
  declaredSignatures hget := h'.declaredSignatures (h.declaredSignatures hget)
  paramTypes hget := h'.paramTypes (h.paramTypes hget)
  references hget := h'.references (h.references hget)
  declaredTypes hget := h'.declaredTypes (h.declaredTypes hget)
  finished {symbol type} hnone hsome := by
    cases hmid : s'.declaredTypes.get? symbol with
    | none => exact h'.finished hmid hsome
    | some type => exact (h.finished hnone hmid).mono h'.toExtends
  writtenTypes hget := h'.writtenTypes (h.writtenTypes hget)
  typeData := Fills.trans h.typeData h.types h'.typeData

/-- An object type that has its members stays as it is. -/
theorem object_eq {id : TypeId} {object : ObjectType} (h : Grows known s s') (hid : s.HasType id)
    (hobject : s.typeData id = .object object) (hmembers : object.hasMembers = true) :
    s'.typeData id = .object object := by
  rcases h.typeData hid with hsame | ⟨other, members, index, hother, hnone, -⟩
  · rw [hsame, hobject]
  · rw [hother] at hobject
    cases hobject
    rw [hmembers] at hnone
    cases hnone

/-- What an object type comes from and its type parameters stay as they are. -/
theorem generic_of {id : TypeId} {object : ObjectType} (h : Grows known s s') (hid : s.HasType id)
    (hobject : s'.object? id = some object) :
    ∃ before, s.object? id = some before ∧ before.symbol = object.symbol ∧ before.typeParams = object.typeParams := by
  rcases h.typeData hid with hsame | ⟨before, members, index, hbefore, -, hfilled⟩
  · exact ⟨object, by rwa [object?, ← hsame], rfl, rfl⟩
  · rw [object?, hfilled] at hobject
    cases hobject
    exact ⟨before, by rw [object?, hbefore]; rfl, rfl, rfl⟩

/-- What becomes an object type was one. -/
theorem object_of {id : TypeId} {object : ObjectType} (h : Grows known s s') (hid : s.HasType id)
    (hobject : s'.typeData id = .object object) : ∃ before, s.typeData id = .object before := by
  rcases h.typeData hid with hsame | ⟨before, members, index, hbefore, -, -⟩
  · exact ⟨object, hsame ▸ hobject⟩
  · exact ⟨before, hbefore⟩

end Grows

/-- Nothing is noted about values, nor about what calls of declared functions give. -/
structure Quiet (known : Node → Prop) (s s' : Facts) : Prop extends Grows known s s' where
  expressionTypes : s'.expressionTypes = s.expressionTypes
  resolutions : s'.resolutions = s.resolutions
  symbolTypes : s'.symbolTypes = s.symbolTypes
  boundMembers : s'.boundMembers = s.boundMembers
  answered : ∀ {id signature type}, s'.declaredSignatures.get? id = some signature →
    (s'.signature signature).returns = some type →
      s.declaredSignatures.get? id = some signature ∧ (s.signature signature).returns = some type

namespace Quiet

theorem refl (s : Facts) : Quiet known s s := ⟨.refl s, rfl, rfl, rfl, rfl, fun hget hreturns => ⟨hget, hreturns⟩⟩

theorem trans (h : Quiet known s s') (h' : Quiet known s' s'') : Quiet known s s'' where
  toGrows := h.toGrows.trans h'.toGrows
  expressionTypes := h'.expressionTypes.trans h.expressionTypes
  resolutions := h'.resolutions.trans h.resolutions
  symbolTypes := h'.symbolTypes.trans h.symbolTypes
  boundMembers := h'.boundMembers.trans h.boundMembers
  answered hget hreturns := h.answered (h'.answered hget hreturns).1 (h'.answered hget hreturns).2

end Quiet

/-- The law of questions about types: facts stay closed, and nothing is noted about values. -/
def quiet (known : Node → Prop) : Law where
  holds := Closed known
  step := Quiet known
  refl := Quiet.refl
  trans := Quiet.trans

/-- Something is noted: the facts stay closed. -/
structure Noted (known : Node → Prop) (s s' : Facts) : Prop where
  closed : s'.Closed known
  quiet : Quiet known s s'

/-- Something is noted, and what is answered has the property. -/
structure Notes {α : Type} (known : Node → Prop) (s : Facts) (result : α × Facts)
    (post : α → Facts → Prop) : Prop extends Noted known s result.2 where
  post : post result.1 result.2

namespace Noted

theorem refl (h : s.Closed known) : Noted known s s := ⟨h, .refl s⟩

theorem trans (h : Noted known s s') (h' : Noted known s' s'') : Noted known s s'' :=
  ⟨h'.closed, h.quiet.trans h'.quiet⟩

/-- A change of tables that say nothing about expressions, if the new rows are closed too. -/
theorem then_same (h : Noted known s s') (hsame : Quiet known s' s'')
    (hcovers : s''.Covers known s' → s''.Covers known s'') : Noted known s s'' :=
  ⟨hcovers (h.closed.mono hsame.toExtends), h.quiet.trans hsame⟩

end Noted

theorem Notes.mono {α : Type} {result : α × Facts} {post weaker : α → Facts → Prop}
    (h : Notes known s result post) (hle : ∀ a s', Quiet known s s' → post a s' → weaker a s') :
    Notes known s result weaker :=
  ⟨h.toNoted, hle _ _ h.quiet h.post⟩

theorem Notes.after {α : Type} {result : α × Facts} {post : α → Facts → Prop} (hstep : Quiet known s s')
    (h : Notes known s' result post) : Notes known s result post :=
  ⟨⟨h.closed, hstep.trans h.quiet⟩, h.post⟩

/-! ## Rows that get longer -/

/-- One more symbol leaves the symbols closed, and those that copies are made from in front of them. -/
theorem Closed.pushSymbol (h : s.Closed known) {symbol : Symbol} (hsymbol : symbol.Closed known s)
    (hle : Extends known s s') (hsymbols : s'.symbols = s.symbols.push symbol) :
    (∀ id, s'.HasSymbol id → (s'.symbol id).Closed known s') ∧ ∀ id, s'.HasSymbol id → ∀ {origin substitution},
      (s'.symbol id).origin = some (origin, substitution) → origin.index < id.index := by
  have hcovers := h.mono hle
  constructor <;> intro id hid <;> unfold HasSymbol at hid <;> unfold Facts.symbol <;> rw [hsymbols] at hid ⊢
  · exact getD_push_all _ _ (fun i hi => hcovers.symbol ⟨i⟩ hi) (hsymbol.mono hle) id.index hid
  · intro origin substitution horigin
    have hsize : id.index < s.symbols.size + 1 := Nat.lt_of_lt_of_eq hid (Array.size_push _)
    rcases Nat.lt_succ_iff_lt_or_eq.mp hsize with hold | hnew
    · exact h.older id hold ((congrArg (·.origin) (getD_push_of_lt s.symbols default hold)).symm.trans horigin)
    · obtain rfl : id = ⟨s.symbols.size⟩ := congrArg SymbolId.mk hnew
      exact (hsymbol.origin ((congrArg (·.origin) (getD_push_size s.symbols default)).symm.trans horigin)).1

theorem addSymbol_quiet (s : Facts) (symbol : Symbol) : Quiet known s (s.addSymbol symbol).2 :=
  { Quiet.refl s with
    symbols := Nat.le_of_lt (lt_size_push _)
    symbol := fun hid => ⟨[], (getD_push_of_lt _ _ hid).trans (by rw [List.append_nil]; rfl)⟩
    head := fun hid => congrArg (·.declarations.head?) (getD_push_of_lt _ _ hid)
    finished := nothing_finished }

theorem addSymbol_notes (h : s.Closed known) {symbol : Symbol} (hsymbol : symbol.Closed known s) :
    Notes known s (s.addSymbol symbol) fun id s' => s'.HasSymbol id ∧ s'.symbol id = symbol := by
  have hquiet : Quiet known s (s.addSymbol symbol).2 := addSymbol_quiet s symbol
  obtain ⟨hclosed, holder⟩ := h.pushSymbol hsymbol hquiet.toExtends rfl
  exact ⟨⟨{ h.mono hquiet.toExtends with symbol := hclosed, older := holder }, hquiet⟩, lt_size_push _,
    getD_push_size _ _⟩

/-- The arena gets a new type, and maybe a row for it in the table of unions. -/
theorem pushType_notes (h : s.Closed known) {data : TypeData} (hdata : data.Closed s)
    {unions : Table (List TypeId) TypeId} (harena : s.arena.Becomes ⟨s.types.push data, unions⟩)
    (hunions : ∀ {members id}, unions.get? members = some id →
      s.unions.get? members = some id ∨ id = (s.addType data).1) :
    Notes known s ((s.addType data).1, { s with types := s.types.push data, unions }) fun id s' =>
      s'.HasType id ∧ s'.typeData id = data ∧ ¬ s.HasType id := by
  have hquiet : Quiet known s { s with types := s.types.push data, unions } :=
    { Quiet.refl s with
      types := Nat.le_of_lt (lt_size_push _)
      declarer := fun hid => declarer?_eq (getD_push_of_lt _ _ hid)
      typeParams := fun hid => typeParamsOf_eq (getD_push_of_lt _ _ hid)
      typeData := fun hid => .inl (getD_push_of_lt _ _ hid)
      arena := harena }
  have hcovers := h.mono hquiet.toExtends
  refine ⟨⟨{ hcovers with typeData := fun id hid => ?_, unions := fun members id hget => ?_ }, hquiet⟩, lt_size_push _,
    getD_push_size _ _, Nat.lt_irrefl _⟩
  · exact getD_push_all _ _ (fun i hi => hcovers.typeData ⟨i⟩ hi) (hdata.mono hquiet.toExtends)
      id.index hid
  · rcases hunions hget with hold | rfl
    · exact hcovers.unions members id hold
    · exact lt_size_push _

theorem addType_notes (h : s.Closed known) (data : TypeData) (hsingle : data.isSingle = true) (hdata : data.Closed s) :
    Notes known s (s.addType data) fun id s' =>
      s'.HasType id ∧ s'.typeData id = data ∧ ¬ s.HasType id :=
  pushType_notes h hdata (.single (.add s data hsingle)) .inl

theorem addSignature_notes (h : s.Closed known) {signature : Signature}
    (hsignature : signature.Closed known s) :
    Notes known s (s.addSignature signature) fun id s' => s'.HasSignature id ∧ s'.signature id = signature := by
  have hquiet : Quiet known s (s.addSignature signature).2 :=
    { Quiet.refl s with
      signatures := Nat.le_of_lt (lt_size_push _)
      signature := fun hid => by
        rw [show (s.addSignature signature).2.signature _ = _ from getD_push_of_lt _ _ hid]
        exact .refl _
      params := fun hid => congrArg (·.params) (getD_push_of_lt _ _ hid)
      returns := fun hid => .inl (congrArg (·.returns) (getD_push_of_lt _ _ hid))
      answered := fun hget hreturns => ⟨hget, (congrArg (·.returns)
        (getD_push_of_lt _ _ (h.declaredSignatures hget).1)).symm.trans hreturns⟩ }
  have hcovers := h.mono hquiet.toExtends
  refine ⟨⟨{ hcovers with signature := fun id hid => ?_ }, hquiet⟩, lt_size_push _, getD_push_size _ _⟩
  exact getD_push_all _ _ (fun i hi => hcovers.signature ⟨i⟩ hi)
    (hsignature.mono hquiet.toExtends) id.index hid

theorem shareSubstitution_notes (h : s.Closed known) {params : List SymbolId} {types : List TypeId}
    (hparams : ∀ param ∈ params, s.HasSymbol param) (htypes : ∀ type ∈ types, s.HasType type)
    (heven : s.Regular → params.length = types.length) :
    Notes known s (s.shareSubstitution params types) fun id s' => s'.HasSubstitution id := by
  unfold shareSubstitution
  dsimp only
  split
  · rename_i id hid
    exact ⟨.refl h, h.substitutionIds _ id hid⟩
  · have hsubstitution : Substitution.Closed s ⟨params, types⟩ := ⟨hparams, htypes, heven⟩
    generalize (⟨params, types⟩ : Substitution) = substitution at hsubstitution
    let s' : Facts := { s with
      substitutions := s.substitutions.push substitution
      substitutionIds := s.substitutionIds.insert substitution ⟨s.substitutions.size⟩ }
    have hquiet : Quiet known s s' := { Quiet.refl s with substitutions := Nat.le_of_lt (lt_size_push _) }
    have hcovers := h.mono hquiet.toExtends
    refine ⟨⟨{ hcovers with
      substitution := fun id hid => ?_
      substitutionIds := hcovers.substitutionIds.insert (lt_size_push _) }, hquiet⟩, lt_size_push _⟩
    exact getD_push_all _ _ (fun i hi => hcovers.substitution ⟨i⟩ hi)
      (hsubstitution.mono hquiet.toExtends) id.index hid

/-! ## Types that are shared -/

theorem literalType_notes (h : s.Closed known) (value : Literal) :
    Notes known s (s.literalType value) fun id s' => s'.HasType id := by
  unfold literalType
  split
  · rename_i id hid
    exact ⟨.refl h, h.literals _ id hid⟩
  · obtain ⟨hnoted, hid, -⟩ := addType_notes h (.literal value) rfl trivial
    exact ⟨hnoted.then_same { Quiet.refl _ with } fun hcovers =>
      { hcovers with literals := hcovers.literals.insert hid }, hid⟩

theorem paramType_notes (h : s.Closed known) {param : SymbolId} (hparam : s.HasSymbol param) :
    Notes known s (s.paramType param) fun id s' => s'.HasType id ∧ s'.paramTypes.get? param = some id := by
  unfold paramType
  split
  · rename_i id hid
    exact ⟨.refl h, h.paramTypes _ id hid, hid⟩
  · rename_i hnone
    obtain ⟨hnoted, hid, -⟩ := addType_notes h (.param param) rfl hparam
    exact ⟨hnoted.then_same { Quiet.refl _ with
      paramTypes := fun hget => Table.get?_insert_of_some hnone hget } fun hcovers =>
      { hcovers with paramTypes := hcovers.paramTypes.insert hid }, hid, Table.get?_insert_self _ _ _⟩

/-! ## Looking up -/

theorem object?_eq_some {id : TypeId} {object : ObjectType} (h : s.object? id = some object) :
    s.HasType id ∧ s.typeData id = .object object := by
  have hdata : s.typeData id = .object object := by
    unfold object? TypeData.object? at h
    split at h
    · rename_i type htype
      cases h
      exact htype
    · cases h
  refine ⟨Nat.lt_of_not_le fun hle => ?_, hdata⟩
  rw [Facts.typeData, Array.getD_eq_getD_getElem?, Array.getElem?_eq_none hle] at hdata
  cases hdata

namespace Closed

variable (h : s.Closed known)

include h

theorem object {id : TypeId} {object : ObjectType} (hobject : s.object? id = some object) :
    object.Closed s := by
  obtain ⟨hid, hdata⟩ := object?_eq_some hobject
  have hclosed := h.typeData id hid
  rwa [hdata] at hclosed

theorem hasType_primitive {id : TypeId} (hid : id.index < TypeData.primitives.length) : s.HasType id :=
  Nat.lt_of_lt_of_le hid h.primitives

theorem hasType_any : s.HasType .any := h.hasType_primitive (by decide)

theorem hasType_never : s.HasType .never := h.hasType_primitive (by decide)

theorem membersOf (type : TypeId) : ∀ id ∈ s.membersOf type, s.HasMember id := by
  unfold Facts.membersOf
  cases hobject : s.object? type with
  | none => exact fun id hid => absurd hid List.not_mem_nil
  | some object => exact (h.object hobject).members

theorem stringIndexOf (type : TypeId) : ∀ index ∈ s.stringIndexOf type, s.HasType index := by
  unfold Facts.stringIndexOf
  cases hobject : s.object? type with
  | none => exact fun id hid => by cases hid
  | some object => exact (h.object hobject).stringIndex

theorem typeParamsOf (type : TypeId) :
    ∀ param ∈ ((s.object? type).map (·.typeParams)).getD [], s.HasSymbol param := by
  cases hobject : s.object? type with
  | none => exact fun id hid => absurd hid List.not_mem_nil
  | some object => exact (h.object hobject).typeParams

theorem callsOf (type : TypeId) :
    ∀ call ∈ ((s.object? type).map (·.calls)).getD [], s.HasSignature call := by
  cases hobject : s.object? type with
  | none => exact fun id hid => absurd hid List.not_mem_nil
  | some object => exact (h.object hobject).calls

theorem constructsOf (type : TypeId) :
    ∀ construct ∈ ((s.object? type).map (·.constructs)).getD [], s.HasSignature construct := by
  cases hobject : s.object? type with
  | none => exact fun id hid => absurd hid List.not_mem_nil
  | some object => exact (h.object hobject).constructs

theorem declared? {node : Node} {id : SymbolId} (hid : s.declared? node = some id) : s.HasSymbol id :=
  (h.declarations hid).1

theorem declaredIn (node : Node) (kind : NodeKind) : ∀ id ∈ s.declaredIn node kind, s.HasSymbol id := by
  intro id hid
  obtain ⟨list, -, hid⟩ := List.mem_flatMap.mp hid
  obtain ⟨child, -, hid⟩ := List.mem_filterMap.mp hid
  exact h.declared? hid

theorem declaredTypeParams (symbol : SymbolId) : ∀ id ∈ s.declaredTypeParams symbol, s.HasSymbol id := by
  unfold Facts.declaredTypeParams
  split
  · exact fun id hid => absurd hid List.not_mem_nil
  · rename_i node _
    exact h.declaredIn node .typeParamList

theorem lookup {node : Node} {sort : NameSort} {name : String} {id : SymbolId}
    (hid : s.lookup node sort name = some id) : s.HasSymbol id := by
  unfold Facts.lookup at hid
  split at hid
  · cases hid
  · obtain ⟨scope, -, hscope⟩ := List.exists_of_findSome?_eq_some hid
    exact h.scopes hscope

theorem declarations_head? {id : SymbolId} (hid : s.HasSymbol id) :
    ∀ node ∈ (s.symbol id).declarations.head?, Declares known node :=
  fun node hnode => (h.symbol id hid).declarations node (List.mem_of_mem_head? hnode)

theorem arrayElement? {type element : TypeId} (helement : s.arrayElement? type = some element) :
    s.HasType element := by
  unfold Facts.arrayElement? at helement
  split at helement
  · cases helement
  · rename_i object hobject
    split at helement
    · cases helement
    · split at helement
      · exact (h.object hobject).typeArguments element (List.mem_of_mem_head? helement)
      · cases helement

theorem substitution_get? {id : SubstitutionId} (hid : s.HasSubstitution id) {param : SymbolId}
    {type : TypeId} (hget : (s.substitution id).get? param = some type) : s.HasType type := by
  obtain ⟨place, -, htype⟩ := Option.bind_eq_some_iff.mp hget
  exact (h.substitution id hid).types type (List.mem_of_getElem? htype)

theorem unionParts {type : TypeId} (htype : s.HasType type) : ∀ part ∈ s.unionParts type, s.HasType part := by
  unfold Facts.unionParts
  split
  · rename_i members hdata
    have hclosed := h.typeData type htype
    rw [hdata] at hclosed
    exact hclosed
  · exact fun id hid => absurd hid List.not_mem_nil
  · intro part hpart
    rw [List.mem_singleton.mp hpart]
    exact htype

end Closed

/-! ## Types made of others -/

theorem stable_hasType : (quiet known).Stable fun id s => s.HasType id :=
  fun _ _ _ hstep hid => Extends.hasType hstep.toExtends hid

theorem stable_hasSymbol : (quiet known).Stable fun id s => s.HasSymbol id :=
  fun _ _ _ hstep hid => Extends.hasSymbol hstep.toExtends hid

theorem stable_hasMember : (quiet known).Stable fun id s => s.HasMember id :=
  fun _ _ _ hstep hid => Extends.hasMember hstep.toExtends hid

theorem stable_hasSignature : (quiet known).Stable fun id s => s.HasSignature id :=
  fun _ _ _ hstep hid => Extends.hasSignature hstep.toExtends hid

theorem each_notes {α β : Type} (note : α → Facts → β × Facts) {post : β → Facts → Prop}
    (hstable : (quiet known).Stable post) : ∀ {s : Facts} (items : List α), s.Closed known →
      (∀ item ∈ items, ∀ s', s'.Closed known → Quiet known s s' → Notes known s' (note item s') post) →
        Notes known s (each note items s) fun answers s' => ∀ answer ∈ answers, post answer s'
  | s, [], h, _ => ⟨.refl h, fun answer hanswer => absurd hanswer List.not_mem_nil⟩
  | s, item :: rest, h, hitems => by
    obtain ⟨hfirst, hanswer⟩ := hitems item List.mem_cons_self s h (.refl s)
    obtain ⟨hrest, hanswers⟩ := each_notes note hstable rest hfirst.closed fun item hitem s' h' hstep =>
      hitems item (List.mem_cons_of_mem _ hitem) s' h' (hfirst.quiet.trans hstep)
    refine ⟨hfirst.trans hrest, fun answer hmem => ?_⟩
    rcases List.mem_cons.mp hmem with rfl | hmem
    · exact hstable _ _ _ hrest.quiet hanswer
    · exact hanswers answer hmem

/-- What is found for each item in the end is what was answered for it, if that stays. -/
theorem each_notes_map {α β : Type} (note : α → Facts → β × Facts) (find : Facts → α → Option β)
    (hkeeps : ∀ {s s' : Facts} {item answer}, Quiet known s s' → find s item = some answer → find s' item = some answer) :
    ∀ {s : Facts} (items : List α), s.Closed known →
      (∀ item ∈ items, ∀ s', s'.Closed known → Quiet known s s' →
        Notes known s' (note item s') fun answer s' => find s' item = some answer) →
        Notes known s (each note items s) fun answers s' => items.map (find s') = answers.map some
  | s, [], h, _ => ⟨.refl h, rfl⟩
  | s, item :: rest, h, hitems => by
    obtain ⟨hfirst, hanswer⟩ := hitems item List.mem_cons_self s h (.refl s)
    obtain ⟨hrest, hanswers⟩ := each_notes_map note find hkeeps rest hfirst.closed fun item hitem s' h' hstep =>
      hitems item (List.mem_cons_of_mem _ hitem) s' h' (hfirst.quiet.trans hstep)
    exact ⟨hfirst.trans hrest, congrArg₂ List.cons (hkeeps hrest.quiet hanswer) hanswers⟩

/-- If there are several different members left, then there is a union type of them, or there is one from now on. -/
theorem unionType_notes (h : s.Closed known) {types members : List TypeId} (htypes : ∀ type ∈ types, s.HasType type)
    (hunion : s.union types = s.unionType members) (hmembers : ∀ member ∈ members, s.HasType member) :
    Notes known s (s.unionType members) fun id s' => s'.HasType id := by
  have hstep : s.arena.Becomes (s.unionType members).2.arena := hunion ▸ .single (.unite s types htypes)
  cases hget : s.unions.get? members with
  | some id =>
    have hfound : s.unionType members = (id, s) := by unfold unionType; rw [hget]
    rw [hfound]
    exact ⟨.refl h, h.unions _ id hget⟩
  | none =>
    have hnew : s.unionType members = ((s.addType (.union members)).1, { s with
        types := s.types.push (.union members)
        unions := s.unions.insert members (s.addType (.union members)).1 }) := by unfold unionType; rw [hget]; rfl
    rw [hnew] at hstep ⊢
    have hdata : TypeData.Closed s (.union members) := hmembers
    exact (pushType_notes h hdata hstep fun hget =>
      (Table.of_get?_insert hget).symm.imp_right fun hown => hown.2.symm).mono fun _ _ _ h => h.1

theorem union_notes (h : s.Closed known) {types : List TypeId} (htypes : ∀ type ∈ types, s.HasType type) :
    Notes known s (s.union types) fun id s' => s'.HasType id := by
  have hparts : ∀ part ∈ (types.flatMap s.unionParts).eraseDups, s.HasType part := by
    intro part hpart
    obtain ⟨type, htype, hpart⟩ := List.mem_flatMap.mp (List.mem_eraseDups.mp hpart)
    exact h.unionParts (htypes type htype) part hpart
  by_cases hany : .any ∈ Arena.joined s types
  · rw [Arena.union_of_any hany]
    exact ⟨.refl h, h.hasType_any⟩
  · have hunion := Arena.union_eq s types
    rw [if_neg hany] at hunion
    split at hunion
    · rw [hunion]
      exact ⟨.refl h, h.hasType_never⟩
    · rename_i only honly
      rw [hunion]
      exact ⟨.refl h, hparts only (honly ▸ List.mem_cons_self : only ∈ Arena.joined s types)⟩
    · rw [hunion]
      exact unionType_notes h htypes hunion hparts

/-- The union goes on to be known. -/
theorem union_unites (h : s.Closed known) {types : List TypeId} (htypes : ∀ type ∈ types, s.HasType type) :
    Notes known s (s.union types) fun id s' => s'.HasType id ∧ Arena.Unites s' types id :=
  ⟨(union_notes h htypes).toNoted, (union_notes h htypes).post, Arena.union_unites h.normal htypes⟩

theorem typeParamsOf_object {type : TypeId} {object : ObjectType} (hobject : s.object? type = some object) :
    s.typeParamsOf type = object.typeParams := by
  rw [typeParamsOf, hobject]
  rfl

/-- If the type is generic, then it may have so many type arguments. Where everything is regular, there is one for
each type parameter. -/
structure Suits (s : Facts) (type : TypeId) (count : Nat) : Prop where
  bounds : ∀ object, s.object? type = some object → object.typeParams ≠ [] → ∀ id ∈ object.symbol,
    1 ≤ count ∧ count ≤ s.arity id
  even : s.Regular → s.typeParamsOf type ≠ [] → (s.typeParamsOf type).length = count

theorem Suits.mono {type : TypeId} {count : Nat} (h : s.Suits type count) (hs : s.Closed known)
    (htype : s.HasType type) (hle : Grows known s s') : s'.Suits type count where
  bounds object hobject hgeneric id hid := by
    obtain ⟨before, hbefore, hsymbol, hparams⟩ := hle.generic_of htype hobject
    rw [← hsymbol] at hid
    rw [hle.arity ((hs.object hbefore).symbol id hid)]
    exact h.bounds before hbefore (hparams ▸ hgeneric) id hid
  even hregular := by
    rw [hle.typeParams htype]
    exact h.even (hle.regular hregular)

/-- A generic type suits its own type parameters. -/
theorem Closed.suits_own (hs : s.Closed known) {type : TypeId} {object : ObjectType}
    (hobject : s.object? type = some object) : s.Suits type object.typeParams.length where
  bounds other hother hgeneric id hid := by
    rw [hobject] at hother
    cases hother
    exact ⟨List.length_pos_iff.mpr hgeneric,
      Nat.le_trans ((hs.object hobject).arity id hid) (s.declaredTypeParams_le_arity id)⟩
  even _ _ := congrArg List.length (typeParamsOf_object hobject)

/-- What a reference refers to suits its type arguments. -/
theorem Closed.suits_target (hs : s.Closed known) {type target : TypeId} {object : ObjectType}
    (hobject : s.object? type = some object) (hkind : object.kind = .reference) (htarget : object.target = some target) :
    s.Suits target object.typeArguments.length where
  bounds generic hgeneric _ id hid := by
    have hclosed := hs.object hobject
    refine hclosed.arguments hkind id ?_
    rw [← hclosed.generic target htarget, declarer?, hgeneric]
    exact hid
  even hregular _ := (hs.object hobject).even hregular target htarget

namespace Names

variable {symbol : SymbolId} {type : TypeId} (h : s.Names symbol type) (hs : s.Closed known)

include h

theorem symbol_eq (hkind : (s.symbol symbol).kind = .classDecl ∨ (s.symbol symbol).kind = .interface)
    {object : ObjectType} (hobject : s.object? type = some object) : object.symbol = some symbol := by
  have hdeclarer := h.declarer hkind
  rwa [declarer?, hobject] at hdeclarer

include hs

/-- A generic class or interface has the type parameters that it declares. -/
theorem typeParamsOf_eq (hkind : (s.symbol symbol).kind = .classDecl ∨ (s.symbol symbol).kind = .interface)
    (hregular : s.Regular) (hsome : s.typeParamsOf type ≠ []) :
    s.typeParamsOf type = s.declaredTypeParams symbol := by
  cases hobject : s.object? type with
  | none => exact absurd (by rw [typeParamsOf, hobject]; rfl) hsome
  | some object =>
    rw [typeParamsOf_object hobject] at hsome ⊢
    obtain ⟨id, hid, hown⟩ := (hs.object hobject).own hregular hsome
    rw [h.symbol_eq hkind hobject] at hid
    obtain rfl := Option.mem_some_iff.mp hid
    exact hown

/-- A class or an interface suits the type parameters that it declares. -/
theorem suits (hkind : (s.symbol symbol).kind = .classDecl ∨ (s.symbol symbol).kind = .interface) :
    s.Suits type (s.declaredTypeParams symbol).length where
  bounds object hobject hgeneric id hid := by
    rw [h.symbol_eq hkind hobject] at hid
    obtain rfl := Option.mem_some_iff.mp hid
    exact ⟨Nat.le_trans (List.length_pos_iff.mpr hgeneric) ((hs.object hobject).arity symbol (h.symbol_eq hkind hobject)),
      s.declaredTypeParams_le_arity symbol⟩
  even hregular hsome := congrArg List.length (h.typeParamsOf_eq hs hkind hregular hsome)

/-- A class or an interface with one type parameter suits one type argument. -/
theorem suits_one (hone : s.Regular → s.TakesOne symbol) : s.Suits type 1 where
  bounds _ _ _ _ _ := ⟨Nat.le_refl _, Nat.le_max_left _ _⟩
  even hregular hsome := by
    have hown := h.typeParamsOf_eq hs (hone hregular).kind hregular hsome
    have hle := s.declaredTypeParams_le_arity symbol
    rw [← hown, (hone hregular).arity] at hle
    exact Nat.le_antisymm hle (List.length_pos_iff.mpr hsome)

end Names

/-- What refers to a generic type with type arguments that suit it is closed. -/
theorem referenceTo_closed (h : s.Closed known) {target : TypeId} (htarget : s.HasType target) {object : ObjectType}
    (hobject : s.object? target = some object) (hgeneric : object.typeParams ≠ []) {args : List TypeId}
    (hargs : ∀ arg ∈ args, s.HasType arg) (hsuits : s.Suits target args.length) :
    ObjectType.Closed s { ObjectType.bare .reference object.symbol with
      target := some target, typeArguments := args } where
  symbol := (h.object hobject).symbol
  members _ hid := absurd hid List.not_mem_nil
  calls _ hid := absurd hid List.not_mem_nil
  constructs _ hid := absurd hid List.not_mem_nil
  stringIndex _ hid := by cases hid
  typeParams _ hid := absurd hid List.not_mem_nil
  target _ hid := by
    cases hid
    exact htarget
  typeArguments := hargs
  unfilled _ := rfl
  arity _ _ := Nat.zero_le _
  arguments _ := hsuits.bounds object hobject hgeneric
  generic _ hid := by
    cases hid
    rw [declarer?, hobject]
    rfl
  plain _ := rfl
  own _ hsome := absurd rfl hsome
  even hregular _ hid := by
    cases hid
    exact hsuits.even hregular (by rwa [typeParamsOf_object hobject])

/-- What the generic type with the type arguments is, if it is known. -/
def Refers (s : Facts) (target : TypeId) (args : List TypeId) (id : TypeId) : Prop :=
  if s.typeParamsOf target = [] then id = target
  else ∃ own, (s.typeParamsOf target).map s.paramTypes.get? = own.map some ∧
    if own = args then id = target else s.references.get? (target, args) = some id

theorem Refers.mono {target id : TypeId} {args : List TypeId} (h : s.Refers target args id) (htarget : s.HasType target)
    (hle : Grows known s s') : s'.Refers target args id := by
  unfold Refers at h ⊢
  rw [hle.typeParams htarget]
  split at h
  · rwa [if_pos ‹_›]
  · rw [if_neg ‹_›]
    obtain ⟨own, hown, hid⟩ := h
    refine ⟨own, ?_, ?_⟩
    · rw [← hown]
      refine List.map_congr_left fun param hparam => ?_
      obtain ⟨type, -, htype⟩ := List.mem_map.mp (hown ▸ List.mem_map_of_mem hparam)
      rw [← htype]
      exact hle.paramTypes htype.symm
    · split at hid
      · rwa [if_pos ‹_›]
      · rw [if_neg ‹_›]
        exact hle.references hid

/-- Once it is known, it is what a reference with these type arguments refers to. -/
theorem Refers.reference_eq {target id : TypeId} {args : List TypeId} (h : s.Refers target args id) :
    s.reference target args = (id, s) := by
  have heach : ∀ {params : List SymbolId} {own : List TypeId}, params.map s.paramTypes.get? = own.map some →
      each paramType params s = (own, s) := by
    intro params
    induction params with
    | nil => exact fun hown => congrArg (·, s) (List.map_eq_nil_iff.mp hown.symm).symm
    | cons param rest ih =>
      intro own hown
      obtain ⟨type, others, rfl, htype, hothers⟩ := List.map_eq_cons_iff.mp hown.symm
      have hfirst : s.paramType param = (type, s) := by rw [paramType, ← htype]
      rw [each, hfirst]
      dsimp only
      rw [ih hothers.symm]
  unfold Refers at h
  unfold reference
  cases hobject : s.object? target with
  | none =>
    rw [if_pos (by rw [typeParamsOf, hobject]; rfl)] at h
    rw [h]
  | some object =>
    rw [typeParamsOf_object hobject] at h
    dsimp only
    split at h
    · rw [if_pos (List.isEmpty_iff.mpr ‹_›), h]
    · rw [if_neg fun hempty => absurd (List.isEmpty_iff.mp hempty) ‹_›]
      obtain ⟨own, hown, hid⟩ := h
      rw [heach hown]
      dsimp only
      split at hid
      · rw [if_pos ‹_›, hid]
      · rw [if_neg ‹_›, hid]

/-- What the generic class or interface with that type argument is, if it is known. -/
def Applies (s : Facts) (generic : Option SymbolId) (arg type : TypeId) : Prop :=
  ∀ symbol ∈ generic, (s.symbol symbol).kind = .classDecl ∨ (s.symbol symbol).kind = .interface →
    ∃ declared ∈ s.declaredTypes.get? symbol, s.Refers declared [arg] type

theorem Applies.mono {generic : Option SymbolId} {arg type : TypeId} (h : s.Applies generic arg type)
    (hs : s.Closed known) (hgeneric : ∀ symbol ∈ generic, s.HasSymbol symbol) (hle : Grows known s s') :
    s'.Applies generic arg type := by
  intro symbol hsymbol hkind
  obtain ⟨declared, hdeclared, hrefers⟩ := h symbol hsymbol (hle.kind (hgeneric symbol hsymbol) ▸ hkind)
  exact ⟨declared, hle.declaredTypes hdeclared, hrefers.mono (hs.declaredTypes hdeclared).2.has hle⟩

theorem reference_refers (h : s.Closed known) {target : TypeId} (htarget : s.HasType target)
    {args : List TypeId} (hargs : ∀ arg ∈ args, s.HasType arg) (hsuits : s.Suits target args.length) :
    Notes known s (s.reference target args) fun id s' => s'.HasType id ∧ s'.Refers target args id := by
  unfold reference
  split
  · rename_i hobject
    exact ⟨.refl h, htarget, by rw [Refers, if_pos]; rw [typeParamsOf, hobject]; rfl⟩
  · rename_i object hobject
    split
    · rename_i hempty
      exact ⟨.refl h, htarget, by rw [Refers, if_pos]; rw [typeParamsOf_object hobject]; exact List.isEmpty_iff.mp hempty⟩
    · rename_i hgeneric
      replace hgeneric : object.typeParams ≠ [] := fun hnil => hgeneric (List.isEmpty_iff.mpr hnil)
      have hown := each_notes_map paramType (·.paramTypes.get?) (fun hstep hget => hstep.paramTypes hget) object.typeParams h
        fun param hparam s' h' hstep => (paramType_notes h'
          (hstep.hasSymbol ((h.object hobject).typeParams param hparam))).mono fun _ _ _ h => h.2
      generalize each paramType object.typeParams s = result at hown
      obtain ⟨own, s'⟩ := result
      dsimp only
      have hparams : s'.typeParamsOf target = object.typeParams :=
        (hown.quiet.typeParams htarget).trans (typeParamsOf_object hobject)
      split
      · refine ⟨hown.toNoted, hown.quiet.hasType htarget, ?_⟩
        rw [Refers, hparams, if_neg hgeneric]
        exact ⟨own, hown.post, (if_pos ‹own = args›).mpr rfl⟩
      · rename_i hother
        split
        · rename_i id hid
          refine ⟨hown.toNoted, hown.closed.references _ id hid, ?_⟩
          rw [Refers, hparams, if_neg hgeneric]
          exact ⟨own, hown.post, (if_neg hother).symm ▸ hid⟩
        · rename_i hnone
          have hreference := (referenceTo_closed h htarget hobject hgeneric hargs hsuits).mono hown.quiet.toExtends
          obtain ⟨hnoted, hid, -⟩ := addType_notes hown.closed (.object _) rfl hreference
          have hparams' := (hnoted.quiet.typeParams (hown.quiet.hasType htarget)).trans hparams
          refine ⟨(hown.toNoted.trans hnoted).then_same { Quiet.refl _ with
            references := fun hget => Table.get?_insert_of_some hnone hget } fun hcovers =>
            { hcovers with references := hcovers.references.insert hid }, hid, ?_⟩
          rw [Refers, if_neg (hparams'.symm ▸ hgeneric)]
          exact ⟨own, (congrArg _ hparams').trans hown.post, (if_neg hother).symm ▸ Table.get?_insert_self _ _ _⟩

theorem reference_notes (h : s.Closed known) {target : TypeId} (htarget : s.HasType target)
    {args : List TypeId} (hargs : ∀ arg ∈ args, s.HasType arg) (hsuits : s.Suits target args.length) :
    Notes known s (s.reference target args) fun id s' => s'.HasType id :=
  (reference_refers h htarget hargs hsuits).mono fun _ _ _ h => h.1

/-! ## Changes of what is there -/

section

variable {symbol : SymbolId} {nodes : List Node}

theorem hasSymbol_addDeclaration {id : SymbolId} : (s.addDeclaration symbol nodes).HasSymbol id ↔ s.HasSymbol id := by
  unfold HasSymbol addDeclaration
  rw [Array.size_modify]

theorem symbol_addDeclaration {id : SymbolId} (hid : s.HasSymbol id) : (s.addDeclaration symbol nodes).symbol id =
    if symbol = id then { s.symbol id with declarations := (s.symbol id).declarations ++ nodes } else s.symbol id := by
  refine (getD_modify s.symbols default _ hid).trans ?_
  by_cases hsame : symbol = id
  · rw [if_pos hsame, if_pos (congrArg SymbolId.index hsame)]
    rfl
  · rw [if_neg hsame, if_neg fun heq => hsame (congrArg SymbolId.mk heq)]
    rfl

theorem addDeclaration_noted (h : s.Closed known) (hnodes : ∀ node ∈ nodes, Declares known node)
    (hfits : ∀ node ∈ nodes, (s.symbol symbol).kind.Fits node) :
    Noted known s (s.addDeclaration symbol nodes) := by
  have hquiet : Quiet known s (s.addDeclaration symbol nodes) :=
    { Quiet.refl s with
      symbols := Nat.le_of_eq Array.size_modify.symm
      symbol := fun {id} hid => by
        rw [symbol_addDeclaration hid]
        split
        · exact ⟨nodes, rfl⟩
        · exact ⟨[], by rw [List.append_nil]⟩
      head := fun {id} hid => by
        rw [symbol_addDeclaration hid]
        split
        · exact List.head?_append_of_ne_nil _ (h.symbol id hid).nonempty
        · rfl
      finished := nothing_finished }
  have hcovers := h.mono hquiet.toExtends
  refine ⟨{ hcovers with
    symbol := fun id hid => ?_
    older := fun id hid origin substitution horigin => ?_ }, hquiet⟩
  · have hid := hasSymbol_addDeclaration.mp hid
    rw [symbol_addDeclaration hid]
    split
    · subst ‹symbol = id›
      exact (hcovers.symbol symbol hid).declaredAgain hnodes hfits
    · exact hcovers.symbol id hid
  · have hid := hasSymbol_addDeclaration.mp hid
    have hsame : (s.symbol id).origin = some (origin, substitution) := by
      rw [symbol_addDeclaration hid] at horigin
      split at horigin <;> exact horigin
    exact h.older id hid hsame

end

section

variable {id : SignatureId} {change : Signature → Signature}

theorem signature_modifySignature {other : SignatureId} (hother : s.HasSignature other) :
    (s.modifySignature id change).signature other = if id = other then change (s.signature other) else s.signature other := by
  refine (getD_modify s.signatures default _ hother).trans ?_
  by_cases hsame : id = other
  · rw [if_pos hsame, if_pos (congrArg SignatureId.index hsame)]
    rfl
  · rw [if_neg hsame, if_neg fun heq => hsame (congrArg SignatureId.mk heq)]
    rfl

variable (hchange : ∀ old, old.Closed known s → (change old).Closed known s)
  (hparams : ∀ old, (change old).params = old.params) (hkeeps : KeepsSignature (s.signature id) (change (s.signature id)))

include hparams hkeeps in
theorem extends_modifySignature (hreturns : (change (s.signature id)).returns = (s.signature id).returns ∨
    (s.signature id).returns = none) : Extends known s (s.modifySignature id change) :=
  { Extends.refl s with
    signatures := Nat.le_of_eq Array.size_modify.symm
    signature := fun {other} hother => by
      rw [signature_modifySignature hother]
      split
      · subst ‹id = other›
        exact hkeeps
      · exact .refl _
    params := fun {other} hother => by
      rw [signature_modifySignature hother]
      split
      · exact hparams _
      · rfl
    returns := fun {other} hother => by
      rw [signature_modifySignature hother]
      split
      · subst ‹id = other›
        exact hreturns
      · exact .inl rfl }

include hchange in
theorem closed_modifySignature (h : s.Closed known) (hext : Extends known s (s.modifySignature id change)) :
    (s.modifySignature id change).Closed known := by
  refine { h.mono hext with signature := fun other hother => ?_ }
  have hother : s.HasSignature other := by
    rw [HasSignature, modifySignature, Array.size_modify] at hother
    exact hother
  rw [signature_modifySignature hother]
  split
  · exact (hchange _ (h.signature other hother)).mono hext
  · exact (h.signature other hother).mono hext

include hchange hparams hkeeps in
theorem modifySignature_noted (h : s.Closed known) (hreturns : ∀ old, (change old).returns = old.returns) :
    Noted known s (s.modifySignature id change) := by
  have hext : Extends known s (s.modifySignature id change) := extends_modifySignature hparams hkeeps (.inl (hreturns _))
  refine ⟨closed_modifySignature hchange h hext, { (Quiet.refl s : Quiet known s s) with
    toExtends := hext
    finished := nothing_finished
    answered := fun {node other type} hget hsome => ⟨hget, ?_⟩ }⟩
  rw [signature_modifySignature (h.declaredSignatures hget).1] at hsome
  split at hsome
  · exact (hreturns _).symm.trans hsome
  · exact hsome

end

/-- Of names in expressions only those are reported that stand for nothing. -/
theorem report_noted (h : s.Closed known) (node : Node) (span : Text.Span) {problem : Problem TypeId}
    (hproblem : problem.Closed s) (hunresolved : ∀ name, problem = .unresolvedName name →
      s.Lacks known node ∧ node.span = span ∧ node.refText = name) : Noted known s (s.report node span problem) := by
  unfold Facts.report
  split
  · rename_i hsource
    have hstep : Quiet known s { s with problems := ⟨span, problem⟩ :: s.problems } := { Quiet.refl s with
      problems := fun other hother => List.mem_cons_of_mem _ hother
      unresolved := fun {place name} hmem => by
        rcases List.mem_cons.mp hmem with heq | hmem
        · cases heq
          obtain ⟨hlacks, hspan, hname⟩ := hunresolved name rfl
          exact .inr ⟨node, hlacks, hsource, hspan, hname⟩
        · exact .inl hmem
      finished := nothing_finished }
    exact (Noted.refl h).then_same hstep fun hcovers =>
      { hcovers with
        problems := List.forall_mem_cons.mpr ⟨hproblem.mono hstep.toExtends, hcovers.problems⟩ }
  · exact .refl h

/-- A type is noted for a type expression for which none was in the beginning. -/
theorem Noted.thenWritten (h : Noted known s s') {id : NodeId} (hnone : s.writtenTypes.get? id = none) {type : TypeId}
    (htype : s'.HasType type) : Noted known s { s' with writtenTypes := s'.writtenTypes.insert id type } := by
  have hext : s'.Extends known { s' with writtenTypes := s'.writtenTypes.insert id type } :=
    { Extends.refl s' with }
  refine ⟨{ h.closed.mono hext with writtenTypes := h.closed.writtenTypes.insert htype },
    { h.quiet with writtenTypes := fun {other found} hget => ?_ }⟩
  have hne : id ≠ other := fun heq => by
    rw [← heq, hnone] at hget
    cases hget
  rw [Table.get?_insert_of_ne hne]
  exact h.quiet.writtenTypes hget

theorem Closed.setDeclaredType (h : s.Closed known) {symbol : SymbolId} (hsymbol : s.HasSymbol symbol) {type : TypeId}
    (hnames : s.Names symbol type) :
    Closed known { s with declaredTypes := s.declaredTypes.insert symbol type } := by
  have hext : s.Extends known { s with declaredTypes := s.declaredTypes.insert symbol type } := { Extends.refl s with }
  refine { h.mono hext with declaredTypes := fun hget => ?_ }
  rcases Table.of_get?_insert hget with ⟨rfl, rfl⟩ | hget
  · exact ⟨hext.hasSymbol hsymbol, hnames.mono hsymbol hext⟩
  · exact (h.mono hext).declaredTypes hget

/-- A class whose declarations have been read is finished. -/
theorem Finishes.ofDeclarations {symbol : SymbolId} (h : s.Closed known) (hle : s.Extends known s')
    (hsymbol : s.HasSymbol symbol) (hmethods : (s.symbol symbol).kind = .classDecl →
      s'.DeclaresMethods (s.symbol symbol).declarations) : s'.Finishes known symbol := by
  refine ⟨hle.hasSymbol hsymbol, fun hkind node hnode hdeclared => ?_⟩
  have hbefore := (hle.fresh hdeclared).resolve_right fun hnone => hnone hsymbol
  obtain ⟨-, own, hown, hid⟩ := h.declarations hbefore
  obtain rfl := hnode.eq_of_id ((h.symbol symbol hsymbol).declarations own hown).known hid
  exact fun other hother => List.mem_singleton.mp hother ▸ hmethods (hle.kind hsymbol ▸ hkind) own hown

/-- A type is noted for a symbol before the symbol is finished. -/
theorem Quiet.declaring {symbol : SymbolId} {type : TypeId} (h : Quiet known s s')
    (hnone : s.declaredTypes.get? symbol = none)
    (h' : Quiet known { s' with declaredTypes := s'.declaredTypes.insert symbol type } s'')
    (hfinishes : s''.Finishes known symbol) : Quiet known s s'' := by
  have hext : s'.Extends known { s' with declaredTypes := s'.declaredTypes.insert symbol type } :=
    { Extends.refl s' with }
  have hle := hext.trans h'.toExtends
  exact
    { toExtends := h.toExtends.trans hle
      typeData := Fills.trans h.typeData h.types h'.typeData
      declaredSignatures := fun hget => h'.declaredSignatures (h.declaredSignatures hget)
      paramTypes := fun hget => h'.paramTypes (h.paramTypes hget)
      references := fun hget => h'.references (h.references hget)
      writtenTypes := fun hget => h'.writtenTypes (h.writtenTypes hget)
      declaredTypes := fun {other found} hget => by
        have hne : symbol ≠ other := fun heq => by
          rw [← heq, hnone] at hget
          cases hget
        exact h'.declaredTypes ((Table.get?_insert_of_ne hne _ _).trans (h.declaredTypes hget))
      finished := fun {other found} hbefore hafter => by
        by_cases hsame : symbol = other
        · exact hsame ▸ hfinishes
        · cases hmid : s'.declaredTypes.get? other with
          | none => exact h'.finished ((Table.get?_insert_of_ne hsame _ _).trans hmid) hafter
          | some mid => exact (h.finished hbefore hmid).mono hle
      expressionTypes := h'.expressionTypes.trans h.expressionTypes
      resolutions := h'.resolutions.trans h.resolutions
      symbolTypes := h'.symbolTypes.trans h.symbolTypes
      boundMembers := h'.boundMembers.trans h.boundMembers
      answered := fun hget hreturns => h.answered (h'.answered hget hreturns).1 (h'.answered hget hreturns).2 }

/-- A type is noted for a symbol that is no class and for which none was in the beginning. -/
theorem Noted.thenDeclared (h : Noted known s s') {symbol : SymbolId} (hnone : s.declaredTypes.get? symbol = none)
    (hsymbol : s'.HasSymbol symbol) (hkind : (s'.symbol symbol).kind ≠ .classDecl) {type : TypeId}
    (hnames : s'.Names symbol type) :
    Notes known s (type, { s' with declaredTypes := s'.declaredTypes.insert symbol type })
      fun type s => s.Names symbol type :=
  have hquiet := h.quiet.declaring hnone (.refl { s' with declaredTypes := s'.declaredTypes.insert symbol type })
    (.other hsymbol hkind)
  ⟨⟨h.closed.setDeclaredType hsymbol hnames, hquiet⟩, hnames.has, hnames.declarer⟩

/-- An object type that is new, or gets its members now, has the parts that are known by now. -/
theorem modifyObject_noted {id : TypeId} {object : ObjectType} (change : ObjectType → ObjectType)
    (h : s'.Closed known) (hstep : Quiet known s s') (hobject : s'.typeData id = .object object)
    (hid : s'.HasType id) (hchange : (change object).Closed s') (hsymbol : (change object).symbol = object.symbol)
    (hparams : (change object).typeParams = object.typeParams)
    (hgrows : s.HasType id → ∃ before members stringIndex, s.typeData id = .object before ∧
      before.hasMembers = false ∧ change object = { before with members, stringIndex, hasMembers := true }) :
    Noted known s (s'.modifyObject id change) ∧ (s'.modifyObject id change).HasType id ∧
      (s'.modifyObject id change).typeData id = .object (change object) := by
  have hsize : (s'.modifyObject id change).types.size = s'.types.size := Array.size_modify
  have hown : (s'.modifyObject id change).typeData id = .object (change object) := by
    have hdata : s'.types.getD id.index .any = .object object := hobject
    refine (getD_modify s'.types .any _ hid).trans ?_
    rw [if_pos rfl, hdata]
  have hother : ∀ other, s'.HasType other → other ≠ id →
      (s'.modifyObject id change).typeData other = s'.typeData other := by
    intro other hin hne
    refine (getD_modify s'.types .any _ hin).trans (if_neg fun heq => hne ?_)
    exact congrArg TypeId.mk heq.symm
  have hext : Extends known s' (s'.modifyObject id change) :=
    { Extends.refl s' with
      types := Nat.le_of_eq hsize.symm
      declarer := fun {other} hin => by
        by_cases hne : other = id
        · rw [hne, declarer?, declarer?, object?, object?, hown, hobject]
          exact hsymbol
        · exact declarer?_eq (hother other hin hne)
      typeParams := fun {other} hin => by
        by_cases hne : other = id
        · rw [hne, typeParamsOf, typeParamsOf, object?, object?, hown, hobject]
          exact hparams
        · exact typeParamsOf_eq (hother other hin hne)
      arena := .single (.fill s' id change) }
  refine ⟨⟨{ h.mono hext with typeData := fun other hin => ?_ }, ?_⟩, hext.hasType hid, hown⟩
  · have hin : s'.HasType other := by
      rw [HasType, hsize] at hin
      exact hin
    by_cases hne : other = id
    · rw [hne, hown]
      exact ObjectType.Closed.mono hchange hext
    · rw [hother other hin hne]
      exact (h.typeData other hin).mono hext
  · refine { hstep with toExtends := hstep.toExtends.trans hext, typeData := fun {other} hin => ?_ }
    by_cases hne : other = id
    · rw [hne] at hin ⊢
      obtain ⟨before, members, stringIndex, hbefore, hnone, hafter⟩ := hgrows hin
      exact .inr ⟨before, members, stringIndex, hbefore, hnone, by rw [hown, hafter]⟩
    · rw [hother other (hstep.hasType hin) hne]
      exact hstep.typeData hin

/-! ## Members -/

/-- A symbol with one declaration. -/
theorem closed_fresh {node : Node} (hnode : Declares known node) {kind : SymbolKind} (hfits : kind.Fits node)
    (name : String) (isOptional : Bool) : Symbol.Closed known s ⟨name, kind, [node], isOptional, none⟩ where
  declarations declaration hin := List.mem_singleton.mp hin ▸ hnode
  nonempty := List.cons_ne_nil _ _
  fits declaration hin := List.mem_singleton.mp hin ▸ hfits
  origin horigin := by cases horigin

theorem addNamedMember_notes (h : s.Closed known) (name : String) {kind : SymbolKind}
    (isOptional : Bool) {node : Node} (hkind : kind.OfMember node) (hnode : DeclaresMember known node) :
    Notes known s (s.addNamedMember name kind isOptional node) fun id s' =>
      s'.HasMember id ∧ (s'.declared? node).isSome = true := by
  let fresh : Symbol := ⟨name, kind, [node], isOptional, none⟩
  have hsymbol : Symbol.Closed known s fresh :=
    closed_fresh hnode.toDeclares (hkind.fits (Node.isVariable_of_isMember hnode.member)) name isOptional
  -- The new symbol is declared by the node, unless another one is.
  have hquiet : Quiet known s (s.addNamedMember name kind isOptional node).2 :=
    { addSymbol_quiet s fresh with
      declared := fun other => by
        refine (Table.get?_insertIfNew_cases _ node.id other _).imp_right fun ⟨hnone, hid⟩ => ?_
        exact ⟨hnone, node, hnode.known, hnode.member, hid⟩
      fresh := fun hget => by
        rcases Table.of_get?_insertIfNew hget with ⟨-, rfl⟩ | hget
        · exact .inr (Nat.lt_irrefl _)
        · exact .inl hget
      finished := nothing_finished }
  have hcovers := h.mono hquiet.toExtends
  obtain ⟨hclosed, holder⟩ := h.pushSymbol hsymbol hquiet.toExtends rfl
  have hid : (s.addNamedMember name kind isOptional node).2.HasSymbol (s.addSymbol fresh).1 := lt_size_push _
  have hown : (s.addNamedMember name kind isOptional node).2.symbol (s.addSymbol fresh).1 = fresh := getD_push_size _ _
  refine ⟨⟨{ hcovers with
    symbol := hclosed, older := holder, declarations := fun hget => ?_, originals := fun hget => ?_ }, hquiet⟩,
    ⟨hid, (congrArg (·.kind) hown).symm ▸ hkind.member⟩, Table.isSome_get?_insertIfNew _ _ _⟩
  · rcases Table.of_get?_insertIfNew hget with ⟨rfl, rfl⟩ | hget
    · exact ⟨hid, node, (congrArg (·.declarations) hown) ▸ List.mem_singleton_self node, rfl⟩
    · exact hcovers.declarations hget
  · rcases Table.of_get?_insertIfNew hget with ⟨rfl, rfl⟩ | hget
    · exact congrArg (·.origin) hown
    · exact hcovers.originals hget

theorem pushMember_notes (h : s.Closed known) {members : List SymbolId}
    (hmembers : ∀ member ∈ members, s.HasMember member) {id : SymbolId} (hid : s.HasMember id) :
    Notes known s (s.pushMember members id) fun members s' => ∀ member ∈ members, s'.HasMember member := by
  unfold pushMember
  split
  · rename_i method hmethod
    have hfound := List.find?_some hmethod
    simp only [Bool.and_eq_true, beq_iff_eq] at hfound
    have hnoted := addDeclaration_noted h (h.symbol id hid.has).declarations
      (hfound.1.2 ▸ hfound.2 ▸ (h.symbol id hid.has).fits)
    exact ⟨hnoted, fun member hmember => hnoted.quiet.hasMember (hmembers member hmember)⟩
  · refine ⟨.refl h, fun member hmember => ?_⟩
    rcases List.mem_append.mp hmember with hmember | hmember
    · exact hmembers member hmember
    · exact List.mem_singleton.mp hmember ▸ hid

theorem pushMembers_notes : ∀ {s : Facts} (added : List SymbolId) {members : List SymbolId},
    s.Closed known → (∀ member ∈ members, s.HasMember member) → (∀ id ∈ added, s.HasMember id) →
      Notes known s (s.pushMembers members added) fun members s' => ∀ member ∈ members, s'.HasMember member
  | s, [], _, h, hmembers, _ => ⟨.refl h, hmembers⟩
  | s, id :: rest, members, h, hmembers, hadded => by
    obtain ⟨hnoted, hpushed⟩ := pushMember_notes h hmembers (hadded id List.mem_cons_self)
    exact (pushMembers_notes rest hnoted.closed hpushed fun id hid =>
      hnoted.quiet.hasMember (hadded id (List.mem_cons_of_mem _ hid))).after hnoted.quiet

theorem declareMember_notes (h : s.Closed known) {kind : SymbolKind} (isOptional : Bool) {node : Node}
    (hkind : kind.OfMember node) (hnode : DeclaresMember known node) {table : MemberTable} (htable : table.Closed s) :
    Notes known s (s.declareMember kind isOptional node table) fun table s' =>
      table.Closed s' ∧ (s'.declared? node).isSome = true := by
  obtain ⟨hadded, hid, hdeclared⟩ := addNamedMember_notes h (node.declaredName?.getD "") isOptional hkind hnode
  have htable := htable.mono hadded.quiet.toExtends
  obtain ⟨hpushed, hmembers⟩ := pushMember_notes hadded.closed htable.members hid
  exact ⟨hadded.trans hpushed, ⟨hmembers, (htable.mono hpushed.quiet.toExtends).stringIndex⟩,
    hpushed.quiet.isSome_declared? hdeclared⟩

theorem mem_setMember {members : List SymbolId} {id member : SymbolId} (h : member ∈ s.setMember members id) :
    member ∈ members ∨ member = id := by
  unfold setMember at h
  dsimp only at h
  split at h
  · exact List.mem_or_eq_of_mem_set h
  · rcases List.mem_append.mp h with h | h
    · exact .inl h
    · exact .inr (List.mem_singleton.mp h)

theorem mem_foldl_setMember {added members : List SymbolId} {member : SymbolId}
    (h : member ∈ added.foldl s.setMember members) : member ∈ members ∨ member ∈ added := by
  induction added generalizing members with
  | nil => exact .inl h
  | cons id rest ih =>
    rcases ih h with h | h
    · rcases mem_setMember h with h | rfl
      · exact .inl h
      · exact .inr List.mem_cons_self
    · exact .inr (List.mem_cons_of_mem _ h)

theorem mem_inheritMembers {inherited members : List SymbolId} {member : SymbolId}
    (h : member ∈ s.inheritMembers inherited members) : member ∈ members ∨ member ∈ inherited := by
  unfold inheritMembers at h
  induction inherited generalizing members with
  | nil => exact .inl h
  | cons id rest ih =>
    rw [List.foldl_cons] at h
    rcases ih h with h | h
    · split at h
      · exact .inl h
      · rcases List.mem_append.mp h with h | h
        · exact .inl h
        · exact .inr (List.mem_singleton.mp h ▸ List.mem_cons_self)
    · exact .inr (List.mem_cons_of_mem _ h)

/-! ## Signatures -/

theorem signatureOf_notes (h : s.Closed known) {node : Node} (hnode : Declares known node) :
    Notes known s (s.signatureOf node) fun id s' =>
      s'.HasSignature id ∧ s'.declaredSignatures.get? node.id = some id := by
  unfold signatureOf
  split
  · rename_i id hid
    exact ⟨.refl h, (h.declaredSignatures hid).1, hid⟩
  · rename_i hnone
    have hsignature : Signature.Closed known s
        { typeParams := s.declaredIn node .typeParamList
          params := s.declaredIn node .paramList
          declaration := some node
          returns := none
          origin := none
          instanceOf := none } :=
      { typeParams := h.declaredIn node .typeParamList
        params := h.declaredIn node .paramList
        declaration := fun own hown => by cases hown; exact hnode
        returns := fun id hid => by cases hid
        origin := fun horigin => by cases horigin
        instanceOf := fun id hid => by cases hid }
    obtain ⟨hnoted, hid, hadded⟩ := addSignature_notes h hsignature
    refine ⟨hnoted.then_same { Quiet.refl _ with
      declaredSignatures := fun hget => Table.get?_insert_of_some hnone hget
      answered := fun hget hreturns => ?_ } fun hcovers => { hcovers with
        declaredSignatures := fun hget => ?_
        written := fun hget => ?_ }, hid, Table.get?_insert_self _ _ _⟩
    · rcases Table.of_get?_insert hget with ⟨-, rfl⟩ | hget
      · cases (congrArg (·.returns) hadded).symm.trans hreturns
      · exact ⟨hget, hreturns⟩
    · rcases Table.of_get?_insert hget with ⟨rfl, rfl⟩ | hget
      · exact ⟨hid, node, hnode.known, rfl, s, { hnoted.quiet.toExtends with }, congrArg (·.params) hadded⟩
      · exact hcovers.declaredSignatures hget
    · rcases Table.of_get?_insert hget with ⟨rfl, rfl⟩ | hget
      · exact ⟨node, hnode.known, rfl, congrArg (·.declaration) hadded, congrArg (·.origin) hadded, fun _ =>
          congrArg (·.instanceOf) hadded⟩
      · exact hcovers.written hget

/-! ## Copies -/

/-- A copy of a symbol is of its kind. -/
theorem copySymbol_notes (h : s.Closed known) {substitution : SubstitutionId}
    (hsubstitution : s.HasSubstitution substitution) {id : SymbolId} (hid : s.HasSymbol id) :
    Notes known s (s.copySymbol substitution id) fun copy s' =>
      s'.HasSymbol copy ∧ (s'.symbol copy).kind = (s.symbol id).kind := by
  unfold copySymbol
  split
  · rename_i copy hcopy
    obtain ⟨-, hcopy, hkind⟩ := h.substitutedSymbols hcopy
    exact ⟨.refl h, hcopy, hkind⟩
  · have hsymbol : Symbol.Closed known s { s.symbol id with origin := some (id, substitution) } :=
      { h.symbol id hid with origin := fun horigin => by cases horigin; exact ⟨hid, hsubstitution⟩ }
    obtain ⟨hnoted, hcopy, hadded⟩ := addSymbol_notes h hsymbol
    generalize s.addSymbol { s.symbol id with origin := some (id, substitution) } = result at *
    obtain ⟨copy, s'⟩ := result
    have hkind : (s'.symbol copy).kind = (s.symbol id).kind := by rw [hadded]
    refine ⟨hnoted.then_same { Quiet.refl _ with } fun hcovers =>
      { hcovers with substitutedSymbols := fun {other substitution' found} hget => ?_ }, hcopy, hkind⟩
    rw [Table.get?_insert] at hget
    split at hget
    · rename_i heq
      cases heq
      cases hget
      exact ⟨hnoted.quiet.hasSymbol hid, hcopy, hkind.trans (hnoted.quiet.kind hid).symm⟩
    · exact hcovers.substitutedSymbols hget

theorem copyMember_notes (h : s.Closed known) {substitution : SubstitutionId}
    (hsubstitution : s.HasSubstitution substitution) {id : SymbolId} (hid : s.HasMember id) :
    Notes known s (s.copySymbol substitution id) fun copy s' => s'.HasMember copy :=
  (copySymbol_notes h hsubstitution hid.has).mono fun copy s' _ hcopy =>
    ⟨hcopy.1, by rw [hcopy.2]; exact hid.kind⟩

theorem copySignature_notes (h : s.Closed known) {substitution : SubstitutionId}
    (hsubstitution : s.HasSubstitution substitution) {id : SignatureId} (hid : s.HasSignature id) :
    Notes known s (s.copySignature substitution id) fun copy s' => s'.HasSignature copy := by
  unfold copySignature
  split
  · rename_i copy hcopy
    exact ⟨.refl h, h.substitutedSignatures _ copy hcopy⟩
  · have hgeneric := h.signature id hid
    have hparams := each_notes (copySymbol substitution) stable_hasSymbol (s.signature id).params h
      fun param hparam s' h' hstep =>
        (copySymbol_notes h' (hstep.hasSubstitution hsubstitution)
          (hstep.hasSymbol (hgeneric.params param hparam))).mono fun _ _ _ hcopy => hcopy.1
    dsimp only
    generalize each (copySymbol substitution) (s.signature id).params s = result at hparams
    obtain ⟨params, s'⟩ := result
    obtain ⟨hcopied, hparams⟩ := hparams
    have hgeneric := hgeneric.mono hcopied.quiet.toExtends
    have hcopy : Signature.Closed known s' { s.signature id with
        typeParams := (s.signature id).typeParams.filter
          (!(s.substitution substitution).params.contains ·)
        params := params
        returns := none
        origin := some (id, substitution) } :=
      { typeParams := fun param hparam => hgeneric.typeParams param (List.mem_of_mem_filter hparam)
        params := hparams
        declaration := hgeneric.declaration
        returns := fun type htype => by cases htype
        origin := fun horigin => by
          cases horigin
          exact ⟨hcopied.quiet.hasSignature hid, hcopied.quiet.hasSubstitution hsubstitution⟩
        instanceOf := hgeneric.instanceOf }
    obtain ⟨hnoted, hid, -⟩ := addSignature_notes hcopied.closed hcopy
    exact ⟨(hcopied.trans hnoted).then_same { Quiet.refl _ with } fun hcovers =>
      { hcovers with substitutedSignatures := hcovers.substitutedSignatures.insert hid }, hid⟩

theorem copyMembers_notes (h : s.Closed known) {substitution : SubstitutionId}
    (hsubstitution : s.HasSubstitution substitution) {members : List SymbolId}
    (hmembers : ∀ id ∈ members, s.HasMember id) :
    Notes known s (each (copySymbol substitution) members s)
      fun copies s' => ∀ copy ∈ copies, s'.HasMember copy :=
  each_notes _ stable_hasMember members h fun id hid _ h' hstep =>
    copyMember_notes h' (hstep.hasSubstitution hsubstitution) (hstep.hasMember (hmembers id hid))

theorem copySignatures_notes (h : s.Closed known) {substitution : SubstitutionId}
    (hsubstitution : s.HasSubstitution substitution) {signatures : List SignatureId}
    (hsignatures : ∀ id ∈ signatures, s.HasSignature id) :
    Notes known s (each (copySignature substitution) signatures s)
      fun copies s' => ∀ copy ∈ copies, s'.HasSignature copy :=
  each_notes _ stable_hasSignature signatures h fun id hid _ h' hstep =>
    copySignature_notes h' (hstep.hasSubstitution hsubstitution)
      (hstep.hasSignature (hsignatures id hid))

theorem setSubstituted_noted (h : s.Closed known) (type : TypeId) (substitution : SubstitutionId)
    {result : TypeId} (hresult : s.HasType result) :
    Noted known s (s.setSubstituted type substitution result) :=
  (Noted.refl h).then_same { Quiet.refl _ with } fun hcovers =>
    { hcovers with substitutedTypes := hcovers.substitutedTypes.insert hresult }

end Facts

end RouteTypes
