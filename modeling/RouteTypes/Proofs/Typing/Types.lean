-- Questions about types: what a declaration names, what a type expression writes, what a substitution
-- makes of a type, and which members a type has. They never lead to a question about a value, so nothing
-- is noted about expressions on the way; and a type that has its members never changes.
import RouteTypes.Proofs.Typing.Noting

namespace RouteTypes

open Facts (quiet)

variable {known : Node → Prop} {s : Facts}

namespace Check

/-! ## Noting as a step -/

theorem Obeys.notes {α : Type} {note : Facts → α × Facts} {post : α → Facts → Prop}
    (h : s.Closed known → Facts.Notes known s (note s) post) :
    Obeys (quiet known) s (modifyGet note) post :=
  .modifyGet fun hs => ⟨(h hs).closed, (h hs).quiet, (h hs).post⟩

theorem Obeys.noted {note : Facts → Facts} (h : s.Closed known → Facts.Noted known s (note s)) :
    Obeys (quiet known) s (modify note) fun _ _ => True :=
  .modify fun hs => ⟨(h hs).closed, (h hs).quiet, trivial⟩

/-- What is noted counts together with what has been noted since the start. -/
theorem ObeysSince.noted {α : Type} {start : Facts} {note : Facts → Facts} {check : Check α}
    {post : α → Facts → Prop} (h : Facts.Noted known start s → Facts.Noted known start (note s))
    (hcheck : ObeysSince (quiet known) start (note s) check post) :
    ObeysSince (quiet known) start s (modify note >>= fun _ => check) post :=
  .modify (fun hs hstart => ⟨(h ⟨hs, hstart⟩).closed, (h ⟨hs, hstart⟩).quiet⟩) fun _ _ => hcheck

/-- A type that is there answers something. -/
theorem Obeys.answer {type : TypeId} (h : s.Closed known → s.HasType type) :
    Obeys (quiet known) s (pure type) fun type s => s.HasType type :=
  .pure h

/-- The last step of building an object type, which is new or gets its members now. -/
theorem ObeysSince.fill {start : Facts} {id : TypeId} {object : ObjectType}
    (change : ObjectType → ObjectType) (hid : s.HasType id) (hobject : s.typeData id = .object object)
    (hchange : (change object).Closed s) (hsymbol : (change object).symbol = object.symbol)
    (hparams : (change object).typeParams = object.typeParams)
    (hgrows : start.HasType id → ∃ before members stringIndex, start.typeData id = .object before ∧
      before.hasMembers = false ∧ change object = { before with members, stringIndex, hasMembers := true }) :
    ObeysSince (quiet known) start s (modify (Facts.modifyObject id change) >>= fun _ => pure id)
      fun answer s' => answer = id ∧ s'.HasType id ∧ s'.typeData id = .object (change object) ∧
        s'.declaredTypes = s.declaredTypes := by
  have hnoted : s.Closed known → start.Quiet known s → _ := fun hs hstart =>
    Facts.modifyObject_noted change hs hstart hobject hid hchange hsymbol hparams hgrows
  exact .modify (fun hs hstart => ⟨(hnoted hs hstart).1.closed, (hnoted hs hstart).1.quiet⟩)
    fun hs hstart => .ofObeys (.pure fun _ => ⟨rfl, (hnoted hs hstart).2.1, (hnoted hs hstart).2.2, rfl⟩)

/-- A reference without members is noted to have some. -/
theorem Obeys.begun {id : TypeId} {object : ObjectType} (hid : s.HasType id)
    (hobject : s.typeData id = .object object) (hnone : object.hasMembers = false)
    (hclosed : object.Closed s) :
    Obeys (quiet known) s (modify (Facts.modifyObject id ({ · with hasMembers := true })))
      fun _ s => s.HasType id ∧ s.typeData id = .object { object with hasMembers := true } :=
  .modify fun hs => by
    obtain ⟨hnoted, hfilled⟩ := Facts.modifyObject_noted ({ · with hasMembers := true }) hs (.refl s)
      hobject hid { hclosed with unfilled := fun hfalse => by cases hfalse } rfl rfl
      fun _ => ⟨object, object.members, object.stringIndex, hobject, hnone, rfl⟩
    exact ⟨hnoted.closed, hnoted.quiet, hfilled⟩

/-! ## The questions -/

/-- How questions about types are answered. -/
structure AnswersTypes (known : Node → Prop) (ask : Ask) : Prop where
  declared : ∀ {s symbol}, s.HasSymbol symbol →
    Obeys (quiet known) s (ask (.declared symbol)) fun type s => s.Denotes symbol type
  written : ∀ {s node}, known node →
    Obeys (quiet known) s (ask (.written node)) fun type s =>
      s.HasType type ∧ s.writtenTypes.get? node.id = some type
  substituted : ∀ {s type substitution}, s.HasType type → s.HasSubstitution substitution →
    Obeys (quiet known) s (ask (.substituted type substitution)) fun type s => s.HasType type
  members : ∀ {s type}, s.HasType type →
    Obeys (quiet known) s (ask (.members type)) fun answer s => answer = type ∧ s.HasType type ∧
      ∀ object, s.typeData type = .object object → object.hasMembers = true

section

variable {ask : Ask} (hask : AnswersTypes known ask)

include hask

/-! ## Common steps -/

/-- The type that a symbol names is there. -/
theorem declaredAt_obeys {symbol : SymbolId} (hsymbol : s.HasSymbol symbol) :
    Obeys (quiet known) s (ask (.declared symbol)) fun type s => s.HasType type :=
  (hask.declared hsymbol).mono fun _ _ _ _ h => h.has

/-- The type of a type expression is there. -/
theorem writtenAt_obeys {node : Node} (hnode : known node) :
    Obeys (quiet known) s (ask (.written node)) fun type s => s.HasType type :=
  (hask.written hnode).mono fun _ _ _ _ h => h.1

theorem writtenType_obeys {node : Option Node} (hnode : ∀ type ∈ node, known type) :
    Obeys (quiet known) s (writtenType ask node) fun type s => s.HasType type := by
  unfold writtenType ifThere
  cases node with
  | none => exact .answer fun hs => hs.hasType_any
  | some type => exact writtenAt_obeys hask (hnode type rfl)

/-- All types of a list of type expressions. -/
theorem writtenAll_obeys {nodes : List Node} (hnodes : ∀ node ∈ nodes, known node) :
    Obeys (quiet known) s (nodes.mapM fun node => ask (.written node))
      fun types s => ∀ type ∈ types, s.HasType type :=
  .mapM Facts.stable_hasType nodes fun node hnode _ _ _ => writtenAt_obeys hask (hnodes node hnode)

theorem typeNamedBy_obeys (declaration : Option Node) :
    Obeys (quiet known) s (typeNamedBy ask declaration) fun type s => s.HasType type := by
  refine .get fun hs => ?_
  split
  · rename_i symbol hsymbol
    obtain ⟨node, -, hdeclared⟩ := Option.bind_eq_some_iff.mp hsymbol
    exact declaredAt_obeys hask (hs.declared? hdeclared)
  · exact .answer fun hs => hs.hasType_any

/-- The members of a type are those that it has from now on. -/
theorem membersOf_obeys {type : TypeId} (htype : s.HasType type) :
    Obeys (quiet known) s (membersOf ask type) fun members s =>
      members = s.membersOf type ∧ s.HasType type ∧
        ∀ object, s.typeData type = .object object → object.hasMembers = true := by
  refine .bind (hask.members htype) fun answer s' _ _ hanswer => ?_
  obtain ⟨rfl, hin, hfilled⟩ := hanswer
  exact .get fun _ => .pure fun _ => ⟨rfl, hin, hfilled⟩

theorem callsOf_obeys {type : TypeId} (htype : s.HasType type) :
    Obeys (quiet known) s (callsOf ask type) fun calls s => ∀ call ∈ calls, s.HasSignature call := by
  refine .bind (hask.members htype) fun answer s' _ _ _ => ?_
  exact .get fun hs => .pure fun _ => hs.callsOf answer

theorem applied_obeys {generic : Option SymbolId} (hgeneric : ∀ symbol ∈ generic, s.HasSymbol symbol)
    (hone : s.Regular → ∀ symbol ∈ generic, s.HasSymbol symbol → s.TakesOne symbol) {arg : TypeId}
    (harg : s.HasType arg) :
    Obeys (quiet known) s (applied ask generic arg) fun type s => s.HasType type ∧ s.Applies generic arg type := by
  unfold applied
  cases generic with
  | none => exact .pure fun hs => ⟨hs.hasType_any, fun _ hsymbol => by cases hsymbol⟩
  | some symbol =>
    have hsymbol := hgeneric symbol rfl
    refine .bind (hask.declared hsymbol) fun type s' _ hstep htype => .notes fun hs => ?_
    have hargs : ∀ other ∈ [arg], s'.HasType other := List.forall_mem_singleton.mpr (hstep.hasType harg)
    have hsuits : s'.Suits type [arg].length := htype.suits_one hs fun hregular =>
      (hstep.takesOne_iff hsymbol).mpr (hone (hstep.regular hregular) symbol rfl hsymbol)
    refine (Facts.reference_refers hs htype.has hargs hsuits).mono fun found s'' hstep' h =>
      ⟨h.1, fun _ hsome hkind => ?_⟩
    obtain rfl := Option.some_inj.mp hsome
    rw [hstep'.kind (hstep.hasSymbol hsymbol)] at hkind
    exact ⟨type, hstep'.declaredTypes (htype.noted hkind), h.2⟩

theorem arrayOf_obeys {element : TypeId} (helement : s.HasType element) :
    Obeys (quiet known) s (arrayOf ask element) fun type s => s.HasType type :=
  .get fun hs => (applied_obeys hask hs.arraySymbol (·.array) helement).mono fun _ _ _ _ h => h.1

theorem promiseOf_obeys {type : TypeId} (htype : s.HasType type) :
    Obeys (quiet known) s (promiseOf ask type) fun promise s =>
      s.HasType promise ∧ s.Applies s.promiseSymbol type promise :=
  .get fun hs => (applied_obeys hask hs.promiseSymbol (·.promise) htype).mono fun _ _ _ hstep h =>
    ⟨h.1, hstep.promiseSymbol ▸ h.2⟩

omit hask in
/-- The type of a function: an object type that can be called with the signatures of its declarations. -/
theorem functionType_obeys {declarations : List Node}
    (hdeclarations : ∀ node ∈ declarations, Declares known node) :
    Obeys (quiet known) s (functionType declarations) fun type s => s.HasType type ∧ ∃ calls,
      declarations.map (fun node => s.declaredSignatures.get? node.id) = calls.map some ∧
        s.typeData type = .object { ObjectType.bare .anonymous none with calls } := by
  refine .bind (.notes fun hs => Facts.each_notes_map Facts.signatureOf (fun s node => s.declaredSignatures.get? node.id)
    (fun hstep hget => hstep.declaredSignatures hget) declarations hs fun node hnode s' hs' _ =>
      (Facts.signatureOf_notes hs' (hdeclarations node hnode)).mono fun _ _ _ h => h.2)
    fun calls s' hs' _ hcalls => .notes fun hs => ?_
  have hhas : ∀ call ∈ calls, s'.HasSignature call := fun call hcall => by
    obtain ⟨node, -, hget⟩ := List.mem_map.mp (hcalls ▸ List.mem_map_of_mem hcall : some call ∈ List.map _ declarations)
    exact (hs'.declaredSignatures hget).1
  refine (Facts.addType_notes hs (.object _) rfl (.ofCalls hhas)).mono fun type s'' hstep hadded =>
    ⟨hadded.1, calls, ?_, hadded.2.1⟩
  rw [← hcalls]
  refine List.map_congr_left fun node hnode => ?_
  obtain ⟨call, -, hcall⟩ := List.mem_map.mp (hcalls ▸ List.mem_map_of_mem hnode)
  rw [← hcall]
  exact hstep.declaredSignatures hcall.symm

omit hask in
theorem functionType_one_obeys {node : Node} (hnode : Declares known node) :
    Obeys (quiet known) s (functionType [node]) fun type s => s.HasType type ∧ ∃ signature,
      s.declaredSignatures.get? node.id = some signature ∧
        s.typeData type = .object { ObjectType.bare .anonymous none with calls := [signature] } := by
  refine (functionType_obeys (List.forall_mem_singleton.mpr hnode)).mono fun type s' _ _ h => ?_
  obtain ⟨htype, calls, hcalls, hdata⟩ := h
  obtain ⟨signature, rest, rfl, hsignature, hrest⟩ := List.map_eq_cons_iff.mp hcalls.symm
  obtain rfl := List.map_eq_nil_iff.mp hrest
  exact ⟨htype, signature, hsignature.symm, hdata⟩

/-! ## Substitution -/

theorem substitutedAll_obeys {types : List TypeId} (htypes : ∀ type ∈ types, s.HasType type)
    {substitution : SubstitutionId} (hsubstitution : s.HasSubstitution substitution) :
    Obeys (quiet known) s (types.mapM fun type => ask (.substituted type substitution))
      fun types s => ∀ type ∈ types, s.HasType type :=
  .mapM Facts.stable_hasType types fun type htype _ _ hstep =>
    hask.substituted (hstep.hasType (htypes type htype)) (hstep.hasSubstitution hsubstitution)

/-- The copy of a type that may be there. -/
theorem substitutedIndex_obeys {index : Option TypeId} (hindex : ∀ type ∈ index, s.HasType type)
    {substitution : SubstitutionId} (hsubstitution : s.HasSubstitution substitution) :
    Obeys (quiet known) s (index.mapM fun index => ask (.substituted index substitution))
      fun index s => ∀ type ∈ index, s.HasType type := by
  cases index with
  | none => exact .pure fun _ type htype => by cases htype
  | some type =>
    rw [Option.mapM_some]
    exact .map (hask.substituted (hindex type rfl) hsubstitution) fun copy _ _ hcopy type htype => by
      cases htype
      exact hcopy

theorem substituteInObject_obeys {type : TypeId} {object : ObjectType} (hobject : object.Closed s)
    (hkind : object.kind = .anonymous ∨ object.kind = .constructor) {substitution : SubstitutionId}
    (hsubstitution : s.HasSubstitution substitution) :
    Obeys (quiet known) s (substituteInObject ask type object substitution)
      fun type s => s.HasType type := by
  have hplain := hobject.plain hkind
  replace hkind : object.kind ≠ .reference := by
    rcases hkind with hkind | hkind <;> rw [hkind] <;> decide
  have hbare : (ObjectType.bare object.kind object.symbol).hasMembers = true := bne_iff_ne.mpr hkind
  refine ObeysSince.obeys (.bind (.notes fun hs => Facts.addType_notes hs (.object _) rfl
    (.bare object.kind object.symbol hkind hobject.symbol)) fun copy s₁ _ hstep₁ hadded => ?_)
  obtain ⟨hcopy, hdata, hnew⟩ := hadded
  have hobject := hobject.mono hstep₁.toExtends
  have hsubstitution := hstep₁.hasSubstitution hsubstitution
  refine .bind (.noted fun hs => Facts.setSubstituted_noted hs type substitution hcopy)
    fun _ s₂ _ hstep₂ _ => ?_
  refine .bind (.notes fun hs => Facts.copyMembers_notes hs (hstep₂.hasSubstitution hsubstitution)
    fun id hid => hstep₂.hasMember (hobject.members id hid)) fun members s₃ _ hstep₃ hmembers => ?_
  have hstep₃ := hstep₂.trans hstep₃
  refine .bind (.notes fun hs => Facts.copySignatures_notes hs (hstep₃.hasSubstitution hsubstitution)
    fun id hid => hstep₃.hasSignature (hobject.calls id hid)) fun calls s₄ _ hstep₄ hcalls => ?_
  have hmembers : ∀ id ∈ members, s₄.HasMember id := fun id hid => hstep₄.hasMember (hmembers id hid)
  have hstep₄ := hstep₃.trans hstep₄
  refine .bind (.notes fun hs => Facts.copySignatures_notes hs (hstep₄.hasSubstitution hsubstitution)
    fun id hid => hstep₄.hasSignature (hobject.constructs id hid)) fun constructs s₅ _ hstep₅ hconstructs => ?_
  have hmembers : ∀ id ∈ members, s₅.HasMember id := fun id hid => hstep₅.hasMember (hmembers id hid)
  have hcalls : ∀ id ∈ calls, s₅.HasSignature id := fun id hid => hstep₅.hasSignature (hcalls id hid)
  have hstep₅ := hstep₄.trans hstep₅
  refine .bind (substitutedIndex_obeys hask (fun id hid => hstep₅.hasType (hobject.stringIndex id hid))
    (hstep₅.hasSubstitution hsubstitution)) fun stringIndex s₆ _ hstep₆ hindex => ?_
  have hstep := hstep₅.trans hstep₆
  -- The copy is new, so it may be given its parts although it was noted before.
  refine .mono (.fill _ (hstep.hasType hcopy) (hstep.object_eq hcopy hdata hbare) ?_ rfl hplain
    fun hold => absurd hold hnew) fun _ _ _ _ hfilled => hfilled.1 ▸ hfilled.2.1
  exact { ObjectType.Closed.bare object.kind object.symbol hkind
      (fun id hid => hstep.hasSymbol (hobject.symbol id hid)) with
    members := fun id hid => hstep₆.hasMember (hmembers id hid)
    calls := fun id hid => hstep₆.hasSignature (hcalls id hid)
    constructs := fun id hid => hstep₆.hasSignature (hconstructs id hid)
    stringIndex := hindex
    typeParams := fun id hid => hstep.hasSymbol (hobject.typeParams id hid)
    arity := (hobject.mono hstep.toExtends).arity
    plain := fun _ => hplain
    own := fun _ hsome => absurd hplain hsome }

/-- A generic class or interface with what the substitution puts for its own type parameters. -/
theorem substituteParams_obeys {type : TypeId} (htype : s.HasType type) {params : List SymbolId}
    (hparams : ∀ param ∈ params, s.HasSymbol param) (hsuits : s.Suits type params.length)
    {substitution : SubstitutionId} (hsubstitution : s.HasSubstitution substitution) :
    Obeys (quiet known) s (do
      let args ← params.mapM fun param => do
        ask (.substituted (← modifyGet (Facts.paramType param)) substitution)
      modifyGet (Facts.reference type args)) fun type s => s.HasType type := by
  refine .given fun hs => .bind (.counted (.mapM Facts.stable_hasType params fun param hparam s₁ _ hstep₁ => ?_))
    fun args s' _ hstep hargs => .notes fun hs' =>
      Facts.reference_notes hs' (hstep.hasType htype) hargs.2 (hargs.1 ▸ hsuits.mono hs htype hstep.toGrows)
  refine .bind (.notes fun hs => Facts.paramType_notes hs (hstep₁.hasSymbol (hparams param hparam)))
    fun own s₂ _ hstep₂ hown => ?_
  exact hask.substituted hown.1 ((hstep₁.trans hstep₂).hasSubstitution hsubstitution)

theorem substitute_obeys {type : TypeId} (htype : s.HasType type) {substitution : SubstitutionId}
    (hsubstitution : s.HasSubstitution substitution) :
    Obeys (quiet known) s (substitute ask type substitution) fun type s => s.HasType type := by
  refine .get fun hs => ?_
  have hdata := hs.typeData type htype
  split
  · rename_i param _
    refine .get fun hs => .answer fun _ => ?_
    cases hget : (s.substitution substitution).get? param with
    | none => exact htype
    | some put => exact hs.substitution_get? hsubstitution hget
  · rename_i members hmembers
    rw [hmembers] at hdata
    exact .bind (substitutedAll_obeys hask hdata hsubstitution) fun types s' _ _ htypes =>
      .notes fun hs => Facts.union_notes hs htypes
  · rename_i object hobject
    rw [hobject] at hdata
    replace hdata : object.Closed s := hdata
    have hobject : s.object? type = some object := by rw [Facts.object?, hobject]; rfl
    split
    · rename_i hkind
      refine .bind (.counted (substitutedAll_obeys hask hdata.typeArguments hsubstitution))
        fun args s' _ hstep hargs => ?_
      split
      · rename_i target htarget
        have hin := hdata.target target htarget
        split
        · exact .answer fun _ => hstep.hasType htype
        · exact .notes fun hs' => Facts.reference_notes hs' (hstep.hasType hin) hargs.2
            (hargs.1 ▸ (hs.suits_target hobject hkind htarget).mono hs hin hstep.toGrows)
      · exact .answer fun _ => hstep.hasType htype
    · split
      · exact .answer fun _ => htype
      · exact substituteParams_obeys hask htype hdata.typeParams (hs.suits_own hobject) hsubstitution
    · split
      · exact .answer fun _ => htype
      · exact substituteParams_obeys hask htype hdata.typeParams (hs.suits_own hobject) hsubstitution
    · rename_i hkind
      exact substituteInObject_obeys hask hdata (.inl hkind) hsubstitution
    · rename_i hkind
      exact substituteInObject_obeys hask hdata (.inr hkind) hsubstitution
  · exact .answer fun _ => htype

theorem substituted_obeys {type : TypeId} (htype : s.HasType type) {substitution : SubstitutionId}
    (hsubstitution : s.HasSubstitution substitution) :
    Obeys (quiet known) s (substituted ask type substitution) fun type s => s.HasType type := by
  refine .get fun hs => ?_
  split
  · rename_i result hresult
    exact .answer fun _ => hs.substitutedTypes _ result hresult
  · refine .bind (substitute_obeys hask htype hsubstitution) fun result s' _ _ hresult => ?_
    refine .bind (.noted fun hs => Facts.setSubstituted_noted hs type substitution hresult)
      fun _ s'' _ hstep _ => ?_
    exact .answer fun _ => hstep.hasType hresult

/-! ## Members of references -/

theorem fillMembers_obeys {type : TypeId} (htype : s.HasType type) :
    Obeys (quiet known) s (fillMembers ask type) fun answer s => answer = type ∧ s.HasType type ∧
      ∀ object, s.typeData type = .object object → object.hasMembers = true := by
  refine .get fun hs => ?_
  split
  · rename_i kind symbol members calls constructs stringIndex typeParams target args hobject
    have hclosed := hs.object hobject
    obtain ⟨-, hdata⟩ := Facts.object?_eq_some hobject
    refine ObeysSince.obeys (.bind (Obeys.begun htype hdata rfl hclosed) fun _ s₁ hs₁ hstep₁ hbegun => ?_)
    obtain ⟨hin, hdata₁⟩ := hbegun
    have htarget := hstep₁.hasType (hclosed.target target rfl)
    have hclosed₁ := hclosed.mono hstep₁.toExtends
    refine .get fun _ => .bind (.notes fun hs => Facts.shareSubstitution_notes hs (hs₁.typeParamsOf target)
      hclosed₁.typeArguments fun hregular => hclosed₁.even hregular target rfl)
      fun substitution s₂ _ hstep₂ hshared => ?_
    refine .get fun hs₂ => .bind (.notes fun hs => Facts.copyMembers_notes hs hshared (hs₂.membersOf target))
      fun copies s₃ _ hstep₃ hcopies => ?_
    refine .get fun hs₃ => .bind (substitutedIndex_obeys hask (hs₃.stringIndexOf target)
      (hstep₃.hasSubstitution hshared)) fun index s₄ _ hstep₄ hindex => ?_
    have hstep := hstep₂.trans (hstep₃.trans hstep₄)
    have hdata₄ := hstep.object_eq hin hdata₁ rfl
    refine .mono (.fill _ (hstep.hasType hin) hdata₄ ?_ rfl rfl fun _ => ⟨_, copies, index, hdata, rfl, rfl⟩)
      fun _ s₅ _ _ hfilled => ⟨hfilled.1, hfilled.2.1, fun object hobject => ?_⟩
    · have hclosed₄ := hclosed₁.mono hstep.toExtends
      exact { hclosed₄ with
        members := fun id hid => hstep₄.hasMember (hcopies id hid)
        stringIndex := hindex
        unfilled := fun hnone => by cases hnone }
    · rw [hfilled.2.2.1] at hobject
      cases hobject
      rfl
  · rename_i hnone
    refine .pure fun _ => ⟨rfl, htype, fun object hobject => ?_⟩
    have hclosed : object.Closed s := hs.object (by rw [Facts.object?, hobject]; rfl)
    by_contra hfalse
    have hmembers : object.hasMembers = false := eq_false_of_ne_true hfalse
    obtain ⟨target, htarget⟩ := Option.isSome_iff_exists.mp (hclosed.unfilled hmembers)
    obtain ⟨kind, symbol, members, calls, constructs, stringIndex, typeParams, own, args, filled⟩ := object
    cases hmembers
    cases htarget
    exact hnone _ _ _ _ _ _ _ _ _ (by rw [Facts.object?, hobject]; rfl)

/-! ## Written types -/

section

variable (hnodes : Node.Closed known)

include hnodes

theorem indexMember_obeys {node : Node} (hnode : known node) {table : MemberTable}
    (htable : table.Closed s) :
    Obeys (quiet known) s (indexMember ask node table) fun table s => table.Closed s := by
  unfold indexMember
  split
  · rename_i type htype
    refine .bind (writtenAt_obeys hask (hnodes.ascribed? hnode type htype)) fun index s' _ hstep hindex => ?_
    exact .pure fun _ => ⟨fun id hid => hstep.hasMember (htable.members id hid),
      fun id hid => by cases hid; exact hindex⟩
  · exact .pure fun _ => htable

omit hask hnodes in
theorem declareMember_obeys {kind : SymbolKind} (isOptional : Bool) {node : Node} (hkind : kind.OfMember node)
    (hnode : DeclaresMember known node) {table : MemberTable} (htable : table.Closed s) :
    Obeys (quiet known) s (modifyGet (Facts.declareMember kind isOptional node table)) fun table s =>
      table.Closed s ∧ (s.declared? node).isSome = true :=
  .notes fun hs => Facts.declareMember_notes hs isOptional hkind hnode htable

theorem typeMember_obeys {node : Node} (hnode : known node) {table : MemberTable}
    (htable : table.Closed s) :
    Obeys (quiet known) s (typeMember ask table node) fun table s => table.Closed s := by
  unfold typeMember
  split
  · rename_i hkind
    exact (declareMember_obeys _ (.ofProperty (by rw [hkind]; decide)) (.ofKind hnode (by rw [hkind]; rfl))
      htable).mono fun _ _ _ _ h => h.1
  · rename_i hkind
    exact (declareMember_obeys _ (.ofMethod node) (.ofKind hnode (by rw [hkind]; rfl)) htable).mono
      fun _ _ _ _ h => h.1
  · exact indexMember_obeys hask hnodes hnode htable
  · exact .pure fun _ => htable

theorem objectType_obeys {node : Node} (hnode : known node) :
    Obeys (quiet known) s (objectType ask node) fun type s => s.HasType type := by
  refine .bind (.foldlM node.typeMembers (fun member hmember table s' _ _ htable =>
    typeMember_obeys hask hnodes (hnodes.childrenOf hnode member hmember) htable)
    fun _ => MemberTable.Closed.empty) fun table s' _ _ htable => .notes fun hs => ?_
  exact (Facts.addType_notes hs (.object _) rfl (ObjectType.Closed.ofTable htable)).mono fun _ _ _ h => h.1

theorem defaultOf_obeys {param : SymbolId} (hparam : s.HasSymbol param) :
    Obeys (quiet known) s (defaultOf ask param) fun type s => s.HasType type := by
  refine .get fun hs => writtenType_obeys hask fun type htype => ?_
  obtain ⟨node, hnode, htype⟩ := Option.bind_eq_some_iff.mp htype
  have hknown := (hs.declarations_head? hparam node hnode).known
  unfold Node.defaultType? at htype
  split at htype
  · exact hnodes.childrenOf hknown type (List.mem_of_getLast? htype)
  · cases htype

theorem fillArgs_obeys {params : List SymbolId} (hparams : ∀ param ∈ params, s.HasSymbol param)
    {args : List TypeId} (hargs : ∀ arg ∈ args, s.HasType arg) :
    Obeys (quiet known) s (fillArgs ask params args) fun filled s =>
      filled.length = params.length ∧ ∀ arg ∈ filled, s.HasType arg := by
  refine .bind (.counted (.mapM Facts.stable_hasType _ fun param hparam s' _ hstep =>
    defaultOf_obeys hask hnodes (hstep.hasSymbol (hparams param (List.mem_of_mem_drop hparam)))))
    fun defaults s' _ hstep hdefaults => .pure fun _ => ⟨?_, fun arg harg => ?_⟩
  · rw [List.length_append, hdefaults.1, List.length_take, List.length_drop]
    omega
  · rcases List.mem_append.mp harg with harg | harg
    · exact hstep.hasType (hargs arg (List.mem_of_mem_take harg))
    · exact hdefaults.2 arg harg

omit hnodes in
theorem aliasWith_obeys {symbol : SymbolId} (hsymbol : s.HasSymbol symbol) {params : List SymbolId}
    (hparams : ∀ param ∈ params, s.HasSymbol param) {args : List TypeId} (hargs : ∀ arg ∈ args, s.HasType arg)
    (hlength : args.length = params.length) :
    Obeys (quiet known) s (aliasWith ask symbol params args) fun type s => s.HasType type := by
  refine .get fun hs => ?_
  split
  · rename_i type htype
    exact .answer fun _ => hs.aliasInstances _ type htype
  · refine .bind (hask.declared hsymbol) fun generic s₁ _ hstep₁ hgeneric => ?_
    refine .bind (.notes fun hs => Facts.shareSubstitution_notes hs
      (fun param hparam => hstep₁.hasSymbol (hparams param hparam)) (fun arg harg => hstep₁.hasType (hargs arg harg))
      fun _ => hlength.symm) fun substitution s₂ _ hstep₂ hshared => ?_
    refine .bind (hask.substituted (hstep₂.hasType hgeneric.has) hshared) fun type s₃ _ _ htype => ?_
    refine .bind (.noted fun hs => (Facts.Noted.refl hs).then_same { Facts.Quiet.refl _ with }
      fun hcovers => { hcovers with aliasInstances := hcovers.aliasInstances.insert htype })
      fun _ s₄ _ hstep₄ _ => .answer fun _ => hstep₄.hasType htype

omit hask hnodes in
/-- A problem that is not about a name in an expression. -/
theorem report_obeys (node : Node) (span : Text.Span) {problem : Problem TypeId} (hproblem : problem.Closed s)
    (hother : ∀ name, problem ≠ .unresolvedName name) :
    Obeys (quiet known) s (report node span problem) fun _ _ => True :=
  .noted fun hs => Facts.report_noted hs node span hproblem fun name hname => absurd hname (hother name)

omit hask hnodes in
theorem checkArgCount_obeys (node : Node) (name : String) (span : Text.Span) (params : List SymbolId)
    (found : Nat) : Obeys (quiet known) s (checkArgCount node name span params found) fun _ _ => True := by
  refine .get fun hs => ?_
  dsimp only
  split
  · exact report_obeys node span trivial fun _ heq => by cases heq
  · exact .pure fun _ => trivial

theorem namedType_obeys (node : Node) (name : String) (span : Text.Span) {symbol : SymbolId}
    (hsymbol : s.HasSymbol symbol) {args : List TypeId} (hargs : ∀ arg ∈ args, s.HasType arg) :
    Obeys (quiet known) s (namedType ask node name span symbol args) fun type s => s.HasType type := by
  have hgeneric : (s.symbol symbol).kind = .classDecl ∨ (s.symbol symbol).kind = .interface → Obeys (quiet known) s (do
      let generic ← ask (.declared symbol)
      let params := (← get).declaredTypeParams symbol
      checkArgCount node name span params args.length
      if params.isEmpty then return generic
      else modifyGet (Facts.reference generic (← fillArgs ask params args)))
      fun type s => s.HasType type := by
    intro hkind
    refine .bind (hask.declared hsymbol) fun generic s₁ _ hstep₁ hnames => .get fun hs₁ => ?_
    have hparams := hs₁.declaredTypeParams symbol
    have hsuits := hnames.suits hs₁ (hstep₁.kind hsymbol ▸ hkind)
    refine .bind (checkArgCount_obeys node name span _ _) fun _ s₂ _ hstep₂ _ => ?_
    split
    · exact .answer fun _ => hstep₂.hasType hnames.has
    · refine .bind (fillArgs_obeys hask hnodes (fun param hparam => hstep₂.hasSymbol (hparams param hparam))
        fun arg harg => (hstep₁.trans hstep₂).hasType (hargs arg harg)) fun filled s₃ _ hstep₃ hfilled => ?_
      have hstep := hstep₂.trans hstep₃
      exact .notes fun hs => Facts.reference_notes hs (hstep.hasType hnames.has) hfilled.2
        (hfilled.1 ▸ hsuits.mono hs₁ hnames.has hstep.toGrows)
  refine .get fun hs => ?_
  split
  · exact declaredAt_obeys hask hsymbol
  · exact hgeneric (.inl ‹_›)
  · exact hgeneric (.inr ‹_›)
  · refine .get fun hs => .bind (checkArgCount_obeys node name span _ _) fun _ s₁ _ hstep₁ _ => ?_
    have hparams := hs.declaredTypeParams symbol
    split
    · exact declaredAt_obeys hask (hstep₁.hasSymbol hsymbol)
    · refine .bind (fillArgs_obeys hask hnodes (fun param hparam => hstep₁.hasSymbol (hparams param hparam))
        fun arg harg => hstep₁.hasType (hargs arg harg)) fun filled s₂ _ hstep₂ hfilled => ?_
      have hstep := hstep₁.trans hstep₂
      exact aliasWith_obeys hask (hstep.hasSymbol hsymbol) (fun param hparam => hstep.hasSymbol (hparams param hparam))
        hfilled.2 hfilled.1
  · exact .answer fun _ => hs.hasType_any

omit hask hnodes in
theorem hasType_ofWord? (hs : s.Closed known) {word : String} {type : TypeId}
    (h : TypeId.ofWord? word = some type) : s.HasType type := by
  unfold TypeId.ofWord? at h
  split at h <;> cases h <;> exact hs.hasType_primitive (by decide)

theorem referredType_obeys {node : Node} (hnode : known node) :
    Obeys (quiet known) s (referredType ask node) fun type s => s.HasType type := by
  unfold referredType
  dsimp only
  split
  · rename_i primitive hprimitive
    split at hprimitive
    · exact .answer fun hs => hasType_ofWord? hs hprimitive
    · cases hprimitive
  · refine .get fun hs => ?_
    split
    · exact .bind (report_obeys _ _ trivial fun _ heq => by cases heq) fun _ s' _ _ _ => .answer fun hs => hs.hasType_any
    · rename_i symbol hsymbol
      refine .bind (writtenAll_obeys hask (hnodes.map_childrenOf hnode)) fun args s₁ _ hstep hargs => ?_
      exact namedType_obeys hask hnodes node _ _ (hstep.hasSymbol (hs.lookup hsymbol)) hargs

omit hask hnodes in
theorem constantType_obeys (node : Node) :
    Obeys (quiet known) s (constantType node) fun type s => s.HasType type := by
  unfold constantType
  split
  · exact .answer fun hs => hs.hasType_any
  · split
    all_goals first
      | exact .notes fun hs => Facts.literalType_notes hs _
      | exact .answer fun hs => hs.hasType_any

theorem readType_obeys {node : Node} (hnode : known node) :
    Obeys (quiet known) s (readType ask node) fun type s => s.HasType type := by
  unfold readType
  split
  · exact referredType_obeys hask hnodes hnode
  · refine .bind (writtenType_obeys hask (hnodes.child? hnode)) fun element s' _ _ helement => ?_
    exact arrayOf_obeys hask helement
  · refine .bind (writtenAll_obeys hask (hnodes.childrenOf hnode)) fun types s' _ _ htypes => ?_
    exact .notes fun hs => Facts.union_notes hs htypes
  · exact objectType_obeys hask hnodes hnode
  · rename_i hkind
    have hdeclares : Declares known node := .ofKind hnode (by rw [hkind]; rfl)
    exact (functionType_one_obeys hdeclares).mono fun _ _ _ _ h => h.1
  · exact writtenType_obeys hask (hnodes.child? hnode)
  · exact typeNamedBy_obeys hask _
  · exact constantType_obeys node
  · split
    · exact .answer fun hs => hs.hasType_primitive (by decide)
    · exact .answer fun hs => hs.hasType_primitive (by decide)
    · exact .answer fun hs => hs.hasType_any
  · exact .answer fun hs => hs.hasType_any

theorem written_obeys {node : Node} (hnode : known node) :
    Obeys (quiet known) s (written ask node) fun type s =>
      s.HasType type ∧ s.writtenTypes.get? node.id = some type := by
  refine .get fun hs => ?_
  split
  · rename_i type htype
    exact .pure fun _ => ⟨hs.writtenTypes _ type htype, htype⟩
  · rename_i hnone
    refine ObeysSince.obeys (.bind (readType_obeys hask hnodes hnode) fun type s₁ _ _ htype => ?_)
    -- Reading the type may have led to the node itself, but nothing was noted for it in the beginning.
    exact .noted (fun hnoted => hnoted.thenWritten hnone htype)
      (.ofObeys (.pure fun _ => ⟨htype, Table.get?_insert_self _ _ _⟩))

/-! ## Declared types -/

/-- A method of a class that is not one of the class itself is declared when its instances are looked at. -/
theorem instanceMember_obeys {node : Node} (hnode : known node) {table : MemberTable}
    (htable : table.Closed s) :
    Obeys (quiet known) s (instanceMember ask table node) fun table s =>
      table.Closed s ∧ (node.isInstanceMethod = true → (s.declared? node).isSome = true) := by
  have hother : ∀ {check : Check MemberTable}, node.isInstanceMethod = false →
      Obeys (quiet known) s check (fun table s => table.Closed s) → Obeys (quiet known) s check fun table s =>
        table.Closed s ∧ (node.isInstanceMethod = true → (s.declared? node).isSome = true) := fun hno h =>
    h.mono fun _ _ _ _ hclosed => ⟨hclosed, fun hyes => by rw [hno] at hyes; cases hyes⟩
  have hkind : ∀ {kind : NodeKind}, node.kind = kind → kind ≠ .methodDecl → node.isInstanceMethod = false :=
    fun heq hne => Bool.and_eq_false_iff.mpr (.inl (beq_eq_false_iff_ne.mpr (heq ▸ hne)))
  unfold instanceMember
  split
  · rename_i heq
    refine hother (hkind heq (by decide)) ?_
    split
    · exact .pure fun _ => htable
    · exact (declareMember_obeys _ (.ofProperty (by rw [heq]; decide)) (.ofKind hnode (by rw [heq]; rfl))
        htable).mono fun _ _ _ _ h => h.1
  · rename_i heq
    split
    · rename_i hstatic
      refine hother (Bool.and_eq_false_iff.mpr (.inr ?_)) (.pure fun _ => htable)
      rw [hstatic]
      rfl
    · exact (declareMember_obeys _ (.ofMethod node) (.ofKind hnode (by rw [heq]; rfl)) htable).mono
        fun _ _ _ _ h => ⟨h.1, fun _ => h.2⟩
  · rename_i heq
    refine hother (hkind heq (by decide)) (.foldlM _ (fun param hparam table s' _ _ htable => ?_) fun _ => htable)
    have hparam : param ∈ node.params := List.mem_of_mem_filter hparam
    obtain ⟨-, -, -, hown⟩ := Node.exists_of_mem_params hparam
    exact (declareMember_obeys _ (.ofProperty (by rw [hown]; decide))
      (.ofConstructor (hnodes.map_childrenOf hnode param hparam) heq hparam) htable).mono fun _ _ _ _ h => h.1
  · exact hother (hkind ‹_› (by decide)) (indexMember_obeys hask hnodes hnode htable)
  · rename_i hmethod _ _
    exact hother (hkind rfl hmethod) (.pure fun _ => htable)

theorem interfaceBody_obeys {node : Node} (hnode : known node)
    {table : MemberTable} (htable : table.Closed s) :
    Obeys (quiet known) s (interfaceBody ask table node) fun table s => table.Closed s := by
  unfold interfaceBody
  split
  · exact .pure fun _ => htable
  · rename_i body hbody
    refine .bind (writtenAt_obeys hask (hnodes.child? hnode body hbody)) fun type s₁ _ hstep₁ htype => ?_
    refine .bind (membersOf_obeys hask htype) fun added s₂ hs₂ hstep₂ hadded => ?_
    obtain ⟨rfl, htype₂, -⟩ := hadded
    have htable := (htable.mono hstep₁.toExtends).mono hstep₂.toExtends
    refine .bind (.notes fun hs => Facts.pushMembers_notes _ hs htable.members (hs₂.membersOf type))
      fun members s₃ _ hstep₃ hmembers => .get fun hs₃ => .pure fun _ => ⟨hmembers, fun index hindex => ?_⟩
    rcases Option.or_eq_some_iff.mp hindex with hindex | ⟨-, hindex⟩
    · exact hstep₃.hasType (htable.stringIndex index hindex)
    · exact hs₃.stringIndexOf type index hindex

omit hnodes in
theorem inheritFrom_obeys {base : Node} (hbase : known base) {table : MemberTable}
    (htable : table.Closed s) :
    Obeys (quiet known) s (inheritFrom ask table base) fun table s => table.Closed s := by
  refine .bind (writtenAt_obeys hask hbase) fun type s₁ _ hstep₁ htype => ?_
  refine .bind (membersOf_obeys hask htype) fun inherited s₂ hs₂ hstep₂ hinherited => ?_
  obtain ⟨rfl, -⟩ := hinherited
  have htable := (htable.mono hstep₁.toExtends).mono hstep₂.toExtends
  refine .get fun hs => .pure fun _ => ⟨fun member hmember => ?_, fun index hindex => ?_⟩
  · rcases Facts.mem_inheritMembers hmember with hmember | hmember
    · exact htable.members member hmember
    · exact hs.membersOf type member hmember
  · rcases Option.or_eq_some_iff.mp hindex with hindex | ⟨-, hindex⟩
    · exact htable.stringIndex index hindex
    · exact hs.stringIndexOf type index hindex

theorem classTable_obeys {declarations : List Node} (hdeclarations : ∀ node ∈ declarations, known node) :
    Obeys (quiet known) s (classTable ask declarations) fun table s =>
      table.Closed s ∧ s.DeclaresMethods declarations := by
  have hmembers : Obeys (quiet known) s
      ((declarations.flatMap (·.classMembers)).foldlM (instanceMember ask) .empty)
      fun table s => table.Closed s ∧ ∀ member ∈ declarations.flatMap (·.classMembers),
        member.isInstanceMethod = true → (s.declared? member).isSome = true := by
    refine .foldlM_done (fun member s s' (hstep : s.Quiet known s') hdone hmethod => hstep.isSome_declared? (hdone hmethod)) _
      (fun member hmember table s' _ _ htable => ?_) fun _ => .empty
    obtain ⟨node, hnode, hmember⟩ := List.mem_flatMap.mp hmember
    exact instanceMember_obeys hask hnodes
      (hnodes.map_childrenOf (hdeclarations node hnode) member hmember) htable
  refine .bind hmembers fun table s₁ _ _ ⟨htable, hdone⟩ => ?_
  have hmethods : s₁.DeclaresMethods declarations := fun node hnode member hmember =>
    hdone member (List.mem_flatMap.mpr ⟨node, hnode, hmember⟩)
  split
  · rename_i base hbase
    obtain ⟨node, hnode, hbase⟩ := List.exists_of_findSome?_eq_some hbase
    exact (inheritFrom_obeys hask
      (hnodes.map_childrenOf (hdeclarations node hnode) base (List.mem_of_mem_head? hbase)) htable).mono
      fun _ _ _ hstep h => ⟨h, hmethods.mono hstep.toExtends⟩
  · exact .pure fun _ => ⟨htable, hmethods⟩

theorem interfaceTable_obeys {declarations : List Node}
    (hdeclarations : ∀ node ∈ declarations, known node) :
    Obeys (quiet known) s (interfaceTable ask declarations) fun table s => table.Closed s := by
  refine .bind (.foldlM _ (fun node hnode table s' _ _ htable =>
    interfaceBody_obeys hask hnodes (hdeclarations node hnode) htable) fun _ => MemberTable.Closed.empty)
    fun table s₁ _ _ htable => .foldlM _ (fun base hbase table s' _ _ htable => ?_) fun _ => htable
  obtain ⟨node, hnode, hbase⟩ := List.mem_flatMap.mp hbase
  exact inheritFrom_obeys hask (hnodes.map_childrenOf (hdeclarations node hnode) base hbase) htable

omit hask hnodes in
/-- The type is noted before the table is worked out, and it is finished behind it. -/
theorem declareObject_obeys {symbol : SymbolId} (hsymbol : s.HasSymbol symbol)
    (hnone : s.declaredTypes.get? symbol = none) {kind : ObjectKind}
    (hkind : kind = .classType ∨ kind = .interface) {table : List Node → Check MemberTable}
    (htable : ∀ {s declarations}, (∀ node ∈ declarations, known node) →
      Obeys (quiet known) s (table declarations) fun table s => table.Closed s ∧
        (kind = .classType → s.DeclaresMethods declarations))
    (hclass : (s.symbol symbol).kind = .classDecl → kind = .classType) :
    Obeys (quiet known) s (declareObject symbol kind table) fun type s => s.Denotes symbol type := by
  refine .get fun hs => ObeysSince.obeys ?_
  have hreference : kind ≠ .reference := by rcases hkind with rfl | rfl <;> decide
  have hobject : ObjectType.Closed s { ObjectType.bare kind (some symbol) with
      typeParams := s.declaredTypeParams symbol } :=
    { ObjectType.Closed.bare kind (some symbol) hreference fun id hid => by cases hid; exact hsymbol with
      typeParams := hs.declaredTypeParams symbol
      arity := fun id hid => by cases hid; exact Nat.le_refl _
      plain := by rcases hkind with rfl | rfl <;> rintro (hplain | hplain) <;> cases hplain
      own := fun _ _ => ⟨symbol, rfl, rfl⟩ }
  refine .bind (.notes fun hs => Facts.addType_notes hs (.object _) rfl hobject)
    fun type s₁ hs₁ hstep₁ hadded => ?_
  obtain ⟨htype, hdata, hnew⟩ := hadded
  have hsymbol₁ := hstep₁.hasSymbol hsymbol
  have hnames : s₁.Names symbol type := ⟨htype, fun _ => by rw [Facts.declarer?, Facts.object?, hdata]; rfl⟩
  let s₂ : Facts := { s₁ with declaredTypes := s₁.declaredTypes.insert symbol type }
  have hext : s₁.Extends known s₂ := { Facts.Extends.refl s₁ with }
  have hs₂ : s₂.Closed known := hs₁.setDeclaredType hsymbol₁ hnames
  intro pending answer s₄ hrun _ _
  obtain ⟨⟨table', s₃⟩, hrest, hfill⟩ := Option.bind_eq_some_iff.mp
    (show (table (s₂.symbol symbol).declarations >>= fun table => do
      modify (Facts.modifyObject type fun known =>
        { known with members := table.members, stringIndex := table.stringIndex })
      return type) pending s₂ = some (answer, s₄) from hrun)
  obtain ⟨hs₃, hstep₃, hclosed, hmethods⟩ := htable
    (fun node hnode => ((hs₂.symbol symbol (hext.hasSymbol hsymbol₁)).declarations node hnode).known)
    pending table' s₃ hrest hs₂
  have hfinishes : s₃.Finishes known symbol := .ofDeclarations hs₂ hstep₃.toExtends (hext.hasSymbol hsymbol₁)
    fun hclass₂ => hmethods (hclass ((hstep₁.kind hsymbol).symm.trans hclass₂))
  have hstep : s.Quiet known s₃ := hstep₁.declaring hnone hstep₃ hfinishes
  have hstep' := hext.trans hstep₃.toExtends
  obtain ⟨hs₄, hquiet, rfl, hfilled, hdata₄, hsame⟩ := ObeysSince.fill _ (hstep'.hasType htype)
    (hstep₃.object_eq htype hdata (bne_iff_ne.mpr hreference))
    { hobject.mono (hstep₁.toExtends.trans hstep') with
      members := hclosed.members
      stringIndex := hclosed.stringIndex } rfl rfl (fun hold => absurd hold hnew) pending answer s₄ hfill hs₃ hstep
  refine ⟨hs₄, hquiet, ⟨hfilled, fun _ => ?_⟩, fun _ => ?_⟩
  · rw [Facts.declarer?, Facts.object?, hdata₄]
    rfl
  · rw [hsame]
    exact hstep₃.declaredTypes (Table.get?_insert_self _ _ _)

omit hask hnodes in
/-- What names a type but is no class and no interface. -/
theorem denotes_other {s s' : Facts} {symbol : SymbolId} (hsymbol : s.HasSymbol symbol)
    (hclass : (s.symbol symbol).kind ≠ .classDecl) (hinterface : (s.symbol symbol).kind ≠ .interface)
    (hle : s.Extends known s') {type : TypeId} (htype : s'.HasType type) : s'.Denotes symbol type := by
  have hother : ¬((s'.symbol symbol).kind = .classDecl ∨ (s'.symbol symbol).kind = .interface) := by
    rw [hle.kind hsymbol]
    exact fun h => h.elim hclass hinterface
  exact ⟨⟨htype, fun h => absurd h hother⟩, fun h => absurd h hother⟩

theorem aliasType_obeys {symbol : SymbolId} (hsymbol : s.HasSymbol symbol) (hkind : (s.symbol symbol).kind = .alias) :
    Obeys (quiet known) s (aliasType ask symbol) fun type s => s.Denotes symbol type := by
  have hother : ∀ {s'}, s.Extends known s' → ∀ {type}, s'.HasType type → s'.Denotes symbol type :=
    denotes_other hsymbol (by rw [hkind]; decide) (by rw [hkind]; decide)
  refine .read fun pending => ?_
  split
  · exact .pure fun hs => hother (.refl s) hs.hasType_any
  · refine .get fun hs => .bind (.withReader (writtenType_obeys hask fun type htype => ?_))
      fun type s₁ _ hstep htype => .notes fun hs₁ => ?_
    · obtain ⟨node, hnode, htype⟩ := Option.bind_eq_some_iff.mp htype
      exact hnodes.child? (hs.declarations_head? hsymbol node hnode).known type htype
    · have hsymbol₁ := hstep.hasSymbol hsymbol
      cases hget : s₁.declaredTypes.get? symbol with
      | some kept =>
        rw [Table.keepFirst_of_some hget]
        exact ⟨.refl hs₁, hother hstep.toExtends (hs₁.declaredTypes hget).2.has⟩
      | none =>
        rw [Table.keepFirst_of_none hget]
        have hnoted := (Facts.Noted.refl hs₁).thenDeclared hget hsymbol₁
          (by rw [hstep.kind hsymbol, hkind]; decide) (hother hstep.toExtends htype).toNames
        exact ⟨hnoted.toNoted, hother (hstep.toExtends.trans hnoted.quiet.toExtends) hnoted.post.has⟩

theorem declared_obeys {symbol : SymbolId} (hsymbol : s.HasSymbol symbol) :
    Obeys (quiet known) s (declared ask symbol) fun type s => s.Denotes symbol type := by
  refine .get fun hs => ?_
  split
  · rename_i type htype
    exact .pure fun _ => ⟨(hs.declaredTypes htype).2, fun _ => htype⟩
  · rename_i hnone
    refine .get fun _ => ?_
    split
    · rename_i hkind
      refine ObeysSince.obeys (.bind (.notes fun hs => Facts.paramType_notes hs hsymbol)
        fun type s₁ _ hstep htype => ?_)
      have hnames : s₁.Denotes symbol type :=
        denotes_other hsymbol (by rw [hkind]; decide) (by rw [hkind]; decide) hstep.toExtends htype.1
      exact .noted (fun hnoted => (hnoted.thenDeclared hnone (hstep.hasSymbol hsymbol)
          (by rw [hstep.kind hsymbol, hkind]; decide) hnames.toNames).toNoted)
        (.ofObeys (.pure fun _ => ⟨⟨htype.1, hnames.declarer⟩, fun _ => Table.get?_insert_self _ _ _⟩))
    · exact declareObject_obeys hsymbol hnone (.inl rfl) (fun hdeclarations =>
        (classTable_obeys hask hnodes hdeclarations).mono fun _ _ _ _ h => ⟨h.1, fun _ => h.2⟩) fun _ => rfl
    · rename_i hkind
      exact declareObject_obeys hsymbol hnone (.inr rfl) (fun hdeclarations =>
        (interfaceTable_obeys hask hnodes hdeclarations).mono fun _ _ _ _ h => ⟨h, fun hno => by cases hno⟩)
        fun hclass => by rw [hkind] at hclass; cases hclass
    · exact aliasType_obeys hask hnodes hsymbol ‹_›
    · rename_i hclass hinterface _
      have hrefl : s.Extends known s := .refl s
      exact .pure fun hs => denotes_other hsymbol hclass hinterface hrefl hs.hasType_any

/-- The rules answer questions about types as their help does. -/
theorem AnswersTypes.answerWith : AnswersTypes known (answerWith ask) where
  declared hsymbol := declared_obeys hask hnodes hsymbol
  written hnode := written_obeys hask hnodes hnode
  substituted htype hsubstitution := substituted_obeys hask htype hsubstitution
  members htype := fillMembers_obeys hask htype

end

end

/-- However deep questions about types lead, nothing is noted about expressions on the way. -/
theorem answer_types (hnodes : Node.Closed known) : ∀ depth, AnswersTypes known (answer depth)
  | 0 => ⟨fun _ => .tooDeep, fun _ => .tooDeep, fun _ _ => .tooDeep, fun _ => .tooDeep⟩
  | depth + 1 => (answer_types hnodes depth).answerWith hnodes

end Check

end RouteTypes
