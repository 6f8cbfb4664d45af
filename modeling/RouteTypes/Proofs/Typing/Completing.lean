-- Where a round of questions brings up nothing new, everything there is to ask for is known: the values of all
-- symbols or the types that they name, the members of all types and what all calls give.
import RouteTypes.Proofs.Typing.Programs

namespace RouteTypes

open Facts (quiet noting)

variable {known : Node → Prop} {s s' : Facts}

/-- Everything there is to ask for is known. -/
structure Facts.Complete (s : Facts) : Prop where
  valued : ∀ {id}, s.HasSymbol id → (s.symbol id).kind.isValue = true → ∃ type, s.symbolTypes.get? id = some type
  named : ∀ {id}, s.HasSymbol id → (s.symbol id).kind.isValue = false → ∃ type, s.declaredTypes.get? id = some type
  filled : ∀ {id object}, s.HasType id → s.typeData id = .object object → object.hasMembers = true
  returned : ∀ {id}, s.HasSignature id → ∃ type, (s.signature id).returns = some type

namespace Check

variable {ask : Ask}

/-! ## What is noted -/

/-- What a symbol that is no value names is noted, if nothing is being worked out around it. -/
theorem declared_named (hask : AnswersTypes known ask) (hnodes : Node.Closed known) {id : SymbolId} {type : TypeId}
    (hs : s.Closed known) (hid : s.HasSymbol id) (hvalue : (s.symbol id).kind.isValue = false)
    (hrun : declared ask id .empty s = some (type, s')) : ∃ type, s'.declaredTypes.get? id = some type := by
  obtain ⟨-, hstep, hdenotes⟩ := declared_obeys hask hnodes hid .empty type s' hrun hs
  have hnoted := hdenotes.noted
  rw [hstep.kind hid] at hnoted
  rw [declared, get_bind] at hrun
  cases hknown : s.declaredTypes.get? id with
  | some known =>
    rw [hknown] at hrun
    cases hrun
    exact ⟨type, hknown⟩
  | none =>
    rw [hknown] at hrun
    dsimp only at hrun
    rw [get_bind] at hrun
    revert hrun hvalue hnoted
    generalize (s.symbol id).kind = kind
    intro hvalue hrun hnoted
    split at hrun
    · cases hrun
      exact ⟨_, Table.get?_insert_self _ _ _⟩
    · cases hvalue
    · exact ⟨type, hnoted (.inr rfl)⟩
    · obtain ⟨⟨written, s₁⟩, -, hkeep⟩ := Option.bind_eq_some_iff.mp hrun
      cases hkeep
      exact ⟨_, Table.get?_keepFirst_self _ _ _⟩
    · cases kind <;> simp_all [SymbolKind.isValue]

/-- What a call gives is noted with its signature, if nothing is being worked out around it. -/
theorem returnOf_returned (hask : Answers known ask) (hnodes : Node.Closed known) {id : SignatureId} {type : TypeId}
    (hs : (noting known []).holds s) (hid : s.HasSignature id) (hrun : returnOf ask id .empty s = some (type, s')) :
    ∃ type, (s'.signature id).returns = some type := by
  rw [returnOf, get_bind] at hrun
  cases hknown : (s.signature id).returns with
  | some known =>
    rw [hknown] at hrun
    cases hrun
    exact ⟨type, hknown⟩
  | none =>
    rw [hknown] at hrun
    obtain ⟨⟨found, s₁⟩, hfound, hnote⟩ := Option.bind_eq_some_iff.mp hrun
    obtain ⟨-, hstep, -⟩ := returnType_obeys hask hnodes hid _ found s₁ hfound hs
    cases hnote
    exact ⟨_, (congrArg Signature.returns (getD_modify s₁.signatures default _ (hstep.hasSignature hid))).trans
      (congrArg Signature.returns (if_pos rfl))⟩

/-- What is asked with nothing being worked out around it is noted. -/
structure Keeps (known : Node → Prop) (ask : Ask) : Prop where
  valued : ∀ {s s' id type}, ask (.valueOf id) .empty s = some (type, s') → s'.symbolTypes.get? id = some type
  named : ∀ {s s' id type}, s.Closed known → s.HasSymbol id → (s.symbol id).kind.isValue = false →
    ask (.declared id) .empty s = some (type, s') → ∃ type, s'.declaredTypes.get? id = some type
  returned : ∀ {s s' id type}, (noting known []).holds s → s.HasSignature id →
    ask (.returnOf id) .empty s = some (type, s') → ∃ type, (s'.signature id).returns = some type

theorem answer_keeps (hnodes : Node.Closed known) : ∀ depth, Keeps known (answer depth)
  | 0 => {
      valued := fun hrun => by cases hrun
      named := fun _ _ _ hrun => by cases hrun
      returned := fun _ _ hrun => by cases hrun }
  | depth + 1 =>
    have hask := answer_values hnodes depth
    { valued := valueOf_valued
      named := declared_named hask.toAnswersTypes hnodes
      returned := returnOf_returned hask hnodes }

/-! ## A whole round -/

variable (hask : Answers known ask) (hkeeps : Keeps known ask)

include hask

include hkeeps in
theorem asking_named (indices : List Nat) (hrun : indices.forM (asking ask symbolQuery) .empty s = some ((), s'))
    (hs : (noting known []).holds s) (hsymbols : ∀ index ∈ indices, s.HasSymbol ⟨index⟩) : ∀ index ∈ indices,
      (s'.symbol ⟨index⟩).kind.isValue = false → ∃ type, s'.declaredTypes.get? ⟨index⟩ = some type := by
  refine asking_done (fun index s => s.HasSymbol ⟨index⟩)
    (fun index s => (s.symbol ⟨index⟩).kind.isValue = false → ∃ type, s.declaredTypes.get? ⟨index⟩ = some type)
    (fun hhas => symbolQuery_obeys hask hhas)
    (fun hstep hhas => hstep.hasSymbol hhas) (fun {index s type s'} hhas hs hanswer hvalue => ?_)
    (fun hstep hhas hdone hvalue => ?_) indices hrun hs hsymbols
  · obtain ⟨-, hstep, -⟩ := symbolQuery_obeys hask hhas .empty type s' hanswer hs
    rw [hstep.kind hhas] at hvalue
    have hquery : symbolQuery s index = .declared ⟨index⟩ := if_neg (by rw [hvalue]; exact Bool.false_ne_true)
    exact hkeeps.named hs.1 hhas hvalue (hquery ▸ hanswer)
  · obtain ⟨type, htype⟩ := hdone (hstep.kind hhas ▸ hvalue)
    exact ⟨type, hstep.declaredTypes htype⟩

theorem asking_filled (indices : List Nat)
    (hrun : indices.forM (asking ask fun _ index => .members ⟨index⟩) .empty s = some ((), s'))
    (hs : (noting known []).holds s) (htypes : ∀ index ∈ indices, s.HasType ⟨index⟩) : ∀ index ∈ indices,
      ∀ object, s'.typeData ⟨index⟩ = .object object → object.hasMembers = true := by
  refine asking_done (fun index s => s.HasType ⟨index⟩)
    (fun index s => ∀ object, s.typeData ⟨index⟩ = .object object → object.hasMembers = true)
    (fun hhas => .quietly ((hask.members hhas).mono fun _ _ _ _ _ => trivial))
    (fun hstep hhas => Facts.Extends.hasType hstep.toExtends hhas) (fun {index s type s'} hhas hs hanswer => ?_)
    (fun hstep hhas hdone object hobject => ?_) indices hrun hs htypes
  · exact (hask.members hhas .empty type s' hanswer hs.1).2.2.2.2
  · obtain ⟨before, hbefore⟩ := hstep.object_of hhas hobject
    have hmembers := hdone before hbefore
    cases (hstep.object_eq hhas hbefore hmembers).symm.trans hobject
    exact hmembers

include hkeeps in
theorem asking_returned (indices : List Nat)
    (hrun : indices.forM (asking ask fun _ index => .returnOf ⟨index⟩) .empty s = some ((), s'))
    (hs : (noting known []).holds s) (hsignatures : ∀ index ∈ indices, s.HasSignature ⟨index⟩) : ∀ index ∈ indices,
      ∃ type, (s'.signature ⟨index⟩).returns = some type :=
  asking_done (fun index s => s.HasSignature ⟨index⟩) (fun index s => ∃ type, (s.signature ⟨index⟩).returns = some type)
    (fun hhas => (hask.returnOf hhas).mono fun _ _ _ _ _ => trivial)
    (fun hstep hhas => Facts.Extends.hasSignature hstep.toExtends hhas)
    (fun hhas hs hanswer => hkeeps.returned hs hhas hanswer)
    (fun hstep hhas ⟨type, htype⟩ => ⟨type, Facts.Extends.known_returns hstep.toExtends hhas htype⟩) indices hrun hs
    hsignatures

include hkeeps in
/-- A round that brings up nothing new leaves nothing to ask for. -/
theorem round_completes (hs : (noting known []).holds s) (hrun : round ask .empty s = some ((), s'))
    (hextent : extent s' = extent s) : s'.Complete := by
  obtain ⟨s₁, s₂, hsymbols, htypes, hsignatures⟩ := exists_of_round hrun
  obtain ⟨hs₁, hstep₁, -⟩ := symbols_obeys hask .empty () s₁ hsymbols hs
  obtain ⟨hs₂, hstep₂, -⟩ := types_obeys hask .empty () s₂ htypes hs₁
  obtain ⟨-, hstep₃, -⟩ := signatures_obeys hask .empty () s' hsignatures hs₂
  have hstep := hstep₂.trans hstep₃
  obtain ⟨hsymbolCount, hcounts⟩ := Prod.mk.inj hextent
  obtain ⟨htypeCount, hsignatureCount⟩ := Prod.mk.inj hcounts
  -- Nothing has come up, so what is there in the end was there before it could have been asked for.
  have hsymbol : ∀ {id}, s'.HasSymbol id → s.HasSymbol id := fun hid => Nat.lt_of_lt_of_eq hid hsymbolCount
  have htype : ∀ {id}, s'.HasType id → s₁.HasType id := fun hid =>
    Facts.Extends.hasType hstep₁.toExtends (Nat.lt_of_lt_of_eq hid htypeCount)
  have hsignature : ∀ {id}, s'.HasSignature id → s₂.HasSignature id := fun hid =>
    Facts.Extends.hasSignature (hstep₁.trans hstep₂).toExtends (Nat.lt_of_lt_of_eq hid hsignatureCount)
  have hbelow : ∀ {index bound : Nat}, index ∈ List.range bound → index < bound := List.mem_range.mp
  constructor
  case valued =>
    intro id hid hvalue
    have hid₁ := hstep₁.hasSymbol (hsymbol hid)
    rw [hstep.kind hid₁] at hvalue
    obtain ⟨type, hvalued⟩ := asking_valued hask hkeeps.valued _ hsymbols hs (fun _ => hbelow) id.index
      (List.mem_range.mpr (hsymbol hid)) hvalue
    exact ⟨type, hstep.symbolTypes hvalued⟩
  case named =>
    intro id hid hvalue
    have hid₁ := hstep₁.hasSymbol (hsymbol hid)
    rw [hstep.kind hid₁] at hvalue
    obtain ⟨type, hnamed⟩ := asking_named hask hkeeps _ hsymbols hs (fun _ => hbelow) id.index
      (List.mem_range.mpr (hsymbol hid)) hvalue
    exact ⟨type, hstep.declaredTypes hnamed⟩
  case filled =>
    intro id object hid hobject
    have hid₂ := Facts.Extends.hasType hstep₂.toExtends (htype hid)
    obtain ⟨before, hbefore⟩ := hstep₃.object_of hid₂ hobject
    have hmembers := asking_filled hask _ htypes hs₁ (fun _ => hbelow) id.index (List.mem_range.mpr (htype hid))
      before hbefore
    cases (hstep₃.object_eq hid₂ hbefore hmembers).symm.trans hobject
    exact hmembers
  case returned =>
    intro id hid
    exact asking_returned hask hkeeps _ hsignatures hs₂ (fun _ => hbelow) id.index (List.mem_range.mpr (hsignature hid))

end Check

end RouteTypes
