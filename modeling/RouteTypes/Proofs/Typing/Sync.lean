-- Two checks in step: what each has found out about one of two matching programs. Symbols and types may have
-- other numbers in the second check, since it may have met records that the first program does not have.
import RouteTypes.Proofs.Tree.Records
import RouteTypes.Proofs.Typing.Marks

namespace RouteTypes

open List

/-! ## Numbers -/

/-- How far two checks are: which symbols and types of the second one the first has too. The primitive types come
before all others. -/
structure Sync where
  symbols : List Bool
  others : List Bool

namespace Sync

def types (w : Sync) : List Bool := List.replicate TypeData.primitives.length true ++ w.others

/-- Whether two checks that were that far may have come that far. -/
structure Le (w w' : Sync) : Prop where
  symbols : w.symbols <+: w'.symbols
  others : w.others <+: w'.others

instance : LE Sync := ⟨Le⟩

variable {w w' w'' : Sync}

theorem le_refl (w : Sync) : w ≤ w := ⟨prefix_rfl, prefix_rfl⟩

theorem le_trans (h : w ≤ w') (h' : w' ≤ w'') : w ≤ w'' :=
  ⟨h.symbols.trans h'.symbols, h.others.trans h'.others⟩

instance : Preorder Sync where
  le_refl := le_refl
  le_trans _ _ _ := le_trans

theorem Le.types (h : w ≤ w') : w.types <+: w'.types := (prefix_append_right_inj _).mpr h.others

/-- The same symbol in both checks. -/
def SameSymbol (w : Sync) (id id' : SymbolId) : Prop := Shared w.symbols id.index id'.index

/-- The same type in both checks. -/
def SameType (w : Sync) (id id' : TypeId) : Prop := Shared w.types id.index id'.index

/-- A symbol of the second check alone. -/
def OtherSymbol (w : Sync) (id' : SymbolId) : Prop := w.symbols[id'.index]? = some false

/-- The same substitution in both checks. -/
structure SameSubstitution (w : Sync) (s s' : Substitution) : Prop where
  params : Forall₂ w.SameSymbol s.params s'.params
  types : Forall₂ w.SameType s.types s'.types

section

variable {id id' other other' : SymbolId} {type type' more more' : TypeId}

theorem SameSymbol.mono (h : w.SameSymbol id id') (hle : w ≤ w') : w'.SameSymbol id id' :=
  Shared.mono h hle.symbols

theorem SameSymbol.eq_iff (h : w.SameSymbol id id') (h' : w.SameSymbol other other') : id = other ↔ id' = other' := by
  have hiff := Shared.eq_iff h h'
  cases id
  cases id'
  cases other
  cases other'
  simpa using hiff

theorem SameType.mono (h : w.SameType type type') (hle : w ≤ w') : w'.SameType type type' :=
  Shared.mono h hle.types

theorem SameType.eq_iff (h : w.SameType type type') (h' : w.SameType more more') : type = more ↔ type' = more' := by
  have hiff := Shared.eq_iff h h'
  cases type
  cases type'
  cases more
  cases more'
  simpa using hiff

theorem OtherSymbol.mono (h : w.OtherSymbol id') (hle : w ≤ w') : w'.OtherSymbol id' := by
  obtain ⟨more, hmore⟩ := hle.symbols
  obtain ⟨hlt, -⟩ := List.getElem?_eq_some_iff.mp h
  rw [OtherSymbol, ← hmore, List.getElem?_append_left hlt]
  exact h

/-- The primitive types have the same numbers in both. -/
theorem sameType_primitive (w : Sync) {n : Nat} (h : n < TypeData.primitives.length) : w.SameType ⟨n⟩ ⟨n⟩ :=
  (Shared.replicate h).mono (prefix_append _ _)

@[simp] theorem sameType_any (w : Sync) : w.SameType .any .any := w.sameType_primitive (by decide)

@[simp] theorem sameType_never (w : Sync) : w.SameType .never .never := w.sameType_primitive (by decide)

@[simp] theorem sameType_void (w : Sync) : w.SameType .void .void := w.sameType_primitive (by decide)

@[simp] theorem sameType_undefined (w : Sync) : w.SameType .undefined .undefined := w.sameType_primitive (by decide)

@[simp] theorem sameType_unknown (w : Sync) : w.SameType .unknown .unknown := w.sameType_primitive (by decide)

@[simp] theorem sameType_null (w : Sync) : w.SameType .null .null := w.sameType_primitive (by decide)

@[simp] theorem sameType_string (w : Sync) : w.SameType .string .string := w.sameType_primitive (by decide)

@[simp] theorem sameType_number (w : Sync) : w.SameType .number .number := w.sameType_primitive (by decide)

@[simp] theorem sameType_boolean (w : Sync) : w.SameType .boolean .boolean := w.sameType_primitive (by decide)

theorem sameType_word (w : Sync) {word : String} {type : TypeId} (h : TypeId.ofWord? word = some type) :
    w.SameType type type := by
  unfold TypeId.ofWord? at h
  split at h <;> cases h <;> exact w.sameType_primitive (by decide)

/-- A type is a primitive one in both checks or in neither. -/
theorem SameType.beq_eq (h : w.SameType type type') {primitive : TypeId} (hprimitive : w.SameType primitive primitive) :
    (type' == primitive) = (type == primitive) := by
  rw [Bool.eq_iff_iff, beq_iff_eq, beq_iff_eq]
  exact (h.eq_iff hprimitive).symm

end

theorem SameSubstitution.mono {s s' : Substitution} (h : w.SameSubstitution s s') (hle : w ≤ w') :
    w'.SameSubstitution s s' :=
  ⟨h.params.imp fun _ _ hparam => hparam.mono hle, h.types.imp fun _ _ htype => htype.mono hle⟩

/-- The same is put for the same type parameter. -/
theorem SameSubstitution.get? {s s' : Substitution} (h : w.SameSubstitution s s') {param param' : SymbolId}
    (hparam : w.SameSymbol param param') : Option.Rel w.SameType (s.get? param) (s'.get? param') := by
  have hplace : s'.place? param' = s.place? param := h.params.findIdx?_eq fun other other' hother =>
    Bool.eq_iff_iff.mpr (by rw [beq_iff_eq, beq_iff_eq, hother.eq_iff hparam])
  rw [Substitution.get?, Substitution.get?, hplace]
  cases s.place? param with
  | none => exact .none
  | some place => exact h.types.getElem? place

/-! ### As keys -/

theorem symbolKeys (w : Sync) : Keys w.SameSymbol w.OtherSymbol where
  eq_iff := SameSymbol.eq_iff
  apart h hother := by
    rw [OtherSymbol, h.1] at hother
    cases hother

theorem symbolKeys' (w : Sync) : Keys w.SameSymbol fun _ => False where
  eq_iff := SameSymbol.eq_iff
  apart _ := id

theorem typesKeys (w : Sync) : Keys (Forall₂ w.SameType) fun _ => False where
  eq_iff h h' := h.eq_iff SameType.eq_iff h'
  apart _ := id

theorem substitutionKeys (w : Sync) : Keys w.SameSubstitution fun _ => False where
  eq_iff {a a' b b'} h h' := by
    have hparams := h.params.eq_iff SameSymbol.eq_iff h'.params
    have htypes := h.types.eq_iff SameType.eq_iff h'.types
    cases a
    cases b
    cases a'
    cases b'
    rw [Substitution.mk.injEq, Substitution.mk.injEq, hparams, htypes]
  apart _ := id

theorem typeKeys (w : Sync) : Keys w.SameType fun _ => False where
  eq_iff := SameType.eq_iff
  apart _ := id

theorem eqKeys {α : Type} : Keys (· = · : α → α → Prop) fun _ => False where
  eq_iff := by
    rintro a _ b _ rfl rfl
    rfl
  apart _ := id

theorem referenceKeys (w : Sync) : Keys (Both w.SameType (Forall₂ w.SameType)) fun _ => False :=
  w.typeKeys.both w.typesKeys

theorem aliasKeys (w : Sync) : Keys (Both w.SameSymbol (Forall₂ w.SameType)) fun _ => False :=
  w.symbolKeys.both w.typesKeys

theorem substitutedKeys (w : Sync) :
    Keys (Both w.SameType (· = · : SubstitutionId → SubstitutionId → Prop)) fun _ => False :=
  w.typeKeys.both eqKeys

theorem copyKeys (w : Sync) :
    Keys (Both w.SameSymbol (· = · : SubstitutionId → SubstitutionId → Prop)) fun _ => False :=
  w.symbolKeys.both eqKeys

end Sync

/-! ## Nodes as keys -/

namespace Pairing

/-- The ids of twins. -/
def SameId (P : Pairing) (id id' : NodeId) : Prop := ∃ node node', P.Twin node node' ∧ node.id = id ∧ node'.id = id'

/-- The id of a node that was put in. -/
def OtherId (P : Pairing) (id' : NodeId) : Prop := ∃ node', Put P.root P.root' node' ∧ node'.id = id'

variable {P : Pairing}

theorem Twin.sameId {node node' : Node} (h : P.Twin node node') : P.SameId node.id node'.id := ⟨_, _, h, rfl, rfl⟩

theorem same_of_prelude {node node' : Node} (h : SamePlace P.prelude P.prelude node node') : node' = node := by
  obtain ⟨way, hway, hway'⟩ := h
  exact Option.some_inj.mp (hway'.symm.trans hway)

theorem source_of_prelude {node node' : Node} (h : SamePlace P.prelude P.prelude node node') :
    node'.source = .prelude ∧ node.source = .prelude := by
  obtain rfl := same_of_prelude h
  have hsource := Node.source_of_mem_descendants (h.mem P.rooted_prelude)
  rw [P.visible] at hsource
  exact ⟨hsource, hsource⟩

theorem source_of_program {node node' : Node} (h : SamePlace P.root P.root' node node') :
    node.source = .program ∧ node'.source = .program := by
  have hsource := Node.source_of_mem_descendants (h.mem P.rooted)
  have hsource' := (h.kin P.rooted).source
  rw [P.own] at hsource
  exact ⟨hsource, hsource'.trans hsource⟩

theorem nodeKeys (P : Pairing) : Keys P.SameId P.OtherId where
  eq_iff := by
    rintro _ _ _ _ ⟨a, a', ha, rfl, rfl⟩ ⟨b, b', hb, rfl, rfl⟩
    rcases ha with ha | ha <;> rcases hb with hb | hb
    · rw [same_of_prelude ha, same_of_prelude hb]
    · have hsources : ∀ {x y : Node}, x.source = .prelude → y.source = .program → x.id ≠ y.id := by
        intro x y hx hy hid
        cases hx.symm.trans ((congrArg NodeId.source hid).trans hy)
      exact iff_of_false (hsources (source_of_prelude ha).2 (source_of_program hb).1)
        (hsources (source_of_prelude ha).1 (source_of_program hb).2)
    · have hsources : ∀ {x y : Node}, x.source = .program → y.source = .prelude → x.id ≠ y.id := by
        intro x y hx hy hid
        cases hx.symm.trans ((congrArg NodeId.source hid).trans hy)
      exact iff_of_false (hsources (source_of_program ha).1 (source_of_prelude hb).2)
        (hsources (source_of_program ha).2 (source_of_prelude hb).1)
    · constructor
      · intro hid
        cases P.distinct.eq (ha.mem P.rooted) (hb.mem P.rooted) hid
        rw [ha.unique P.rooted P.distinct hb]
      · intro hid
        cases P.distinct'.eq (ha.mem' P.rooted) (hb.mem' P.rooted) hid
        rw [ha.unique' P.rooted P.distinct' hb]
  apart := by
    rintro _ _ ⟨a, a', ha, rfl, rfl⟩ ⟨put, hput, hid⟩
    have hmem : put ∈ P.root'.descendants :=
      have ⟨_, _, hway⟩ := hput
      Node.mem_of_down P.rooted.top' hway
    rcases ha with ha | ha
    · have hsource := congrArg NodeId.source hid
      rw [show put.id.source = .program from (Node.source_of_mem_descendants hmem).trans
        (P.rooted.source.trans P.own), show a'.id.source = .prelude from (source_of_prelude ha).1] at hsource
      cases hsource
    · cases P.distinct'.eq hmem (ha.mem' P.rooted) hid
      exact ha.not_put P.rooted P.distinct' hput

end Pairing

end RouteTypes
