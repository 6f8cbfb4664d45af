-- What the language takes from the declarations that every program sees: arrays, whose type has one type
-- argument, and the properties of texts. A program may declare types of these names too, but only in scopes
-- of its own, so it does not change what is meant here.
import RouteTypes.Proofs.Typing.Prelude
import RouteTypes.Proofs.Typing.Programs

namespace RouteTypes

/-! ## Preludes -/

/-- The prelude declares what the language needs: `Array` with no more than one type parameter, and `String`
as a class or an interface. -/
def IsStandard (prelude : Tree) : Bool :=
  let facts := Facts.initial.bindTree (Node.ofTree .prelude prelude)
  let seen (name : String) := facts.scopes.getLocal ScopeTree.global .type name
  (seen "Array").any (fun id => (facts.typeParamNodes id).length ≤ 1) &&
    (seen "String").any fun id => (facts.symbol id).kind = .classDecl ∨ (facts.symbol id).kind = .interface

set_option maxRecDepth 100000 in
/-- The declarations that every program does see are such. -/
theorem prelude_isStandard : IsStandard (Program.ofSource preludeSource).tree = true := by
  obtain ⟨chars, hchars, hstandard⟩ : ∃ chars, preludeSource = String.ofList chars ∧
      IsStandard (treeOfChars chars) = true := by
    refine ⟨_, rfl, ?_⟩
    decide +kernel
  rw [hchars, Program.tree_ofList, hstandard]

/-- The least that a standard prelude declares. -/
def leastPrelude : Tree := (Program.ofSource "interface Array<T> \x7b\x7d interface String \x7b\x7d").tree

theorem leastPrelude_isStandard : IsStandard leastPrelude = true := by decide +kernel

namespace Facts

variable {known : Node → Prop} {owner : ScopeId → Option Node} {s s' : Facts}

/-- A symbol that gets more declarations keeps its first one. -/
theorem Widens.head (h : Widens s s') (hs : Named known owner s) {id : SymbolId} (hid : s.HasSymbol id) :
    (s'.symbol id).declarations.head? = (s.symbol id).declarations.head? := by
  obtain ⟨more, hsymbol⟩ := h.symbol hid
  rw [hsymbol]
  exact List.head?_append_of_ne_nil _ (hs.symbol id hid).nonempty

/-- The names of a program are declared besides those that every program sees. -/
theorem bound_widens (hnodes : Node.Closed known) {prelude root : Node} (hprelude : known prelude)
    (hroot : known root) (hprelude' : prelude.source = .prelude) (hroot' : root.source = .program) :
    ∃ owner, Named known owner (Facts.initial.bindTree prelude) ∧
      Widens (Facts.initial.bindTree prelude) (Facts.bound prelude root) := by
  obtain ⟨owner, owner₁, hfirst⟩ := bindPrelude_declares hnodes hprelude hprelude'
  obtain ⟨owner₂, hsecond, -⟩ := bindProgram_declares hnodes hfirst.named hroot hroot'
  exact ⟨owner₁, hfirst.named, { hsecond.widens with }⟩

end Facts

/-! ## What programs see of it -/

namespace Facts

/-- Arrays have one type argument, and texts have the properties of a class or an interface. -/
structure Standard (s : Facts) : Prop where
  array : ∀ id ∈ s.arraySymbol, s.arity id = 1
  string : ∃ id, s.stringSymbol = some id ∧ ((s.symbol id).kind = .classDecl ∨ (s.symbol id).kind = .interface)

theorem arraySymbol_bound (prelude root : Node) : (bound prelude root).arraySymbol =
    (bound prelude root).scopes.getLocal ScopeTree.global .type "Array" :=
  rfl

theorem stringSymbol_bound (prelude root : Node) : (bound prelude root).stringSymbol =
    (bound prelude root).scopes.getLocal ScopeTree.global .type "String" :=
  rfl

variable {prelude : Tree}

theorem standard_bound (h : IsStandard prelude = true) (text : String) :
    Standard (Facts.bound (Node.ofTree .prelude prelude) (Program.ofSource text).root) := by
  obtain ⟨owner, hnamed, hwidens⟩ := bound_widens (Program.visible_closed text prelude)
    (.inl (Node.self_mem_descendants _)) (.inr (Node.self_mem_descendants _)) (Node.source_ofTree _ _)
    (Node.source_ofTree _ _)
  obtain ⟨harray, hstring⟩ := (Bool.and_eq_true _ _).mp h
  obtain ⟨array, harray, hparams⟩ := (Option.any_eq_true _ _).mp harray
  obtain ⟨string, hstring, hkind⟩ := (Option.any_eq_true _ _).mp hstring
  refine ⟨fun id hid => ?_, string, (stringSymbol_bound _ _).trans (hwidens.bindings hstring), ?_⟩
  · rw [arraySymbol_bound, hwidens.bindings harray] at hid
    cases hid
    rw [arity, typeParamNodes, hwidens.head hnamed (hnamed.scopes harray).1]
    exact Nat.max_eq_left (of_decide_eq_true hparams)
  · obtain ⟨more, hsymbol⟩ := hwidens.symbol (hnamed.scopes hstring).1
    rw [hsymbol]
    exact of_decide_eq_true hkind

theorem Standard.later {known : Node → Prop} {s s' : Facts} (h : s.Standard) (hs : s.Closed known)
    (hle : s.Later known s') :
    s'.Standard where
  array id hid := by
    rw [hle.arraySymbol] at hid
    rw [hle.arity (hs.arraySymbol id hid), h.array id hid]
  string := by
    obtain ⟨id, hid, hkind⟩ := h.string
    exact ⟨id, hle.stringSymbol.trans hid, by rwa [hle.kind (hs.stringSymbol id hid)]⟩

end Facts

/-- A program sees the declarations of a standard prelude as they are. -/
theorem Checked.Ends.standard {text : String} {prelude : Tree} {checked : Checked}
    (h : Ends (Node.ofTree .prelude prelude) (Program.ofSource text).root checked)
    (hstandard : IsStandard prelude = true) : checked.facts.Standard :=
  (Facts.standard_bound hstandard text).later h.begins.closed h.later

end RouteTypes
