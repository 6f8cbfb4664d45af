-- Nodes are tight. A node below the root covers the text from the first byte of a token to the last byte of
-- another one, and neither is in a blank or comment: what stands around a node belongs to the node around it.
import RouteTypes.Proofs.Grammar.Fronts
import RouteTypes.Proofs.Tree.Nesting

namespace RouteTypes

open RouteTypes.Tree

/-! ## Tokens of a node at their places -/

namespace Token

theorem head?_placeAll (start : Nat) (tokens : List Token) :
    (placeAll start tokens).head? = tokens.head?.map fun token => ⟨⟨start, start + token.size⟩, token⟩ := by
  cases tokens <;> rfl

theorem getLast?_placeAll {start : Nat} {tokens : List Token} {last : Token} (h : tokens.getLast? = some last) :
    ∃ placed, (placeAll start tokens).getLast? = some placed ∧ placed.token = last ∧
      placed.span.stop = start + sizeOf tokens := by
  obtain ⟨before, rfl⟩ := List.getLast?_eq_some_iff.mp h
  refine ⟨_, by rw [placeAll_append, placeAll, placeAll, List.getLast?_concat], rfl, ?_⟩
  rw [sizeOf_append, ← Nat.add_assoc]
  rfl

end Token

namespace Node

section

variable {source : Source} {node : Node}

mutual

/-- The tokens of a node are tokens in a row of the part that it is in. -/
theorem placed_of_mem : ∀ {parent : Option Node} (part : Part), node ∈ nodesIn source parent part →
    node.part.placed <:+: part.placed
  | _, .leaf _ _, h => by cases h
  | parent, .node span kind parts, h => by
    rw [nodesIn] at h
    rcases List.mem_cons.mp h with rfl | h
    · exact List.infix_rfl
    · exact placed_of_mem_all parts h

theorem placed_of_mem_all : ∀ {parent : Option Node} (parts : List Part),
    node ∈ nodesInAll source parent parts → node.part.placed <:+: Part.placedAll parts
  | _, [], h => by cases h
  | parent, part :: rest, h => by
    rw [nodesInAll] at h
    rw [Part.placedAll]
    rcases List.mem_append.mp h with h | h
    · exact (placed_of_mem part h).trans (List.prefix_append _ _).isInfix
    · exact (placed_of_mem_all rest h).trans (List.suffix_append _ _).isInfix

end

end

end Node

/-! ## Ends of nodes -/

/-- What the grammar gives ends with a token that is neither blank nor comment, unless it holds no token. -/
theorem Tree.Sound.ends {tree : Tree} (h : tree.Sound Grammar.forms) (hweighs : tree.Weighs)
    (hkind : tree.kind ≠ .node .sourceFile) (hsolid : tree.isTrivia = false) :
    tree.tokens = [] ∨ ∃ last, tree.tokens.getLast? = some last ∧ last.isTrivia = false := by
  induction h with
  | leaf token => exact .inr ⟨token, rfl, hsolid⟩
  | @node kind children form hform hrow hlast hsound ih =>
    have hwhole := Sound.node hform hrow hlast hsound
    rcases List.eq_nil_or_concat children with rfl | ⟨before, child, rfl⟩
    · exact .inl rfl
    · rw [List.concat_eq_append] at *
      have hmem : child ∈ before ++ [child] := List.mem_append_right _ (List.mem_singleton_self _)
      have hend := hlast child List.getLast?_concat
      cases child with
      | leaf token => exact .inr ⟨token, tokens_ofLast List.getLast?_concat rfl, hend⟩
      | node inner parts =>
        have hplain : inner.isPlain = true := hwhole.child_plain (fun hfile => hkind (hfile ▸ rfl)) hmem
        have hinner : (Tree.node inner parts).kind ≠ .node .sourceFile := by
          rintro hfile
          rw [Kind.node.inj hfile] at hplain
          cases hplain
        rcases ih _ hmem (hweighs.child _ hmem) hinner hend with hnothing | ⟨last, hlast', hlastSolid⟩
        · have hlight := isLight_of_size (hsound _ hmem) (hweighs.child _ hmem) (by rw [size, hnothing]; rfl)
          simp [Tree.kind, Kind.isLight, hplain] at hlight
        · exact .inr ⟨last, tokens_ofLast List.getLast?_concat hlast', hlastSolid⟩

namespace Node

/-! ## Nodes without misfits -/

/-- A tree below the root of a program without misfits. -/
structure Inner (tree : Tree) : Prop extends Good tree where
  settled : ∀ {kind children}, tree = .node kind children → kind = .stmtList ∨ kind.isPlain = true

theorem Inner.kind_ne {kind : NodeKind} {children : List Tree} (h : Inner (.node kind children)) :
    kind ≠ .sourceFile := by
  rintro rfl
  rcases h.settled rfl with hlist | hplain
  · cases hlist
  · cases hplain

theorem Inner.child : HandedDown Inner := by
  intro kind children h child hchild
  refine ⟨Good.child kind children h.toGood child hchild, fun {inner parts} hnode => .inr ?_⟩
  exact h.sound.child_plain h.kind_ne (hnode ▸ hchild)

/-- The node covers the text from a token on and up to a token, both neither blanks nor comments. -/
def Tight (node : Node) : Prop :=
  ∃ first last, node.part.placed.head? = some first ∧ node.part.placed.getLast? = some last ∧
    first.token.isTrivia = false ∧ last.token.isTrivia = false ∧ node.span = ⟨first.span.start, last.span.stop⟩

section

variable {source : Source} {tree : Tree} {node : Node}

theorem placed_of_mem_descendants (h : node ∈ (ofTree source tree).descendants) :
    node.part.placed = Token.placeAll node.span.start node.tree.tokens ∧
      node.span.stop = node.span.start + Token.sizeOf node.tree.tokens := by
  have hpart := part_of_mem_descendants h
  obtain ⟨hplaced, hstop⟩ := Tree.placed_place node.span.start node.tree
  rw [← hpart] at hplaced hstop
  exact ⟨hplaced, hstop⟩

/-- What is handed down from the trees right below the root holds of every node but the root. -/
theorem good_of_mem {good : Tree → Prop} {kind : NodeKind} {children : List Tree} (hgood : HandedDown good)
    (hchildren : ∀ child ∈ children, good child)
    (h : node ∈ (ofTree source (.node kind children)).descendants)
    (hroot : node ≠ ofTree source (.node kind children)) : good node.tree := by
  rcases List.mem_cons.mp h with hself | hbelow
  · exact absurd hself hroot
  · exact (lies_of_mem_all hgood children hchildren hbelow).good

end

end Node

theorem Tree.Fronted.child : Node.HandedDown Tree.Fronted := by
  intro kind children h
  cases h with
  | node _ hinner => exact hinner

namespace Program

variable {source : String} {node : Node}

/-- A node that is not the root starts with a token, if there is one in it. -/
theorem starts_solid (h : node ∈ (Program.ofSource source).root.descendants)
    (hroot : node ≠ (Program.ofSource source).root) : Token.SolidFirst node.tree.tokens := by
  rw [root, ofSource_eq] at h hroot
  have hfronted := Node.good_of_mem Tree.Fronted.child (Grammar.parts_fronted _) h hroot
  cases hfronted with
  | node hfirst _ => exact hfirst

theorem inner_of_mem (hread : (Program.ofSource source).isOk = true)
    (h : node ∈ (Program.ofSource source).root.descendants)
    (hroot : node ≠ (Program.ofSource source).root) : Node.Inner node.tree := by
  obtain ⟨blanks, statements, more, htree⟩ := exists_statements source
  have hgood := Program.good hread
  rw [root, htree] at h hroot
  rw [htree] at hgood
  refine Node.good_of_mem Node.Inner.child (fun child hchild => ?_) h hroot
  refine ⟨Node.Good.child _ _ hgood child hchild, fun {kind children} hnode => .inl ?_⟩
  subst hnode
  rcases List.mem_append.mp hchild with hchild | hchild
  · obtain ⟨token, -, hleaf⟩ := List.mem_map.mp hchild
    cases hleaf
  · rcases List.mem_cons.mp hchild with hchild | hchild
    · exact (Tree.node.inj hchild).1
    · obtain ⟨token, -, hleaf⟩ := List.mem_map.mp hchild
      cases hleaf

end Program

/-- Below the root of a program without misfits nodes are tight, unless they are lists of no statements. -/
theorem Program.tight_of_mem {source : String} {node : Node} (hread : (Program.ofSource source).isOk = true)
    (h : node ∈ (Program.ofSource source).root.descendants) (hroot : node ≠ (Program.ofSource source).root) :
    node.Tight ∨ (node.kind = .stmtList ∧ node.part.placed = []) := by
  have hinner := inner_of_mem hread h hroot
  have hkind : node.tree.kind ≠ .node .sourceFile := fun hfile => hinner.kind_ne (Kind.node.inj hfile)
  obtain ⟨hplaced, hstop⟩ := Node.placed_of_mem_descendants h
  rw [Node.Tight, hplaced]
  rcases hinner.sound.ends hinner.weighs hkind rfl with hnothing | ⟨last, hlast, hend⟩
  · refine .inr ⟨(hinner.settled rfl).resolve_right fun hplain => ?_, by rw [hnothing]; rfl⟩
    have hpos : 0 < node.tree.size := hinner.size_pos hplain
    rw [size, hnothing] at hpos
    exact absurd hpos (Nat.lt_irrefl 0)
  · obtain ⟨first, rest, htokens⟩ := List.exists_cons_of_ne_nil
      (List.ne_nil_of_mem (List.mem_of_getLast? hlast))
    obtain ⟨placed, hplaced', rfl, hplacedStop⟩ := @Token.getLast?_placeAll node.span.start _ _ hlast
    have hfirst : first.isTrivia = false := starts_solid h hroot first (by rw [htokens]; rfl)
    refine .inl ⟨⟨⟨node.span.start, node.span.start + first.size⟩, first⟩, placed, ?_, hplaced', hfirst, hend, ?_⟩
    · rw [Token.head?_placeAll, htokens]
      rfl
    · rw [hplacedStop, ← hstop]

/-- The tokens of a node are tokens in a row of the text. A node that is not the root starts with one that is
neither blank nor comment, where its text starts. In a program without misfits it ends with such a token too,
where its text ends; only a list of statements may hold no token at all. -/
theorem nodes_are_tight (source : String) :
    (∀ node ∈ (Program.ofSource source).root.descendants, node ≠ (Program.ofSource source).root →
      node.part.placed <:+: Token.placeAll 0 (Token.ofSource source) ∧
      ∀ first ∈ node.part.placed.head?, first.token.isTrivia = false ∧ first.span.start = node.span.start) ∧
    ((Program.ofSource source).isOk = true →
      ∀ node ∈ (Program.ofSource source).root.descendants, node ≠ (Program.ofSource source).root →
        node.Tight ∨ (node.kind = .stmtList ∧ node.part.placed = [])) := by
  refine ⟨fun node hnode hroot => ⟨?_, fun first hfirst => ?_⟩, fun hread node hnode hroot => ?_⟩
  · have hplaced := Node.placed_of_mem _ hnode
    rwa [Program.root_part, (Tree.placed_place 0 _).1, Program.tokens_tree] at hplaced
  · have hsolid := Program.starts_solid hnode hroot
    rw [(Node.placed_of_mem_descendants hnode).1, Token.head?_placeAll] at hfirst
    obtain ⟨token, htoken, rfl⟩ := Option.mem_map.mp hfirst
    exact ⟨hsolid token htoken, rfl⟩
  · exact Program.tight_of_mem hread hnode hroot

/-- Comments before, in and behind a call. -/
def commented : String := "// first\nf(1 /* one */, 2) // last\n"

theorem commented_nodes_are_tight : (Program.ofSource commented).isOk = true ∧
    ∀ node ∈ (Program.ofSource commented).root.descendants, node ≠ (Program.ofSource commented).root →
      node.Tight ∨ (node.kind = .stmtList ∧ node.part.placed = []) := by
  have hread : (Program.ofSource commented).isOk = true := by decide +kernel
  exact ⟨hread, (nodes_are_tight commented).2 hread⟩

end RouteTypes
