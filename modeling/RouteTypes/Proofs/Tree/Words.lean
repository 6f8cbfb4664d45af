-- Names and references to names are one word each, without blanks and comments. So what they are called in a
-- message does not depend on how the program is laid out.
import RouteTypes.Proofs.Grammar.Respacing
import RouteTypes.Proofs.Tree.Layout
import RouteTypes.Proofs.Tree.Twins

namespace RouteTypes

open RouteTypes.Tree

/-! ## What nodes start with -/

theorem Tree.Opened.child : Node.HandedDown Tree.Opened
  | _, _, .node _ below => below

namespace Program

/-- What holds of the parts of a program and is handed down in them holds of every node but the outermost. -/
theorem below_of_mem {good : Tree → Prop} (hgood : Node.HandedDown good) {text : String} {source : Source}
    {node : Node} (hnode : node ∈ (Node.ofTree source (Program.ofSource text).tree).descendants)
    (hbelow : ∀ child ∈ (Program.ofSource text).tree.children, good child) (hkind : node.kind ≠ .sourceFile) :
    good node.tree := by
  rw [ofSource_eq] at hnode hbelow
  rcases List.mem_cons.mp hnode with rfl | hnode
  · exact absurd rfl hkind
  · exact (Node.lies_of_mem_all hgood _ hbelow hnode).good

end Program

/-! ## Words -/

namespace NodeKind

/-- What is written as one word. -/
def isWord (kind : NodeKind) : Bool := kind == .name || kind == .nameRef

end NodeKind

namespace Grammar

def isToken : Kind → Bool
  | .token _ => true
  | .node _ | .tombstone => false

theorem word_shows : (NodeKind.all.filter NodeKind.isWord).all
    (shows (fun part => some (isToken part)) · [[true]]) = true := by
  decide +kernel

end Grammar

/-- A row of parts that neither starts nor ends with a blank or a comment and has one part that means something. -/
theorem Part.eq_singleton {parts : List Part} {part : Part} (h : parts.filter (!·.isTrivia) = [part])
    (hfirst : ∀ first ∈ parts.head?, first.isTrivia = false) (hlast : ∀ last ∈ parts.getLast?, last.isTrivia = false) :
    parts = [part] := by
  cases parts with
  | nil => cases h
  | cons first rest =>
    rw [List.filter_cons_of_pos (by rw [hfirst first rfl]; rfl)] at h
    obtain ⟨rfl, hrest⟩ := List.cons.inj h
    rcases List.eq_nil_or_concat rest with rfl | ⟨before, last, rfl⟩
    · rfl
    · rw [List.concat_eq_append] at hlast hrest
      have hsolid := hlast last (by rw [← List.cons_append, List.getLast?_concat]; rfl)
      have hin := List.filter_eq_nil_iff.mp hrest last (by simp)
      simp [hsolid] at hin

namespace Program

variable {text : String} (h : (Program.ofSource text).isOk = true) {source : Source} {node : Node}
  (hnode : node ∈ (Node.ofTree source (Program.ofSource text).tree).descendants)

include h hnode

/-- A word is one token, which is its text. -/
theorem text_of_word (hkind : node.kind.isWord = true) : ∃ token, node.solids = [token] ∧ node.text = token.text := by
  have hview := List.mem_singleton.mp (view_of_mem h hnode
    (List.all_eq_true.mp Grammar.word_shows _ (List.mem_filter.mpr ⟨NodeKind.mem_all _, hkind⟩)))
  rw [List.filterMap_eq_map', Node.row, List.map_map] at hview
  obtain ⟨part, hpart, hleaf⟩ := List.map_eq_singleton_iff.mp hview
  have hfirst := below_of_mem Tree.Opened.child hnode (ofSource_opened text) (by rintro hfile; rw [hfile] at hkind; cases hkind)
  have hlast := (good_of_mem h hnode).sound.last_solid
  have herase : ∀ part : Part, part.erase.isTrivia = part.isTrivia := fun part => by cases part <;> rfl
  rw [Route.eraseAll_eq] at hlast
  have hparts : node.parts = [part] := by
    refine Part.eq_singleton hpart (fun first hin => ?_) fun last hin => ?_
    · cases hfirst with
      | node opens _ =>
        rw [← herase]
        exact opens _ (by rw [Route.eraseAll_eq, List.head?_map, hin]; rfl)
    · rw [← herase]
      exact hlast _ (by rw [List.getLast?_map, hin]; rfl)
  cases part with
  | node _ _ _ => cases hleaf
  | leaf span token =>
    have hsolid : (!(Part.leaf span token).isTrivia) = true := by
      have := hpart ▸ List.mem_singleton_self (Part.leaf span token)
      exact (List.mem_filter.mp this).2
    refine ⟨token, ?_, ?_⟩
    · rw [Node.solids_eq, hparts]
      exact List.filter_cons_of_pos hsolid
    · rw [Node.text, Node.tree, hparts]
      simp [Tree.text, Part.eraseAll, Part.erase, Tree.tokens, tokensOf]

end Program

/-- What is called by the same word in both programs is. -/
theorem Pairing.Alike.text {P : Pairing} {text text' : String} (hread : (Program.ofSource text).isOk = true)
    (hread' : (Program.ofSource text').isOk = true) (hroot : P.root = (Program.ofSource text).root)
    (hroot' : P.root' = (Program.ofSource text').root) {node node' : Node} (h : P.Alike node node')
    (hkind : node.kind.isWord = true) : node'.text = node.text := by
  rcases h.twin with ⟨way, hway, hway'⟩ | hsame
  · cases hway.symm.trans hway'
    rfl
  · obtain ⟨token, hsolids, htext⟩ := Program.text_of_word hread (hroot ▸ hsame.mem P.rooted) hkind
    obtain ⟨token', hsolids', htext'⟩ := Program.text_of_word hread' (hroot' ▸ hsame.mem' P.rooted) (h.kind ▸ hkind)
    rw [h.solids, hsolids] at hsolids'
    rw [htext, htext', (List.cons.inj hsolids').1]

end RouteTypes
