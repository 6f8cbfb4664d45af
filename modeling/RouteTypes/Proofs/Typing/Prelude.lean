-- What is known of the declarations that every program sees, before any program is read.
import RouteTypes.Proofs.Grammar.Whole
import RouteTypes.Typing.Checked

namespace RouteTypes

/-! ## The text -/

/-- The tree of a text of these characters. -/
def treeOfChars (chars : List Char) : Tree := .node .sourceFile (Grammar.parts (Token.scan chars)).1

theorem Program.tree_ofList (chars : List Char) : (Program.ofSource (String.ofList chars)).tree = treeOfChars chars := by
  rw [ofSource_eq, Token.ofSource, String.toList_ofList, treeOfChars]

theorem Program.isOk_ofList (chars : List Char) :
    (Program.ofSource (String.ofList chars)).isOk = (Grammar.parts (Token.scan chars)).2.misfits.isEmpty := by
  rw [ofSource_eq, Token.ofSource, String.toList_ofList, isOk]

set_option maxRecDepth 100000 in
/-- The declarations that every program sees are read without a misfit. They are taken character by
character, which is the quickest way to read a long text. -/
theorem prelude_isOk : (Program.ofSource preludeSource).isOk = true := by
  obtain ⟨chars, hchars, hread⟩ : ∃ chars, preludeSource = String.ofList chars ∧
      (Grammar.parts (Token.scan chars)).2.misfits.isEmpty = true := by
    refine ⟨_, rfl, ?_⟩
    decide +kernel
  rw [hchars, Program.isOk_ofList, hread]

end RouteTypes
