-- The rules without a limit, told without events. Events tell of the same tokens one row of trees only, so
-- what such a rule reads is what the grammar says, with the rules in it read like that again; and a program
-- is read by these rules.
import RouteTypes.Proofs.Grammar.Tails
import RouteTypes.Proofs.Grammar.Termination
import RouteTypes.Proofs.Grammar.Whole

namespace RouteTypes

open RouteTypes.Tree

/-! ## Events tell the trees -/

/-- Of the same tokens, events spell one row of trees. -/
theorem Event.Spells.unique {place : Nat} {events : List Event} {trees trees' : List Tree}
    (h : Spells place events trees) (h' : Spells place events trees')
    (htokens : tokensOf trees' = tokensOf trees) : trees' = trees := by
  let before := List.replicate place Event.takes
  have hplace : before.length = place := List.length_replicate
  obtain ⟨left, -, hreplay⟩ :=
    h.replay before [] hplace ⟨tokensOf trees, [], []⟩ [] (List.append_nil _).symm
  obtain ⟨left', -, hreplay'⟩ :=
    h'.replay before [] hplace ⟨tokensOf trees, [], []⟩ [] (by rw [htokens, List.append_nil])
  rw [hreplay, Option.some_inj, Prod.mk.injEq, Assembly.mk.injEq] at hreplay'
  simpa using hreplay'.2.2.1.symm

namespace Reader

variable {r r' : Reader}

theorem Reads.unique {read read' : List Tree × Sight} (h : r.Reads r' read) (h' : r.Reads r' read')
    (hkept : r.tokens = tokensOf read.1 ++ read.2.tokens)
    (hkept' : r.tokens = tokensOf read'.1 ++ read'.2.tokens) : read' = read := by
  obtain ⟨hsight, events, hevents, hspells⟩ := h
  obtain ⟨hsight', events', hevents', hspells'⟩ := h'
  have hbehind : read'.2 = read.2 := hsight'.symm.trans hsight
  obtain rfl : events = events' := List.append_cancel_left (hevents.symm.trans hevents')
  rw [hbehind, hkept] at hkept'
  exact Prod.ext (hspells.unique hspells' (List.append_cancel_right hkept').symm) hbehind

theorem Finds.unique {answer : Option Beginning × Reader} {read read' : Found × Sight}
    (h : r.Finds answer read) (h' : r.Finds answer read')
    (hkept : r.tokens = tokensOf read.1.trees ++ read.2.tokens)
    (hkept' : r.tokens = tokensOf read'.1.trees ++ read'.2.tokens) : read' = read := by
  have hboth := (Reads.ofFinds h).unique (Reads.ofFinds h') hkept hkept'
  cases h with
  | nothing _ => cases h'; rfl
  | node _ =>
    cases h' with
    | node _ =>
      obtain ⟨hblanks, htree⟩ := List.append_inj' (congrArg Prod.fst hboth) rfl
      have hsame := congrArg tokensOf hblanks
      rw [tokensOf_leaves, tokensOf_leaves] at hsame
      rw [hsame, List.singleton_inj.mp htree]

end Reader

/-! ## The rules -/

namespace Grammar

theorem unboundedReadings_tokens (rule : Rule) (s : Sight) : s.tokens =
    tokensOf (unboundedReadings rule s).1.trees ++ (unboundedReadings rule s).2.tokens :=
  readingsUpTo_tokens _ rule s

/-- Each rule reads what the grammar says, with the rules in it nested as deep as they come to be. -/
theorem unboundedReadings_eq (rule : Rule) (s : Sight) :
    unboundedReadings rule s = (phraseOf rule).read unboundedReadings s := by
  let r : Reader := ⟨s, #[]⟩
  have hgrammar := (phraseOf rule).run_finds unbounded_finds r
  rw [← unbounded_eq] at hgrammar
  exact hgrammar.unique (unbounded_finds rule r)
    ((phraseOf rule).read_tokens unboundedReadings_tokens s) (unboundedReadings_tokens rule s)

theorem unboundedReadings_orderly : unboundedReadings.Orderly where
  tokens := unboundedReadings_tokens
  leads := unboundedReadings_leads
  goesOn := unboundedReadings_goesOn
  fit := ⟨unboundedReadings_leads_any, fun rule s => (readingsUpTo_fit _).fits rule s⟩

/-! ## Programs -/

theorem parts_unbounded (tokens : List Token) :
    parts tokens = ((program.read unboundedReadings (.ofTokens tokens)).1.2,
      (program.read unboundedReadings (.ofTokens tokens)).2) := by
  let start := Reader.ofTokens tokens
  have hlimited := (program.run_reads (rulesUpTo_finds (depthFor start.ahead.length)) start.begin).2
  rw [program_unbounded] at hlimited
  have hall := (program.run_reads unbounded_finds start.begin).2
  exact hall.unique hlimited (program.read_tokens unboundedReadings_tokens _)
    (program.read_tokens (readingsUpTo_tokens _) _)

/-- A program is what its parts are, read by the rules without a limit. -/
theorem ofTokens_unbounded {tokens before : List Token} {last : Token} (htokens : tokens = before ++ [last])
    (hlast : last.kind = .eof) (hbefore : ∀ token ∈ before, token.kind ≠ .eof) :
    Program.ofTokens tokens = ⟨.node .sourceFile (program.read unboundedReadings (.ofTokens tokens)).1.2,
      (program.read unboundedReadings (.ofTokens tokens)).2.misfits⟩ := by
  obtain ⟨hsight, kind, link, tail, hevents, htower⟩ := readAll_stands tokens
  have hbuild := htower.build
  rw [Tree.tokens, ← parts_keep htokens hlast hbefore] at hbuild
  rw [List.nil_append] at hevents
  have harray : (readAll tokens).events = (.begins (some kind) link :: tail).toArray := by
    rw [← hevents]
  rw [Program.ofTokens, harray, hbuild, hsight, parts_unbounded]
  rfl

end Grammar

end RouteTypes
