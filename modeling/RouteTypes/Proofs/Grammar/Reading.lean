-- What is read, told without events: a piece of grammar turns what is to come into trees, and leaves what
-- is to come behind them. The reader does the same and leaves the events that spell these trees, so all
-- that follows about trees is proved of the reading without events.
import RouteTypes.Grammar.Program
import RouteTypes.Proofs.Grammar.Replay

namespace RouteTypes

open RouteTypes.Tree

/-! ## Reading without events -/

/-- What a phrase reads: a node and the blanks and comments before it, or nothing. -/
abbrev Found := Option (List Token × Tree)

/-- The trees that are put into the open node. -/
def Found.trees : Found → List Tree
  | none => []
  | some (blanks, tree) => blanks.map .leaf ++ [tree]

/-- How each rule is read. -/
abbrev Readings := Rule → Sight → Found × Sight

namespace Sight

/-- The tokens to come, with blanks and comments. -/
def tokens (s : Sight) : List Token := s.ahead.flatMap Lexeme.tokens

def take (kinds : List TokenKind) (s : Sight) : List Tree × Sight :=
  if s.isAtAny kinds then (s.next.map .leaf, s.advance)
  else ([], s.refuse (.token (kinds.headD .eof)))

/-- Collects what a step reads as long as the question is answered with yes. -/
def collectWhile (question : Sight → Bool) (step : Sight → List Tree × Sight) (s : Sight) :
    List Tree × Sight :=
  if question s then
    let one := step s
    if one.2.ahead.length < s.ahead.length then
      let rest := collectWhile question step one.2
      (one.1 ++ rest.1, rest.2)
    else one
  else ([], s)
termination_by s.ahead.length

/-- Makes trees around each other as long as a step makes one. -/
def wrapWhile (step : Tree → Sight → Option Tree × Sight) (inner : Tree) (s : Sight) : Tree × Sight :=
  match step inner s with
  | (none, behind) => (inner, behind)
  | (some outer, behind) =>
    if behind.ahead.length < s.ahead.length then wrapWhile step outer behind else (outer, behind)
termination_by s.ahead.length

end Sight

section

variable (readings : Readings)

mutual

def Steps.read : Steps → Sight → List Tree × Sight
  | .done, s => ([], s)
  | .take kinds, s => s.take kinds
  | .refuse expected, s => ([], s.refuse expected)
  | .seq first rest, s =>
    let one := first.read s
    let other := rest.read one.2
    (one.1 ++ other.1, other.2)
  | .branch question yes no, s => if question.ask s then yes.read s else no.read s
  | .loop question body, s => s.collectWhile question.ask body.read
  | .part phrase, s =>
    let found := phrase.read s
    (Found.trees found.1, found.2)
  | .enclosed what inside, s =>
    let one := inside.read s
    if one.2.hasMisfit then one
    else if one.2.kind == .rBrace then (one.1 ++ one.2.next.map .leaf, one.2.advance)
    else (one.1, one.2.refuse (.closingBrace what s.span))

def Body.read : Body → Sight → (NodeKind × List Tree) × Sight
  | .close kind, s => ((kind, []), s)
  | .seq first rest, s =>
    let one := first.read s
    let other := rest.read one.2
    ((other.1.1, one.1 ++ other.1.2), other.2)
  | .branch question yes no, s => if question.ask s then yes.read s else no.read s

def Phrase.read : Phrase → Sight → Found × Sight
  | .refuse expected, s => (none, s.refuse expected)
  | .node body, s =>
    let inner := body.read s.flush
    (some (s.leading, .node inner.1.1 inner.1.2), inner.2)
  | .branch question yes no, s => if question.ask s then yes.read s else no.read s
  | .call rule, s => readings rule s
  | .wrap inner suffix, s =>
    match inner.read s with
    | (none, behind) => (none, behind)
    | (some (blanks, tree), behind) =>
      let last := suffix.read tree behind
      (some (blanks, last.1.getD tree), last.2)
  | .extend inner suffix, s =>
    match inner.read s with
    | (none, behind) => (none, behind)
    | (some (blanks, tree), behind) =>
      let last := behind.wrapWhile suffix.read tree
      (some (blanks, last.1), last.2)

def Suffix.read : Suffix → Tree → Sight → Option Tree × Sight
  | .stop, _, s => (none, s)
  | .around body, inner, s =>
    let rest := body.read s
    (some (.node rest.1.1 (inner :: rest.1.2)), rest.2)
  | .branch question yes no, inner, s =>
    if question.ask s then yes.read inner s else no.read inner s

end

end

namespace Grammar

/-- The rules, nested at most that deep. -/
def readingsUpTo : Nat → Readings
  | 0, _, s => (none, s.refuse .expression)
  | depth + 1, rule, s => (phraseOf rule).read (readingsUpTo depth) s

/-- The parts of a program, and what is to come behind it. -/
def parts (tokens : List Token) : List Tree × Sight :=
  let start := Sight.ofTokens tokens
  let read := program.read (readingsUpTo (depthFor start.ahead.length)) start
  (read.1.2, read.2)

end Grammar

/-! ## Moving a node outwards -/

namespace Event

theorem Tower.le {place outermost : Nat} {kind : NodeKind} {link : Option Nat} {tail : List Event}
    {inner : List Tree} {tree : Tree} (h : Tower place kind link tail inner outermost tree) :
    place ≤ outermost := by
  induction hlength : tail.length using Nat.strongRecOn generalizing place kind link tail inner with
  | ind length ih =>
    cases h with
    | last _ => exact Nat.le_refl _
    | more _ around =>
      have := ih _ (by rw [← hlength, List.length_append]; simp only [List.length_cons]; omega) around rfl
      omega

theorem modify_behind (before behind : List Event) (place : Nat) (f : Event → Event) :
    (before ++ behind).modify (before.length + place) f = before ++ behind.modify place f := by
  induction before with
  | nil => simp
  | cons event before ih => simpa [Nat.add_right_comm] using ih

/-- A tower grows by a node around its outermost one, which is linked to the new beginning. -/
theorem Tower.grow {place outermost : Nat} {kind : NodeKind} {link : Option Nat} {tail : List Event}
    {inner : List Tree} {tree : Tree} (h : Tower place kind link tail inner outermost tree)
    (outer : NodeKind) {events : List Event} {trees : List Tree}
    (body : Spells (place + 1 + tail.length + 1) events trees) :
    ∃ link' tail', (Event.begins (some kind) link :: tail).modify (outermost - place)
          (linkedTo (place + 1 + tail.length)) = .begins (some kind) link' :: tail' ∧
      Tower place kind link' (tail' ++ .begins (some outer) none :: (events ++ [.ends])) inner
        (place + 1 + tail.length) (.node outer (tree :: trees)) := by
  match h with
  | @Tower.last _ _ first _ firstTrees hfirst =>
    refine ⟨some (place + 1 + (first ++ [Event.ends]).length), first ++ [.ends], ?_, ?_⟩
    · simp [linkedTo]
    · have hlast : Tower _ outer none _ [.node kind (inner ++ firstTrees)] _ _ := .last body
      simp only [List.length_append, List.length_singleton, ← Nat.add_assoc] at hlast ⊢
      simpa using Tower.more hfirst hlast
  | @Tower.more _ _ _ around link' first tail' _ firstTrees _ hfirst haround =>
    have hle := haround.le
    have hplace : place + 1 + (first ++ .ends :: .begins (some around) link' :: tail').length =
        place + 1 + first.length + 1 + 1 + tail'.length := by simp; omega
    rw [hplace] at body ⊢
    obtain ⟨newLink, newTail, hmodify, hgrown⟩ := haround.grow outer body
    refine ⟨some (place + 1 + first.length + 1), first ++ .ends :: .begins (some around) newLink :: newTail,
      ?_, ?_⟩
    · have hindex : outermost - place = (Event.begins (some kind)
          (some (place + 1 + first.length + 1)) :: (first ++ [.ends])).length +
          (outermost - (place + 1 + first.length + 1)) := by simp; omega
      have := modify_behind (.begins (some kind) (some (place + 1 + first.length + 1)) ::
        (first ++ [.ends])) (.begins (some around) link' :: tail')
        (outermost - (place + 1 + first.length + 1)) (linkedTo (place + 1 + first.length + 1 + 1 + tail'.length))
      rw [← hindex, hmodify] at this
      simpa using this
    · simpa using Tower.more hfirst hgrown

theorem Spells.append {place : Nat} {events more : List Event} {trees others : List Tree}
    (h : Spells place events trees) (hmore : Spells (place + events.length) more others) :
    Spells place (events ++ more) (trees ++ others) := by
  match h with
  | .nil => simpa using hmore
  | @Spells.takes _ events _ _ rest =>
    have hplace : place + (Event.takes :: events).length = place + 1 + events.length := by
      simp; omega
    rw [hplace] at hmore
    exact .takes (rest.append hmore)
  | @Spells.tower _ _ kind link tail events tree _ first rest =>
    have hplace : place + (Event.begins (some kind) link :: (tail ++ events)).length =
        place + 1 + tail.length + events.length := by simp; omega
    rw [hplace] at hmore
    simpa using Spells.tower first (rest.append hmore)

theorem Spells.leaves (place : Nat) : ∀ tokens : List Token,
    Spells place (List.replicate tokens.length .takes) (tokens.map .leaf)
  | [] => .nil
  | _ :: rest => .takes (Spells.leaves (place + 1) rest)

end Event

/-! ## What a reader leaves -/

namespace Reader

/-- The reader has come from `r` to `r'`: it left events that spell the trees, and sees the rest. -/
def Reads (r r' : Reader) (read : List Tree × Sight) : Prop :=
  r'.toSight = read.2 ∧
    ∃ events, r'.events.toList = r.events.toList ++ events ∧
      Event.Spells r.events.size events read.1

/-- Behind the events `before`, the reader has left a tower of that tree, and nothing behind it. -/
def Stands (before : List Event) (r : Reader) (place : Beginning) (tree : Tree) : Prop :=
  ∃ kind link tail, r.events.toList = before ++ .begins (some kind) link :: tail ∧
    Event.Tower before.length kind link tail [] place.index tree

/-- The reader has come from `r` to where it answers a beginning, if there is a node. -/
inductive Finds (r : Reader) : Option Beginning × Reader → Found × Sight → Prop
  | nothing {r' : Reader} (events : r'.events = r.events) : Finds r (none, r') (none, r'.toSight)
  | node {r' : Reader} {place : Beginning} {blanks : List Token} {tree : Tree}
      (stands : Stands (r.events.toList ++ List.replicate blanks.length .takes) r' place tree) :
      Finds r (some place, r') (some (blanks, tree), r'.toSight)

/-- The tower behind the events `before` has grown, or it stands as it stood. -/
inductive Grows (before : List Event) (r : Reader) :
    Option Beginning × Reader → Option Tree × Sight → Prop
  | stop : Grows before r (none, r) (none, r.toSight)
  | around {r' : Reader} {place : Beginning} {tree : Tree} (stands : Stands before r' place tree) :
      Grows before r (some place, r') (some tree, r'.toSight)

theorem Reads.refl (r : Reader) : Reads r r ([], r.toSight) :=
  ⟨rfl, [], by simp, .nil⟩

theorem Reads.trans {r r' r'' : Reader} {read read' : List Tree × Sight} (h : Reads r r' read)
    (h' : Reads r' r'' read') : Reads r r'' (read.1 ++ read'.1, read'.2) := by
  obtain ⟨-, events, hevents, hspells⟩ := h
  obtain ⟨hsight, events', hevents', hspells'⟩ := h'
  refine ⟨hsight, events ++ events', by rw [hevents', hevents, List.append_assoc], ?_⟩
  have hsize : r'.events.size = r.events.size + events.length := by
    rw [← Array.length_toList, hevents, List.length_append, Array.length_toList]
  rw [hsize] at hspells'
  exact hspells.append hspells'

theorem Reads.move (r : Reader) (tokens : List Token) (sight : Sight) :
    Reads r (r.move tokens.length sight) (tokens.map .leaf, sight) :=
  ⟨rfl, List.replicate tokens.length .takes, by simp [Reader.move], Event.Spells.leaves _ _⟩

theorem Reads.refuse (r : Reader) (expected : Expected) :
    Reads r (r.refuse expected) ([], r.toSight.refuse expected) :=
  ⟨rfl, [], by simp [Reader.refuse], .nil⟩

theorem Reads.take (r : Reader) (kinds : List TokenKind) :
    Reads r (r.take kinds) (r.toSight.take kinds) := by
  unfold Reader.take Sight.take
  split
  · exact Reads.move r r.next _
  · exact Reads.refuse r _

theorem Reads.repeatWhile (question : Sight → Bool) {step : Reader → Reader}
    {step' : Sight → List Tree × Sight} (hstep : ∀ r, Reads r (step r) (step' r.toSight)) (r : Reader) :
    Reads r (r.repeatWhile question step) (r.toSight.collectWhile question step') := by
  rw [Reader.repeatWhile, Sight.collectWhile]
  split
  · have hone := hstep r
    have hsight : (step r).toSight = (step' r.toSight).2 := hone.1
    dsimp only
    rw [← hsight]
    split
    · rename_i hless
      exact hone.trans (Reads.repeatWhile question hstep (step r))
    · exact hone
  · exact Reads.refl r
termination_by r.ahead.length

/-- A node that begins behind the events `before`, once its parts have been read. -/
theorem Stands.begin {before : List Event} {r r' : Reader} {read : List Tree × Sight}
    (kind : NodeKind) (hbefore : r.events.toList = before) (h : Reads r.begin r' read) :
    Stands before (r'.finish r.here kind) r.here (.node kind read.1) := by
  obtain ⟨-, events, hevents, hspells⟩ := h
  have hsize : before.length = r.events.size := by rw [← hbefore, Array.length_toList]
  have hbegin : r.begin.events.toList = before ++ [.begins none none] := by
    simp [Reader.begin, Reader.leave, hbefore]
  refine ⟨kind, none, events ++ [.ends], ?_, ?_⟩
  · have hmodify := Event.modify_behind before (.begins none none :: events) 0 (Event.named kind)
    rw [hbegin, List.append_assoc, List.singleton_append] at hevents
    simp only [Reader.finish, Reader.leave, Reader.here, Array.toList_push, Array.toList_modify, hevents,
      ← hsize]
    rw [Nat.add_zero] at hmodify
    rw [hmodify]
    simp [Event.named]
  · rw [hsize]
    have hplace : r.begin.events.size = r.events.size + 1 := by simp [Reader.begin, Reader.leave]
    rw [hplace] at hspells
    exact .last hspells

/-- A node that is put around a tower, once its parts have been read. -/
theorem Stands.beginAround {before : List Event} {r r' : Reader} {inner : Beginning} {tree : Tree}
    {read : List Tree × Sight} (kind : NodeKind) (hinner : Stands before r inner tree)
    (h : Reads (r.beginAround inner) r' read) :
    Stands before (r'.finish r.here kind) r.here (.node kind (tree :: read.1)) := by
  obtain ⟨first, link, tail, hr, htower⟩ := hinner
  obtain ⟨-, events, hevents, hspells⟩ := h
  have hsize : r.events.size = before.length + 1 + tail.length := by
    rw [← Array.length_toList, hr]
    simp
    omega
  have hplace : (r.beginAround inner).events.size = before.length + 1 + tail.length + 1 := by
    simp [Reader.beginAround, Reader.begin, Reader.leave, hsize]
  rw [hplace] at hspells
  obtain ⟨link', tail', hmodify, hgrown⟩ := htower.grow kind hspells
  have hlinked : r.events.toList.modify inner.index (Event.linkedTo r.events.size) =
      before ++ .begins (some first) link' :: tail' := by
    have hindex : inner.index = before.length + (inner.index - before.length) := by
      have := htower.le
      omega
    rw [hr, hindex, Event.modify_behind, hsize, hmodify]
  have htail : tail'.length = tail.length := by
    have := congrArg List.length hmodify
    simpa using this.symm
  have hbegin : (r.beginAround inner).events.toList =
      before ++ .begins (some first) link' :: (tail' ++ [.begins none none]) := by
    simp [Reader.beginAround, Reader.begin, Reader.leave, hlinked]
  refine ⟨first, link', tail' ++ .begins (some kind) none :: (events ++ [.ends]), ?_, ?_⟩
  · have hmodify' := Event.modify_behind (before ++ .begins (some first) link' :: tail')
      (.begins none none :: events) 0 (Event.named kind)
    have hlength : (before ++ Event.begins (some first) link' :: tail').length = r.events.size := by
      rw [hsize, ← htail]
      simp
      omega
    rw [Nat.add_zero, hlength] at hmodify'
    rw [hbegin] at hevents
    have hevents' : r'.events.toList =
        before ++ Event.begins (some first) link' :: tail' ++ .begins none none :: events := by
      rw [hevents]
      simp
    simp only [Reader.finish, Reader.leave, Reader.here, Array.toList_push, Array.toList_modify,
      hevents', hmodify']
    simp [Event.named]
  · rw [Reader.here, hsize]
    exact hgrown

theorem Reads.ofFinds {r : Reader} {answer : Option Beginning × Reader} {read : Found × Sight}
    (h : Finds r answer read) : Reads r answer.2 (read.1.trees, read.2) := by
  cases h with
  | nothing hevents => exact ⟨rfl, [], by simpa using congrArg Array.toList hevents, .nil⟩
  | @node r' place blanks tree hstands =>
    obtain ⟨kind, link, tail, hr, htower⟩ := hstands
    refine ⟨rfl, List.replicate blanks.length .takes ++ .begins (some kind) link :: (tail ++ []),
      by simpa using hr, ?_⟩
    rw [List.length_append, Array.length_toList] at htower
    exact (Event.Spells.leaves _ blanks).append (.tower htower .nil)

theorem Grows.repeatOn {before : List Event} {step : Beginning → Reader → Option Beginning × Reader}
    {step' : Tree → Sight → Option Tree × Sight}
    (hstep : ∀ inner r tree, Stands before r inner tree →
      Grows before r (step inner r) (step' tree r.toSight))
    (inner : Beginning) (r : Reader) (tree : Tree) (hinner : Stands before r inner tree) :
    (r.repeatOn step inner).2.toSight = (r.toSight.wrapWhile step' tree).2 ∧
      Stands before (r.repeatOn step inner).2 (r.repeatOn step inner).1
        (r.toSight.wrapWhile step' tree).1 := by
  rw [Reader.repeatOn, Sight.wrapWhile]
  have hone := hstep inner r tree hinner
  generalize step inner r = answer at hone ⊢
  generalize step' tree r.toSight = grown at hone ⊢
  cases hone with
  | stop => exact ⟨rfl, hinner⟩
  | @around behind place outer hstands =>
    dsimp only
    split
    · exact Grows.repeatOn hstep place behind outer hstands
    · exact ⟨rfl, hstands⟩
termination_by r.ahead.length

end Reader

/-! ## The reader reads what is read without events -/

section

variable {rules : Rules} {readings : Readings}

mutual

theorem Steps.run_reads (hrules : ∀ rule r, Reader.Finds r (rules rule r) (readings rule r.toSight)) :
    ∀ (steps : Steps) (r : Reader), r.Reads (steps.run rules r) (steps.read readings r.toSight)
  | .done, r => Reader.Reads.refl r
  | .take kinds, r => Reader.Reads.take r kinds
  | .refuse expected, r => Reader.Reads.refuse r expected
  | .seq first rest, r => by
    have hfirst := first.run_reads hrules r
    have hrest := rest.run_reads hrules (first.run rules r)
    rw [hfirst.1] at hrest
    exact hfirst.trans hrest
  | .branch question yes no, r => by
    rw [Steps.run, Steps.read]
    split
    · exact yes.run_reads hrules r
    · exact no.run_reads hrules r
  | .loop question body, r => Reader.Reads.repeatWhile _ (body.run_reads hrules) r
  | .part phrase, r => Reader.Reads.ofFinds (phrase.run_finds hrules r)
  | .enclosed what inside, r => by
    have hinside := inside.run_reads hrules r
    have hsight := hinside.1
    rw [Steps.run, Steps.read, hsight]
    split
    · exact hinside
    · split
      · have hmove := Reader.Reads.move (inside.run rules r) (inside.run rules r).next
          (inside.run rules r).toSight.advance
        rw [hsight] at hmove
        simpa [Reader.advance, hsight] using hinside.trans hmove
      · have hrefuse := Reader.Reads.refuse (inside.run rules r) (.closingBrace what r.span)
        rw [hsight] at hrefuse
        simpa using hinside.trans hrefuse

theorem Body.run_reads (hrules : ∀ rule r, Reader.Finds r (rules rule r) (readings rule r.toSight)) :
    ∀ (body : Body) (r : Reader), (body.run rules r).1 = (body.read readings r.toSight).1.1 ∧
      r.Reads (body.run rules r).2
        ((body.read readings r.toSight).1.2, (body.read readings r.toSight).2)
  | .close kind, r => ⟨rfl, Reader.Reads.refl r⟩
  | .seq first rest, r => by
    have hfirst := first.run_reads hrules r
    have hrest := rest.run_reads hrules (first.run rules r)
    rw [hfirst.1] at hrest
    exact ⟨hrest.1, hfirst.trans hrest.2⟩
  | .branch question yes no, r => by
    rw [Body.run, Body.read]
    split
    · exact yes.run_reads hrules r
    · exact no.run_reads hrules r

theorem Phrase.run_finds (hrules : ∀ rule r, Reader.Finds r (rules rule r) (readings rule r.toSight)) :
    ∀ (phrase : Phrase) (r : Reader), r.Finds (phrase.run rules r) (phrase.read readings r.toSight)
  | .refuse expected, r => .nothing rfl
  | .node body, r => by
    obtain ⟨hkind, hreads⟩ := body.run_reads hrules r.flush.begin
    have hbefore : r.flush.events.toList =
        r.events.toList ++ List.replicate r.leading.length .takes := by
      simp [Reader.flush, Reader.move]
    have hstands := Reader.Stands.begin (body.run rules r.flush.begin).1 hbefore hreads
    have hsight : ((body.run rules r.flush.begin).2.finish r.flush.here
        (body.run rules r.flush.begin).1).toSight = (body.read readings r.toSight.flush).2 := hreads.1
    rw [Phrase.run, Phrase.read, ← hsight]
    refine .node ?_
    rw [hkind] at hstands ⊢
    exact hstands
  | .branch question yes no, r => by
    rw [Phrase.run, Phrase.read]
    split
    · exact yes.run_finds hrules r
    · exact no.run_finds hrules r
  | .call rule, r => hrules rule r
  | .wrap inner suffix, r => by
    have hinner := inner.run_finds hrules r
    rw [Phrase.run, Phrase.read]
    generalize inner.run rules r = answer at hinner ⊢
    generalize inner.read readings r.toSight = found at hinner ⊢
    cases hinner with
    | nothing hevents => exact .nothing hevents
    | @node behind place blanks tree hstands =>
      have hgrows := suffix.run_grows hrules _ place behind tree hstands
      dsimp only
      generalize suffix.run rules place behind = last at hgrows ⊢
      generalize suffix.read readings tree behind.toSight = grown at hgrows ⊢
      cases hgrows with
      | stop => exact .node hstands
      | around houter => exact .node houter
  | .extend inner suffix, r => by
    have hinner := inner.run_finds hrules r
    rw [Phrase.run, Phrase.read]
    generalize inner.run rules r = answer at hinner ⊢
    generalize inner.read readings r.toSight = found at hinner ⊢
    cases hinner with
    | nothing hevents => exact .nothing hevents
    | @node behind place blanks tree hstands =>
      obtain ⟨hsight, hlast⟩ :=
        Reader.Grows.repeatOn (suffix.run_grows hrules _) place behind tree hstands
      dsimp only
      rw [← hsight]
      exact .node hlast

theorem Suffix.run_grows (hrules : ∀ rule r, Reader.Finds r (rules rule r) (readings rule r.toSight)) :
    ∀ (suffix : Suffix) (before : List Event) (inner : Beginning) (r : Reader) (tree : Tree),
      Reader.Stands before r inner tree →
      Reader.Grows before r (suffix.run rules inner r) (suffix.read readings tree r.toSight)
  | .stop, _, _, _, _, _ => .stop
  | .around body, before, inner, r, tree, hinner => by
    obtain ⟨hkind, hreads⟩ := body.run_reads hrules (r.beginAround inner)
    have hstands := Reader.Stands.beginAround (body.run rules (r.beginAround inner)).1 hinner hreads
    have hsight : ((body.run rules (r.beginAround inner)).2.finish r.here
        (body.run rules (r.beginAround inner)).1).toSight = (body.read readings r.toSight).2 := hreads.1
    rw [Suffix.run, Suffix.read, ← hsight]
    refine .around ?_
    rw [hkind] at hstands ⊢
    exact hstands
  | .branch question yes no, before, inner, r, tree, hinner => by
    rw [Suffix.run, Suffix.read]
    split
    · exact yes.run_grows hrules before inner r tree hinner
    · exact no.run_grows hrules before inner r tree hinner

end

end

namespace Grammar

theorem rulesUpTo_finds (depth : Nat) (rule : Rule) (r : Reader) :
    Reader.Finds r (rulesUpTo depth rule r) (readingsUpTo depth rule r.toSight) := by
  induction depth generalizing rule r with
  | zero => exact .nothing rfl
  | succ depth ih => exact (phraseOf rule).run_finds ih r

end Grammar

end RouteTypes
