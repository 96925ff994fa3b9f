import TextMatch.Proofs.Matcher.Invariant
import TextMatch.Proofs.Scanner.Scan
import TextMatch.Proofs.Source.Canonical
import TextMatch.Script

/-!
# Reachable scanners

What can be done with scanners over one source, in any number and order: advancing, bookmarks,
jumps to cursors that any of these scanners ever gave out, and matches. A scanner is a value, so a
scanner once reached stays at hand, as a clone of it would. Hooks count as long as they do no more
than this themselves, from whatever scanner over the same source they are called on; they may hold
cursors of this source from before (`operates_returnTo`).

So an invariant of jumps and steps that does not mind bookmarks and new scanners is one of every
scanner that can be reached (`Reaches.holds`). In particular, the cursors of all these scanners are
met by the walk over the source (`reachable_cursors_are_canonical`), with the counters that the
points before them give, and the cursor before the last advance is always the one before the current
cursor.
-/
namespace TextMatch

mutual

/-- Whoever has the first scanner can get to the second. -/
inductive Scanner.Reaches : Scanner → Scanner → Prop
  | origin {o : Scanner} : Scanner.Reaches o o
  | fresh {o s t : Scanner} (reached : Scanner.Reaches o s)
      (made : Scanner.ofSource s.source = .ok t) : Scanner.Reaches o t
  | advance {o s t : Scanner} (reached : Scanner.Reaches o s) (advanced : s.advance = .ok t) :
      Scanner.Reaches o t
  | advanceBy {o s : Scanner} (n : Nat) (reached : Scanner.Reaches o s) :
      Scanner.Reaches o (s.advanceBy n).2
  | jump {o s : Scanner} {c : Cursor} (reached : Scanner.Reaches o s)
      (given : Scanner.Gives o c) : Scanner.Reaches o (s.jump c)
  | setBookmark {o s : Scanner} (reached : Scanner.Reaches o s) :
      Scanner.Reaches o s.setBookmark
  | returnToBookmark {o s : Scanner} (reached : Scanner.Reaches o s) :
      Scanner.Reaches o s.returnToBookmark.2
  | expect {o : Scanner} {σ τ : Session} {limit : Nat} {es : List Expr}
      (reached : Scanner.Reaches o σ.scanner)
      (operate : ∀ h ∈ Expr.hooksIn es, Hook.Operates σ.scanner.source h)
      (left : (σ.expectWithin limit es).session? = some τ) : Scanner.Reaches o τ.scanner

/-- Whoever has the scanner can get to one that gives out the cursor. -/
inductive Scanner.Gives : Scanner → Cursor → Prop
  | current {o s : Scanner} (reached : Scanner.Reaches o s) : Scanner.Gives o s.current
  | previous {o s : Scanner} {c : Cursor} (reached : Scanner.Reaches o s)
      (recorded : s.previous = some c) : Scanner.Gives o c
  | boundary {o : Scanner} {σ τ : Session} {limit : Nat} {es : List Expr} {c : Cursor}
      (reached : Scanner.Reaches o σ.scanner)
      (operate : ∀ h ∈ Expr.hooksIn es, Hook.Operates σ.scanner.source h)
      (finished : σ.expectWithin limit es = .ok c τ) : Scanner.Gives o c
  | failure {o : Scanner} {σ τ : Session} {limit : Nat} {es : List Expr} {e : MatchError}
      {c : Cursor} (reached : Scanner.Reaches o σ.scanner)
      (operate : ∀ h ∈ Expr.hooksIn es, Hook.Operates σ.scanner.source h)
      (finished : σ.expectWithin limit es = .error e τ) (stopped : e.cursor? = some c) :
      Scanner.Gives o c

/-- The hook leaves every scanner over the source as these operations can. -/
inductive Hook.Operates : Source → Hook → Prop
  | intro {source : Source} {h : Hook}
      (run : ∀ s visit, s.source = source → h.run s = some visit →
        Scanner.Reaches s visit.scanner) : Hook.Operates source h

end

/-- An invariant that new scanners over the same source have too, and that takes no notice of
bookmarks. -/
structure Scanner.Invariant.Supports (inv : Scanner.Invariant) : Prop where
  fresh {t u : Scanner} : inv.holds t → Scanner.ofSource t.source = .ok u → inv.holds u
  setBookmark {t : Scanner} : inv.holds t → inv.holds t.setBookmark
  returnToBookmark {t : Scanner} : inv.holds t → inv.holds t.returnToBookmark.2

/-- And one that only scanners over `source` have. -/
structure Scanner.Invariant.IsOver (inv : Scanner.Invariant) (source : Source) : Prop
    extends inv.Supports where
  source_eq {t : Scanner} : inv.holds t → t.source = source

namespace Scanner.Invariant

variable (inv : Invariant) {s t : Scanner}

theorem advance (held : inv.holds s) (advanced : s.advance = .ok t) : inv.holds t := by
  unfold Scanner.advance at advanced
  split at advanced
  · cases advanced
  · cases advanced
    exact held
  · next stepped =>
    cases advanced
    exact inv.moveTo held stepped

theorem advanceBy (held : inv.holds s) (n : Nat) : inv.holds (s.advanceBy n).2 := by
  induction n generalizing s with
  | zero => exact held
  | succ n ih =>
    rw [advanceBy_succ]
    cases stepped : s.advance with
    | error e => exact held
    | ok t => exact ih (inv.advance held stepped)

end Scanner.Invariant

section Invariants

variable {inv : Scanner.Invariant} {source : Source}

mutual

theorem Scanner.Reaches.holds (covers : inv.IsOver source) : ∀ {o s : Scanner}, o.Reaches s →
    inv.holds o → inv.holds s
  | _, _, .origin, start => start
  | _, _, .fresh reached made, start => covers.fresh (reached.holds covers start) made
  | _, _, .advance reached advanced, start => inv.advance (reached.holds covers start) advanced
  | _, _, .advanceBy n reached, start => inv.advanceBy (reached.holds covers start) n
  | _, _, .jump reached given, start =>
    inv.jump (reached.holds covers start) (given.visits covers start)
  | _, _, .setBookmark reached, start => covers.setBookmark (reached.holds covers start)
  | _, _, .returnToBookmark reached, start => covers.returnToBookmark (reached.holds covers start)
  | _, _, .expect reached operate left, start =>
    have before := reached.holds covers start
    have keep := fun h hooked => (operate h hooked).keeps covers (covers.source_eq before)
    (Session.expectWithin_keeps _ before keep).holds left

theorem Scanner.Gives.visits (covers : inv.IsOver source) : ∀ {o : Scanner} {c : Cursor},
    o.Gives c → inv.holds o → inv.visits c
  | _, _, .current reached, start => inv.current (reached.holds covers start)
  | _, _, .previous reached recorded, start => inv.previous (reached.holds covers start) recorded
  | _, _, .boundary reached operate finished, start =>
    have before := reached.holds covers start
    have keep := fun h hooked => (operate h hooked).keeps covers (covers.source_eq before)
    (Session.expectWithin_keeps _ before keep).value finished
  | _, _, .failure reached operate finished stopped, start =>
    have before := reached.holds covers start
    have keep := fun h hooked => (operate h hooked).keeps covers (covers.source_eq before)
    (Session.expectWithin_keeps _ before keep).stopped finished stopped

theorem Hook.Operates.keeps (covers : inv.IsOver source) : ∀ {own : Source} {h : Hook},
    h.Operates own → own = source → h.Keeps inv
  | _, _, .intro run, same => fun s visit held ran =>
    (run s visit ((covers.source_eq held).trans same.symm) ran).holds covers held

end

end Invariants

namespace Scanner

/-- Scanners over `source` are scanners over it still. -/
def sourceInvariant (source : Source) : Invariant where
  holds t := t.source = source
  visits _ := True
  current _ := trivial
  previous _ _ := trivial
  jump same _ := same
  moveTo same _ := same

theorem ofSource_source {source : Source} {t : Scanner} (made : ofSource source = .ok t) :
    t.source = source := by
  obtain ⟨_, rfl⟩ := ofSource_eq_ok_iff.mp made
  rfl

theorem sourceInvariant_isOver (source : Source) : (sourceInvariant source).IsOver source where
  fresh same made := (ofSource_source made).trans same
  setBookmark same := same
  returnToBookmark {t} same := by
    refine Eq.trans ?_ same
    unfold returnToBookmark
    split <;> rfl
  source_eq same := same

theorem Reaches.source_eq {o s : Scanner} (reached : o.Reaches s) : s.source = o.source :=
  reached.holds (sourceInvariant_isOver o.source) rfl

/-- Every cursor that the walk over the source of a scanner meets can be got to from it. -/
theorem reaches_of_visited {o : Scanner} {c : Cursor} (visited : o.source.Visited c) :
    ∃ t, o.Reaches t ∧ t.source = o.source ∧ t.current = c := by
  obtain ⟨i, visited⟩ := visited
  induction visited with
  | first found =>
    obtain ⟨nonempty, rfl⟩ := Source.firstCursor_eq_ok_iff.mp found
    exact ⟨_, .fresh .origin (ofSource_eq_ok_iff.mpr ⟨nonempty, rfl⟩), rfl, rfl⟩
  | @after _ _ next _ stepped ih =>
    obtain ⟨t, reached, same, rfl⟩ := ih
    rw [← same] at stepped
    have advanced : t.advance = .ok (t.moveTo next) := by rw [advance, stepped]
    exact ⟨t.moveTo next, .advance reached advanced, same, rfl⟩

end Scanner

/-- Go to a cursor that was given out before. -/
def Hook.returnTo (c : Cursor) : Hook := ⟨"returnTo", fun s => some ⟨true, s.jump c, []⟩⟩

/-- From whatever scanner over its source, the cursor could be got again. -/
theorem Hook.operates_returnTo {source : Source} {c : Cursor} (visited : source.Visited c) :
    (returnTo c).Operates source := by
  refine .intro fun s visit same ran => ?_
  cases ran
  obtain ⟨t, reached, _, rfl⟩ := Scanner.reaches_of_visited (same ▸ visited)
  exact .jump .origin (.current reached)

/-- All the cursors that the scanner holds are met by the walk over `source`, and the one before
the last advance is the one before the current. -/
structure Scanner.Canonical (source : Source) (t : Scanner) : Prop where
  source_eq : t.source = source
  current : source.Visited t.current
  bookmark : ∀ c, t.bookmark = some c → source.Visited c
  previous : ∀ p, t.previous = some p →
    source.Visited p ∧ source.cursorAfter p = .ok (some t.current)

namespace Scanner

variable {source : Source} {o s t : Scanner}

theorem canonical_ofSource (made : ofSource source = .ok s) : s.Canonical source := by
  obtain ⟨nonempty, rfl⟩ := ofSource_eq_ok_iff.mp made
  exact ⟨rfl, ⟨0, .first (Source.firstCursor_of_nonempty nonempty)⟩, by simp, by simp⟩

namespace Canonical

theorem jump {c : Cursor} (canonical : s.Canonical source) (visited : source.Visited c) :
    (s.jump c).Canonical source :=
  ⟨canonical.source_eq, visited, canonical.bookmark, by simp⟩

theorem moveTo {c : Cursor} (canonical : s.Canonical source)
    (stepped : s.source.cursorAfter s.current = .ok (some c)) : (s.moveTo c).Canonical source := by
  rw [canonical.source_eq] at stepped
  obtain ⟨i, visited⟩ := canonical.current
  refine ⟨canonical.source_eq, ⟨i + 1, visited.after stepped⟩, canonical.bookmark, ?_⟩
  intro p recorded
  cases recorded
  exact ⟨canonical.current, stepped⟩

theorem setBookmark (canonical : s.Canonical source) : s.setBookmark.Canonical source := by
  refine ⟨canonical.source_eq, canonical.current, ?_, canonical.previous⟩
  intro c kept
  cases kept
  exact canonical.current

theorem returnToBookmark (canonical : s.Canonical source) :
    s.returnToBookmark.2.Canonical source := by
  unfold Scanner.returnToBookmark
  split
  · exact canonical
  · next c kept => exact ⟨canonical.source_eq, canonical.bookmark c kept, by simp, by simp⟩

end Canonical

/-- Canonical scanners stay so under jumps and steps. -/
def canonicalInvariant (source : Source) : Invariant where
  holds := Canonical source
  visits := source.Visited
  current := Canonical.current
  previous canonical recorded := (canonical.previous _ recorded).1
  jump := Canonical.jump
  moveTo := Canonical.moveTo

theorem canonicalInvariant_isOver (source : Source) :
    (canonicalInvariant source).IsOver source where
  fresh canonical made := canonical_ofSource (canonical.source_eq ▸ made)
  setBookmark := Canonical.setBookmark
  returnToBookmark := Canonical.returnToBookmark
  source_eq := Canonical.source_eq

theorem Reaches.canonical (reached : o.Reaches s) (start : o.Canonical source) :
    s.Canonical source :=
  reached.holds (canonicalInvariant_isOver source) start

theorem Gives.visited {c : Cursor} (given : o.Gives c) (start : o.Canonical source) :
    source.Visited c :=
  given.visits (canonicalInvariant_isOver source) start

end Scanner

/-! Scripts are hooks of this kind, unless they jump into another source. -/

/-- The step stays within the source that it is called on. -/
def Step.isLocal : Step → Bool
  | .goToForeign _ _ => false
  | _ => true

def Step.hooks : Step → List Hook
  | .expect es | .tryExpect es => Expr.hooksIn es
  | _ => []

section Scripts

variable {o : Scanner} {start : Cursor} {σ τ : Session}

theorem Session.reaches_advanceBy (reached : o.Reaches σ.scanner) (n : Nat) :
    o.Reaches (σ.advanceBy n).2.scanner := by
  have same := congrArg Prod.snd (σ.scanner_advanceBy n)
  rw [show (σ.advanceBy n).2.scanner = (σ.scanner.advanceBy n).2 from same]
  exact reached.advanceBy n

theorem Session.reaches_jumpAfter {scout : Session} (reached : o.Reaches σ.scanner)
    (scouted : o.Reaches scout.scanner) (n : Nat) :
    o.Reaches (σ.jumpAfter n scout).2.scanner := by
  have ahead := Session.reaches_advanceBy scouted n
  unfold Session.jumpAfter
  split
  · next result =>
    rw [result] at ahead
    exact reached.jump (.current ahead)
  · exact reached

theorem Session.reaches_jumpInto (reached : o.Reaches σ.scanner) (n : Nat) :
    o.Reaches (σ.jumpInto σ.source n).2.scanner := by
  unfold Session.jumpInto
  split
  · exact reached
  · next fresh made =>
    have opened := @Scanner.Reaches.fresh o σ.scanner fresh reached made
    exact reaches_jumpAfter reached opened n

theorem Session.reaches_advanceWhile (first last : Char) (reached : o.Reaches σ.scanner) :
    o.Reaches (σ.advanceWhile first last).2.scanner := by
  fun_induction Session.advanceWhile first last σ with
  | case1 => exact reached
  | case2 σ c _ _ next stepped ih =>
    refine ih (reached.advance ?_)
    rw [Scanner.advance, show σ.scanner.source.cursorAfter σ.scanner.current = _ from stepped]
    rfl
  | case3 => exact reached
  | case4 => exact reached
  | case5 => exact reached

theorem Session.reaches_expect {es : List Expr} (reached : o.Reaches σ.scanner)
    (operate : ∀ h ∈ Expr.hooksIn es, h.Operates o.source)
    (left : (σ.expect es).session? = some τ) : o.Reaches τ.scanner := by
  rw [← reached.source_eq] at operate
  exact .expect reached operate left

theorem Step.reaches {step : Step} {went : Bool} (isLocal : step.isLocal = true)
    (operate : ∀ h ∈ step.hooks, h.Operates o.source) (reached : o.Reaches σ.scanner)
    (began : o.Gives start) (ran : step.run start σ = some (went, τ)) : o.Reaches τ.scanner := by
  cases step with
  | advance n =>
    cases ran
    exact Session.reaches_advanceBy reached n
  | tryAdvance n =>
    cases ran
    exact Session.reaches_advanceBy reached n
  | skip n =>
    have jumped := Session.reaches_jumpAfter reached reached n
    rw [Option.some.inj ran] at jumped
    exact jumped
  | goTo n =>
    have jumped := Session.reaches_jumpInto reached n
    rw [Option.some.inj ran] at jumped
    exact jumped
  | goToForeign source n => cases isLocal
  | goBack =>
    cases ran
    exact reached.jump began
  | setBookmark =>
    cases ran
    exact reached.setBookmark
  | returnToBookmark =>
    cases ran
    exact reached.returnToBookmark
  | expect es =>
    refine Session.reaches_expect reached operate ?_
    simp only [Step.run] at ran
    split at ran <;> cases ran <;> simp_all [Outcome.session?]
  | tryExpect es =>
    refine Session.reaches_expect reached operate ?_
    simp only [Step.run] at ran
    split at ran <;> cases ran <;> simp_all [Outcome.session?]
  | isAt c =>
    cases ran
    exact reached
  | advanceWhile first last =>
    have advanced := Session.reaches_advanceWhile first last reached
    rw [Option.some.inj ran] at advanced
    exact advanced
  | atEnd =>
    cases ran
    exact reached
  | fail =>
    cases ran
    exact reached

theorem Script.reaches {script : Script} {went : Bool}
    (isLocal : ∀ step ∈ script, step.isLocal = true)
    (operate : ∀ step ∈ script, ∀ h ∈ step.hooks, h.Operates o.source)
    (reached : o.Reaches σ.scanner)
    (began : o.Gives start) (ran : script.run start σ = some (went, τ)) :
    o.Reaches τ.scanner := by
  induction script generalizing σ with
  | nil =>
    cases ran
    exact reached
  | cons step script ih =>
    obtain ⟨here, later⟩ := List.forall_mem_cons.mp isLocal
    obtain ⟨operateHere, operateLater⟩ := List.forall_mem_cons.mp operate
    unfold Script.run at ran
    split at ran
    · next stepped =>
      exact ih later operateLater (Step.reaches here operateHere reached began stepped) ran
    · next stepped =>
      cases ran
      exact Step.reaches here operateHere reached began stepped
    · cases ran

theorem Script.operates {source : Source} {script : Script} (name : String)
    (isLocal : ∀ step ∈ script, step.isLocal = true)
    (operate : ∀ step ∈ script, ∀ h ∈ step.hooks, h.Operates source) :
    (script.toHook name).Operates source := by
  refine .intro fun s visit same ran => ?_
  subst same
  unfold Script.toHook at ran
  dsimp only at ran
  split at ran
  · next finished =>
    cases ran
    have origin : s.Reaches (Session.mk s []).scanner := .origin
    exact Script.reaches isLocal operate origin (.current .origin) finished
  · cases ran

end Scripts

namespace Scanner

/-- Whatever is done with scanners over one source, the cursors in them are those of the walk over
it, and the previous one, where there is one, is where the last advance came from. -/
theorem reachable_cursors_are_canonical {source : Source} {first s : Scanner}
    (made : ofSource source = .ok first) (reached : first.Reaches s) :
    s.source = source ∧ source.Canonical s.current ∧
      (∀ c, s.bookmark = some c → source.Canonical c) ∧
      ∀ p, s.previous = some p →
        source.Canonical p ∧ source.cursorAfter p = .ok (some s.current) ∧
          s.current.offset = p.next := by
  have canonical := reached.canonical (canonical_ofSource made)
  refine ⟨canonical.source_eq, canonical.current.canonical, ?_, ?_⟩
  · intro c kept
    exact (canonical.bookmark c kept).canonical
  · intro p recorded
    obtain ⟨visited, stepped⟩ := canonical.previous p recorded
    exact ⟨visited.canonical, stepped, Source.offset_of_cursorAfter stepped⟩

/-- Mark the second point and come back. -/
def markSecond : Hook := Script.toHook [.advance 1, .setBookmark, .goBack] "mark"

/-- A hook that leaves a bookmark, one that goes to a cursor which it holds, and then any point. -/
theorem canonical_after_hooks :
    let source := Source.ofString "é\nb"
    let first : Scanner := ⟨source, ⟨.start, some 'é', 0⟩, none, none⟩
    let second : Cursor := ⟨⟨1, 2, 3, 2⟩, some '\n', 2⟩
    let third : Cursor := ⟨⟨2, 1, 1, 3⟩, some 'b', 3⟩
    let last : Scanner := ⟨source, third, some second, some second⟩
    ofSource source = .ok first ∧ first.Reaches last ∧
      last.source = source ∧ source.Canonical third ∧
      (∀ c, last.bookmark = some c → source.Canonical c) ∧
      ∀ p, last.previous = some p →
        source.Canonical p ∧ source.cursorAfter p = .ok (some third) ∧ third.offset = p.next := by
  intro source first second third last
  have made : ofSource source = .ok first := by decide
  have begun : source.Visits 0 first.current := .first (by decide)
  have marks : markSecond.Operates source :=
    Script.operates "mark" (by decide) (by simp [Step.hooks])
  have returns : (Hook.returnTo second).Operates source :=
    Hook.operates_returnTo ⟨1, begun.after (by decide)⟩
  have operate : ∀ h ∈ Expr.hooksIn [.hook markSecond, .hook (.returnTo second), .any],
      h.Operates source := by
    simpa [Expr.hooksIn, Expr.hooks] using And.intro marks returns
  have left : (Session.expect [.hook markSecond, .hook (.returnTo second), .any]
      ⟨first, []⟩).session?.map Session.scanner = some last := by decide
  obtain ⟨τ, finished, ended⟩ := Option.map_eq_some_iff.mp left
  have origin : first.Reaches (Session.mk first []).scanner := .origin
  have reached : first.Reaches τ.scanner := .expect origin operate finished
  rw [ended] at reached
  exact ⟨made, reached, reachable_cursors_are_canonical made reached⟩

end Scanner
end TextMatch
