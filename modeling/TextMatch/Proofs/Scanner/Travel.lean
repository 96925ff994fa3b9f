import TextMatch.Proofs.Scanner.Reach

/-!
# How a scanner got where it is

Whatever is done with a scanner over one source, its cursor is set by single steps to the next
point and by jumps: an advance by many points is so many steps, a match is what its tries and its
rewinds are, and going back to the bookmark is a jump. `Scanner.Travels` lists these moves, with
the last one that set the cursor. That last one can be told from the scanner alone, since only a
step leaves a previous cursor (`Travels.previous_eq_none_iff`), and every scanner that can be
reached has travelled (`Scanner.Reaches.travels`).
-/
namespace TextMatch

/-- How the cursor of a scanner was set. -/
inductive Motion where
  /-- To the next point. -/
  | step
  /-- To any cursor of the source, the one it was at included. -/
  | jump
  deriving DecidableEq, Repr

/-- The first scanner becomes the second by moves within its source. The motion is the last that
set the cursor, if any did. -/
inductive Scanner.Travels : Scanner → Scanner → Option Motion → Prop
  | rest {s : Scanner} : Travels s s none
  | step {s t : Scanner} {last : Option Motion} {c : Cursor} (travelled : Travels s t last)
      (stepped : t.source.cursorAfter t.current = .ok (some c)) :
      Travels s (t.moveTo c) (some .step)
  | jump {s t : Scanner} {last : Option Motion} {c : Cursor} (travelled : Travels s t last)
      (visited : t.source.Visited c) : Travels s (t.jump c) (some .jump)
  | setBookmark {s t : Scanner} {last : Option Motion} (travelled : Travels s t last) :
      Travels s t.setBookmark last
  | returnToBookmark {s t : Scanner} {last : Option Motion} {c : Cursor}
      (travelled : Travels s t last) (marked : t.bookmark = some c) :
      Travels s t.returnToBookmark.2 (some .jump)

namespace Scanner

variable {source : Source} {o s t u : Scanner} {last : Option Motion}

theorem returnToBookmark_of_some {c : Cursor} (marked : s.bookmark = some c) :
    s.returnToBookmark.2 = { s.jump c with bookmark := none } := by
  rw [Scanner.returnToBookmark, marked]

namespace Travels

/-- The last motion of two journeys is that of the second, unless it only set bookmarks. -/
theorem trans {first second : Option Motion} (here : s.Travels t first)
    (onward : t.Travels u second) : s.Travels u (second.or first) := by
  induction onward with
  | rest => exact here
  | step _ stepped ih => exact ih.step stepped
  | jump _ visited ih => exact ih.jump visited
  | setBookmark _ ih => exact ih.setBookmark
  | returnToBookmark _ marked ih => exact ih.returnToBookmark marked

/-- Only a step leaves a previous cursor. -/
theorem previous_eq_none_iff {motion : Motion} (travelled : s.Travels t (some motion)) :
    t.previous = none ↔ motion = .jump := by
  generalize moved : some motion = last at travelled
  induction travelled with
  | rest => cases moved
  | step _ _ _ =>
    cases moved
    exact iff_of_false (Option.some_ne_none _) (by decide)
  | jump _ _ _ =>
    cases moved
    exact iff_of_true rfl rfl
  | setBookmark _ ih => exact ih moved
  | returnToBookmark _ marked _ =>
    cases moved
    rw [returnToBookmark_of_some marked]
    exact iff_of_true rfl rfl

theorem current_of_none (travelled : s.Travels t none) : t.current = s.current := by
  generalize unmoved : none = last at travelled
  induction travelled with
  | rest => rfl
  | step _ _ _ => cases unmoved
  | jump _ _ _ => cases unmoved
  | setBookmark _ ih => exact ih unmoved
  | returnToBookmark _ _ _ => cases unmoved

/-- Without a bookmark nothing happens. -/
theorem back (travelled : s.Travels t last) : ∃ last, s.Travels t.returnToBookmark.2 last := by
  cases marked : t.bookmark with
  | none =>
    rw [Scanner.returnToBookmark, marked]
    exact ⟨last, travelled⟩
  | some c => exact ⟨_, travelled.returnToBookmark marked⟩

/-- A new scanner is one that went back to the first point and gave up its bookmark. -/
theorem fresh (travelled : s.Travels t last) (made : ofSource t.source = .ok u) :
    s.Travels u (some .jump) := by
  obtain ⟨nonempty, rfl⟩ := ofSource_eq_ok_iff.mp made
  have first : t.source.Visited (t.source.cursorAt t.source.points) :=
    ⟨0, .first (Source.firstCursor_of_nonempty nonempty)⟩
  exact ((travelled.jump first).setBookmark).returnToBookmark rfl

end Travels

/-- To have travelled from `o` is kept by jumps and steps within the source. -/
def travelInvariant (source : Source) (o : Scanner) : Invariant where
  holds t := t.Canonical source ∧ ∃ last, o.Travels t last
  visits := source.Visited
  current held := held.1.current
  previous held recorded := (held.1.previous _ recorded).1
  jump held visited :=
    ⟨held.1.jump visited, _, held.2.choose_spec.jump (held.1.source_eq ▸ visited)⟩
  moveTo held stepped := ⟨held.1.moveTo stepped, _, held.2.choose_spec.step stepped⟩

theorem travelInvariant_isOver (source : Source) (o : Scanner) :
    (travelInvariant source o).IsOver source where
  fresh held made :=
    ⟨canonical_ofSource (held.1.source_eq ▸ made), _, held.2.choose_spec.fresh made⟩
  setBookmark held := ⟨held.1.setBookmark, _, held.2.choose_spec.setBookmark⟩
  returnToBookmark held := ⟨held.1.returnToBookmark, held.2.choose_spec.back⟩
  source_eq held := held.1.source_eq

theorem Reaches.travels (reached : o.Reaches s) (start : o.Canonical source) :
    ∃ last, o.Travels s last :=
  (reached.holds (travelInvariant_isOver source o) ⟨start, none, .rest⟩).2

end Scanner

theorem Hook.Operates.reaches {source : Source} {h : Hook} {s : Scanner} {visit : Visit}
    (operates : h.Operates source) (reads : s.source = source) (ran : h.run s = some visit) :
    s.Reaches visit.scanner := by
  obtain ⟨run⟩ := operates
  exact run s visit reads ran

end TextMatch
