import TextMatch.Proofs.Scanner.Travel

/-!
# The boundary of a hook

A hook may go about in its source as it likes, and still its match has the boundary that any other
match has: the point that ends where the scanner is left (`hook_boundary`). It is found in two
ways, as the cursor before the last step or by a walk from where the hook began, and the two
agree, since a point is known by where it ends. Only a hook that jumps to a place before its start
leaves neither a previous cursor nor a point that the walk could find; its boundary is the place
itself.
-/
namespace TextMatch

/-- The value and the session of a success. -/
def Outcome.success? {α : Type} : Outcome α → Option (α × Session)
  | .ok value τ => some (value, τ)
  | .error _ _ => none
  | .unfinished => none

theorem Outcome.eq_ok_of_success? {α : Type} {o : Outcome α} {value : α} {τ : Session}
    (succeeded : o.success? = some (value, τ)) : o = .ok value τ := by
  cases o with
  | ok _ _ => cases succeeded; rfl
  | error _ _ => cases succeeded
  | unfinished => cases succeeded

/-- `p` is the point that ends where `c` is, and the only one. -/
structure Source.Precedes (s : Source) (p c : Cursor) : Prop where
  canonical : s.Canonical p
  point : p.point ≠ none
  ends : p.next = c.offset
  stepped : s.cursorAfter p = .ok (some c)
  unique : ∀ q, s.Visited q → q.point ≠ none → q.next = c.offset → q = p

namespace Source

variable {s : Source}

theorem Visited.exists_leaves {c : Cursor} (visited : s.Visited c) :
    ∃ rest, s.Leaves rest ∧ c = s.cursorAt rest := by
  obtain ⟨i, atIndex⟩ := visited
  obtain ⟨rest, leaves, _, rfl⟩ := atIndex.leaves
  exact ⟨rest, leaves, rfl⟩

theorem Visited.eq_of_offset_eq {c d : Cursor} (visited : s.Visited c) (visitedToo : s.Visited d)
    (same : c.offset = d.offset) : c = d := by
  obtain ⟨left, leftLeaves, rfl⟩ := visited.exists_leaves
  obtain ⟨right, rightLeaves, rfl⟩ := visitedToo.exists_leaves
  have fewer := suffix_of_offset_le leftLeaves rightLeaves same.le
  have more := suffix_of_offset_le rightLeaves leftLeaves same.ge
  rw [fewer.eq_of_length_le more.length_le]

theorem precedes_of_cursorAfter {p c : Cursor} (visited : s.Visited p)
    (stepped : s.cursorAfter p = .ok (some c)) : s.Precedes p c := by
  have ends := (offset_of_cursorAfter stepped).symm
  have point : p.point ≠ none := by
    intro ended
    rw [s.cursorAfter_end ended] at stepped
    cases stepped
  refine ⟨visited.canonical, point, ends, stepped, fun q visitedToo pointToo endsToo => ?_⟩
  obtain ⟨left, leftLeaves, rfl⟩ := visited.exists_leaves
  obtain ⟨right, rightLeaves, rfl⟩ := visitedToo.exists_leaves
  obtain ⟨c, left, rfl⟩ :=
    List.exists_cons_of_ne_nil (show left ≠ [] by rintro rfl; exact point rfl)
  obtain ⟨d, right, rfl⟩ :=
    List.exists_cons_of_ne_nil (show right ≠ [] by rintro rfl; exact pointToo rfl)
  rw [cons_eq_of_next_eq rightLeaves leftLeaves (endsToo.trans ends.symm)]

theorem Leaves.precedes {c : Char} {rest : List Char} (leaves : s.Leaves (c :: rest))
    (onward : s.Leaves rest) : s.Precedes (s.cursorAt (c :: rest)) (s.cursorAt rest) := by
  refine precedes_of_cursorAfter ⟨_, leaves.visits⟩ ?_
  rw [cursorAfter_cursorAt leaves, if_neg]
  rintro ⟨nothing, unreadable⟩
  rw [onward.readable nothing] at unreadable
  cases unreadable

end Source

namespace Matcher

variable {s : Source} {σ : Session} {start : Cursor}

theorem walkTo_of_le {target : Nat} (arrived : target ≤ σ.current.next) :
    (walkTo target σ).1 = some σ.current := by
  rw [walkTo, if_neg (not_lt.mpr arrived)]

/-- The walk comes to the last point before the place it looks for. -/
theorem walkTo_eq {passed rest : List Char} {c : Char}
    (here : σ.scanner.At s (passed ++ c :: rest)) (leaves : s.Leaves rest) :
    (walkTo (s.cursorAt rest).offset σ).1 = some (s.cursorAt (c :: rest)) := by
  induction passed generalizing σ with
  | nil =>
    have current : σ.current = s.cursorAt (c :: rest) := here.current_eq
    rw [walkTo_of_le (by rw [current, Source.next_eq_offset here.leaves]), current]
  | cons d passed ih =>
    rw [List.cons_append] at here
    have current : σ.current = s.cursorAt (d :: (passed ++ c :: rest)) := here.current_eq
    have onward : s.Leaves (passed ++ c :: rest) := here.leaves.tail (by simp)
    have short : σ.current.next < (s.cursorAt rest).offset := by
      rw [current, Source.next_eq_offset here.leaves,
        Source.offset_cursorAt_lt_iff onward leaves]
      simp
      omega
    have stepped : σ.source.cursorAfter σ.current =
        .ok (some (s.cursorAt (passed ++ c :: rest))) := by
      have found := here.cursorAfter_cons
      rwa [if_neg (by simp)] at found
    have moved : (σ.moveTo (s.cursorAt (passed ++ c :: rest))).scanner.At s
        (passed ++ c :: rest) := here.moveTo (by simp)
    have further := ih moved
    rw [walkTo, if_pos short]
    split
    · next e found =>
      rw [stepped] at found
      cases found
      rw [if_neg (by simp)]
      exact further
    · next other =>
      exact absurd stepped (other _)

/-- From any cursor before `c`, the walk comes to the point that ends where `c` is. -/
theorem walkTo_precedes {c : Cursor} (reads : σ.source = s) (visitedStart : s.Visited start)
    (visited : s.Visited c) (after : start.offset < c.offset) :
    ∃ p, (walkTo c.offset (σ.jump start)).1 = some p ∧ s.Precedes p c := by
  obtain ⟨left, leftLeaves, rfl⟩ := visitedStart.exists_leaves
  obtain ⟨right, rightLeaves, rfl⟩ := visited.exists_leaves
  obtain ⟨between, rfl⟩ := Source.suffix_of_offset_le leftLeaves rightLeaves after.le
  -- what lies between is not empty, and its last point is the one in question
  obtain rfl | ⟨passed, d, rfl⟩ := List.eq_nil_or_concat between
  · exact absurd after (lt_irrefl _)
  · rw [List.concat_eq_append, List.append_assoc, List.singleton_append] at leftLeaves ⊢
    have here : (σ.jump (s.cursorAt (passed ++ d :: right))).scanner.At s (passed ++ d :: right) :=
      ⟨reads, leftLeaves, rfl⟩
    have leaves : s.Leaves (d :: right) :=
      ⟨(List.suffix_append passed _).trans leftLeaves.suffix, leftLeaves.nonempty, by simp⟩
    exact ⟨_, walkTo_eq here rightLeaves, leaves.precedes rightLeaves⟩

theorem hookBoundary_of_unmoved (unmoved : σ.current = start) :
    (hookBoundary start σ).1 = start := by
  rw [hookBoundary, if_pos unmoved]

theorem hookBoundary_of_stepped (canonical : σ.scanner.Canonical s) (moved : σ.current ≠ start)
    (recorded : σ.scanner.previous ≠ none) : s.Precedes (hookBoundary start σ).1 σ.current := by
  obtain ⟨p, previous⟩ := Option.ne_none_iff_exists'.mp recorded
  obtain ⟨visited, stepped⟩ := canonical.previous p previous
  rw [hookBoundary, if_neg moved, previous]
  exact Source.precedes_of_cursorAfter visited stepped

theorem hookBoundary_of_ahead (canonical : σ.scanner.Canonical s) (visited : s.Visited start)
    (after : start.offset < σ.current.offset) :
    s.Precedes (hookBoundary start σ).1 σ.current := by
  have moved : σ.current ≠ start := fun same => absurd after (same ▸ lt_irrefl _)
  cases previous : σ.scanner.previous with
  | none =>
    have here : s.Visited σ.current := canonical.current
    obtain ⟨p, walked, precedes⟩ := walkTo_precedes canonical.source_eq visited here after
    rw [hookBoundary, if_neg moved, previous]
    simp only [walked, precedes.ends, if_true]
    exact precedes
  | some p => exact hookBoundary_of_stepped canonical moved (by simp [previous])

theorem hookBoundary_of_behind (jumped : σ.scanner.previous = none)
    (before : σ.current.offset < start.offset) : (hookBoundary start σ).1 = σ.current := by
  have moved : σ.current ≠ start := fun same => absurd before (same ▸ lt_irrefl _)
  have beyond : σ.current.offset < start.next := before.trans_le start.offset_le_next
  have walked : (walkTo σ.current.offset (σ.jump start)).1 = some start :=
    walkTo_of_le beyond.le
  rw [hookBoundary, if_neg moved, jumped]
  simp only [walked, if_neg beyond.ne']

theorem callHook_eq_ok {h : Hook} {τ : Session} {boundary : Cursor}
    (accepted : callHook h σ = .ok boundary τ) :
    ∃ visit, h.run σ.scanner = some visit ∧ visit.accepted = true ∧ τ.scanner = visit.scanner ∧
      boundary = (hookBoundary σ.current ⟨visit.scanner, visit.events.reverse ++ σ.log⟩).1 := by
  unfold callHook at accepted
  cases run : h.run σ.scanner with
  | none =>
    rw [run] at accepted
    cases accepted
  | some visit =>
    rw [run] at accepted
    dsimp only at accepted
    split at accepted
    · next yes =>
      cases accepted
      exact ⟨visit, rfl, yes, scanner_hookBoundary _ _, rfl⟩
    · cases accepted

end Matcher

/-- Where a hook that accepts leaves the scanner, and what the boundary of its match is then. Places
are compared by their offsets, which are the same for no two cursors of the source. -/
theorem Scanner.hook_boundary {source : Source} {first : Scanner} {σ τ : Session} {h : Hook}
    {boundary : Cursor} (made : ofSource source = .ok first) (reached : first.Reaches σ.scanner)
    (operates : h.Operates source) (accepted : Matcher.callHook h σ = .ok boundary τ) :
    (∃ visit, h.run σ.scanner = some visit ∧ τ.scanner = visit.scanner) ∧
    (τ.current.offset = σ.current.offset → τ.current = σ.current ∧ boundary = σ.current) ∧
    (σ.current.offset < τ.current.offset →
      source.Precedes boundary τ.current ∧
        (Matcher.walkTo τ.current.offset (σ.jump σ.current)).1 = some boundary) ∧
    (τ.current.offset < σ.current.offset →
      (∃ last, σ.scanner.Travels τ.scanner (some last)) ∧
      (σ.scanner.Travels τ.scanner (some .step) → source.Precedes boundary τ.current) ∧
      (σ.scanner.Travels τ.scanner (some .jump) → boundary = τ.current)) := by
  obtain ⟨visit, ran, _, left, rfl⟩ := Matcher.callHook_eq_ok accepted
  have began := reached.canonical (canonical_ofSource made)
  have onward := operates.reaches began.source_eq ran
  have ended := onward.canonical began
  obtain ⟨last, travelled⟩ := onward.travels began
  have current : τ.current = visit.scanner.current := congrArg Scanner.current left
  rw [left, current]
  refine ⟨⟨visit, ran, rfl⟩, fun same => ?_, fun after => ?_, fun before => ?_⟩
  · have unmoved := ended.current.eq_of_offset_eq began.current same
    exact ⟨unmoved, Matcher.hookBoundary_of_unmoved unmoved⟩
  · have precedes : source.Precedes (Matcher.hookBoundary σ.current
        ⟨visit.scanner, visit.events.reverse ++ σ.log⟩).1 visit.scanner.current :=
      Matcher.hookBoundary_of_ahead ended began.current after
    obtain ⟨p, walked, precedesToo⟩ :=
      Matcher.walkTo_precedes began.source_eq began.current ended.current after
    have same := precedesToo.unique _ precedes.canonical.visited precedes.point precedes.ends
    exact ⟨precedes, walked.trans (congrArg some same.symm)⟩
  · have moved : visit.scanner.current ≠ σ.current := fun same => absurd before (same ▸ lt_irrefl _)
    refine ⟨?_, fun stepped => ?_, fun jumped => ?_⟩
    · cases last with
      | none => exact absurd travelled.current_of_none moved
      | some last => exact ⟨last, travelled⟩
    · refine Matcher.hookBoundary_of_stepped ended moved fun nothing => ?_
      cases stepped.previous_eq_none_iff.mp nothing
    · exact Matcher.hookBoundary_of_behind (jumped.previous_eq_none_iff.mpr rfl) before

/-- Two points further, and then a try that fails there and goes back. -/
def stepAndTry : Hook := Script.toHook [.advance 2, .tryExpect [.point 'x']] "step and try"

/-- The try leaves no previous cursor, so that the point of two bytes is found by the walk. -/
theorem Scanner.hook_boundary_after_try :
    let source := Source.ofString "aéb"
    let point : Cursor := ⟨⟨1, 2, 2, 2⟩, some 'é', 1⟩
    let last : Cursor := ⟨⟨1, 3, 4, 3⟩, some 'b', 3⟩
    let σ : Session := ⟨⟨source, ⟨.start, some 'a', 0⟩, none, none⟩, []⟩
    ofSource source = .ok σ.scanner ∧ stepAndTry.Operates source ∧
      ∃ τ, Matcher.callHook stepAndTry σ = .ok point τ ∧ τ.current = last ∧
        τ.scanner.previous = none ∧ source.Precedes point last := by
  intro source point last σ
  have made : ofSource source = .ok σ.scanner := by decide
  have operates : stepAndTry.Operates source :=
    Script.operates _ (by decide) (by simp [Step.hooks, Expr.hooksIn, Expr.hooks])
  have came : (Matcher.callHook stepAndTry σ).success?.map (fun s => (s.1, s.2.scanner)) =
      some (point, ⟨source, last, none, none⟩) := by decide +kernel
  obtain ⟨⟨boundary, τ⟩, succeeded, reached⟩ := Option.map_eq_some_iff.mp came
  obtain ⟨rfl, left⟩ := Prod.mk.inj reached
  have accepted := Outcome.eq_ok_of_success? succeeded
  have current : τ.current = last := congrArg Scanner.current left
  obtain ⟨_, _, ahead, _⟩ := hook_boundary made .origin operates accepted
  rw [current] at ahead
  exact ⟨made, operates, τ, accepted, current, congrArg Scanner.previous left,
    (ahead (by decide)).1⟩

end TextMatch
