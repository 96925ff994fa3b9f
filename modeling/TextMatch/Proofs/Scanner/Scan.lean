import TextMatch.Proofs.Source.Cursors
import TextMatch.Scanner.Basic

/-!
# Scanning a source

Repeated advances of one scanner. A scanner stands where some points are left to be read, and an
advance takes one of them; `scans_longest_valid_prefix` collects what follows for every source:
the points visited are those of its longest well-formed beginning, after which there is either the
end of data, where advances change nothing, or an error that no advance gets over.
-/
namespace TextMatch

open String (utf8Len)

/-- The scanner reads `source`, and the points `rest` are left. -/
structure Scanner.At (t : Scanner) (source : Source) (rest : List Char) : Prop where
  source_eq : t.source = source
  leaves : source.Leaves rest
  current_eq : t.current = source.cursorAt rest

namespace Scanner

variable {s : Source} {t u : Scanner} {c : Char} {rest : List Char}

theorem ofSource_eq_ok_iff {first : Scanner} :
    ofSource s = .ok first ↔ s.points ≠ [] ∧ first = ⟨s, s.cursorAt s.points, none, none⟩ := by
  by_cases empty : s.points = []
  · simp [ofSource, Source.firstCursor_of_empty empty, empty]
  · simp [ofSource, Source.firstCursor_of_nonempty empty, empty, eq_comm]

theorem at_ofSource {first : Scanner} (made : ofSource s = .ok first) : first.At s s.points := by
  obtain ⟨nonempty, rfl⟩ := ofSource_eq_ok_iff.mp made
  exact ⟨rfl, .points nonempty, rfl⟩

namespace At

theorem visits (here : t.At s rest) : s.Visits (s.points.length - rest.length) t.current := by
  rw [here.current_eq]
  exact here.leaves.visits

theorem of_visits {i : Nat} (reads : t.source = s) (visited : s.Visits i t.current) :
    ∃ rest, t.At s rest ∧ i + rest.length = s.points.length := by
  obtain ⟨rest, leaves, count, current⟩ := visited.leaves
  exact ⟨rest, ⟨reads, leaves, current⟩, count⟩

theorem of_index {i : Nat} (reads : t.source = s) (visited : s.Visits i t.current) :
    i ≤ s.points.length ∧ t.At s (s.points.drop i) := by
  obtain ⟨inside, leaves, current⟩ := visited.at_index
  exact ⟨inside, reads, leaves, current⟩

theorem visits_index {i : Nat} (here : t.At s (s.points.drop i)) (inside : i ≤ s.points.length) :
    s.Visits i t.current := by
  have visited := here.visits
  rwa [List.length_drop, Nat.sub_sub_self inside] at visited

theorem cursorAfter_cons (here : t.At s (c :: rest)) :
    t.source.cursorAfter t.current =
      if rest = [] ∧ s.isReadable = false then .error (.malformed s.readableSize)
      else .ok (some (s.cursorAt rest)) := by
  rw [here.source_eq, here.current_eq, Source.cursorAfter_cursorAt here.leaves]

theorem cursorAfter_nil (here : t.At s []) : t.source.cursorAfter t.current = .ok none := by
  rw [here.current_eq]
  exact t.source.cursorAfter_end rfl

theorem moveTo (here : t.At s (c :: rest)) (readable : rest = [] → s.isReadable = true) :
    (t.moveTo (s.cursorAt rest)).At s rest :=
  ⟨here.source_eq, here.leaves.tail readable, rfl⟩

theorem back (here : t.At s rest) (reads : u.source = s) : (u.jump t.current).At s rest :=
  ⟨reads, here.leaves, here.current_eq⟩

/-- A scanner that leaves as many points has not moved. -/
theorem current_eq_iff {stop : List Char} (here : t.At s rest) (there : u.At s stop)
    (suffix : stop <:+ rest) : u.current = t.current ↔ ¬ stop.length < rest.length := by
  rw [there.current_eq, here.current_eq]
  constructor
  · intro same
    rw [Source.cursorAt_inj there.leaves here.leaves same]
    exact lt_irrefl _
  · intro full
    rw [suffix.eq_of_length_le (not_lt.mp full)]

end At

theorem advanceBy_of_ended (ended : t.source.cursorAfter t.current = .ok none) (n : Nat) :
    t.advanceBy n = (.ok (), t) := by
  cases n with
  | zero => rfl
  | succ n => rw [advanceBy, ended]

/-- Advancing by a number is advancing so many times, up to the first failure. -/
theorem advanceBy_succ (t : Scanner) (n : Nat) :
    t.advanceBy (n + 1) =
      match t.advance with
      | .ok u => u.advanceBy n
      | .error e => (.error e, t) := by
  rw [advanceBy, advance]
  cases found : t.source.cursorAfter t.current with
  | error e => rfl
  | ok next =>
    cases next with
    | none => exact (advanceBy_of_ended found n).symm
    | some d => rfl

theorem advanceBy_add {k : Nat} (n : Nat) (advanced : t.advanceBy k = (.ok (), u)) :
    t.advanceBy (k + n) = u.advanceBy n := by
  induction k generalizing t with
  | zero =>
    cases advanced
    rw [Nat.zero_add]
  | succ k ih =>
    rw [Nat.add_right_comm, advanceBy_succ]
    rw [advanceBy_succ] at advanced
    cases stepped : t.advance with
    | error e => simp [stepped] at advanced
    | ok next =>
      rw [stepped] at advanced
      exact ih advanced

namespace At

theorem advance_cons (here : t.At s (c :: rest)) :
    t.advance =
      if rest = [] ∧ s.isReadable = false then .error (.malformed s.readableSize)
      else .ok (t.moveTo (s.cursorAt rest)) := by
  rw [advance, here.cursorAfter_cons]
  by_cases stuck : rest = [] ∧ s.isReadable = false
  · simp only [if_pos stuck]
  · simp only [if_neg stuck]

theorem advanceBy_append {passed : List Char} (here : t.At s (passed ++ rest))
    (readable : rest = [] → s.isReadable = true) :
    ∃ u, t.advanceBy passed.length = (.ok (), u) ∧ u.At s rest := by
  induction passed generalizing t with
  | nil => exact ⟨t, rfl, here⟩
  | cons c passed ih =>
    have onward : passed ++ rest = [] → s.isReadable = true := by
      intro nothing
      exact readable (List.append_eq_nil_iff.mp nothing).2
    obtain ⟨u, advanced, there⟩ := ih (here.moveTo onward)
    refine ⟨u, ?_, there⟩
    rw [List.length_cons, advanceBy_succ, here.advance_cons, if_neg]
    · exact advanced
    · rintro ⟨nothing, unreadable⟩
      rw [onward nothing] at unreadable
      cases unreadable

/-- The only place where an advance fails is the last point before malformed bytes. -/
theorem advanceBy_error {n : Nat} {e : ScanError} (here : t.At s rest)
    (failed : t.advanceBy n = (.error e, u)) :
    s.isReadable = false ∧ e = .malformed s.readableSize ∧ ∃ c, u.At s [c] := by
  induction n generalizing t rest with
  | zero => cases failed
  | succ n ih =>
    cases rest with
    | nil =>
      rw [advanceBy_of_ended here.cursorAfter_nil] at failed
      cases failed
    | cons c rest =>
      rw [advanceBy_succ, here.advance_cons] at failed
      by_cases stuck : rest = [] ∧ s.isReadable = false
      · rw [if_pos stuck] at failed
        obtain ⟨rfl, unreadable⟩ := stuck
        cases failed
        exact ⟨unreadable, rfl, c, here⟩
      · rw [if_neg stuck] at failed
        exact ih (here.moveTo (by simpa using stuck)) failed

end At

/-- What scanning a source amounts to, with `points` and `readableSize` for the characters of its
longest well-formed beginning and their number of bytes. -/
structure ScansPrefix (s : Source) : Prop where
  /-- The points encode to a beginning of the source, and no longer one is well-formed. -/
  longest : s.readableSize ≤ s.size ∧
    s.bytes.extract 0 s.readableSize = s.points.utf8Encode ∧
    ∀ stop ≤ s.size, (s.bytes.extract 0 stop).IsValidUTF8 → stop ≤ s.readableSize
  unreadable : s.points = [] → ofSource s = .error (.malformed 0)
  made : s.points ≠ [] → ∃ first, ofSource s = .ok first
  visits : ∀ first, ofSource s = .ok first → ∀ i c, s.points[i]? = some c →
    ∃ t, first.advanceBy i = (.ok (), t) ∧ s.Visits i t.current ∧ t.current.point = some c ∧
      t.current.offset = utf8Len (s.points.take i)
  reaches_end : ∀ first, ofSource s = .ok first → s.readableSize = s.size →
    ∃ t, first.advanceBy s.points.length = (.ok (), t) ∧ t.current.point = none ∧
      t.current.offset = s.size
  stays : ∀ t : Scanner, t.current.point = none →
    t.advance = .ok t ∧ ∀ n, t.advanceBy n = (.ok (), t)
  sticks : s.readableSize < s.size → ∀ t : Scanner, t.source = s →
    s.Visits (s.points.length - 1) t.current →
      t.advance = .error (.malformed s.readableSize) ∧
      ∀ n, t.advanceBy (n + 1) = (.error (.malformed s.readableSize), t)
  /-- Advancing by a number is repeated advancing. -/
  repeats : ∀ (t : Scanner) n, t.advanceBy (n + 1) =
    match t.advance with
    | .ok u => u.advanceBy n
    | .error e => (.error e, t)
  adds : ∀ (t u : Scanner) k n, t.advanceBy k = (.ok (), u) → t.advanceBy (k + n) = u.advanceBy n
  fails_last : ∀ (t u : Scanner) i n e, t.source = s → s.Visits i t.current →
    t.advanceBy n = (.error e, u) →
      e = .malformed s.readableSize ∧ s.Visits (s.points.length - 1) u.current

theorem scans_longest_valid_prefix (s : Source) (nonempty : s.isEmpty = false) :
    ScansPrefix s where
  longest := by
    refine ⟨s.readableSize_le_size, ?_, ?_⟩
    · exact Source.extract_zero_utf8Len (List.append_nil s.points).symm
    · exact fun stop inside valid => Source.le_readableSize inside valid
  unreadable := by
    intro empty
    have none : s.readableSize = 0 := by rw [Source.readableSize, empty, String.utf8Len_nil]
    have unreadable : s.isReadable = false := by
      simp only [Source.isEmpty, beq_eq_false_iff_ne, Source.isReadable, none] at nonempty ⊢
      exact nonempty.symm
    rw [ofSource, Source.firstCursor_of_empty empty, unreadable]
    rfl
  made := by
    intro points
    exact ⟨_, ofSource_eq_ok_iff.mpr ⟨points, rfl⟩⟩
  visits := by
    intro first made i c found
    obtain ⟨inside, value⟩ := List.getElem?_eq_some_iff.mp found
    have split : s.points = s.points.take i ++ c :: s.points.drop (i + 1) := by
      rw [← value, ← List.drop_eq_getElem_cons inside, List.take_append_drop]
    have here := at_ofSource made
    have standing : first.At s (s.points.take i ++ c :: s.points.drop (i + 1)) := split ▸ here
    obtain ⟨t, advanced, there⟩ := standing.advanceBy_append (by simp)
    have count : (s.points.take i).length = i := by simp; omega
    have index : s.points.length - (c :: s.points.drop (i + 1)).length = i := by simp; omega
    rw [count] at advanced
    refine ⟨t, advanced, index ▸ there.visits, ?_, ?_⟩
    · rw [there.current_eq]
      rfl
    · rw [there.current_eq, Source.offset_cursorAt split]
  reaches_end := by
    intro first made whole
    have readable : s.isReadable = true := by simp [Source.isReadable, whole]
    have standing : first.At s (s.points ++ []) := (List.append_nil _).symm ▸ at_ofSource made
    obtain ⟨t, advanced, there⟩ := standing.advanceBy_append fun _ => readable
    refine ⟨t, advanced, ?_, ?_⟩
    · rw [there.current_eq]
      rfl
    · rw [there.current_eq, Source.offset_cursorAt (List.append_nil s.points).symm]
      exact whole
  stays := by
    intro t ended
    exact ⟨advance_end ended, advanceBy_of_ended (t.source.cursorAfter_end ended)⟩
  sticks := by
    intro shorter t reads visited
    obtain ⟨rest, here, count⟩ := At.of_visits reads visited
    have unreadable : s.isReadable = false := by
      simp only [Source.isReadable, beq_eq_false_iff_ne]
      omega
    have some_points := List.length_pos_iff.mpr here.leaves.nonempty
    obtain ⟨c, rfl⟩ := List.length_eq_one_iff.mp (show rest.length = 1 by omega)
    have stuck : t.advance = .error (.malformed s.readableSize) := by
      rw [here.advance_cons, if_pos ⟨rfl, unreadable⟩]
    exact ⟨stuck, fun n => by rw [advanceBy_succ, stuck]⟩
  repeats := advanceBy_succ
  adds := fun _ _ _ n => advanceBy_add n
  fails_last := by
    intro t u i n e reads visited failed
    obtain ⟨rest, here, _⟩ := At.of_visits reads visited
    obtain ⟨_, error, c, there⟩ := here.advanceBy_error failed
    exact ⟨error, there.visits⟩

/-- A three-byte character, a newline, and a byte that begins no character. -/
theorem scans_prefix_of_stray_byte :
    (⟨⟨#[0xE2, 0x82, 0xAC, 0x0A, 0xFF]⟩⟩ : Source).isEmpty = false ∧
      ScansPrefix ⟨⟨#[0xE2, 0x82, 0xAC, 0x0A, 0xFF]⟩⟩ :=
  ⟨by decide, scans_longest_valid_prefix _ (by decide)⟩

end Scanner
end TextMatch
