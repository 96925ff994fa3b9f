import TextMatch.Proofs.Reading.Boundary
import TextMatch.Proofs.Source.Canonical

/-!
# The greedy run behind the quantifiers

Every repetition of an expression, whatever its bounds, is the same run: the expression is matched
again and again until it mismatches, or succeeds without moving, which counts once more
(`Expr.Runs`). The bounds are compared with the number of successes when the run is over, and
nothing is given back to meet them (`Scanner.expect_quantifiers`). An optional expression is one
whose run has to come to exactly one success: a longer run is left out like an empty one, though
it would have matched. Only an error that is no mismatch ends a run early (`Expr.Breaks`), and then
it is the error of all of them.
-/
namespace TextMatch

/-- Matching `e` again and again, from the first scanner on: how often it succeeds, with which
boundary the last time (`first`, if it never does), and the scanner that is left. -/
inductive Expr.Runs (e : Expr) : Scanner → Cursor → Nat → Cursor → Scanner → Prop
  | mismatch {t : Scanner} {first : Cursor} {m : Match} {error : MatchError}
      (finished : t.expect [e] = some m) (failed : m.result = .error error)
      (mismatch : error.isMismatch = true) : Runs e t first 0 first m.scanner
  | still {t : Scanner} {first boundary : Cursor} {m : Match} (finished : t.expect [e] = some m)
      (succeeded : m.result = .ok boundary) (unmoved : m.scanner.current = t.current) :
      Runs e t first 1 boundary m.scanner
  | again {t u : Scanner} {first boundary last : Cursor} {m : Match} {count : Nat}
      (finished : t.expect [e] = some m) (succeeded : m.result = .ok boundary)
      (moved : m.scanner.current ≠ t.current) (later : Runs e m.scanner boundary count last u) :
      Runs e t first (count + 1) last u

/-- Matching `e` again and again comes to an error that is no mismatch. -/
inductive Expr.Breaks (e : Expr) (error : MatchError) : Scanner → Prop
  | here {t : Scanner} {m : Match} (finished : t.expect [e] = some m)
      (failed : m.result = .error error) (fatal : error.isMismatch = false) : Breaks e error t
  | later {t : Scanner} {m : Match} {boundary : Cursor} (finished : t.expect [e] = some m)
      (succeeded : m.result = .ok boundary) (moved : m.scanner.current ≠ t.current)
      (later : Breaks e error m.scanner) : Breaks e error t

/-- Matching `e` by itself fails, and the scanner is back where it was. -/
def Scanner.Fails (t : Scanner) (e : Expr) (error : MatchError) : Prop :=
  ∃ m, t.expect [e] = some m ∧ m.result = .error error ∧ m.scanner.current = t.current

/-- Matching `e` by itself succeeds exactly if `fits`, and comes to `stop` in any case: there it
goes on from, or there it is unmet. -/
inductive Scanner.Admits (t : Scanner) (e : Expr) (fits : Prop) (last stop : Cursor) : Prop
  | inside {m : Match} (within : fits) (finished : t.expect [e] = some m)
      (succeeded : m.result = .ok last) (stopped : m.scanner.current = stop)
  | outside (beyond : ¬fits) (failed : t.Fails e (.unmet e stop))

/-- All quantifiers of `e` come out by one run: `count` successes, the last with the boundary
`last`, and then the cursor `stop`. -/
structure Scanner.Quantifies (t : Scanner) (e : Expr) (count : Nat) (last stop : Cursor) :
    Prop where
  between : ∀ low high, high = 0 ∨ low ≤ high →
    t.Admits (.between low high e) (low ≤ count ∧ (high = 0 ∨ count ≤ high)) last stop
  atLeast : ∀ low, t.Admits (.atLeast low e) (low ≤ count) last stop
  exactly : ∀ times, t.Admits (.exactly times e) (count = times) last stop
  optional : ∃ m, t.expect [.optional [e]] = some m ∧
    (count = 1 → m.result = .ok last ∧ m.scanner.current = stop) ∧
    (count ≠ 1 → m.result = .ok t.current ∧ m.scanner.current = t.current)

/-- All quantifiers of `e` fail, with one and the same error. -/
structure Scanner.QuantifiersFail (t : Scanner) (e : Expr) (error : MatchError) : Prop where
  between : ∀ low high, high = 0 ∨ low ≤ high → t.Fails (.between low high e) error
  atLeast : ∀ low, t.Fails (.atLeast low e) error
  exactly : ∀ times, t.Fails (.exactly times e) error
  optional : t.Fails (.optional [e]) error

theorem Scanner.Admits.congr {t : Scanner} {e : Expr} {fits fits' : Prop} {last stop : Cursor}
    (admits : t.Admits e fits last stop) (same : fits ↔ fits') : t.Admits e fits' last stop := by
  rwa [← propext same]

/-- There is no choice in a run. -/
theorem Expr.Runs.unique {e : Expr} {t u u' : Scanner} {first last last' : Cursor}
    {count count' : Nat} (run : e.Runs t first count last u)
    (other : e.Runs t first count' last' u') : count' = count ∧ last' = last ∧ u' = u := by
  induction run generalizing count' with
  | mismatch finished failed _ =>
    cases other with
    | mismatch finished' =>
      cases finished.symm.trans finished'
      exact ⟨rfl, rfl, rfl⟩
    | still finished' succeeded | again finished' succeeded =>
      cases finished.symm.trans finished'
      cases failed.symm.trans succeeded
  | still finished succeeded unmoved =>
    cases other with
    | mismatch finished' failed =>
      cases finished.symm.trans finished'
      cases succeeded.symm.trans failed
    | still finished' succeeded' =>
      cases finished.symm.trans finished'
      cases succeeded.symm.trans succeeded'
      exact ⟨rfl, rfl, rfl⟩
    | again finished' _ moved =>
      cases finished.symm.trans finished'
      exact absurd unmoved moved
  | again finished succeeded moved _ ih =>
    cases other with
    | mismatch finished' failed =>
      cases finished.symm.trans finished'
      cases succeeded.symm.trans failed
    | still finished' _ unmoved =>
      cases finished.symm.trans finished'
      exact absurd unmoved moved
    | again finished' succeeded' _ later =>
      cases finished.symm.trans finished'
      cases succeeded.symm.trans succeeded'
      obtain ⟨rfl, same⟩ := ih later
      exact ⟨rfl, same⟩

/-- A run that comes to its end does not break. -/
theorem Expr.Runs.not_breaks {e : Expr} {t u : Scanner} {first last : Cursor} {count : Nat}
    {error : MatchError} (run : e.Runs t first count last u) : ¬e.Breaks error t := by
  intro breaks
  induction run with
  | mismatch finished failed mismatch =>
    cases breaks with
    | here finished' failed' fatal =>
      cases finished.symm.trans finished'
      cases failed.symm.trans failed'
      rw [mismatch] at fatal
      cases fatal
    | later finished' succeeded =>
      cases finished.symm.trans finished'
      cases failed.symm.trans succeeded
  | still finished succeeded unmoved =>
    cases breaks with
    | here finished' failed =>
      cases finished.symm.trans finished'
      cases succeeded.symm.trans failed
    | later finished' _ moved =>
      cases finished.symm.trans finished'
      exact moved unmoved
  | again finished succeeded _ _ ih =>
    cases breaks with
    | here finished' failed =>
      cases finished.symm.trans finished'
      cases succeeded.symm.trans failed
    | later finished' _ _ later =>
      cases finished.symm.trans finished'
      exact ih later

theorem Expr.Breaks.unique {e : Expr} {t : Scanner} {error error' : MatchError}
    (breaks : e.Breaks error t) (other : e.Breaks error' t) : error' = error := by
  induction breaks with
  | here finished failed _ =>
    cases other with
    | here finished' failed' =>
      cases finished.symm.trans finished'
      cases failed.symm.trans failed'
      rfl
    | later finished' succeeded =>
      cases finished.symm.trans finished'
      cases failed.symm.trans succeeded
  | later finished succeeded _ _ ih =>
    cases other with
    | here finished' failed =>
      cases finished.symm.trans finished'
      cases succeeded.symm.trans failed
    | later finished' _ _ later =>
      cases finished.symm.trans finished'
      exact ih later

variable {s : Source} {t : Scanner} {e : Expr} {rest stop : List Char}

/-- The rounds of a reader's greedy run, as matches of their own. Each of them but the last leaves
fewer points. -/
theorem Expr.runs_of_greedyRun (free : e.hooks = []) (start : t.At s rest) {first : Cursor}
    {k n : Nat} {before tail : Option Char} (boundary : s.IsBoundary first before rest)
    (ran : Reader.greedyRun (e.reader s.isReadable) k before rest = .ok (n, tail) stop) :
    ∃ count u, n = k + count ∧ count ≤ rest.length + 1 ∧ u.At s stop ∧
      e.Runs t first count (s.boundaryAt tail stop) u := by
  fun_induction Reader.greedyRun (e.reader s.isReadable) k before rest generalizing t first with
  | case1 k before rest tail' stop' read shorter ih =>
    obtain ⟨m, finished, result, left⟩ := start.expect_singleton free
    rw [read] at result left
    have suffix := (read ▸ e.reader_advances s.isReadable rest).suffix
    have moved : m.scanner.current ≠ t.current := by
      rw [ne_eq, start.current_eq_iff left suffix, not_not]
      exact shorter
    obtain ⟨count, u, total, few, there, later⟩ := ih left rfl ran
    exact ⟨count + 1, u, by omega, by omega, there, .again finished result moved later⟩
  | case2 k before rest tail' stop' read same =>
    obtain ⟨m, finished, result, left⟩ := start.expect_singleton free
    rw [read] at result left
    have suffix := (read ▸ e.reader_advances s.isReadable rest).suffix
    have unmoved : m.scanner.current = t.current := by
      rw [start.current_eq_iff left suffix]
      exact same
    cases ran
    exact ⟨1, m.scanner, rfl, by omega, left, .still finished result unmoved⟩
  | case3 k before rest f read mismatch =>
    obtain ⟨m, finished, result, left⟩ := start.expect_singleton free
    rw [read] at result left
    cases ran
    refine ⟨0, m.scanner, rfl, by omega, left, ?_⟩
    rw [← boundary]
    exact .mismatch finished result ((Failure.isMismatch_toError s f).trans mismatch)
  | case4 k before rest f read fatal => cases ran

theorem Expr.breaks_of_greedyRun (free : e.hooks = []) (start : t.At s rest) {k : Nat}
    {before : Option Char} {f : Failure}
    (failed : Reader.greedyRun (e.reader s.isReadable) k before rest = .error f) :
    e.Breaks (f.toError s) t := by
  fun_induction Reader.greedyRun (e.reader s.isReadable) k before rest generalizing t with
  | case1 k before rest tail stop read shorter ih =>
    obtain ⟨m, finished, result, left⟩ := start.expect_singleton free
    rw [read] at result left
    have suffix := (read ▸ e.reader_advances s.isReadable rest).suffix
    have moved : m.scanner.current ≠ t.current := by
      rw [ne_eq, start.current_eq_iff left suffix, not_not]
      exact shorter
    exact .later finished result moved (ih left failed)
  | case2 k before rest tail stop read same => cases failed
  | case3 k before rest f' read mismatch => cases failed
  | case4 k before rest f' read fatal =>
    obtain ⟨m, finished, result, left⟩ := start.expect_singleton free
    rw [read] at result
    cases failed
    refine .here finished result ?_
    rw [Failure.isMismatch_toError]
    simpa using fatal

theorem Scanner.At.fails {q : Expr} {f : Failure} (start : t.At s rest) (free : q.hooks = [])
    (failed : q.reader s.isReadable rest = .error f) : t.Fails q (f.toError s) := by
  obtain ⟨m, finished, result, left⟩ := start.expect_singleton free
  rw [failed] at result left
  exact ⟨m, finished, result, left.current_eq.trans start.current_eq.symm⟩

theorem Scanner.At.admits {q : Expr} {r : Reader} {low count : Nat} {high : Option Nat}
    {last : Option Char} (start : t.At s rest) (free : q.hooks = [])
    (reads : q.reader s.isReadable rest = Reader.repeated q r low high rest)
    (ran : Reader.greedyRun r 0 none rest = .ok (count, last) stop) :
    t.Admits q ((low ≤ count && high.all (count ≤ ·)) = true) (s.boundaryAt last stop)
      (s.cursorAt stop) := by
  rw [Reader.repeated_of_run ran] at reads
  by_cases within : (low ≤ count && high.all (count ≤ ·)) = true
  · obtain ⟨m, finished, result, left⟩ := start.expect_singleton free
    rw [reads, if_pos within] at result left
    exact .inside within finished result left.current_eq
  · rw [if_neg within] at reads
    exact .outside within (start.fails free reads)

/-- The quantifiers of `e`, once its run is over. -/
theorem Scanner.At.quantifies {count : Nat} {last : Option Char} (start : t.At s rest)
    (free : e.hooks = [])
    (ran : Reader.greedyRun (e.reader s.isReadable) 0 none rest = .ok (count, last) stop) :
    t.Quantifies e count (s.boundaryAt last stop) (s.cursorAt stop) where
  between low high ordered := by
    have admits := start.admits (q := .between low high e) free
      (Reader.between_of_ordered ordered) ran
    refine admits.congr ?_
    by_cases unbounded : high = 0
    · simp [unbounded]
    · simp [unbounded]
  atLeast low := (start.admits (q := .atLeast low e) free rfl ran).congr (by simp)
  exactly times := by
    refine (start.admits (q := .exactly times e) free rfl ran).congr ?_
    simp
    omega
  optional := by
    have member : (Expr.optional [e]).hooks = [] := (Expr.hooksIn_singleton e).trans free
    obtain ⟨m, finished, result, left⟩ := start.expect_singleton member
    have read : (Expr.optional [e]).reader s.isReadable rest =
        if count = 1 then .ok last stop else .ok none rest := Reader.optionalFrom_of_run ran
    rw [read] at result left
    refine ⟨m, finished, ?_, ?_⟩
    · intro once
      rw [if_pos once] at result left
      exact ⟨result, left.current_eq⟩
    · intro notOnce
      rw [if_neg notOnce] at result left
      rw [start.current_eq]
      exact ⟨result, left.current_eq⟩

/-- The quantifiers of `e`, whose run breaks. -/
theorem Scanner.At.quantifiersFail {f : Failure} (start : t.At s rest) (free : e.hooks = [])
    (failed : Reader.greedyRun (e.reader s.isReadable) 0 none rest = .error f) :
    t.QuantifiersFail e (f.toError s) where
  between low high ordered := start.fails (q := .between low high e) free
    ((Reader.between_of_ordered ordered).trans (Reader.repeated_of_error failed _ _))
  atLeast low := start.fails (q := .atLeast low e) free (Reader.repeated_of_error failed _ _)
  exactly times := start.fails (q := .exactly times e) free (Reader.repeated_of_error failed _ _)
  optional := start.fails ((Expr.hooksIn_singleton e).trans free)
    (Reader.optionalFrom_of_error failed)

/-- If the run of `e` breaks, every quantifier fails with the error it breaks with. Otherwise there
is one run, before any bounds are considered, and the quantifiers only look at how long it is. With
less than `2 ^ 32 - 1` points its length is a number of 32 bits. -/
theorem Scanner.expect_quantifiers (visited : t.source.Visited t.current) (free : e.hooks = []) :
    (∀ error, e.Breaks error t → t.QuantifiersFail e error) ∧
      ((∀ error, ¬e.Breaks error t) → ∃ count last u, e.Runs t t.current count last u ∧
        (∀ count' last' u', e.Runs t t.current count' last' u' →
          count' = count ∧ last' = last ∧ u' = u) ∧
        count ≤ t.source.points.length + 1 ∧ t.Quantifies e count last u.current) := by
  obtain ⟨i, visits⟩ := visited
  obtain ⟨rest, start, _⟩ := At.of_visits rfl visits
  cases ran : Reader.greedyRun (e.reader t.source.isReadable) 0 none rest with
  | ok run stop =>
    obtain ⟨n, tail⟩ := run
    obtain ⟨count, u, total, few, there, runs⟩ :=
      Expr.runs_of_greedyRun free start start.isBoundary ran
    rw [Nat.zero_add] at total
    subst total
    refine ⟨fun error breaks => absurd breaks runs.not_breaks, fun _ => ?_⟩
    refine ⟨n, _, u, runs, fun count' last' u' other => runs.unique other, ?_, ?_⟩
    · exact few.trans (Nat.succ_le_succ start.leaves.length_le)
    · rw [there.current_eq]
      exact start.quantifies free ran
  | error f =>
    have breaks := Expr.breaks_of_greedyRun free start ran
    refine ⟨fun error other => ?_, fun never => absurd breaks (never _)⟩
    rw [breaks.unique other]
    exact start.quantifiersFail free ran

/-- A sign that may be missing, tried again and again on a sign and a digit. The second success does
not move and still counts, so twice is how often it has to be asked for. -/
theorem Scanner.expect_quantifiers_sign :
    let t : Scanner := ⟨.ofString "-7", ⟨.start, some '-', 0⟩, none, none⟩
    let digit : Cursor := ⟨⟨1, 2, 2, 2⟩, some '7', 1⟩
    let e : Expr := .optional [.point '-']
    t.source.Visited t.current ∧ e.hooks = [] ∧ (∀ error, ¬e.Breaks error t) ∧
      t.Quantifies e 2 digit digit := by
  intro t digit e
  have visited : t.source.Visited t.current := ⟨0, .first (by decide)⟩
  have moves : (t.expect [e]).map (fun m => (m.result.toOption, m.scanner)) =
      some (some t.current, t.jump digit) := by decide
  have stays : ((t.jump digit).expect [e]).map (fun m => (m.result.toOption, m.scanner)) =
      some (some digit, t.jump digit) := by decide
  obtain ⟨m, finished, succeeded, first⟩ := expect_of_map moves
  rw [← first] at stays
  obtain ⟨n, again, stayed, second⟩ := expect_of_map stays
  have runs : e.Runs t t.current 2 digit n.scanner := by
    refine .again finished succeeded ?_ (.still again stayed (by rw [second]))
    rw [first]
    decide
  have unbroken (error : MatchError) : ¬e.Breaks error t := runs.not_breaks
  obtain ⟨count, last, u, _, unique, _, quantifies⟩ :=
    (expect_quantifiers (e := e) visited rfl).2 unbroken
  obtain ⟨rfl, rfl, rfl⟩ := unique 2 digit n.scanner runs
  rw [second, first] at quantifies
  exact ⟨visited, rfl, unbroken, quantifies⟩

end TextMatch
