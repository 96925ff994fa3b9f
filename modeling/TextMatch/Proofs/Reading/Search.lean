import TextMatch.Proofs.Matcher.HookBoundary
import TextMatch.Proofs.Reading.Congruence

/-!
# Searching as a derived form

The search for the first place where some member matches needs no construct of its own. It is to go
over points as long as no member matches, and then through a match of a member, or up to it
(`Expr.unrolled`). A search tries the members once at each place; its derived form tries them once
to rule them out and, where they are not ruled out, once more to match them. Both stop at the same
place, for the same reason (`Scanner.expect_untilAny_unrolled`). They differ in what an exclusive
search gives back, the last point in front of the match, where the lookahead of the derived form
consumes nothing and gives back the place of the match.
-/
namespace TextMatch

/-- Over points where no member matches, and then through a match or up to it. -/
def Expr.unrolled (es : List Expr) : Bool → Expr
  | true => .seq [.atLeast 0 (.seq [.noneOf es, .any]), .oneOf es]
  | false => .seq [.atLeast 0 (.seq [.noneOf es, .any]), .ahead es]

/-- What the derived form asks for in the end. -/
def Expr.sought (es : List Expr) : Bool → Expr
  | true => .oneOf es
  | false => .ahead es

/-- The second reading is that of the derived form of the search that the first one reads. -/
inductive Reading.Unrolls (es : List Expr) (inclusive : Bool) :
    Reading (Option Char) → Reading (Option Char) → Prop
  | found {last tail : Option Char} {stop : List Char} (through : inclusive = true → last = tail) :
      Unrolls es inclusive (.ok last stop) (.ok tail stop)
  | nowhere : Unrolls es inclusive (.error (.unmet (.untilAny es inclusive) []))
      (.error (.unmet (Expr.sought es inclusive) []))
  | fatal {f : Failure} (fatal : f.isMismatch = false) :
      Unrolls es inclusive (.error f) (.error f)

theorem Reading.andThen_assoc {α β γ : Type} (r : Reading α) (f : α → List Char → Reading β)
    (g : β → List Char → Reading γ) :
    (r.andThen f).andThen g = r.andThen fun value rest => (f value rest).andThen g := by
  cases r <;> rfl

theorem Reading.andThen_ok {α : Type} (r : Reading α) : r.andThen .ok = r := by
  cases r <;> rfl

namespace Reader

variable {whole inclusive : Bool} {es : List Expr} {expr : Expr} {rs : List Reader}
  {last tail : Option Char} {c : Char} {rest stop : List Char} {r : Reader}

/-- The search for a member fails by itself only where the match cannot go on. -/
theorem fatal_of_firstOf {f : Failure} (failed : firstOf rs rest = .error f) :
    f.isMismatch = false := by
  cases f with
  | unmet x place => exact (firstOf_unmet (P := fun _ _ => False) rs rest x place failed).elim
  | defective kind defect => rfl
  | unreadable => rfl

/-- Without bounds the greedy run is all there is. -/
theorem repeated_unbounded (expr : Expr) (r : Reader) (rest : List Char) :
    repeated expr r 0 none rest =
      (greedyRun r 0 none rest).andThen fun run stop => .ok run.2 stop := by
  unfold repeated bounded
  cases greedyRun r 0 none rest <;> rfl

/-- One round of the derived form: a point where no member matches. -/
def skip (whole : Bool) (es : List Expr) : Reader :=
  (Expr.seq [.noneOf es, .any]).reader whole

theorem skip_of_found (found : firstOf (Expr.readers whole es) rest = .ok (some tail) stop) :
    skip whole es rest = .error (.unmet (.noneOf es) rest) := by
  simp [skip, Expr.reader, Expr.readers, seq, seqFrom, noneOf, anyHolds, found, Reading.andThen]

theorem skip_of_error {f : Failure} (failed : firstOf (Expr.readers whole es) rest = .error f) :
    skip whole es rest = .error f := by
  simp [skip, Expr.reader, Expr.readers, seq, seqFrom, noneOf, anyHolds, failed, Reading.andThen]

theorem skip_of_nowhere (nowhere : firstOf (Expr.readers whole es) rest = .ok none stop) :
    skip whole es rest = pointIf whole .any (fun _ => true) rest := by
  have alone := Reading.andThen_ok (pointIf whole .any (fun _ => true) rest)
  simpa [skip, Expr.reader, Expr.readers, seq, seqFrom, noneOf, anyHolds, nowhere,
    Reading.andThen] using alone

theorem skip_nil (nowhere : firstOf (Expr.readers whole es) [] = .ok none stop) :
    skip whole es [] = .error (.unmet .any []) := by
  rw [skip_of_nowhere nowhere]
  rfl

theorem skip_cons (nowhere : firstOf (Expr.readers whole es) (c :: rest) = .ok none stop) :
    skip whole es (c :: rest) =
      if rest = [] ∧ whole = false then .error .unreadable else .ok (some c) rest := by
  rw [skip_of_nowhere nowhere]
  rfl

/-- Where the rounds are over, the member is matched or looked ahead for. -/
def seek (whole : Bool) (es : List Expr) (inclusive : Bool) : Reader :=
  (Expr.sought es inclusive).reader whole

theorem seek_of_found (found : firstOf (Expr.readers whole es) rest = .ok (some tail) stop) :
    seek whole es inclusive rest = if inclusive then .ok tail stop else .ok none rest := by
  cases inclusive <;>
    simp [seek, Expr.sought, Expr.reader, oneOf, ahead, anyHolds, found, Reading.andThen]

theorem seek_of_nowhere (nowhere : firstOf (Expr.readers whole es) rest = .ok none stop) :
    seek whole es inclusive rest = .error (.unmet (Expr.sought es inclusive) rest) := by
  cases inclusive <;>
    simp [seek, Expr.sought, Expr.reader, oneOf, ahead, anyHolds, nowhere, Reading.andThen]

theorem unrolled_eq (whole inclusive : Bool) (es : List Expr) (rest : List Char) :
    (Expr.unrolled es inclusive).reader whole rest =
      (greedyRun (skip whole es) 0 none rest).andThen fun _ stop =>
        seek whole es inclusive stop := by
  have split : (Expr.unrolled es inclusive).reader whole rest =
      (repeated (.atLeast 0 (.seq [.noneOf es, .any])) (skip whole es) 0 none rest).andThen
        fun _ stop => (seek whole es inclusive stop).andThen .ok := by
    cases inclusive <;> rfl
  rw [split, repeated_unbounded, Reading.andThen_assoc]
  simp only [Reading.andThen_ok]
  rfl

/-- The search and its derived form go over the same points, from any place on. -/
theorem untilFrom_unrolls (count : Nat) (last tail : Option Char) (rest : List Char) :
    (untilFrom whole (.untilAny es inclusive) (Expr.readers whole es) inclusive last rest).Unrolls
      es inclusive
      ((greedyRun (skip whole es) count tail rest).andThen fun _ stop =>
        seek whole es inclusive stop) := by
  induction size : rest.length using Nat.strong_induction_on
    generalizing count last tail rest with
  | _ n ih =>
    cases found : firstOf (Expr.readers whole es) rest with
    | ok first stop =>
      cases first with
      | some boundary =>
        have halted : greedyRun (skip whole es) count tail rest = .ok (count, tail) rest := by
          rw [greedyRun, skip_of_found found]
          rfl
        rw [untilFrom_of_found found, halted, Reading.andThen, seek_of_found found]
        cases inclusive with
        | true => exact .found fun _ => rfl
        | false => exact .found fun through => absurd through Bool.false_ne_true
      | none =>
        cases rest with
        | nil =>
          have halted : greedyRun (skip whole es) count tail [] = .ok (count, tail) [] := by
            rw [greedyRun, skip_nil found]
            rfl
          rw [untilFrom_nil found, halted, Reading.andThen, seek_of_nowhere found]
          exact .nowhere
        | cons c rest =>
          rw [untilFrom_cons found, greedyRun, skip_cons found]
          by_cases stuck : rest = [] ∧ whole = false
          · rw [if_pos stuck, if_pos stuck]
            exact .fatal rfl
          · rw [if_neg stuck, if_neg stuck]
            have shorter : rest.length < (c :: rest).length := Nat.lt_succ_self _
            dsimp only
            rw [if_pos shorter]
            exact ih rest.length (size ▸ shorter) (count + 1) (some c) (some c) rest rfl
    | error f =>
      have fatal := fatal_of_firstOf found
      have halted : greedyRun (skip whole es) count tail rest = .error f := by
        rw [greedyRun, skip_of_error found]
        simp [fatal]
      rw [untilFrom_of_error found, halted]
      exact .fatal fatal

end Reader

variable {s : Source} {es : List Expr} {inclusive : Bool}

theorem Expr.reader_unrolls (whole : Bool) (es : List Expr) (inclusive : Bool)
    (rest : List Char) :
    ((Expr.untilAny es inclusive).reader whole rest).Unrolls es inclusive
      ((Expr.unrolled es inclusive).reader whole rest) := by
  rw [Reader.unrolled_eq]
  exact Reader.untilFrom_unrolls 0 none none rest

theorem Expr.hooks_unrolled (free : Expr.hooksIn es = []) (inclusive : Bool) :
    (Expr.unrolled es inclusive).hooks = [] := by
  cases inclusive <;> simp [Expr.unrolled, Expr.hooks, Expr.hooksIn, free]

/-- A search may be written as its derived form within any grammar. -/
theorem Expr.equivalentOn_unrolled (free : Expr.hooksIn es = []) (inclusive : Bool) :
    Expr.EquivalentOn s [.untilAny es inclusive] [Expr.unrolled es inclusive] := by
  have search : (Expr.untilAny es inclusive).hooks = [] := free
  rw [Expr.equivalentOn_singleton_iff search (hooks_unrolled free inclusive)]
  intro rest leaves
  have both := Expr.reader_unrolls s.isReadable es inclusive rest
  have onward {last : Option Char} {stop : List Char} := @Source.Leaves.onward s
    (.untilAny es inclusive) rest last stop leaves free
  generalize (Expr.untilAny es inclusive).reader s.isReadable rest = reading,
    (Expr.unrolled es inclusive).reader s.isReadable rest = reading' at both onward ⊢
  cases both with
  | found => exact .ok trivial (onward rfl)
  | nowhere => exact .unmet
  | fatal fatal => exact .fatal fatal

/-- The first match, of a search that began at `start`, and the second, of its derived form, come
out alike. -/
inductive Match.Unrolls (es : List Expr) (inclusive : Bool) (start : Scanner) (m n : Match) : Prop
  | found {boundary boundary' : Cursor} (first : m.result = .ok boundary)
      (second : n.result = .ok boundary')
      (through : inclusive = true → boundary = boundary')
      (unmoved : inclusive = false → m.scanner.current = start.current →
        boundary = start.current)
      (before : inclusive = false → m.scanner.current ≠ start.current →
        start.source.Precedes boundary m.scanner.current)
  | nowhere {c : Cursor} (first : m.result = .error (.unmet (.untilAny es inclusive) c))
      (second : n.result = .error (.unmet (Expr.sought es inclusive) c))
      (visited : start.source.Visited c) (ended : c.isEnd = true)
  | fatal {e : MatchError} (first : m.result = .error e) (second : n.result = .error e)
      (fatal : e.isMismatch = false)

/-- A search comes out as its derived form does: both succeed, at the same place; or both come to
the end of data, where the search and the member sought are unmet; or both fail with the same other
error. Of a search through a match the boundary is that of the derived form, and of a search up to
a match it is the point that ends there, or the start where nothing was in between. -/
theorem Scanner.expect_untilAny_unrolled {t : Scanner} {i : Nat}
    (visited : t.source.Visits i t.current) (free : Expr.hooksIn es = []) (inclusive : Bool) :
    ∃ m n, t.expect [.untilAny es inclusive] = some m ∧
      t.expect [Expr.unrolled es inclusive] = some n ∧
      m.scanner.current = n.scanner.current ∧ m.Unrolls es inclusive t n := by
  obtain ⟨rest, start, _⟩ := At.of_visits rfl visited
  have search : (Expr.untilAny es inclusive).hooks = [] := free
  obtain ⟨m, finished, result, left⟩ := start.expect_singleton search
  obtain ⟨n, finished', result', left'⟩ :=
    start.expect_singleton (Expr.hooks_unrolled free inclusive)
  refine ⟨m, n, finished, finished', ?_⟩
  have both := Expr.reader_unrolls t.source.isReadable es inclusive rest
  generalize read : (Expr.untilAny es inclusive).reader t.source.isReadable rest = reading,
    (Expr.unrolled es inclusive).reader t.source.isReadable rest = reading'
    at both result left result' left'
  cases both with
  | @found last tail stop through =>
    have current : m.scanner.current = t.source.cursorAt stop := left.current_eq
    refine ⟨current.trans left'.current_eq.symm, .found result result' ?_ ?_ ?_⟩
    · intro inclusive
      rw [through inclusive]
    · rintro rfl same
      rcases Reader.last_of_untilFrom read with ⟨rfl, rfl⟩ | ⟨c, rfl, within⟩
      · exact start.current_eq.symm
      · rw [start.current_eq_iff left ((List.suffix_cons c stop).trans within)] at same
        exact absurd (Nat.lt_of_succ_le within.length_le) same
    · rintro rfl moved
      rcases Reader.last_of_untilFrom read with ⟨rfl, rfl⟩ | ⟨c, rfl, within⟩
      · exact absurd (current.trans start.current_eq.symm) moved
      · have leaves : t.source.Leaves (c :: stop) :=
          ⟨within.trans start.leaves.suffix, start.leaves.nonempty, nofun⟩
        rw [current]
        exact leaves.precedes left.leaves
  | nowhere =>
    have leaves := start.leaves.unmet read
    refine ⟨left.current_eq.trans left'.current_eq.symm, ?_⟩
    exact .nowhere result result' ⟨_, leaves.visits⟩ (Source.isEnd_cursorAt t.source [])
  | @fatal f fatal =>
    refine ⟨left.current_eq.trans left'.current_eq.symm, ?_⟩
    exact .fatal result result' ((Failure.isMismatch_toError t.source f).trans fatal)

/-- A value up to its semicolon or to the end of data. The search gives back the blank in front of
the semicolon, the derived form the semicolon. -/
theorem Scanner.expect_untilAny_unrolled_value :
    let t : Scanner := ⟨.ofString "é ;", ⟨.start, some 'é', 0⟩, none, none⟩
    let es : List Expr := [.point ';', .noneOf [.any]]
    let blank : Cursor := ⟨⟨1, 2, 3, 2⟩, some ' ', 2⟩
    let semicolon : Cursor := ⟨⟨1, 3, 4, 3⟩, some ';', 3⟩
    t.source.Visits 0 t.current ∧ Expr.hooksIn es = [] ∧
      ∃ m n, t.expect [.untilAny es false] = some m ∧
        t.expect [Expr.unrolled es false] = some n ∧ m.Unrolls es false t n ∧
        m.result.toOption = some blank ∧ n.result.toOption = some semicolon ∧
        n.scanner.current = semicolon := by
  intro t es blank semicolon
  have visited : t.source.Visits 0 t.current := .first (by decide)
  obtain ⟨m, n, finished, finished', together, both⟩ :=
    @expect_untilAny_unrolled es t 0 visited rfl false
  have searched : (t.expect [.untilAny es false]).map (fun m => m.result.toOption) =
      some (some blank) := by decide +kernel
  have derived : (t.expect [Expr.unrolled es false]).map
      (fun n => (n.result.toOption, n.scanner.current)) = some (some semicolon, semicolon) := by
    decide +kernel
  rw [finished, Option.map_some] at searched
  rw [finished', Option.map_some] at derived
  obtain ⟨given, stop⟩ := Prod.mk.inj (Option.some.inj derived)
  exact ⟨visited, rfl, m, n, finished, finished', both, Option.some.inj searched, given, stop⟩

end TextMatch
