import TextMatch.Proofs.Reading.GreedyRun
import TextMatch.Proofs.Reading.MalformedTail
import TextMatch.Proofs.Source.Canonical

/-!
# Where mismatches come from

A mismatch names an expression and a cursor, and both can be relied on: the expression is reached
from the start of the match through members of sequences alone, all the members before it matched
one after the other, and when it is tried again from there by itself it fails in the same way
(`Scanner.expect_unmet_reproduces`). Of every other construct it is the construct itself that is
named, never one of its members: the failures of these are an answer to it and not the end of the
match. What the cursor says depends on the form of the expression (`Expr.StopsAt`).
-/
namespace TextMatch

/-- The scanner stands at each of the points in turn, and advances to the second scanner. -/
inductive Scanner.Passes : List Char → Scanner → Scanner → Prop
  | nil {t : Scanner} : Scanner.Passes [] t t
  | cons {c : Char} {cs : List Char} {t u v : Scanner} (here : t.current.point = some c)
      (advanced : t.advance = .ok u) (later : Scanner.Passes cs u v) : Scanner.Passes (c :: cs) t v

/-- Matching `e` again and again, from the first scanner on, succeeds so many times and leaves the
second. It ends with a mismatch, or with a success that leaves the cursor where it was. -/
inductive Expr.Repeats (e : Expr) : Nat → Scanner → Scanner → Prop
  | mismatch {t : Scanner} {m : Match} {error : MatchError} (finished : t.expect [e] = some m)
      (failed : m.result = .error error) (mismatch : error.isMismatch = true) :
      Repeats e 0 t m.scanner
  | still {t : Scanner} {m : Match} {boundary : Cursor} (finished : t.expect [e] = some m)
      (succeeded : m.result = .ok boundary) (unmoved : m.scanner.current = t.current) :
      Repeats e 1 t m.scanner
  | again {t u : Scanner} {m : Match} {boundary : Cursor} {count : Nat}
      (finished : t.expect [e] = some m) (succeeded : m.result = .ok boundary)
      (moved : m.scanner.current ≠ t.current) (later : Repeats e count m.scanner u) :
      Repeats e (count + 1) t u

/-- Where an expression that `u` tries stops for want of a match. A sequence or an optional never
does: the one fails where a member does, the other goes on without. -/
def Expr.StopsAt (u : Scanner) (c : Cursor) : Expr → Prop
  | .point _ | .any | .range _ _ | .noneOf _ | .ahead _ | .oneOf _ => c = u.current
  | .literal text => ∃ passed d later v, text.toList = passed ++ d :: later ∧
      Scanner.Passes passed u v ∧ c = v.current ∧ c.point ≠ some d
  | .between low high e => ∃ count v, e.Repeats count u v ∧ c = v.current ∧
      (count < low ∨ high ≠ 0 ∧ high < count)
  | .atLeast low e => ∃ count v, e.Repeats count u v ∧ c = v.current ∧ count < low
  | .exactly times e => ∃ count v, e.Repeats count u v ∧ c = v.current ∧ count ≠ times
  | .untilAny _ _ => c.isEnd = true
  | .seq _ | .optional _ | .hook _ => False

/-- On the way from `t` through `es` the scanner `u` comes to `x`: the members before it succeed,
one from where the other stops, and only sequences are entered. -/
inductive Scanner.LeadsTo (u : Scanner) (x : Expr) : Scanner → List Expr → Prop
  | here {es : List Expr} : LeadsTo u x u (x :: es)
  | behind {t : Scanner} {e : Expr} {es : List Expr} {m : Match} {boundary : Cursor}
      (finished : t.expect [e] = some m) (succeeded : m.result = .ok boundary)
      (later : LeadsTo u x m.scanner es) : LeadsTo u x t (e :: es)
  | within {t : Scanner} {ds es : List Expr} (inner : LeadsTo u x t ds) :
      LeadsTo u x t (.seq ds :: es)

/-- A mismatch of `x` at `c`, named by a match of `es` from `t` on, is one of `x` tried by `u`. -/
structure Scanner.Reproduces (t : Scanner) (es : List Expr) (x : Expr) (c : Cursor) (u : Scanner) :
    Prop where
  leads : u.LeadsTo x t es
  source_eq : u.source = t.source
  visited : t.source.Visited u.current ∧ t.source.Visited c
  ordered : t.current.offset ≤ u.current.offset ∧ u.current.offset ≤ c.offset
  again : ∃ n, u.expect [x] = some n ∧ n.result = .error (.unmet x c)
  stops : x.StopsAt u c

/-- Whatever `r` finds unmet, and the points left there, satisfy `P`. -/
def Reading.Unmet {α : Type} (P : Expr → List Char → Prop) (r : Reading α) : Prop :=
  ∀ x place, r = .error (.unmet x place) → P x place

namespace Reading

variable {α β : Type} {P : Expr → List Char → Prop}

theorem unmet_ok (value : α) (rest : List Char) : (ok value rest).Unmet P :=
  fun _ _ failed => by cases failed

theorem unmet_self (expr : Expr) (place : List Char) :
    (error (.unmet expr place) : Reading α).Unmet fun x left => x = expr ∧ left = place := by
  intro x left failed
  cases failed
  exact ⟨rfl, rfl⟩

theorem unmet_fatal {f : Failure} (fatal : f.isMismatch = false) :
    (error f : Reading α).Unmet P := by
  intro x place failed
  cases failed
  cases fatal

/-- A failure is the same whatever was to be read. -/
theorem Unmet.error {f : Failure} (failed : (error f : Reading α).Unmet P) :
    (error f : Reading β).Unmet P := by
  intro x place same
  cases same
  exact failed x place rfl

theorem Unmet.andThen {r : Reading α} {next : α → List Char → Reading β} (first : r.Unmet P)
    (onward : ∀ value stop, r = .ok value stop → (next value stop).Unmet P) :
    (r.andThen next).Unmet P := by
  cases r with
  | ok value stop => exact onward value stop rfl
  | error f => exact first.error

theorem Unmet.retry {f : Failure} {again : Reading α} (onward : again.Unmet P) :
    (if f.isMismatch then again else .error f).Unmet P := by
  cases mismatch : f.isMismatch with
  | true => simpa using onward
  | false => simpa using unmet_fatal mismatch

end Reading

namespace Reader

variable {whole : Bool} {r : Reader} {rs : List Reader} {rest : List Char} {expr : Expr}
  {P : Expr → List Char → Prop}

theorem consume_unmet (whole : Bool) (rest : List Char) : (consume whole rest).Unmet P := by
  cases rest with
  | nil => exact Reading.unmet_ok _ _
  | cons c rest =>
    by_cases stuck : rest = [] ∧ whole = false
    · rw [consume, if_pos stuck]
      exact Reading.unmet_fatal rfl
    · rw [consume, if_neg stuck]
      exact Reading.unmet_ok _ _

theorem pointIf_unmet (expr : Expr) (accepts : Char → Bool) :
    (pointIf whole expr accepts rest).Unmet fun x place => x = expr ∧ place = rest := by
  unfold pointIf
  split
  · exact consume_unmet whole rest
  · exact Reading.unmet_self expr rest

/-- The text is read up to the first point that differs. -/
theorem points_unmet (expr : Expr) (cs : List Char) (last : Option Char) :
    (points whole expr cs last rest).Unmet fun x place => x = expr ∧
      ∃ passed d later, cs = passed ++ d :: later ∧ rest = passed ++ place ∧
        place.head? ≠ some d := by
  induction cs generalizing last rest with
  | nil => exact Reading.unmet_ok _ _
  | cons c cs ih =>
    rw [points]
    by_cases found : rest.head? = some c
    · obtain ⟨rest, rfl⟩ := List.head?_eq_some_iff.mp found
      intro x place failed
      have read : pointIf whole expr (· == c) (c :: rest) = consume whole (c :: rest) := by
        simp [pointIf]
      rw [read, consume] at failed
      split at failed
      · cases failed
      · obtain ⟨same, passed, d, later, text, points, other⟩ := ih (some c) x place failed
        exact ⟨same, c :: passed, d, later, by rw [text]; rfl, by rw [points]; rfl, other⟩
    · intro x place failed
      have refused : pointIf whole expr (· == c) rest = .error (.unmet expr rest) := by
        rw [pointIf, if_neg]
        cases rest with
        | nil => simp
        | cons d rest => simpa using found
      rw [refused] at failed
      cases failed
      exact ⟨rfl, [], c, cs, rfl, rfl, found⟩

theorem literal_unmet (text : String) :
    (literal whole text rest).Unmet fun x place => x = .literal text ∧
      ∃ passed d later, text.toList = passed ++ d :: later ∧ rest = passed ++ place ∧
        place.head? ≠ some d := by
  unfold literal
  split
  · exact Reading.unmet_fatal rfl
  · exact points_unmet _ _ _

theorem range_unmet (first last : Char) :
    (range whole first last rest).Unmet fun x place =>
      x = .range first last ∧ place = rest := by
  unfold range
  split
  · exact Reading.unmet_fatal rfl
  · exact pointIf_unmet _ _

/-- A mismatch of a member is an answer to the search, not the end of it. -/
theorem firstOf_unmet (rs : List Reader) (rest : List Char) : (firstOf rs rest).Unmet P := by
  induction rs with
  | nil => exact Reading.unmet_ok _ _
  | cons r rs ih =>
    unfold firstOf
    cases r rest with
    | ok last stop => exact Reading.unmet_ok _ _
    | error f => exact .retry ih

theorem oneOf_unmet (expr : Expr) (rs : List Reader) :
    (oneOf expr rs rest).Unmet fun x place => x = expr ∧ place = rest := by
  refine (firstOf_unmet rs rest).andThen fun found stop _ => ?_
  cases found with
  | some last => exact Reading.unmet_ok _ _
  | none => exact Reading.unmet_self expr rest

theorem anyHolds_unmet (rs : List Reader) (rest : List Char) : (anyHolds rs rest).Unmet P :=
  (firstOf_unmet rs rest).andThen fun _ _ _ => Reading.unmet_ok _ _

theorem noneOf_unmet (expr : Expr) (rs : List Reader) :
    (noneOf expr rs rest).Unmet fun x place => x = expr ∧ place = rest := by
  refine (anyHolds_unmet rs rest).andThen fun holds stop _ => ?_
  cases holds with
  | false => exact Reading.unmet_ok _ _
  | true => exact Reading.unmet_self expr rest

theorem ahead_unmet (expr : Expr) (rs : List Reader) :
    (ahead expr rs rest).Unmet fun x place => x = expr ∧ place = rest := by
  refine (anyHolds_unmet rs rest).andThen fun holds stop _ => ?_
  cases holds with
  | true => exact Reading.unmet_ok _ _
  | false => exact Reading.unmet_self expr rest

/-- A mismatch of the member ends the run, which succeeds. -/
theorem greedyRun_unmet (r : Reader) (count : Nat) (last : Option Char) (rest : List Char) :
    (greedyRun r count last rest).Unmet P := by
  fun_induction greedyRun r count last rest with
  | case1 count last rest tail stop result shorter ih => exact ih
  | case2 count last rest tail stop result same => exact Reading.unmet_ok _ _
  | case3 count last rest f result mismatch => exact Reading.unmet_ok _ _
  | case4 count last rest f result fatal => exact Reading.unmet_fatal (by simpa using fatal)

/-- What is unmet are the bounds, where the run stopped. -/
theorem bounded_unmet (expr : Expr) (r : Reader) (low : Nat) (high : Option Nat) :
    (bounded expr r low high rest).Unmet fun x place => x = expr ∧
      ∃ count last, greedyRun r 0 none rest = .ok (count, last) place ∧
        (low ≤ count && high.all (count ≤ ·)) = false := by
  refine (greedyRun_unmet r 0 none rest).andThen fun run stop ran => ?_
  intro x place failed
  by_cases within : (low ≤ run.1 && high.all (run.1 ≤ ·)) = true
  · rw [if_pos within] at failed
    cases failed
  · rw [if_neg within] at failed
    cases failed
    exact ⟨rfl, run.1, run.2, ran, by simpa using within⟩

theorem repeated_unmet (expr : Expr) (r : Reader) (low : Nat) (high : Option Nat) :
    (repeated expr r low high rest).Unmet fun x place => x = expr ∧
      ∃ count last, greedyRun r 0 none rest = .ok (count, last) place ∧
        (low ≤ count && high.all (count ≤ ·)) = false :=
  (bounded_unmet expr r low high).andThen fun _ _ _ => Reading.unmet_ok _ _

theorem optionalFrom_unmet (expr : Expr) (rs : List Reader) (last : Option Char)
    (rest : List Char) : (optionalFrom expr rs last rest).Unmet P := by
  induction rs generalizing last rest with
  | nil => exact Reading.unmet_ok _ _
  | cons r rs ih =>
    unfold optionalFrom
    split
    · exact ih last rest
    · exact ih _ _
    · exact .retry (ih last rest)

/-- The search fails at the end of data only. -/
theorem untilFrom_unmet (expr : Expr) (rs : List Reader) (inclusive : Bool) (last : Option Char)
    (rest : List Char) :
    (untilFrom whole expr rs inclusive last rest).Unmet fun x place => x = expr ∧ place = [] := by
  induction rest generalizing last with
  | nil =>
    have search := firstOf_unmet (P := fun x place => x = expr ∧ place = []) rs []
    unfold untilFrom
    cases found : firstOf rs [] with
    | ok first stop =>
      cases first with
      | some boundary => cases inclusive <;> exact Reading.unmet_ok _ _
      | none => exact Reading.unmet_self expr []
    | error f => exact (found ▸ search).error
  | cons c rest ih =>
    have search := firstOf_unmet (P := fun x place => x = expr ∧ place = []) rs (c :: rest)
    unfold untilFrom
    cases found : firstOf rs (c :: rest) with
    | ok first stop =>
      cases first with
      | some boundary => cases inclusive <;> exact Reading.unmet_ok _ _
      | none =>
        dsimp only
        split
        · exact Reading.unmet_fatal rfl
        · exact ih (some c)
    | error f => exact (found ▸ search).error

end Reader
variable {s : Source} {t u : Scanner} {rest place : List Char} {e x : Expr}

/-- There is a cursor where something was unmet: in front of malformed bytes some point is left. -/
theorem Source.Leaves.unmet (leaves : s.Leaves rest)
    (failed : e.reader s.isReadable rest = .error (.unmet x place)) : s.Leaves place := by
  have within := e.reader_advances s.isReadable rest
  rw [failed] at within
  refine ⟨List.IsSuffix.trans within leaves.suffix, leaves.nonempty, fun nothing => ?_⟩
  by_contra unreadable
  rw [Bool.not_eq_true] at unreadable
  have onward : rest ≠ [] := fun none => by simp [leaves.readable none] at unreadable
  have alone := e.reader_extends [] false rest onward
  rw [unreadable] at failed
  rw [failed] at alone
  generalize e.reader false (rest ++ []) = reading at alone
  cases alone with
  | unmet left => exact left nothing

theorem Scanner.At.passes {passed : List Char} (start : t.At s (passed ++ place))
    (leaves : s.Leaves place) :
    ∃ v, Scanner.Passes passed t v ∧ v.At s place := by
  induction passed generalizing t with
  | nil => exact ⟨t, .nil, start⟩
  | cons c passed ih =>
    have onward : passed ++ place = [] → s.isReadable = true := by
      intro nothing
      exact leaves.readable (List.append_eq_nil_iff.mp nothing).2
    have here : t.current.point = some c := by
      rw [start.current_eq]
      rfl
    have advanced : t.advance = .ok (t.moveTo (s.cursorAt (passed ++ place))) := by
      have stepped := start.advance_cons
      rwa [if_neg (by simpa using onward)] at stepped
    obtain ⟨v, later, there⟩ := ih (start.moveTo onward)
    exact ⟨v, .cons here advanced later, there⟩

/-- The rounds of a run, without its boundaries. -/
theorem Expr.Runs.repeats {first last : Cursor} {count : Nat}
    (run : e.Runs t first count last u) : e.Repeats count t u := by
  induction run with
  | mismatch finished failed mismatch => exact .mismatch finished failed mismatch
  | still finished succeeded unmoved => exact .still finished succeeded unmoved
  | again finished succeeded moved _ ih => exact .again finished succeeded moved ih

/-- A quantifier stops where the greedy run of its member does, with a count out of bounds. -/
theorem Expr.repeats_of_unmet {expr : Expr} (free : e.hooks = []) (start : t.At s rest)
    {low : Nat} {high : Option Nat}
    (failed : Reader.repeated expr (e.reader s.isReadable) low high rest =
      .error (.unmet x place)) :
    x = expr ∧ ∃ count v, e.Repeats count t v ∧ s.cursorAt place = v.current ∧
      (low ≤ count && high.all (count ≤ ·)) = false := by
  obtain ⟨same, count, last, ran, outside⟩ := Reader.repeated_unmet _ _ _ _ x place failed
  obtain ⟨rounds, v, total, _, there, runs⟩ :=
    Expr.runs_of_greedyRun free start start.isBoundary ran
  rw [Nat.zero_add] at total
  rw [total] at outside
  exact ⟨same, rounds, v, runs.repeats, there.current_eq.symm, outside⟩

/-- A mismatch of anything but a sequence is its own. -/
theorem Expr.stopsAt_of_unmet (free : e.hooks = []) (start : t.At s rest)
    (single : ∀ es, e ≠ .seq es)
    (failed : e.reader s.isReadable rest = .error (.unmet x place)) :
    x = e ∧ e.StopsAt t (s.cursorAt place) := by
  have leaves := start.leaves.unmet failed
  -- where it stops without having gone on
  have unmoved (here : place = rest) : s.cursorAt place = t.current := by
    rw [here, start.current_eq]
  cases e with
  | literal text =>
    obtain ⟨same, passed, d, later, letters, points, other⟩ :=
      Reader.literal_unmet text x place failed
    rw [points] at start
    obtain ⟨v, passes, there⟩ := start.passes leaves
    exact ⟨same, passed, d, later, v, letters, passes, there.current_eq.symm, other⟩
  | point c =>
    obtain ⟨same, here⟩ := Reader.pointIf_unmet _ _ x place failed
    exact ⟨same, unmoved here⟩
  | any =>
    obtain ⟨same, here⟩ := Reader.pointIf_unmet _ _ x place failed
    exact ⟨same, unmoved here⟩
  | noneOf es =>
    obtain ⟨same, here⟩ := Reader.noneOf_unmet _ _ x place failed
    exact ⟨same, unmoved here⟩
  | ahead es =>
    obtain ⟨same, here⟩ := Reader.ahead_unmet _ _ x place failed
    exact ⟨same, unmoved here⟩
  | oneOf es =>
    obtain ⟨same, here⟩ := Reader.oneOf_unmet _ _ x place failed
    exact ⟨same, unmoved here⟩
  | seq es => exact absurd rfl (single es)
  | optional es =>
    exact (Reader.optionalFrom_unmet (P := fun _ _ => False) _ _ _ _ x place failed).elim
  | between low high inner =>
    rw [Expr.reader, Reader.between] at failed
    split at failed
    · cases failed
    · obtain ⟨same, count, v, repeats, stopped, outside⟩ :=
        Expr.repeats_of_unmet (show inner.hooks = [] from free) start failed
      refine ⟨same, count, v, repeats, stopped, ?_⟩
      by_cases unbounded : high = 0
      · simp [unbounded] at outside
        omega
      · simp [unbounded] at outside
        omega
  | atLeast low inner =>
    obtain ⟨same, count, v, repeats, stopped, outside⟩ :=
      Expr.repeats_of_unmet (show inner.hooks = [] from free) start failed
    exact ⟨same, count, v, repeats, stopped, by simpa using outside⟩
  | exactly times inner =>
    obtain ⟨same, count, v, repeats, stopped, outside⟩ :=
      Expr.repeats_of_unmet (show inner.hooks = [] from free) start failed
    refine ⟨same, count, v, repeats, stopped, ?_⟩
    rintro rfl
    simp at outside
  | range first last =>
    obtain ⟨same, here⟩ := Reader.range_unmet _ _ x place failed
    exact ⟨same, unmoved here⟩
  | untilAny es inclusive =>
    obtain ⟨same, nothing⟩ := Reader.untilFrom_unmet _ _ _ _ _ x place failed
    rw [nothing]
    exact ⟨same, rfl⟩
  | hook h => cases free

theorem Scanner.LeadsTo.append {es : List Expr} (leads : u.LeadsTo x t es) (more : List Expr) :
    u.LeadsTo x t (es ++ more) := by
  induction leads with
  | here => exact .here
  | behind finished succeeded _ ih => exact .behind finished succeeded ih
  | within inner _ => exact .within inner

/-- Where some points are left, the way to what is unmet, and how it is when one gets there. -/
def Scanner.Blames (s : Source) (t : Scanner) (es : List Expr) (rest : List Char) (x : Expr)
    (place : List Char) : Prop :=
  ∃ u left, u.LeadsTo x t es ∧ u.At s left ∧ left <:+ rest ∧ x.hooks = [] ∧
    x.reader s.isReadable left = .error (.unmet x place) ∧ x.StopsAt u (s.cursorAt place)

/-- A sequence fails where the first of its members does that fails. -/
theorem Scanner.blames_of_seqFrom {es : List Expr} (free : Expr.hooksIn es = [])
    (each : ∀ e ∈ es, ∀ (t : Scanner) (rest : List Char), t.At s rest → e.hooks = [] →
      e.reader s.isReadable rest = .error (.unmet x place) → t.Blames s [e] rest x place)
    (start : t.At s rest) (last : Option Char)
    (failed : Reader.seqFrom (Expr.readers s.isReadable es) last rest = .error (.unmet x place)) :
    t.Blames s es rest x place := by
  induction es generalizing t rest last with
  | nil => cases failed
  | cons e es ih =>
    obtain ⟨head, tail⟩ := List.forall_mem_cons.mp each
    obtain ⟨headFree, tailFree⟩ := List.append_eq_nil_iff.mp free
    cases read : e.reader s.isReadable rest with
    | ok last stop =>
      obtain ⟨m, finished, result, there⟩ := start.expect_singleton headFree
      rw [read] at result there
      simp only [Expr.readers, Reader.seqFrom, read, Reading.andThen] at failed
      have suffix := (read ▸ e.reader_advances s.isReadable rest).suffix
      obtain ⟨u, left, leads, here, shorter, again⟩ := ih tailFree tail there last failed
      exact ⟨u, left, .behind finished result leads, here, shorter.trans suffix, again⟩
    | error f =>
      simp only [Expr.readers, Reader.seqFrom, read, Reading.andThen] at failed
      cases failed
      obtain ⟨u, left, leads, again⟩ := head t rest start headFree read
      exact ⟨u, left, leads.append es, again⟩

theorem Expr.blames (e : Expr) (free : e.hooks = []) (start : t.At s rest)
    (failed : e.reader s.isReadable rest = .error (.unmet x place)) :
    t.Blames s [e] rest x place := by
  induction e using Expr.induction generalizing t rest with
  | seq es ih =>
    obtain ⟨u, left, leads, again⟩ := Scanner.blames_of_seqFrom free
      (fun e member t rest start free => ih e member free start) start none failed
    exact ⟨u, left, .within leads, again⟩
  | literal | point | any | noneOf | ahead | oneOf | optional | between | atLeast | exactly | range
  | untilAny | hook =>
    obtain ⟨rfl, stops⟩ := Expr.stopsAt_of_unmet free start (by simp) failed
    exact ⟨t, rest, .here, start, List.suffix_rfl, free, failed, stops⟩

/-- If a match names an expression that is not met at some cursor, there is a scanner on the way
through the sequences of the match that tries this expression by itself and fails at this
cursor. -/
theorem Scanner.expect_unmet_reproduces {i : Nat} {es : List Expr} {m : Match} {c : Cursor}
    (visited : t.source.Visits i t.current) (free : Expr.hooksIn es = [])
    (finished : t.expect es = some m) (failed : m.result = .error (.unmet x c)) :
    ∃ u, t.Reproduces es x c u := by
  obtain ⟨rest, start, _⟩ := At.of_visits rfl visited
  obtain ⟨n, same, result, _⟩ := start.expect free
  cases finished.symm.trans same
  rw [failed] at result
  cases read : Expr.listReader t.source.isReadable es rest with
  | ok last stop =>
    rw [read] at result
    cases result
  | error f =>
    rw [read] at result
    obtain ⟨place, unmet, rfl⟩ : ∃ place, f = .unmet x place ∧ c = t.source.cursorAt place := by
      cases f <;> cases result
      exact ⟨_, rfl, rfl⟩
    rw [unmet] at read
    obtain ⟨u, left, leads, here, suffix, own, again, stops⟩ :=
      blames_of_seqFrom free (fun e _ t rest start free => Expr.blames e free start) start none read
    obtain ⟨n, finished, result, _⟩ := here.expect_singleton own
    have leaves := here.leaves.unmet again
    have shorter : place <:+ left := by
      have within := x.reader_advances t.source.isReadable left
      rw [again] at within
      exact within
    have reached : t.source.Visited u.current := ⟨_, here.visits⟩
    rw [again] at result
    refine ⟨u, ?_⟩
    exact
      { leads := leads
        source_eq := here.source_eq
        visited := ⟨reached, _, leaves.visits⟩
        ordered := by
          rw [start.current_eq, here.current_eq]
          exact ⟨Source.offset_cursorAt_le suffix start.leaves.suffix,
            Source.offset_cursorAt_le shorter here.leaves.suffix⟩
        again := ⟨n, finished, result⟩
        stops := stops }

/-- A width is to end with a semicolon, and ends with a full stop. The unit is tried behind the
digits, where it fails by itself, and the cursor is that of the full stop. -/
theorem Scanner.unmet_unit_reproduces :
    let t : Scanner := ⟨⟨"12px.".toUTF8⟩, ⟨.start, some '1', 0⟩, none, none⟩
    let es : List Expr :=
      [.optional [.point '-'], .seq [.atLeast 1 (.range '0' '9'), .literal "px;"], .any]
    let stop : Cursor := ⟨⟨1, 5, 5, 5⟩, some '.', 4⟩
    t.source.Visits 0 t.current ∧ Expr.hooksIn es = [] ∧
      ∃ m, t.expect es = some m ∧ m.result = .error (.unmet (.literal "px;") stop) ∧
        ∃ u, t.Reproduces es (.literal "px;") stop u := by
  intro t es stop
  have visited : t.source.Visits 0 t.current := .first (by decide)
  have named : ((t.expect es).bind fun m => match m.result with
      | .error (.unmet (.literal text) c) => some (text, c)
      | _ => none) = some ("px;", stop) := by decide
  obtain ⟨m, finished, result⟩ := Option.bind_eq_some_iff.mp named
  have failed : m.result = .error (.unmet (.literal "px;") stop) := by
    split at result
    · next failed => cases result; exact failed
    · cases result
  exact ⟨visited, rfl, m, finished, failed, expect_unmet_reproduces visited rfl finished failed⟩

end TextMatch
