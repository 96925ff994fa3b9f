import TextMatch.MatchError.Report
import TextMatch.Proofs.Expr.Context
import TextMatch.Proofs.Reading.Mismatches

/-!
# Equivalent expressions

On a source, two expressions are equivalent if at every cursor their matches succeed and stop at the
same place, or both fail with a mismatch, or both with the same other error. Boundaries, and what a
mismatch names, need not agree. Such expressions may be put in each other's place within any
grammar (`Expr.equivalentOn_fill`): whatever a construct does next depends on where its members
stop and on how they fail, and on nothing else that they give back.

Readers are compared in the same way (`Reader.EquivalentOn`), with one lemma for each construct. A
loop over equivalent readers takes the same rounds, since its rounds stop at the same places.
-/
namespace TextMatch

/-- The matches come out alike, boundaries and the content of mismatches apart. -/
inductive Match.Equivalent (m n : Match) : Prop
  | succeeded {boundary boundary' : Cursor} (first : m.result = .ok boundary)
      (second : n.result = .ok boundary') (stop : m.scanner.current = n.scanner.current)
  | mismatched {e e' : MatchError} (first : m.result = .error e) (second : n.result = .error e')
      (mismatch : e.isMismatch = true) (mismatch' : e'.isMismatch = true)
  | fatal {e : MatchError} (first : m.result = .error e) (second : n.result = .error e)
      (fatal : e.isMismatch = false)

/-- What equivalent matches have in common: where a match stops, or that it is a mismatch, or the
message of any other error. -/
def Match.verdict (m : Match) : Except (Option String) Cursor :=
  match m.result with
  | .ok _ => .ok m.scanner.current
  | .error e => .error (if e.isMismatch then none else some e.message)

theorem Match.Equivalent.verdict_eq {m n : Match} (both : m.Equivalent n) :
    m.verdict = n.verdict := by
  cases both with
  | succeeded first second stop => simp only [verdict, first, second, stop]
  | mismatched first second mismatch mismatch' =>
    simp only [verdict, first, second, mismatch, mismatch', if_true]
  | fatal first second _ => simp only [verdict, first, second]

/-- At every cursor of `s`, matching `es` finishes as matching `ds` does. -/
def Expr.EquivalentOn (s : Source) (es ds : List Expr) : Prop :=
  ∀ t : Scanner, t.source = s → s.Visited t.current →
    ∃ m n, t.expect es = some m ∧ t.expect ds = some n ∧ m.Equivalent n

theorem Expr.EquivalentOn.verdict_eq {s : Source} {es ds : List Expr} {t : Scanner}
    (both : EquivalentOn s es ds) (reads : t.source = s) (visited : s.Visited t.current) :
    (t.expect es).map Match.verdict = (t.expect ds).map Match.verdict := by
  obtain ⟨m, n, finished, finished', alike⟩ := both t reads visited
  rw [finished, finished', Option.map_some, Option.map_some, alike.verdict_eq]

/-- The readings come out alike, with related values for those that succeed. These leave the points
of some cursor of `s`. -/
inductive Reading.Equivalent (s : Source) {α β : Type} (same : α → β → Prop) :
    Reading α → Reading β → Prop
  | ok {a : α} {b : β} {rest : List Char} (value : same a b) (leaves : s.Leaves rest) :
      Equivalent s same (.ok a rest) (.ok b rest)
  | unmet {expr expr' : Expr} {place place' : List Char} :
      Equivalent s same (.error (.unmet expr place)) (.error (.unmet expr' place'))
  | fatal {f : Failure} (fatal : f.isMismatch = false) : Equivalent s same (.error f) (.error f)

/-- From every cursor of `s` on, both readers do the same, whatever they consumed last. -/
def Reader.EquivalentOn (s : Source) (r r' : Reader) : Prop :=
  ∀ rest, s.Leaves rest → (r rest).Equivalent s (fun _ _ => True) (r' rest)

variable {s : Source}

namespace Reading.Equivalent

variable {α β α' β' : Type} {same : α → β → Prop} {same' : α' → β' → Prop} {r : Reading α}
  {r' : Reading β}

theorem andThen {next : α → List Char → Reading α'} {next' : β → List Char → Reading β'}
    (both : r.Equivalent s same r')
    (onward : ∀ a b stop, same a b → s.Leaves stop →
      (next a stop).Equivalent s same' (next' b stop)) :
    (r.andThen next).Equivalent s same' (r'.andThen next') := by
  cases both with
  | ok value leaves => exact onward _ _ _ value leaves
  | unmet => exact .unmet
  | fatal fatal => exact .fatal fatal

/-- After a failure that is no mismatch neither goes on. -/
theorem fatal_retry {f : Failure} (fatal : f.isMismatch = false) {again : Reading α}
    {again' : Reading β} :
    (if f.isMismatch then again else .error f).Equivalent s same
      (if f.isMismatch then again' else .error f) := by
  rw [if_neg (by simp [fatal]), if_neg (by simp [fatal])]
  exact .fatal fatal

end Reading.Equivalent

namespace Reader

variable {r r' : Reader} {rs rs' : List Reader} {rest : List Char} {expr expr' : Expr}
  {last last' : Option Char}

theorem seqFrom_equivalent (parts : List.Forall₂ (Reader.EquivalentOn s) rs rs')
    (leaves : s.Leaves rest) :
    (seqFrom rs last rest).Equivalent s (fun _ _ => True) (seqFrom rs' last' rest) := by
  induction parts generalizing last last' rest with
  | nil => exact .ok trivial leaves
  | cons head _ ih => exact (head rest leaves).andThen fun _ _ _ _ left => ih left

theorem firstOf_equivalent (parts : List.Forall₂ (Reader.EquivalentOn s) rs rs')
    (leaves : s.Leaves rest) :
    (firstOf rs rest).Equivalent s (Option.Rel fun _ _ => True) (firstOf rs' rest) := by
  induction parts with
  | nil => exact .ok .none leaves
  | @cons r r' rs rs' head _ ih =>
    have both := head rest leaves
    unfold firstOf
    generalize r rest = reading, r' rest = reading' at both ⊢
    cases both with
    | ok _ left => exact .ok (.some trivial) left
    | unmet => exact ih
    | fatal fatal => exact .fatal_retry fatal

theorem oneOf_equivalent (parts : List.Forall₂ (Reader.EquivalentOn s) rs rs') :
    Reader.EquivalentOn s (oneOf expr rs) (oneOf expr' rs') := by
  intro rest leaves
  refine (firstOf_equivalent parts leaves).andThen fun found found' stop same left => ?_
  cases same with
  | none => exact .unmet
  | some _ => exact .ok trivial left

theorem anyHolds_equivalent (parts : List.Forall₂ (Reader.EquivalentOn s) rs rs')
    (leaves : s.Leaves rest) :
    (anyHolds rs rest).Equivalent s (· = ·) (anyHolds rs' rest) := by
  refine (firstOf_equivalent parts leaves).andThen fun found found' _ same _ => ?_
  cases same with
  | none => exact .ok rfl leaves
  | some _ => exact .ok rfl leaves

theorem noneOf_equivalent (parts : List.Forall₂ (Reader.EquivalentOn s) rs rs') :
    Reader.EquivalentOn s (noneOf expr rs) (noneOf expr' rs') := by
  intro rest leaves
  refine (anyHolds_equivalent parts leaves).andThen fun holds _ _ same _ => ?_
  cases same
  cases holds with
  | true => exact .unmet
  | false => exact .ok trivial leaves

theorem ahead_equivalent (parts : List.Forall₂ (Reader.EquivalentOn s) rs rs') :
    Reader.EquivalentOn s (ahead expr rs) (ahead expr' rs') := by
  intro rest leaves
  refine (anyHolds_equivalent parts leaves).andThen fun holds _ _ same _ => ?_
  cases same
  cases holds with
  | true => exact .ok trivial leaves
  | false => exact .unmet

/-- Both runs take the same rounds: whether one goes on depends on where the rounds stop. -/
theorem greedyRun_equivalent (inner : Reader.EquivalentOn s r r') (count : Nat)
    (leaves : s.Leaves rest) :
    (greedyRun r count last rest).Equivalent s (fun run run' => run.1 = run'.1)
      (greedyRun r' count last' rest) := by
  induction size : rest.length using Nat.strong_induction_on
    generalizing count last last' rest with
  | _ n ih =>
    have both := inner rest leaves
    rw [greedyRun, greedyRun]
    generalize r rest = reading, r' rest = reading' at both ⊢
    cases both with
    | @ok tail tail' stop _ left =>
      dsimp only
      by_cases shorter : stop.length < rest.length
      · rw [if_pos shorter, if_pos shorter]
        exact ih stop.length (size ▸ shorter) (count + 1) left rfl
      · rw [if_neg shorter, if_neg shorter]
        exact .ok rfl left
    | unmet => exact .ok rfl leaves
    | fatal fatal => exact .fatal_retry fatal

theorem bounded_equivalent (inner : Reader.EquivalentOn s r r') (low : Nat) (high : Option Nat)
    (leaves : s.Leaves rest) :
    (bounded expr r low high rest).Equivalent s (fun run run' => run.1 = run'.1)
      (bounded expr' r' low high rest) := by
  refine (greedyRun_equivalent inner 0 leaves).andThen fun run run' stop same left => ?_
  rw [same]
  by_cases within : (low ≤ run'.1 && high.all (run'.1 ≤ ·)) = true
  · rw [if_pos within, if_pos within]
    exact .ok same left
  · rw [if_neg within, if_neg within]
    exact .unmet

theorem repeated_equivalent (inner : Reader.EquivalentOn s r r') (low : Nat)
    (high : Option Nat) :
    Reader.EquivalentOn s (repeated expr r low high) (repeated expr' r' low high) :=
  fun _ leaves => (bounded_equivalent inner low high leaves).andThen fun _ _ _ _ left =>
    .ok trivial left

theorem between_equivalent (inner : Reader.EquivalentOn s r r') (low high : Nat) :
    Reader.EquivalentOn s (between expr r low high) (between expr' r' low high) := by
  intro rest leaves
  unfold between
  by_cases crossed : high ≠ 0 ∧ high < low
  · rw [if_pos crossed, if_pos crossed]
    exact .fatal rfl
  · rw [if_neg crossed, if_neg crossed]
    exact repeated_equivalent inner _ _ rest leaves

theorem optionalFrom_equivalent (parts : List.Forall₂ (Reader.EquivalentOn s) rs rs')
    (leaves : s.Leaves rest) :
    (optionalFrom expr rs last rest).Equivalent s (fun _ _ => True)
      (optionalFrom expr' rs' last' rest) := by
  induction parts generalizing last last' rest with
  | nil => exact .ok trivial leaves
  | @cons r r' rs rs' head _ ih =>
    have both := @bounded_equivalent s r r' rest expr expr' head 0 (some 1) leaves
    unfold optionalFrom
    generalize bounded expr r 0 (some 1) rest = reading,
      bounded expr' r' 0 (some 1) rest = reading' at both ⊢
    cases both with
    | @ok run run' stop same left =>
      obtain ⟨count, tail⟩ := run
      obtain ⟨count', tail'⟩ := run'
      cases same
      cases count with
      | zero => exact ih leaves
      | succ count => exact ih left
    | unmet => exact ih leaves
    | fatal fatal => exact .fatal_retry fatal

theorem untilFrom_equivalent (parts : List.Forall₂ (Reader.EquivalentOn s) rs rs')
    (inclusive : Bool) (leaves : s.Leaves rest) :
    (untilFrom s.isReadable expr rs inclusive last rest).Equivalent s (fun _ _ => True)
      (untilFrom s.isReadable expr' rs' inclusive last' rest) := by
  induction size : rest.length using Nat.strong_induction_on generalizing last last' rest with
  | _ n ih =>
    have both := firstOf_equivalent parts leaves
    generalize found : firstOf rs rest = reading, found' : firstOf rs' rest = reading' at both
    cases both with
    | ok same left =>
      cases same with
      | some _ =>
        rw [untilFrom_of_found found, untilFrom_of_found found']
        cases inclusive with
        | true => exact .ok trivial left
        | false => exact .ok trivial leaves
      | none =>
        cases rest with
        | nil =>
          rw [untilFrom_nil found, untilFrom_nil found']
          exact .unmet
        | cons c rest =>
          rw [untilFrom_cons found, untilFrom_cons found']
          by_cases stuck : rest = [] ∧ s.isReadable = false
          · rw [if_pos stuck, if_pos stuck]
            exact .fatal rfl
          · rw [if_neg stuck, if_neg stuck]
            have shorter : rest.length < n := by
              rw [← size]
              exact Nat.lt_succ_self _
            exact ih rest.length shorter (leaves.tail (by simpa using stuck)) rfl
    | unmet =>
      rw [untilFrom_of_error found, untilFrom_of_error found']
      exact .unmet
    | fatal fatal =>
      rw [untilFrom_of_error found, untilFrom_of_error found']
      exact .fatal fatal

end Reader

variable {e e' : Expr} {es ds before after : List Expr} {rest : List Char}

/-- A success leaves the points of some cursor. -/
theorem Source.Leaves.onward {last : Option Char} {stop : List Char} (leaves : s.Leaves rest)
    (free : e.hooks = []) (read : e.reader s.isReadable rest = .ok last stop) : s.Leaves stop := by
  have start : (Scanner.mk s (s.cursorAt rest) none none).At s rest := ⟨rfl, leaves, rfl⟩
  obtain ⟨m, _, _, left⟩ := start.expect_singleton free
  rw [read] at left
  exact left.leaves

theorem Expr.reader_equivalent_self (free : e.hooks = []) :
    Reader.EquivalentOn s (e.reader s.isReadable) (e.reader s.isReadable) := by
  intro rest leaves
  cases read : e.reader s.isReadable rest with
  | ok last stop => exact .ok trivial (leaves.onward free read)
  | error f =>
    cases f with
    | unmet expr place => exact .unmet
    | defective kind defect => exact .fatal rfl
    | unreadable => exact .fatal rfl

theorem Expr.readers_equivalent_self (free : Expr.hooksIn es = []) :
    List.Forall₂ (Reader.EquivalentOn s) (Expr.readers s.isReadable es)
      (Expr.readers s.isReadable es) := by
  rw [Expr.readers_eq_map, List.forall₂_map_left_iff, List.forall₂_map_right_iff,
    List.forall₂_same]
  exact fun e inside => reader_equivalent_self (Expr.hooks_eq_nil_of_mem free inside)

/-- Lists of expressions that differ in one of them. -/
theorem Expr.readers_equivalent_around
    (inside : Reader.EquivalentOn s (e.reader s.isReadable) (e'.reader s.isReadable))
    (free : Expr.hooksIn before ++ Expr.hooksIn after = []) :
    List.Forall₂ (Reader.EquivalentOn s) (Expr.readers s.isReadable (before ++ e :: after))
      (Expr.readers s.isReadable (before ++ e' :: after)) := by
  obtain ⟨front, back⟩ := List.append_eq_nil_iff.mp free
  have first := readers_equivalent_self (s := s) front
  have last := readers_equivalent_self (s := s) back
  rw [Expr.readers_eq_map] at first last
  rw [Expr.readers_eq_map, Expr.readers_eq_map, List.map_append, List.map_append, List.map_cons,
    List.map_cons]
  exact List.rel_append first (.cons inside last)

theorem Expr.Context.reader_equivalent
    (inside : Reader.EquivalentOn s (e.reader s.isReadable) (e'.reader s.isReadable))
    (context : Context) (free : context.hooks = []) :
    Reader.EquivalentOn s ((context.fill e).reader s.isReadable)
      ((context.fill e').reader s.isReadable) := by
  -- the members beside the hole, once the one around it is settled
  have members {before after : List Expr} {inner : Context}
      (ih : inner.hooks = [] → Reader.EquivalentOn s ((inner.fill e).reader s.isReadable)
        ((inner.fill e').reader s.isReadable))
      (free : Expr.hooksIn before ++ (inner.hooks ++ Expr.hooksIn after) = []) :
      List.Forall₂ (Reader.EquivalentOn s)
        (Expr.readers s.isReadable (before ++ inner.fill e :: after))
        (Expr.readers s.isReadable (before ++ inner.fill e' :: after)) := by
    obtain ⟨front, free⟩ := List.append_eq_nil_iff.mp free
    obtain ⟨within, back⟩ := List.append_eq_nil_iff.mp free
    exact readers_equivalent_around (ih within) (List.append_eq_nil_iff.mpr ⟨front, back⟩)
  induction context with
  | hole => exact inside
  | noneOf before inner after ih => exact Reader.noneOf_equivalent (members ih free)
  | ahead before inner after ih => exact Reader.ahead_equivalent (members ih free)
  | oneOf before inner after ih => exact Reader.oneOf_equivalent (members ih free)
  | seq before inner after ih =>
    exact fun _ leaves => Reader.seqFrom_equivalent (members ih free) leaves
  | optional before inner after ih =>
    exact fun _ leaves => Reader.optionalFrom_equivalent (members ih free) leaves
  | between low high inner ih => exact Reader.between_equivalent (ih free) low high
  | atLeast low inner ih => exact Reader.repeated_equivalent (ih free) low none
  | exactly times inner ih => exact Reader.repeated_equivalent (ih free) times (some times)
  | untilAny before inner after inclusive ih =>
    exact fun _ leaves => Reader.untilFrom_equivalent (members ih free) inclusive leaves

theorem Reading.eq_ok_of_result {r : Reading (Option Char)} {boundary : Cursor}
    (succeeded : r.result s = .ok boundary) : ∃ last stop, r = .ok last stop := by
  cases r with
  | ok last stop => exact ⟨last, stop, rfl⟩
  | error f => cases succeeded

theorem Reading.eq_error_of_result {r : Reading (Option Char)} {error : MatchError}
    (failed : r.result s = .error error) : ∃ f, r = .error f ∧ f.toError s = error := by
  cases r with
  | ok last stop => cases failed
  | error f => exact ⟨f, rfl, Except.error.inj failed⟩

theorem Failure.eq_unmet {f : Failure} (mismatch : (f.toError s).isMismatch = true) :
    ∃ expr place, f = .unmet expr place := by
  cases f with
  | unmet expr place => exact ⟨expr, place, rfl⟩
  | defective kind defect => cases mismatch
  | unreadable => cases mismatch

/-- Only mismatches could become the same error without being the same failure. -/
theorem Failure.eq_of_fatal {f g : Failure} (same : f.toError s = g.toError s)
    (fatal : f.isMismatch = false) : f = g := by
  cases f with
  | unmet expr place => cases fatal
  | defective kind defect => cases g <;> cases same; rfl
  | unreadable => cases g <;> cases same; rfl

/-- Matches are equivalent exactly if their readings are. -/
theorem Match.equivalent_iff {m n : Match} {r r' : Reading (Option Char)}
    (result : m.result = r.result s) (left : m.scanner.At s (r.left rest))
    (result' : n.result = r'.result s) (left' : n.scanner.At s (r'.left rest)) :
    m.Equivalent n ↔ r.Equivalent s (fun _ _ => True) r' := by
  constructor
  · intro both
    cases both with
    | succeeded first second together =>
      obtain ⟨last, stop, rfl⟩ := Reading.eq_ok_of_result (result.symm.trans first)
      obtain ⟨last', stop', rfl⟩ := Reading.eq_ok_of_result (result'.symm.trans second)
      rw [left.current_eq, left'.current_eq] at together
      obtain rfl : stop = stop' := Source.cursorAt_inj left.leaves left'.leaves together
      exact .ok trivial left.leaves
    | mismatched first second mismatch mismatch' =>
      obtain ⟨f, rfl, rfl⟩ := Reading.eq_error_of_result (result.symm.trans first)
      obtain ⟨f', rfl, rfl⟩ := Reading.eq_error_of_result (result'.symm.trans second)
      obtain ⟨expr, place, rfl⟩ := Failure.eq_unmet mismatch
      obtain ⟨expr', place', rfl⟩ := Failure.eq_unmet mismatch'
      exact .unmet
    | fatal first second fatal =>
      obtain ⟨f, rfl, rfl⟩ := Reading.eq_error_of_result (result.symm.trans first)
      obtain ⟨f', rfl, same⟩ := Reading.eq_error_of_result (result'.symm.trans second)
      rw [Failure.isMismatch_toError] at fatal
      obtain rfl : f = f' := Failure.eq_of_fatal same.symm fatal
      exact .fatal fatal
  · intro both
    cases both with
    | ok _ leaves =>
      exact .succeeded result result' (left.current_eq.trans left'.current_eq.symm)
    | unmet => exact .mismatched result result' rfl rfl
    | @fatal f fatal => exact .fatal result result' ((Failure.isMismatch_toError s f).trans fatal)

/-- Expressions without hooks are equivalent exactly if their readers are. -/
theorem Expr.equivalentOn_iff (free : Expr.hooksIn es = []) (free' : Expr.hooksIn ds = []) :
    Expr.EquivalentOn s es ds ↔
      Reader.EquivalentOn s (Expr.listReader s.isReadable es)
        (Expr.listReader s.isReadable ds) := by
  constructor
  · intro equivalent rest leaves
    have start : (Scanner.mk s (s.cursorAt rest) none none).At s rest := ⟨rfl, leaves, rfl⟩
    obtain ⟨m, n, finished, finished', both⟩ := equivalent _ rfl ⟨_, start.visits⟩
    obtain ⟨m', same, result, left⟩ := start.expect free
    obtain ⟨n', same', result', left'⟩ := start.expect free'
    cases finished.symm.trans same
    cases finished'.symm.trans same'
    exact (Match.equivalent_iff result left result' left').mp both
  · rintro equivalent t reads ⟨i, visited⟩
    obtain ⟨rest, start, _⟩ := Scanner.At.of_visits reads visited
    obtain ⟨m, finished, result, left⟩ := start.expect free
    obtain ⟨n, finished', result', left'⟩ := start.expect free'
    have both := equivalent rest start.leaves
    exact ⟨m, n, finished, finished', (Match.equivalent_iff result left result' left').mpr both⟩

theorem Expr.equivalentOn_singleton_iff (free : e.hooks = []) (free' : e'.hooks = []) :
    Expr.EquivalentOn s [e] [e'] ↔
      Reader.EquivalentOn s (e.reader s.isReadable) (e'.reader s.isReadable) := by
  rw [equivalentOn_iff ((hooksIn_singleton e).trans free) ((hooksIn_singleton e').trans free')]
  unfold Reader.EquivalentOn
  simp only [listReader_singleton]

/-- To try an expression ahead of matching it, and to match nothing behind it, changes only what is
named: the boundary is then the place behind the match, and a mismatch is that of the lookahead. -/
theorem Expr.equivalentOn_tried_ahead (free : e.hooks = []) :
    Expr.EquivalentOn s [e] [.seq [.ahead [e], e, .optional []]] := by
  have twice : (Expr.seq [.ahead [e], e, .optional []]).hooks = [] := by
    simp [Expr.hooksIn, Expr.hooks, free]
  rw [Expr.equivalentOn_singleton_iff free twice]
  intro rest leaves
  simp only [Expr.reader, Expr.readers, Reader.seq, Reader.seqFrom, Reader.ahead, Reader.anyHolds,
    Reader.firstOf]
  cases read : e.reader s.isReadable rest with
  | ok last stop =>
    simp only [Reading.andThen, Option.isSome_some, if_true, read]
    exact .ok trivial (leaves.onward free read)
  | error f =>
    cases f with
    | unmet expr place => exact .unmet
    | defective kind defect => exact .fatal rfl
    | unreadable => exact .fatal rfl

/-- Equivalent expressions may replace each other: in the hole of any context, and with any other
expressions before and after. -/
theorem Expr.equivalentOn_fill (equivalent : Expr.EquivalentOn s [e] [e']) (free : e.hooks = [])
    (free' : e'.hooks = []) (context : Expr.Context) (beside : context.hooks = [])
    (around : Expr.hooksIn before ++ Expr.hooksIn after = []) :
    Expr.EquivalentOn s (before ++ context.fill e :: after)
      (before ++ context.fill e' :: after) := by
  have listed {d : Expr} (free : d.hooks = []) :
      Expr.hooksIn (before ++ context.fill d :: after) = [] := by
    rw [Expr.hooksIn_around (context.hooks_fill free beside), around]
  have readers := (Expr.equivalentOn_singleton_iff free free').mp equivalent
  have filled := context.reader_equivalent readers beside
  rw [Expr.equivalentOn_iff (listed free) (listed free')]
  exact fun _ leaves => Reader.seqFrom_equivalent (readers_equivalent_around filled around) leaves

/-- Names with commas between them, before a stray byte, where the name is tried ahead of every
match: a match that goes up to the last point, a mismatch there, and a match that fails because that
point cannot be left. -/
theorem Expr.equivalentOn_fill_names :
    let s : Source := ⟨⟨#[0x61, 0x62, 0x2C, 0x61, 0x62, 0x3B, 0xFF]⟩⟩
    let t : Scanner := ⟨s, ⟨.start, some 'a', 0⟩, none, none⟩
    let e : Expr := .literal "ab"
    let e' : Expr := .seq [.ahead [.literal "ab"], .literal "ab", .optional []]
    let context : Expr.Context := .atLeast 1 (.oneOf [.point ','] .hole [])
    let names (d : Expr) (after : List Expr) := [.noneOf [.point ';']] ++ context.fill d :: after
    let stray := "invalid UTF-8 sequence at byte 6"
    Expr.EquivalentOn s [e] [e'] ∧ context.hooks = [] ∧ s.Visited t.current ∧
      Expr.EquivalentOn s (names e [.point ';']) (names e' [.point ';']) ∧
      ∀ d ∈ [e, e'],
        (t.expect (names d [])).map Match.verdict = some (.ok ⟨⟨1, 6, 6, 6⟩, some ';', 5⟩) ∧
        (t.expect (names d [.point ';'])).map Match.verdict = some (.error (some stray)) ∧
        (t.expect (names d [.point ','])).map Match.verdict = some (.error none) := by
  intro s t e e' context names stray
  have equivalent : Expr.EquivalentOn s [e] [e'] := Expr.equivalentOn_tried_ahead rfl
  have visited : s.Visited t.current := ⟨0, .first (by decide)⟩
  have filled (after : List Expr) (free : Expr.hooksIn after = []) :
      Expr.EquivalentOn s (names e after) (names e' after) :=
    equivalentOn_fill equivalent rfl rfl context rfl free
  have succeeds : (t.expect (names e [])).map Match.verdict =
      some (.ok ⟨⟨1, 6, 6, 6⟩, some ';', 5⟩) := by decide +kernel
  have breaks : (t.expect (names e [.point ';'])).map Match.verdict =
      some (.error (some stray)) := by decide +kernel
  have mismatches : (t.expect (names e [.point ','])).map Match.verdict =
      some (.error none) := by decide +kernel
  refine ⟨equivalent, rfl, visited, filled [.point ';'] rfl, fun d either => ?_⟩
  have same (after : List Expr) (free : Expr.hooksIn after = []) :
      (t.expect (names d after)).map Match.verdict =
        (t.expect (names e after)).map Match.verdict := by
    rcases List.mem_pair.mp either with rfl | rfl
    · rfl
    · exact ((filled after free).verdict_eq rfl visited).symm
  exact ⟨(same [] rfl).trans succeeds, (same [.point ';'] rfl).trans breaks,
    (same [.point ','] rfl).trans mismatches⟩

end TextMatch
