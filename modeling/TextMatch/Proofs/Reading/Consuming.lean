import TextMatch.Proofs.Reading.Progress

/-!
# What a match ends with

A match ends with the part of it that succeeds last, and that part may have consumed a point or not
(`Expr.EndsConsuming`). A list ends as its last member does, from where the members before it stop
(`endsConsuming_concat`). Whatever asks for points has consumed one when it succeeds; looking ahead
and ruling out never consume. A repetition ends with its last round, an optional with the last
member that it takes, an inclusive search with the member that it finds, and an exclusive search
with the point in front of that one.
-/
namespace TextMatch

/-- Matching `es`, where the points `rest` are left, ends with a part that consumes a point. -/
def Expr.EndsConsuming (whole : Bool) (es : List Expr) (rest : List Char) : Prop :=
  ∃ c stop, Expr.listReader whole es rest = .ok (some c) stop

/-- Another alternative is tried instead of `e`. -/
def Expr.Mismatches (whole : Bool) (e : Expr) (rest : List Char) : Prop :=
  ∃ f, e.reader whole rest = .error f ∧ f.isMismatch = true

namespace Reader

variable {whole : Bool} {expr : Expr} {rs : List Reader} {r : Reader} {accepts : Char → Bool}
  {last tail : Option Char} {rest stop : List Char} {count : Nat}

theorem seqFrom_concat (rs : List Reader) (r : Reader) (last : Option Char) (rest : List Char) :
    seqFrom (rs ++ [r]) last rest = (seqFrom rs last rest).andThen fun _ => r := by
  induction rs generalizing last rest with
  | nil =>
    change (r rest).andThen (fun last stop => .ok last stop) = r rest
    cases r rest <;> rfl
  | cons head rs ih =>
    simp only [List.cons_append, seqFrom]
    cases head rest with
    | ok last stop => exact ih last stop
    | error f => rfl

theorem optionalFrom_append (expr : Expr) (rs rs' : List Reader) (last : Option Char)
    (rest : List Char) :
    optionalFrom expr (rs ++ rs') last rest =
      (optionalFrom expr rs last rest).andThen (optionalFrom expr rs') := by
  induction rs generalizing last rest with
  | nil => rfl
  | cons head rs ih =>
    rw [List.cons_append, optionalFrom.eq_2 expr last rest head,
      optionalFrom.eq_2 expr last rest head]
    split
    · exact ih last rest
    · exact ih _ _
    · next f _ =>
      cases f.isMismatch with
      | true => exact ih last rest
      | false => rfl

theorem isSome_of_pointIf (matched : pointIf whole expr accepts rest = .ok last stop) :
    last.isSome = true := by
  unfold pointIf at matched
  cases rest with
  | nil => cases matched
  | cons c rest =>
    split at matched
    · rw [consume] at matched
      split at matched
      · cases matched
      · cases matched
        rfl
    · cases matched

theorem isSome_of_points {cs : List Char} (consumed : cs ≠ [] ∨ last.isSome = true)
    (matched : points whole expr cs last rest = .ok tail stop) : tail.isSome = true := by
  induction cs generalizing last rest with
  | nil =>
    cases matched
    exact consumed.resolve_left (by simp)
  | cons c cs ih =>
    unfold points at matched
    cases first : pointIf whole expr (· == c) rest with
    | ok last stop =>
      rw [first] at matched
      exact ih (.inr (isSome_of_pointIf first)) matched
    | error f =>
      rw [first] at matched
      cases matched

theorem none_of_ahead (matched : ahead expr rs rest = .ok last stop) : last = none := by
  unfold ahead at matched
  cases looked : anyHolds rs rest with
  | ok holds place =>
    rw [looked] at matched
    cases holds with
    | true =>
      cases matched
      rfl
    | false => cases matched
  | error f =>
    rw [looked] at matched
    cases matched

theorem none_of_noneOf (matched : noneOf expr rs rest = .ok last stop) : last = none := by
  unfold noneOf at matched
  cases looked : anyHolds rs rest with
  | ok holds place =>
    rw [looked] at matched
    cases holds with
    | true => cases matched
    | false =>
      cases matched
      rfl
  | error f =>
    rw [looked] at matched
    cases matched

/-! A greedy run, and the forms that are made of one. -/

theorem greedyRun_of_mismatch {f : Failure} (failed : r rest = .error f)
    (mismatch : f.isMismatch = true) : greedyRun r count last rest = .ok (count, last) rest := by
  rw [greedyRun, failed]
  exact if_pos mismatch

/-- A run without any success begins with a mismatch. -/
theorem mismatch_of_greedyRun_zero (ran : greedyRun r 0 none rest = .ok (0, last) stop) :
    last = none ∧ ∃ f, r rest = .error f ∧ f.isMismatch = true := by
  rw [greedyRun] at ran
  cases result : r rest with
  | ok tail place =>
    rw [result] at ran
    dsimp only at ran
    split at ran
    · have counted := (count_of_greedyRun ran).1
      omega
    · cases ran
  | error f =>
    rw [result] at ran
    dsimp only at ran
    split at ran
    · next mismatch =>
      cases ran
      exact ⟨rfl, f, rfl, mismatch⟩
    · cases ran

theorem fatal_of_greedyRun {f : Failure} (failed : greedyRun r count last rest = .error f) :
    f.isMismatch = false := by
  fun_induction greedyRun r count last rest with
  | case1 count last rest tail stop result shorter ih => exact ih failed
  | case2 count last rest tail stop result same => cases failed
  | case3 count last rest f' result mismatch => cases failed
  | case4 count last rest f' result fatal =>
    cases failed
    simpa using fatal

theorem repeated_of_run (ran : greedyRun r 0 none rest = .ok (count, last) stop) (low : Nat)
    (high : Option Nat) :
    repeated expr r low high rest =
      if low ≤ count && high.all (count ≤ ·) then .ok last stop else .error (.unmet expr stop) := by
  unfold repeated bounded
  rw [ran, Reading.andThen]
  by_cases within : (low ≤ count && high.all (count ≤ ·)) = true
  · rw [if_pos within, if_pos within]
    rfl
  · rw [if_neg within, if_neg within]
    rfl

theorem repeated_of_error {f : Failure} (failed : greedyRun r 0 none rest = .error f) (low : Nat)
    (high : Option Nat) : repeated expr r low high rest = .error f := by
  unfold repeated bounded
  rw [failed]
  rfl

theorem between_of_ordered {low high : Nat} (ordered : high = 0 ∨ low ≤ high) :
    between expr r low high rest =
      repeated expr r low (if high = 0 then none else some high) rest := by
  unfold between
  rw [if_neg]
  omega

/-- One success is kept, anything else is as if nothing was matched. -/
theorem optionalFrom_of_run (ran : greedyRun r 0 none rest = .ok (count, tail) stop) :
    optionalFrom expr [r] last rest = if count = 1 then .ok tail stop else .ok last rest := by
  unfold optionalFrom bounded
  rw [ran, Reading.andThen]
  rcases count with - | - | count
  · rfl
  · rfl
  · rfl

theorem optionalFrom_of_error {f : Failure} (failed : greedyRun r 0 none rest = .error f) :
    optionalFrom expr [r] last rest = .error f := by
  unfold optionalFrom bounded
  rw [failed, Reading.andThen]
  simp [fatal_of_greedyRun failed]

/-- A member that is left out leaves no error behind. -/
theorem optionalFrom_renamed (expr expr' : Expr) (rs : List Reader) (last : Option Char)
    (rest : List Char) : optionalFrom expr rs last rest = optionalFrom expr' rs last rest := by
  induction rs generalizing last rest with
  | nil => rfl
  | cons r rs ih =>
    have one : optionalFrom expr [r] last rest = optionalFrom expr' [r] last rest := by
      cases ran : greedyRun r 0 none rest with
      | ok run stop => rw [optionalFrom_of_run ran, optionalFrom_of_run ran]
      | error f => rw [optionalFrom_of_error ran, optionalFrom_of_error ran]
    rw [← List.singleton_append, optionalFrom_append, optionalFrom_append, one]
    cases optionalFrom expr' [r] last rest with
    | ok tail stop => exact ih tail stop
    | error f => rfl

/-- A run counts from where it starts, and gives back what it was given if it is empty. -/
theorem greedyRun_eq (r : Reader) (count : Nat) (last : Option Char) (rest : List Char) :
    greedyRun r count last rest = (greedyRun r 0 none rest).andThen fun run stop =>
      .ok (count + run.1, if run.1 = 0 then last else run.2) stop := by
  induction size : rest.length using Nat.strong_induction_on generalizing count last rest with
  | _ n ih =>
    rw [greedyRun, greedyRun.eq_def r 0 none rest]
    cases r rest with
    | ok tail stop =>
      dsimp only
      by_cases shorter : stop.length < rest.length
      · have onward := fun count last => ih stop.length (size ▸ shorter) count last stop rfl
        rw [if_pos shorter, if_pos shorter, onward, onward (0 + 1)]
        cases greedyRun r 0 none stop with
        | ok run place => simp [Reading.andThen, Nat.add_assoc]
        | error f => rfl
      · rw [if_neg shorter, if_neg shorter]
        rfl
    | error f => cases mismatch : f.isMismatch <;> simp [mismatch, Reading.andThen]

theorem greedyRun_of_shorter {place : List Char} (first : r rest = .ok tail place)
    (shorter : place.length < rest.length) :
    greedyRun r count last rest = greedyRun r (count + 1) tail place := by
  rw [greedyRun, first]
  exact if_pos shorter

/-- A run that ends consuming has a first round that leaves fewer points. It goes on from there, or
that round was the only one. -/
theorem greedyRun_consumes_iff {c : Char} (advance : r.Advances) :
    greedyRun r 0 none rest = .ok (count, some c) stop ↔
      ∃ tail place, r rest = .ok tail place ∧ place.length < rest.length ∧
        ((∃ more, greedyRun r 0 none place = .ok (more, some c) stop ∧ count = more + 1) ∨
          (∃ f, r place = .error f ∧ f.isMismatch = true) ∧
            tail = some c ∧ stop = place ∧ count = 1) := by
  constructor
  · intro ran
    cases first : r rest with
    | error f =>
      rw [greedyRun, first] at ran
      dsimp only at ran
      split at ran <;> cases ran
    | ok tail place =>
      by_cases shorter : place.length < rest.length
      · refine ⟨tail, place, rfl, shorter, ?_⟩
        rw [greedyRun_of_shorter first shorter, greedyRun_eq] at ran
        cases later : greedyRun r 0 none place with
        | error f =>
          rw [later] at ran
          cases ran
        | ok run reached =>
          obtain ⟨more, last⟩ := run
          rw [later, Reading.andThen] at ran
          dsimp only at ran
          split at ran
          · next none =>
            subst none
            cases ran
            have same := (count_of_greedyRun later).2 rfl
            exact .inr ⟨(mismatch_of_greedyRun_zero later).2, rfl, same, rfl⟩
          · cases ran
            exact .inl ⟨more, rfl, Nat.add_comm _ _⟩
      · have within := advance rest
        rw [greedyRun, first] at ran
        rw [first] at within
        dsimp only at ran
        rw [if_neg shorter] at ran
        cases ran
        have fewer := List.IsSuffix.length_le within
        simp at fewer
        omega
  · rintro ⟨tail, place, first, shorter, ends⟩
    rw [greedyRun_of_shorter first shorter]
    rcases ends with ⟨more, later, rfl⟩ | ⟨⟨f, failed, mismatch⟩, rfl, rfl, rfl⟩
    · have some : more ≠ 0 := by
        rintro rfl
        cases (mismatch_of_greedyRun_zero later).1
      rw [greedyRun_eq, later]
      simp [Reading.andThen, some, Nat.add_comm]
    · exact greedyRun_of_mismatch failed mismatch

/-- What an exclusive search gives back is the point in front of where it stops, once it has gone
over any. -/
theorem last_of_untilFrom (stopped : untilFrom whole expr rs false last rest = .ok tail stop) :
    tail = last ∧ stop = rest ∨ ∃ c, tail = some c ∧ c :: stop <:+ rest := by
  induction size : rest.length using Nat.strong_induction_on generalizing last rest with
  | _ n ih =>
    cases found : firstOf rs rest with
    | ok first place =>
      cases first with
      | some boundary =>
        rw [untilFrom_of_found found] at stopped
        cases stopped
        exact .inl ⟨rfl, rfl⟩
      | none =>
        cases rest with
        | nil =>
          rw [untilFrom_nil found] at stopped
          cases stopped
        | cons c rest =>
          rw [untilFrom_cons found] at stopped
          have shorter : rest.length < (c :: rest).length := Nat.lt_succ_self _
          split at stopped
          · cases stopped
          · rcases ih rest.length (size ▸ shorter) stopped rfl with ⟨rfl, rfl⟩ | ⟨d, rfl, within⟩
            · exact .inr ⟨c, rfl, List.suffix_rfl⟩
            · exact .inr ⟨d, rfl, within.trans (List.suffix_cons c rest)⟩
    | error f =>
      rw [untilFrom_of_error found] at stopped
      cases stopped

/-- An inclusive search goes where an exclusive one does, and then through the member found. -/
theorem untilFrom_inclusive_iff {expr' : Expr} {tail : Option Char} :
    untilFrom whole expr rs true last rest = .ok tail stop ↔
      ∃ before place, untilFrom whole expr' rs false last rest = .ok before place ∧
        firstOf rs place = .ok (some tail) stop := by
  induction rest generalizing last with
  | nil =>
    cases found : firstOf rs [] with
    | ok first place =>
      cases first with
      | some boundary =>
        rw [untilFrom_of_found found, untilFrom_of_found found]
        simp [found]
      | none =>
        rw [untilFrom_nil found, untilFrom_nil found]
        simp
    | error f =>
      rw [untilFrom_of_error found, untilFrom_of_error found]
      simp
  | cons c rest ih =>
    cases found : firstOf rs (c :: rest) with
    | ok first place =>
      cases first with
      | some boundary =>
        rw [untilFrom_of_found found, untilFrom_of_found found]
        simp [found]
      | none =>
        rw [untilFrom_cons found, untilFrom_cons found]
        split
        · simp
        · exact ih
    | error f =>
      rw [untilFrom_of_error found, untilFrom_of_error found]
      simp

end Reader

namespace Expr

variable {whole : Bool} {es : List Expr} {e : Expr} {rest : List Char} {low : Nat}

theorem endsConsuming_singleton :
    EndsConsuming whole [e] rest ↔ ∃ c stop, e.reader whole rest = .ok (some c) stop := by
  unfold EndsConsuming
  simp only [listReader_singleton]

theorem endsConsuming_seq :
    EndsConsuming whole [.seq es] rest ↔ EndsConsuming whole es rest :=
  endsConsuming_singleton

/-- It is the last member that decides, from where the ones before it stop. -/
theorem endsConsuming_concat :
    EndsConsuming whole (es ++ [e]) rest ↔
      ∃ last stop, listReader whole es rest = .ok last stop ∧ EndsConsuming whole [e] stop := by
  simp only [endsConsuming_singleton]
  unfold EndsConsuming
  simp only [listReader, readers_eq_map, List.map_append, List.map_singleton, Reader.seq,
    Reader.seqFrom_concat]
  cases Reader.seqFrom (es.map (reader whole)) none rest with
  | ok last stop => simp [Reading.andThen]
  | error f => simp [Reading.andThen]

/-- Whatever asks for points consumes the last of them. -/
theorem endsConsuming_iff_reads (asks : e.kind ∈ [Kind.literal, .point, .any, .range]) :
    EndsConsuming whole [e] rest ↔ ∃ last stop, e.reader whole rest = .ok last stop := by
  have consumes : ∀ last stop, e.reader whole rest = .ok last stop → last.isSome = true := by
    intro last stop matched
    cases e with
    | literal text =>
      rw [reader, Reader.literal] at matched
      split at matched
      · cases matched
      · next nonempty =>
        exact Reader.isSome_of_points (.inl (by simpa using nonempty)) matched
    | point c => exact Reader.isSome_of_pointIf matched
    | any => exact Reader.isSome_of_pointIf matched
    | range first final =>
      rw [reader, Reader.range] at matched
      split at matched
      · cases matched
      · exact Reader.isSome_of_pointIf matched
    | _ => simp [kind] at asks
  rw [endsConsuming_singleton]
  constructor
  · rintro ⟨c, stop, matched⟩
    exact ⟨some c, stop, matched⟩
  · rintro ⟨last, stop, matched⟩
    obtain ⟨c, rfl⟩ := Option.isSome_iff_exists.mp (consumes last stop matched)
    exact ⟨c, stop, matched⟩

theorem not_endsConsuming_ahead : ¬EndsConsuming whole [.ahead es] rest := by
  rw [endsConsuming_singleton]
  rintro ⟨c, stop, matched⟩
  cases Reader.none_of_ahead matched

theorem not_endsConsuming_noneOf : ¬EndsConsuming whole [.noneOf es] rest := by
  rw [endsConsuming_singleton]
  rintro ⟨c, stop, matched⟩
  cases Reader.none_of_noneOf matched

/-- Nothing ends consuming that ends with a member which never does. -/
theorem not_endsConsuming_concat (never : ∀ stop, ¬EndsConsuming whole [e] stop) :
    ¬EndsConsuming whole (es ++ [e]) rest := by
  rw [endsConsuming_concat]
  rintro ⟨_, stop, _, ends⟩
  exact never stop ends

theorem endsConsuming_oneOf_cons :
    EndsConsuming whole [.oneOf (e :: es)] rest ↔
      EndsConsuming whole [e] rest ∨
        e.Mismatches whole rest ∧ EndsConsuming whole [.oneOf es] rest := by
  unfold Mismatches
  simp only [endsConsuming_singleton, reader, readers, Reader.oneOf, Reader.firstOf]
  cases e.reader whole rest with
  | ok last stop => simp [Reading.andThen]
  | error f =>
    by_cases mismatch : f.isMismatch = true
    · simp only [mismatch, if_true]
      cases Reader.firstOf (readers whole es) rest with
      | ok found stop => cases found <;> simp [Reading.andThen, mismatch]
      | error g => simp [Reading.andThen]
    · simp [mismatch, Reading.andThen]

theorem endsConsuming_atLeast_run :
    EndsConsuming whole [.atLeast low e] rest ↔
      ∃ count c stop, Reader.greedyRun (e.reader whole) 0 none rest = .ok (count, some c) stop ∧
        low ≤ count := by
  rw [endsConsuming_singleton]
  simp only [reader]
  cases ran : Reader.greedyRun (e.reader whole) 0 none rest with
  | ok run stop =>
    obtain ⟨count, last⟩ := run
    rw [Reader.repeated_of_run ran]
    by_cases enough : low ≤ count
    · simp [enough]
    · simp only [enough, decide_false, Bool.false_and, Bool.false_eq_true, if_false]
      constructor
      · rintro ⟨_, _, matched⟩
        cases matched
      · rintro ⟨_, _, _, same, reached⟩
        cases same
        exact absurd reached enough
  | error f =>
    rw [Reader.repeated_of_error ran]
    simp

/-- A further round decides, or else the first one was the last. -/
theorem endsConsuming_atLeast :
    EndsConsuming whole [.atLeast low e] rest ↔
      ∃ tail stop, e.reader whole rest = .ok tail stop ∧ stop.length < rest.length ∧
        (EndsConsuming whole [.atLeast (low - 1) e] stop ∨
          low ≤ 1 ∧ tail.isSome = true ∧ e.Mismatches whole stop) := by
  have rounds {c : Char} {count : Nat} {stop : List Char} :=
    @Reader.greedyRun_consumes_iff (e.reader whole) rest stop count c (e.reader_advances whole)
  simp only [endsConsuming_atLeast_run]
  constructor
  · rintro ⟨count, c, stop, ran, enough⟩
    obtain ⟨tail, place, first, shorter, ends⟩ := rounds.mp ran
    refine ⟨tail, place, first, shorter, ?_⟩
    rcases ends with ⟨more, later, rfl⟩ | ⟨failed, rfl, -, rfl⟩
    · exact .inl ⟨more, c, stop, later, by omega⟩
    · exact .inr ⟨enough, rfl, failed⟩
  · rintro ⟨tail, place, first, shorter, ends⟩
    rcases ends with ⟨more, c, stop, later, enough⟩ | ⟨enough, consumed, failed⟩
    · have ran := rounds.mpr ⟨tail, place, first, shorter, .inl ⟨more, later, rfl⟩⟩
      exact ⟨more + 1, c, stop, ran, by omega⟩
    · obtain ⟨c, rfl⟩ := Option.isSome_iff_exists.mp consumed
      have ran := rounds.mpr ⟨some c, place, first, shorter, .inr ⟨failed, rfl, rfl, rfl⟩⟩
      exact ⟨1, c, place, ran, enough⟩

theorem not_endsConsuming_optional_nil : ¬EndsConsuming whole [.optional []] rest := by
  rw [endsConsuming_singleton]
  rintro ⟨c, stop, matched⟩
  cases matched

/-- The last member is taken where it matches just once in a row. Where it is not, those before it
decide. -/
theorem endsConsuming_optional_concat :
    EndsConsuming whole [.optional (es ++ [e])] rest ↔
      ∃ last stop, (Expr.optional es).reader whole rest = .ok last stop ∧
        ∃ count tail place,
          Reader.greedyRun (e.reader whole) 0 none stop = .ok (count, tail) place ∧
            if count = 1 then tail.isSome = true else last.isSome = true := by
  have split : (Expr.optional (es ++ [e])).reader whole rest =
      ((Expr.optional es).reader whole rest).andThen
        (Reader.optionalFrom (.optional (es ++ [e])) [e.reader whole]) := by
    rw [reader, reader, Reader.optional, Reader.optional,
      Reader.optionalFrom_renamed (.optional es) (.optional (es ++ [e])),
      ← Reader.optionalFrom_append, readers_eq_map, readers_eq_map, List.map_append]
    rfl
  rw [endsConsuming_singleton, split]
  cases (Expr.optional es).reader whole rest with
  | error f => simp [Reading.andThen]
  | ok last stop =>
    rw [Reading.andThen]
    cases ran : Reader.greedyRun (e.reader whole) 0 none stop with
    | error f =>
      rw [Reader.optionalFrom_of_error ran]
      simp [ran]
    | ok run place =>
      obtain ⟨count, tail⟩ := run
      rw [Reader.optionalFrom_of_run ran]
      by_cases once : count = 1 <;> simp [ran, once, Option.isSome_iff_exists]

/-- A list does not end consuming if it ends with an optional that is left out, whatever was
consumed before. -/
theorem not_endsConsuming_left_out {last : Option Char} {stop : List Char}
    (before : listReader whole es rest = .ok last stop) (without : e.Mismatches whole stop) :
    ¬EndsConsuming whole (es ++ [.optional [e]]) rest := by
  obtain ⟨f, failed, mismatch⟩ := without
  have ran : Reader.greedyRun (e.reader whole) 0 none stop = .ok (0, none) stop :=
    Reader.greedyRun_of_mismatch failed mismatch
  rw [endsConsuming_concat]
  rintro ⟨_, _, same, ends⟩
  rw [before] at same
  cases same
  rw [← List.nil_append [e], endsConsuming_optional_concat] at ends
  obtain ⟨_, _, nothing, count, tail, place, run, taken⟩ := ends
  cases nothing
  rw [ran] at run
  cases run
  cases taken

/-- An exclusive search goes over points, unless it finds a member at once. -/
theorem endsConsuming_untilAny_exclusive :
    EndsConsuming whole [.untilAny es false] rest ↔
      ∃ last stop, (Expr.untilAny es false).reader whole rest = .ok last stop ∧ stop ≠ rest := by
  rw [endsConsuming_singleton]
  constructor
  · rintro ⟨c, stop, matched⟩
    refine ⟨some c, stop, matched, ?_⟩
    rintro rfl
    rcases Reader.last_of_untilFrom matched with ⟨none, _⟩ | ⟨d, _, within⟩
    · cases none
    · have longer := within.length_le
      rw [List.length_cons] at longer
      omega
  · rintro ⟨last, stop, matched, moved⟩
    rcases Reader.last_of_untilFrom matched with ⟨_, same⟩ | ⟨c, rfl, _⟩
    · exact absurd same moved
    · exact ⟨c, stop, matched⟩

/-- An inclusive search ends with the member found where an exclusive one stops. -/
theorem endsConsuming_untilAny_inclusive :
    EndsConsuming whole [.untilAny es true] rest ↔
      ∃ last place, (Expr.untilAny es false).reader whole rest = .ok last place ∧
        EndsConsuming whole [.oneOf es] place := by
  simp only [endsConsuming_singleton]
  constructor
  · rintro ⟨c, stop, matched⟩
    obtain ⟨last, place, stopped, found⟩ := Reader.untilFrom_inclusive_iff.mp matched
    refine ⟨last, place, stopped, c, stop, ?_⟩
    rw [reader, Reader.oneOf, found]
    rfl
  · rintro ⟨last, place, stopped, c, stop, member⟩
    refine ⟨c, stop, Reader.untilFrom_inclusive_iff.mpr ⟨last, place, stopped, ?_⟩⟩
    rw [reader, Reader.oneOf] at member
    cases found : Reader.firstOf (readers whole es) place with
    | ok first reached =>
      rw [found, Reading.andThen] at member
      cases first with
      | some tail =>
        cases member
        rfl
      | none => cases member
    | error f =>
      rw [found] at member
      cases member

end Expr
end TextMatch
