import TextMatch.Proofs.Reading.Agreement
import TextMatch.Proofs.Reference.Matcher

/-!
# Matching refines the reference matcher

On a source that is UTF-8 throughout, a scanner at the point of some index matches as the reference
matcher does from this index on (`expect_refines_reference`). Readers are the step between them:
`Expr.reader_refines` relates what a reader leaves to the index where the reference stops, and that
matchers do what readers do is known. That the reference never goes back comes from readers, too.
-/
namespace TextMatch

/-- The reading of `cs` comes out as the verdict says, and leaves what follows the index in it. -/
inductive Verdict.Describes (cs : List Char) : Verdict → Reading (Option Char) → Prop
  | ok {j : Nat} {last : Option Char} (inside : j ≤ cs.length) :
      Describes cs (.ok j) (.ok last (cs.drop j))
  | fail {expr : Expr} {rest : List Char} : Describes cs .fail (.error (.unmet expr rest))
  | unsupported {kind : Kind} {defect : Defect} :
      Describes cs .unsupported (.error (.defective kind defect))

/-- The same for a greedy run. -/
inductive Reference.Counts (cs : List Char) :
    Option (Nat × Nat) → Reading (Nat × Option Char) → Prop
  | some {count j : Nat} {last : Option Char} (inside : j ≤ cs.length) :
      Counts cs (some (count, j)) (.ok (count, last) (cs.drop j))
  | none {kind : Kind} {defect : Defect} : Counts cs none (.error (.defective kind defect))

def Reader.Refines (cs : List Char) (r : Reader) (m : Trial) : Prop :=
  ∀ i ≤ cs.length, (m i).Describes cs (r (cs.drop i))

namespace Reference

variable {cs : List Char} {m : Trial} {r : Reader} {ms : List Trial} {rs : List Reader} {i : Nat}

theorem drop_eq_cons (inside : i < cs.length) : ∃ c, cs.drop i = c :: cs.drop (i + 1) :=
  ⟨cs[i], List.drop_eq_getElem_cons inside⟩

theorem pointIf_refines (expr : Expr) (accepts : Char → Bool) :
    Reader.Refines cs (Reader.pointIf true expr accepts) (pointIf cs accepts) := by
  intro i inside
  unfold Reader.pointIf pointIf
  rw [List.head?_drop]
  by_cases accepted : cs[i]?.any accepts
  · simp only [if_pos accepted]
    have before : i < cs.length := by
      by_contra beyond
      simp [List.getElem?_eq_none (not_lt.mp beyond)] at accepted
    obtain ⟨c, split⟩ := drop_eq_cons before
    rw [split, Reader.consume, if_neg (by simp)]
    exact .ok before
  · simp only [if_neg accepted]
    exact .fail

theorem range_refines (first last : Char) :
    Reader.Refines cs (Reader.range true first last) (range cs first last) := by
  intro i inside
  unfold Reader.range range
  by_cases reversed : last < first
  · simp only [if_pos reversed]
    exact .unsupported
  · simp only [if_neg reversed]
    exact pointIf_refines _ _ i inside

theorem points_describe (expr : Expr) (ds : List Char) (last : Option Char)
    (inside : i ≤ cs.length) :
    Verdict.Describes cs (if ds.isPrefixOf (cs.drop i) then .ok (i + ds.length) else .fail)
      (Reader.points true expr ds last (cs.drop i)) := by
  induction ds generalizing i last with
  | nil => exact .ok inside
  | cons d ds ih =>
    unfold Reader.points Reader.pointIf
    rcases inside.lt_or_eq with before | rfl
    · obtain ⟨c, split⟩ := drop_eq_cons before
      rw [split, List.isPrefixOf_cons_cons, List.head?_cons]
      by_cases same : d = c
      · have rest := ih (i := i + 1) (some c) before
        rw [Nat.add_right_comm] at rest
        simpa [same, Reader.consume, Reading.andThen, Nat.add_assoc] using rest
      · have other : ¬ c = d := fun equal => same equal.symm
        simp only [Option.any_some, beq_iff_eq, other, if_false, beq_eq_false_iff_ne.mpr same,
          Bool.false_and, Bool.false_eq_true]
        exact .fail
    · simp only [List.drop_length, List.isPrefixOf_cons_nil, List.head?_nil, Option.any_none,
        Bool.false_eq_true, if_false]
      exact .fail

theorem literal_refines (text : String) :
    Reader.Refines cs (Reader.literal true text) (literal cs text) := by
  intro i inside
  unfold Reader.literal literal
  by_cases empty : text = ""
  · simp only [if_pos empty]
    exact .unsupported
  · simp only [if_neg empty]
    rw [← String.length_toList]
    exact points_describe _ _ _ inside

theorem seqFrom_describes (parts : List.Forall₂ (Reader.Refines cs) rs ms) (last : Option Char)
    (inside : i ≤ cs.length) :
    (seq ms i).Describes cs (Reader.seqFrom rs last (cs.drop i)) := by
  induction parts generalizing i last with
  | nil => exact .ok inside
  | @cons r m rs ms head _ ih =>
    have result := head i inside
    unfold Reader.seqFrom seq
    generalize m i = verdict, r (cs.drop i) = reading at result ⊢
    cases result with
    | ok inside => exact ih _ inside
    | fail => exact .fail
    | unsupported => exact .unsupported

/-- The first member to succeed, as a reader finds it. -/
inductive Finds (cs : List Char) (i : Nat) : Verdict → Reading (Option (Option Char)) → Prop
  | ok {j : Nat} {last : Option Char} (inside : j ≤ cs.length) :
      Finds cs i (.ok j) (.ok (some last) (cs.drop j))
  | fail : Finds cs i .fail (.ok none (cs.drop i))
  | unsupported {kind : Kind} {defect : Defect} :
      Finds cs i .unsupported (.error (.defective kind defect))

theorem oneOf_finds (parts : List.Forall₂ (Reader.Refines cs) rs ms) (inside : i ≤ cs.length) :
    Finds cs i (oneOf ms i) (Reader.firstOf rs (cs.drop i)) := by
  induction parts with
  | nil => exact .fail
  | @cons r m rs ms head _ ih =>
    have result := head i inside
    unfold Reader.firstOf oneOf
    generalize m i = verdict, r (cs.drop i) = reading at result ⊢
    cases result with
    | ok inside => exact .ok inside
    | fail => exact ih
    | unsupported => exact .unsupported

theorem oneOf_refines (expr : Expr) (parts : List.Forall₂ (Reader.Refines cs) rs ms) :
    Reader.Refines cs (Reader.oneOf expr rs) (oneOf ms) := by
  intro i inside
  have found := oneOf_finds parts inside
  unfold Reader.oneOf
  generalize oneOf ms i = verdict, Reader.firstOf rs (cs.drop i) = reading at found ⊢
  cases found with
  | ok inside => exact .ok inside
  | fail => exact .fail
  | unsupported => exact .unsupported

theorem noneOf_refines (expr : Expr) (parts : List.Forall₂ (Reader.Refines cs) rs ms) :
    Reader.Refines cs (Reader.noneOf expr rs) (noneOf ms) := by
  intro i inside
  have found := oneOf_finds parts inside
  unfold Reader.noneOf Reader.anyHolds noneOf
  generalize oneOf ms i = verdict, Reader.firstOf rs (cs.drop i) = reading at found ⊢
  cases found with
  | ok _ => exact .fail
  | fail => exact .ok inside
  | unsupported => exact .unsupported

theorem ahead_refines (expr : Expr) (parts : List.Forall₂ (Reader.Refines cs) rs ms) :
    Reader.Refines cs (Reader.ahead expr rs) (ahead ms) := by
  intro i inside
  have found := oneOf_finds parts inside
  unfold Reader.ahead Reader.anyHolds ahead
  generalize oneOf ms i = verdict, Reader.firstOf rs (cs.drop i) = reading at found ⊢
  cases found with
  | ok _ => exact .ok inside
  | fail => exact .fail
  | unsupported => exact .unsupported

theorem greedy_counts (refines : r.Refines cs m) (count : Nat) (last : Option Char)
    (inside : i ≤ cs.length) :
    Counts cs (greedy cs.length m count i) (Reader.greedyRun r count last (cs.drop i)) := by
  induction left : cs.length - i using Nat.strong_induction_on generalizing i count last with
  | _ n ih =>
    have tried := refines i inside
    rw [greedy, Reader.greedyRun]
    generalize m i = verdict, r (cs.drop i) = reading at tried ⊢
    cases tried with
    | @ok j tail reached =>
      have shorter : (cs.drop j).length < (cs.drop i).length ↔ i < j ∧ j ≤ cs.length := by
        simp only [List.length_drop]
        omega
      by_cases onward : i < j ∧ j ≤ cs.length
      · simp only [shorter, if_pos onward]
        exact ih _ (by omega) (count + 1) tail reached rfl
      · simp only [shorter, if_neg onward]
        exact .some reached
    | fail => exact .some inside
    | unsupported => exact .none

theorem repeated_refines (expr : Expr) (refines : r.Refines cs m) (low : Nat) (high : Option Nat)
    {fits : Nat → Bool} (bounds : ∀ count, fits count = (low ≤ count && high.all (count ≤ ·))) :
    Reader.Refines cs (Reader.repeated expr r low high) (repeated cs.length m fits) := by
  intro i inside
  have counted := greedy_counts refines 0 none inside
  unfold Reader.repeated Reader.bounded repeated
  generalize greedy cs.length m 0 i = run, Reader.greedyRun r 0 none (cs.drop i) = reading
    at counted ⊢
  cases counted with
  | @some count j last inside =>
    simp only [Reading.andThen, ← bounds]
    cases fits count with
    | true => exact .ok inside
    | false => exact .fail
  | none => exact .unsupported

theorem between_refines (expr : Expr) (refines : r.Refines cs m) (low high : Nat) :
    Reader.Refines cs (Reader.between expr r low high) (between cs.length m low high) := by
  intro i inside
  unfold Reader.between between
  by_cases crossed : high ≠ 0 ∧ high < low
  · rw [if_pos crossed, if_pos crossed]
    exact .unsupported
  · rw [if_neg crossed, if_neg crossed]
    refine repeated_refines expr refines low _ (fun count => ?_) i inside
    by_cases unbounded : high = 0
    · simp [unbounded]
    · simp [unbounded]

theorem optionalFrom_describes (expr : Expr) (parts : List.Forall₂ (Reader.Refines cs) rs ms)
    (last : Option Char) (inside : i ≤ cs.length) :
    (optional cs.length ms i).Describes cs (Reader.optionalFrom expr rs last (cs.drop i)) := by
  induction parts generalizing i last with
  | nil => exact .ok inside
  | @cons r m rs ms head _ ih =>
    have counted := greedy_counts head 0 none inside
    unfold Reader.optionalFrom Reader.bounded optional
    generalize greedy cs.length m 0 i = run, Reader.greedyRun r 0 none (cs.drop i) = reading
      at counted ⊢
    cases counted with
    | @some count j tail reached =>
      rcases count with _ | _ | more
      · exact ih last inside
      · exact ih tail reached
      · -- a run of more rounds is out of bounds for the reader, and leaves the member out
        have excess : ¬ more + 1 + 1 ≤ 1 := by omega
        simpa [Reading.andThen, excess, Failure.isMismatch] using ih last inside
    | none => exact .unsupported

theorem untilFrom_describes (expr : Expr) (parts : List.Forall₂ (Reader.Refines cs) rs ms)
    (inclusive : Bool) (last : Option Char) (inside : i ≤ cs.length) :
    (untilAny cs.length ms inclusive i).Describes cs
      (Reader.untilFrom true expr rs inclusive last (cs.drop i)) := by
  induction left : cs.length - i using Nat.strong_induction_on generalizing i last with
  | _ n ih =>
    have found := oneOf_finds parts inside
    rw [untilAny, Reader.untilFrom.eq_def]
    generalize oneOf ms i = verdict, Reader.firstOf rs (cs.drop i) = reading at found ⊢
    cases found with
    | ok reached =>
      cases inclusive with
      | true => exact .ok reached
      | false => exact .ok inside
    | fail =>
      rcases inside.lt_or_eq with before | rfl
      · obtain ⟨c, split⟩ := drop_eq_cons before
        simp only [if_pos before, split, Bool.true_eq_false, and_false, if_false]
        exact ih _ (by omega) (some c) before rfl
      · simp only [lt_irrefl, if_false, List.drop_length]
        exact .fail
    | unsupported => exact .unsupported

end Reference

theorem Expr.reader_refines (cs : List Char) (e : Expr) :
    (e.reader true).Refines cs (e.reference cs) := by
  -- the members of a list of expressions, one by one
  have members {es : List Expr}
      (ih : ∀ e ∈ es, (e.reader true).Refines cs (e.reference cs)) :
      List.Forall₂ (Reader.Refines cs) (Expr.readers true es) (Expr.references cs es) := by
    rw [Expr.readers_eq_map, Expr.references_eq_map, List.forall₂_map_left_iff,
      List.forall₂_map_right_iff, List.forall₂_same]
    exact ih
  induction e using Expr.induction with
  | literal text => exact Reference.literal_refines text
  | point c => exact Reference.pointIf_refines _ _
  | any => exact Reference.pointIf_refines _ _
  | noneOf es ih => exact Reference.noneOf_refines _ (members ih)
  | ahead es ih => exact Reference.ahead_refines _ (members ih)
  | oneOf es ih => exact Reference.oneOf_refines _ (members ih)
  | seq es ih => exact fun _ inside => Reference.seqFrom_describes (members ih) none inside
  | optional es ih =>
    exact fun _ inside => Reference.optionalFrom_describes _ (members ih) none inside
  | between low high e ih => exact Reference.between_refines _ ih low high
  | atLeast low e ih => exact Reference.repeated_refines _ ih low none fun count => by simp
  | exactly times e ih =>
    refine Reference.repeated_refines _ ih times (some times) fun count => ?_
    rw [Bool.eq_iff_iff]
    simp
    omega
  | range first last => exact Reference.range_refines first last
  | untilAny es inclusive ih =>
    exact fun _ inside => Reference.untilFrom_describes _ (members ih) inclusive none inside
  | hook h => exact fun _ _ => .fail

/-- Where the reference succeeds it has gone on, or stayed, within the list. -/
theorem Expr.le_of_reference {cs : List Char} {e : Expr} {i j : Nat} (inside : i ≤ cs.length)
    (ends : e.reference cs i = .ok j) : i ≤ j ∧ j ≤ cs.length := by
  have described := e.reader_refines cs i inside
  have within := e.reader_advances true (cs.drop i)
  rw [ends] at described
  generalize e.reader true (cs.drop i) = reading at described within
  cases described with
  | ok reached =>
    have shorter := within.suffix.length_le
    simp only [List.length_drop] at shorter
    omega

/-- A greedy run goes on unless there is a failure, or a success where it is. -/
theorem Expr.greedy_reference {cs : List Char} (e : Expr) (count : Nat) {i : Nat}
    (inside : i ≤ cs.length) :
    Reference.greedy cs.length (e.reference cs) count i =
      match e.reference cs i with
      | .ok j =>
        if j = i then some (count + 1, j)
        else Reference.greedy cs.length (e.reference cs) (count + 1) j
      | .fail => some (count, i)
      | .unsupported => none := by
  rw [Reference.greedy]
  cases tried : e.reference cs i with
  | ok j =>
    obtain ⟨onward, within⟩ := Expr.le_of_reference inside tried
    by_cases still : j = i
    · have stopped : ¬ (i < j ∧ j ≤ cs.length) := by omega
      simp only [if_pos still, if_neg stopped]
    · have moved : i < j ∧ j ≤ cs.length := by omega
      simp only [if_neg still, if_pos moved]
  | fail => rfl
  | unsupported => rfl

/-- Matching a text from the character of index `i` on comes out as the reference matcher does:
a success stops before the character of the index that it gives, and a failure leaves the cursor
where it was. -/
theorem Scanner.expect_refines_reference {text : String} {t : Scanner} {i : Nat} {e : Expr}
    (reads : t.source = .ofString text) (visited : t.source.Visits i t.current)
    (free : e.hooks = []) :
    ∃ m, t.expect [e] = some m ∧
      match e.reference text.toList i with
      | .ok j => (∃ boundary, m.result = .ok boundary) ∧ t.source.Visits j m.scanner.current
      | .fail => (∃ error, m.result = .error error ∧ error.isMismatch = true) ∧
        m.scanner.current = t.current
      | .unsupported => (∃ kind defect, m.result = .error (.defective kind defect)) ∧
        m.scanner.current = t.current := by
  rw [reads] at visited ⊢
  obtain ⟨inside, start⟩ := At.of_index reads visited
  have hookless : Expr.hooksIn [e] = [] := by rw [Expr.hooksIn, free]; rfl
  have agrees := Session.expect_agrees hookless (show (Session.mk t []).scanner.At _ _ from start)
  have points := Source.points_ofString text
  rw [Expr.listReader_singleton, Source.isReadable_ofString, points] at agrees
  rw [points] at inside start
  have refines := e.reader_refines text.toList i inside
  unfold Scanner.expect
  generalize Session.expect [e] ⟨t, []⟩ = outcome, e.reader true (text.toList.drop i) = reading,
    e.reference text.toList i = verdict at agrees refines ⊢
  cases refines with
  | ok reached =>
    cases agrees with
    | ok _ here =>
      refine ⟨_, rfl, ⟨_, rfl⟩, ?_⟩
      rw [← points] at reached here
      exact here.visits_index reached
  | fail =>
    cases agrees with
    | error left => exact ⟨_, rfl, ⟨_, rfl, rfl⟩, left.current_eq.trans start.current_eq.symm⟩
  | unsupported =>
    cases agrees with
    | error left => exact ⟨_, rfl, ⟨_, _, rfl⟩, left.current_eq.trans start.current_eq.symm⟩

/-- Digits, a letter that is not there, and a search that ends with the text. -/
theorem Scanner.expect_refines_reference_to_end :
    let t : Scanner :=
      ⟨.ofString "é12 ", ⟨⟨1, 2, 3, 2⟩, some '1', 2⟩, none, some ⟨.start, some 'é', 0⟩⟩
    let e : Expr := .seq [.atLeast 1 (.range '0' '9'), .optional [.point 'é'],
      .untilAny [.noneOf [.any]] true]
    e.reference "é12 ".toList 1 = .ok 4 ∧
      ∃ m, t.expect [e] = some m ∧ (∃ boundary, m.result = .ok boundary) ∧
        t.source.Visits 4 m.scanner.current := by
  intro t e
  have ends : e.reference "é12 ".toList 1 = .ok 4 := by decide +kernel
  have first : t.source.Visits 0 ⟨.start, some 'é', 0⟩ := .first (by decide)
  have second : t.source.Visits 1 t.current := .after first (by decide)
  have refined := expect_refines_reference (e := e) rfl second rfl
  rw [ends] at refined
  exact ⟨ends, refined⟩

end TextMatch
