import TextMatch.Proofs.Reading.Search

/-!
# The algebra of choice and lookahead

A choice and the two lookaheads all try their members in order, up to the first that matches or
fails for good. So a choice within a choice may be spread out in its place, a lookahead may be
asked of a choice as of its members, and one lookahead is the negation of the other
(`Expr.interchangeableOn_choice`). The first law is one of `Reader.firstOf`, the others are laws of
the answer that `Reader.anyHolds` gives; an error that is no mismatch is no answer, and goes through
all of them unchanged.

Expressions are interchangeable if they cannot be told apart except by what a mismatch names. That
is more than to be equivalent, so the laws may be applied within any grammar.
-/
namespace TextMatch

/-- The same error, but for what a mismatch names. -/
inductive MatchError.Renamed : MatchError → MatchError → Prop
  | unmet (x y : Expr) (c : Cursor) : Renamed (.unmet x c) (.unmet y c)
  | fatal {e : MatchError} (fatal : e.isMismatch = false) : Renamed e e

/-- The same boundary, or the same error but for what a mismatch names. -/
inductive Match.Renamed (m n : Match) : Prop
  | succeeded {boundary : Cursor} (first : m.result = .ok boundary)
      (second : n.result = .ok boundary)
  | failed {e e' : MatchError} (first : m.result = .error e) (second : n.result = .error e')
      (errors : e.Renamed e')

/-- At every cursor of `s`, matching `e` comes out as matching `e'` does, and stops at the same
place. -/
def Expr.InterchangeableOn (s : Source) (e e' : Expr) : Prop :=
  ∀ t : Scanner, t.source = s → s.Visited t.current →
    ∃ m n, t.expect [e] = some m ∧ t.expect [e'] = some n ∧ m.Renamed n ∧
      m.scanner.current = n.scanner.current

namespace Reading

/-- The same reading, but for what a mismatch names. -/
inductive Renamed {α : Type} : Reading α → Reading α → Prop
  | ok (value : α) (rest : List Char) : Renamed (.ok value rest) (.ok value rest)
  | unmet (x y : Expr) (place : List Char) :
      Renamed (.error (.unmet x place)) (.error (.unmet y place))
  | fatal {f : Failure} (fatal : f.isMismatch = false) : Renamed (.error f) (.error f)

theorem Renamed.andThen {α β : Type} {r r' : Reading α} {next next' : α → List Char → Reading β}
    (both : r.Renamed r')
    (onward : ∀ value stop, (next value stop).Renamed (next' value stop)) :
    (r.andThen next).Renamed (r'.andThen next') := by
  cases both with
  | ok value stop => exact onward value stop
  | unmet x y place => exact .unmet x y place
  | fatal fatal => exact .fatal fatal

/-- Search on where nothing was found. -/
def orElse {α : Type} (found again : Reading (Option α)) : Reading (Option α) :=
  match found with
  | .ok none _ => again
  | .ok (some value) stop => .ok (some value) stop
  | .error f => .error f

/-- Whether a member with this reading matches where `rest` is left. -/
def holds {α : Type} (rest : List Char) : Reading α → Reading Bool
  | .ok _ _ => .ok true rest
  | .error f => if f.isMismatch then .ok false rest else .error f

end Reading

namespace Reader

variable {expr expr' inner inner' : Expr} {rs rs' : List Reader} {rest : List Char}

theorem firstOf_append (rs rs' : List Reader) (rest : List Char) :
    firstOf (rs ++ rs') rest = (firstOf rs rest).orElse (firstOf rs' rest) := by
  induction rs with
  | nil => rfl
  | cons r rs ih =>
    rw [List.cons_append, firstOf, firstOf]
    cases r rest with
    | ok last stop => rfl
    | error f =>
      by_cases mismatch : f.isMismatch
      · simp only [if_pos mismatch]
        exact ih
      · simp only [if_neg mismatch]
        rfl

/-- A choice that finds nothing is a mismatch, behind which the search goes on. -/
theorem firstOf_cons_oneOf (expr : Expr) (rs rs' : List Reader) (rest : List Char) :
    firstOf (oneOf expr rs :: rs') rest = (firstOf rs rest).orElse (firstOf rs' rest) := by
  rw [firstOf, oneOf]
  cases found : firstOf rs rest with
  | ok first stop => cases first <;> rfl
  | error f => simp [Reading.andThen, Reading.orElse, fatal_of_firstOf found]

theorem firstOf_nested (expr : Expr) (front middle back : List Reader) (rest : List Char) :
    firstOf (front ++ [oneOf expr middle] ++ back) rest =
      firstOf (front ++ middle ++ back) rest := by
  simp only [List.append_assoc, List.singleton_append, firstOf_append, firstOf_cons_oneOf]

/-- A search, and so an answer, has no mismatch that could be renamed. -/
theorem firstOf_renamed (rs : List Reader) (rest : List Char) :
    (firstOf rs rest).Renamed (firstOf rs rest) := by
  cases found : firstOf rs rest with
  | ok first stop => exact .ok first stop
  | error f => exact .fatal (fatal_of_firstOf found)

theorem anyHolds_renamed (rs : List Reader) (rest : List Char) :
    (anyHolds rs rest).Renamed (anyHolds rs rest) :=
  (firstOf_renamed rs rest).andThen fun first _ => .ok first.isSome rest

/-- Choices whose members find the same. -/
theorem oneOf_renamed (same : firstOf rs rest = firstOf rs' rest) :
    (oneOf expr rs rest).Renamed (oneOf expr' rs' rest) := by
  unfold oneOf
  rw [same]
  refine (firstOf_renamed rs' rest).andThen fun found stop => ?_
  cases found with
  | none => exact .unmet expr expr' rest
  | some last => exact .ok last stop

/-- To ask is to be answered in place, unless a member fails for good. -/
theorem anyHolds_cases (rs : List Reader) (rest : List Char) :
    (∃ answer, anyHolds rs rest = .ok answer rest) ∨
      ∃ f, f.isMismatch = false ∧ anyHolds rs rest = .error f := by
  unfold anyHolds
  cases found : firstOf rs rest with
  | ok first stop => exact .inl ⟨first.isSome, rfl⟩
  | error f => exact .inr ⟨f, fatal_of_firstOf found, rfl⟩

theorem anyHolds_singleton (r : Reader) (rest : List Char) :
    anyHolds [r] rest = (r rest).holds rest := by
  rw [anyHolds, firstOf]
  cases r rest with
  | ok last stop => rfl
  | error f =>
    by_cases mismatch : f.isMismatch
    · simp only [if_pos mismatch, Reading.holds]
      rfl
    · simp only [if_neg mismatch, Reading.holds]
      rfl

theorem anyHolds_oneOf (expr : Expr) (rs : List Reader) (rest : List Char) :
    anyHolds [oneOf expr rs] rest = anyHolds rs rest := by
  rw [anyHolds, anyHolds, firstOf_cons_oneOf]
  cases firstOf rs rest with
  | ok first stop => cases first <;> rfl
  | error f => rfl

theorem anyHolds_ahead (expr : Expr) (rs : List Reader) (rest : List Char) :
    anyHolds [ahead expr rs] rest = anyHolds rs rest := by
  rw [anyHolds_singleton, ahead]
  rcases anyHolds_cases rs rest with ⟨answer, asked⟩ | ⟨f, fatal, failed⟩
  · rw [asked]
    cases answer <;> rfl
  · rw [failed]
    simp [Reading.andThen, Reading.holds, fatal]

theorem anyHolds_noneOf (expr : Expr) (rs : List Reader) (rest : List Char) :
    anyHolds [noneOf expr rs] rest =
      (anyHolds rs rest).andThen fun answer stop => .ok (!answer) stop := by
  rw [anyHolds_singleton, noneOf]
  rcases anyHolds_cases rs rest with ⟨answer, asked⟩ | ⟨f, fatal, failed⟩
  · rw [asked]
    cases answer <;> rfl
  · rw [failed]
    simp [Reading.andThen, Reading.holds, fatal]

theorem anyHolds_append (rs rs' : List Reader) (rest : List Char) :
    anyHolds (rs ++ rs') rest =
      (anyHolds rs rest).andThen fun answer _ =>
        if answer then .ok true rest else anyHolds rs' rest := by
  unfold anyHolds
  rw [firstOf_append]
  cases firstOf rs rest with
  | ok first stop => cases first <;> rfl
  | error f => rfl

/-- Lookaheads whose members give the same answer. -/
theorem ahead_renamed (same : anyHolds rs rest = anyHolds rs' rest) :
    (ahead expr rs rest).Renamed (ahead expr' rs' rest) := by
  unfold ahead
  rw [same]
  refine (anyHolds_renamed rs' rest).andThen fun answer _ => ?_
  cases answer with
  | true => exact .ok none rest
  | false => exact .unmet expr expr' rest

theorem noneOf_renamed (same : anyHolds rs rest = anyHolds rs' rest) :
    (noneOf expr rs rest).Renamed (noneOf expr' rs' rest) := by
  unfold noneOf
  rw [same]
  refine (anyHolds_renamed rs' rest).andThen fun answer _ => ?_
  cases answer with
  | true => exact .unmet expr expr' rest
  | false => exact .ok none rest

theorem ahead_renamed_noneOf_noneOf :
    (ahead expr rs rest).Renamed (noneOf expr' [noneOf inner rs] rest) := by
  rw [ahead, noneOf, anyHolds_noneOf, Reading.andThen_assoc]
  refine (anyHolds_renamed rs rest).andThen fun answer _ => ?_
  cases answer with
  | true => exact .ok none rest
  | false => exact .unmet expr expr' rest

/-- The second lookahead is asked where the first one was. -/
theorem noneOf_append_renamed :
    (noneOf expr (rs ++ rs') rest).Renamed (seq [noneOf inner rs, noneOf inner' rs'] rest) := by
  simp only [seq, seqFrom, noneOf, anyHolds_append, Reading.andThen_assoc]
  refine (anyHolds_renamed rs rest).andThen fun answer _ => ?_
  cases answer with
  | true => exact .unmet expr inner rest
  | false =>
    change ((anyHolds rs' rest).andThen _).Renamed ((anyHolds rs' rest).andThen _)
    refine (anyHolds_renamed rs' rest).andThen fun answer _ => ?_
    cases answer with
    | true => exact .unmet expr inner' rest
    | false => exact .ok none rest

end Reader

namespace Expr

variable {s : Source} {e e' : Expr}

/-- Where no hook is in the way, expressions are interchangeable if their readers are. -/
theorem interchangeableOn_of_readers (free : e.hooks = []) (free' : e'.hooks = [])
    (both : ∀ rest, (e.reader s.isReadable rest).Renamed (e'.reader s.isReadable rest)) :
    InterchangeableOn s e e' := by
  rintro t reads ⟨i, visited⟩
  obtain ⟨rest, start, _⟩ := Scanner.At.of_visits reads visited
  obtain ⟨m, finished, result, left⟩ := start.expect_singleton free
  obtain ⟨n, finished', result', left'⟩ := start.expect_singleton free'
  refine ⟨m, n, finished, finished', ?_⟩
  have both := both rest
  generalize e.reader s.isReadable rest = reading, e'.reader s.isReadable rest = reading'
    at both result left result' left'
  cases both with
  | ok last stop =>
    exact ⟨.succeeded result result', left.current_eq.trans left'.current_eq.symm⟩
  | unmet x y place =>
    have errors := MatchError.Renamed.unmet x y (s.cursorAt place)
    exact ⟨.failed result result' errors, left.current_eq.trans left'.current_eq.symm⟩
  | @fatal f fatal =>
    have errors := MatchError.Renamed.fatal ((Failure.isMismatch_toError s f).trans fatal)
    exact ⟨.failed result result' errors, left.current_eq.trans left'.current_eq.symm⟩

/-- Interchangeable expressions may be put in each other's place within any grammar. -/
theorem InterchangeableOn.equivalentOn (both : InterchangeableOn s e e') :
    EquivalentOn s [e] [e'] := by
  intro t reads visited
  obtain ⟨m, n, finished, finished', same, stop⟩ := both t reads visited
  refine ⟨m, n, finished, finished', ?_⟩
  cases same with
  | succeeded first second => exact .succeeded first second stop
  | failed first second errors =>
    cases errors with
    | unmet x y c => exact .mismatched first second rfl rfl
    | fatal fatal => exact .fatal first second fatal

/-- A choice within a choice is as good as its members in its place. A lookahead for some members
is one for their choice, and the denial of the lookahead against them. A lookahead against some
members is one against their choice, and the denial of the lookahead for them; against the members
of two lists it is the lookaheads against either, one after the other. -/
theorem interchangeableOn_choice (s : Source) {front middle back members : List Expr}
    (frontFree : hooksIn front = []) (middleFree : hooksIn middle = [])
    (backFree : hooksIn back = []) (free : hooksIn members = []) :
    InterchangeableOn s (.oneOf (front ++ [.oneOf middle] ++ back))
      (.oneOf (front ++ middle ++ back)) ∧
    InterchangeableOn s (.ahead members) (.ahead [.oneOf members]) ∧
    InterchangeableOn s (.ahead members) (.noneOf [.noneOf members]) ∧
    InterchangeableOn s (.noneOf members) (.noneOf [.oneOf members]) ∧
    InterchangeableOn s (.noneOf members) (.noneOf [.ahead members]) ∧
    InterchangeableOn s (.noneOf (front ++ back)) (.seq [.noneOf front, .noneOf back]) := by
  have asked (e : Expr) (inside : e.hooks = hooksIn members) : hooksIn [e] = [] :=
    (hooksIn_singleton e).trans (inside.trans free)
  refine ⟨?_, ?_, ?_, ?_, ?_, ?_⟩
  · refine interchangeableOn_of_readers ?_ ?_ fun rest => ?_
    · simp [hooks, hooksIn, hooksIn_append, frontFree, middleFree, backFree]
    · simp [hooks, hooksIn_append, frontFree, middleFree, backFree]
    · simp only [reader, readers_eq_map, List.map_append, List.map_singleton]
      exact Reader.oneOf_renamed (Reader.firstOf_nested _ _ _ _ rest)
  · exact interchangeableOn_of_readers free (asked _ rfl) fun rest =>
      Reader.ahead_renamed (Reader.anyHolds_oneOf _ _ rest).symm
  · exact interchangeableOn_of_readers free (asked _ rfl) fun rest =>
      Reader.ahead_renamed_noneOf_noneOf
  · exact interchangeableOn_of_readers free (asked _ rfl) fun rest =>
      Reader.noneOf_renamed (Reader.anyHolds_oneOf _ _ rest).symm
  · exact interchangeableOn_of_readers free (asked _ rfl) fun rest =>
      Reader.noneOf_renamed (Reader.anyHolds_ahead _ _ rest).symm
  · refine interchangeableOn_of_readers ?_ ?_ fun rest => ?_
    · simp [hooks, hooksIn_append, frontFree, backFree]
    · simp [hooks, hooksIn, frontFree, backFree]
    · simp only [reader, readers, readers_eq_map, List.map_append]
      exact Reader.noneOf_append_renamed

/-- A sign, and then a letter that is none. It is found in the choice within the choice, and gone
over; the letter is refused; and the empty text as the last member is no expression to match. For
the lookaheads the sign is there, and it is not so that it is not. -/
theorem interchangeableOn_choice_sign :
    let s : Source := .ofString "-x"
    let t : Scanner := ⟨s, ⟨.start, some '-', 0⟩, none, none⟩
    let x : Cursor := ⟨⟨1, 2, 2, 2⟩, some 'x', 1⟩
    let digit : List Expr := [.range '0' '9']
    let sign : List Expr := [.point '+', .point '-']
    let spread (back : List Expr) : List Expr :=
      [.oneOf (digit ++ [.oneOf sign] ++ back), .oneOf (digit ++ sign ++ back)]
    let empty := "unsupported literal expression: empty literal"
    hooksIn digit = [] ∧ hooksIn sign = [] ∧ s.Visited t.current ∧ s.Visited x ∧
      InterchangeableOn s (.oneOf (digit ++ [.oneOf sign] ++ [.any]))
        (.oneOf (digit ++ sign ++ [.any])) ∧
      (∀ e ∈ spread [], (t.expect [e]).map Match.verdict = some (.ok x)) ∧
      (∀ e ∈ spread [], ((t.jump x).expect [e]).map Match.verdict = some (.error none)) ∧
      (∀ e ∈ spread [.literal ""],
        ((t.jump x).expect [e]).map Match.verdict = some (.error (some empty))) ∧
      InterchangeableOn s (.noneOf (digit ++ [.any])) (.seq [.noneOf digit, .noneOf [.any]]) ∧
      ∃ m n, t.expect [.ahead sign] = some m ∧ t.expect [.noneOf [.noneOf sign]] = some n ∧
        m.Renamed n ∧ m.result.toOption = some t.current := by
  intro s t x digit sign spread empty
  have first : s.Visits 0 t.current := .first (by decide)
  have visited : s.Visited t.current := ⟨0, first⟩
  have onward : s.Visited x := ⟨1, first.after (by decide)⟩
  obtain ⟨choice, _, denied, _, _, parts⟩ :=
    @interchangeableOn_choice s digit sign [.any] sign rfl rfl rfl rfl
  have spreads (back : List Expr) (free : hooksIn back = []) :
      InterchangeableOn s (.oneOf (digit ++ [.oneOf sign] ++ back))
        (.oneOf (digit ++ sign ++ back)) :=
    (@interchangeableOn_choice s digit sign back sign rfl rfl free rfl).1
  -- what the nested choice comes to, the other one does too
  have both {back : List Expr} (free : hooksIn back = []) {u : Scanner} (reads : u.source = s)
      (standing : s.Visited u.current) {verdict : Except (Option String) Cursor}
      (came : (u.expect [.oneOf (digit ++ [.oneOf sign] ++ back)]).map Match.verdict =
        some verdict) :
      ∀ e ∈ spread back, (u.expect [e]).map Match.verdict = some verdict := by
    intro e either
    rcases List.mem_pair.mp either with rfl | rfl
    · exact came
    · exact ((spreads back free).equivalentOn.verdict_eq reads standing).symm.trans came
  obtain ⟨m, n, finished, finished', same, _⟩ := denied t rfl visited
  have seen : (t.expect [.ahead sign]).map (fun m => m.result.toOption) =
      some (some t.current) := by decide +kernel
  rw [finished, Option.map_some] at seen
  exact ⟨rfl, rfl, visited, onward, choice, both rfl rfl visited (by decide +kernel),
    both rfl rfl onward (by decide +kernel), both rfl rfl onward (by decide +kernel), parts, m, n,
    finished, finished', same, Option.some.inj seen⟩

end Expr
end TextMatch
