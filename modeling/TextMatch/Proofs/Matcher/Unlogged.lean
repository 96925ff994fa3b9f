import TextMatch.Proofs.Matcher.Invariant

/-!
# Matching does not look at the log

A match adds to the log of its session and never reads it. So two sessions with the same scanner
come out alike, in the value or the error and in the scanner that is left, whatever they have
logged before (`Expr.matcher_ignoresLog`). Hooks may do as they like, since all they are given is
the scanner. It is this that lets matches be compared whose tries, and so whose events, are not the
same.
-/
namespace TextMatch

/-- The same value, or errors that `same` relates, and the same scanner. Only the logs may
differ. -/
inductive Outcome.Alike (same : MatchError → MatchError → Prop) {α : Type} :
    Outcome α → Outcome α → Prop
  | ok (value : α) {σ τ : Session} (scanner : σ.scanner = τ.scanner) :
      Alike same (.ok value σ) (.ok value τ)
  | error {e e' : MatchError} {σ τ : Session} (errors : same e e')
      (scanner : σ.scanner = τ.scanner) : Alike same (.error e σ) (.error e' τ)
  | unfinished : Alike same .unfinished .unfinished

/-- From sessions with the same scanner the matcher comes out alike. -/
def Matcher.IgnoresLog (m : Matcher) : Prop :=
  ∀ ⦃σ τ : Session⦄, σ.scanner = τ.scanner → (m σ).Alike Eq (m τ)

theorem Session.current_congr {σ τ : Session} (scanner : σ.scanner = τ.scanner) :
    σ.current = τ.current :=
  congrArg Scanner.current scanner

namespace Outcome.Alike

variable {same : MatchError → MatchError → Prop} {α β : Type} {o o' o'' : Outcome α}

theorem refl (o : Outcome α) : o.Alike Eq o := by
  cases o with
  | ok value σ => exact .ok value rfl
  | error e σ => exact .error rfl rfl
  | unfinished => exact .unfinished

theorem symm (both : o.Alike Eq o') : o'.Alike Eq o := by
  cases both with
  | ok value scanner => exact .ok value scanner.symm
  | error errors scanner => exact .error errors.symm scanner.symm
  | unfinished => exact .unfinished

/-- The errors are related by way of those in between. -/
theorem comp {same' same'' : MatchError → MatchError → Prop}
    (first : o.Alike same o') (second : o'.Alike same' o'')
    (through : ∀ {e e' e''}, same e e' → same' e' e'' → same'' e e'') : o.Alike same'' o'' := by
  cases first with
  | ok value scanner =>
    cases second with
    | ok _ onward => exact .ok value (scanner.trans onward)
  | error errors scanner =>
    cases second with
    | error errorsToo onward => exact .error (through errors errorsToo) (scanner.trans onward)
  | unfinished =>
    cases second with
    | unfinished => exact .unfinished

theorem trans (first : o.Alike same o') (second : o'.Alike Eq o'') : o.Alike same o'' :=
  first.comp second fun errors equal => equal ▸ errors

theorem eq_trans (first : o.Alike Eq o') (second : o'.Alike same o'') : o.Alike same o'' :=
  first.comp second fun equal errors => equal ▸ errors

theorem andThen {next next' : α → Session → Outcome β} (both : o.Alike same o')
    (onward : ∀ value σ τ, σ.scanner = τ.scanner →
      (next value σ).Alike same (next' value τ)) :
    (o.andThen next).Alike same (o'.andThen next') := by
  cases both with
  | ok value scanner => exact onward value _ _ scanner
  | error errors scanner => exact .error errors scanner
  | unfinished => exact .unfinished

theorem rewinding (both : o.Alike same o') (c : Cursor) :
    (o.rewinding c).Alike same (o'.rewinding c) := by
  cases both with
  | ok value scanner => exact .ok value scanner
  | error errors scanner => exact .error errors (congrArg (Scanner.jump · c) scanner)
  | unfinished => exact .unfinished

/-- A mismatch is followed by something else, any other error ends the match. -/
theorem retry (e : MatchError) {σ τ : Session} (scanner : σ.scanner = τ.scanner)
    (onward : o.Alike Eq o') :
    (if e.isMismatch then o else .error e σ).Alike Eq
      (if e.isMismatch then o' else .error e τ) := by
  by_cases mismatch : e.isMismatch
  · rw [if_pos mismatch, if_pos mismatch]
    exact onward
  · rw [if_neg mismatch, if_neg mismatch]
    exact .error rfl scanner

end Outcome.Alike

namespace Matcher

variable {same : MatchError → MatchError → Prop} {m : Matcher} {ms : List Matcher}
  {σ τ : Session} {limit : Nat} {x y : Expr}

theorem consume_alike (unreadable : ∀ e, same (.unreadable e) (.unreadable e))
    (scanner : σ.scanner = τ.scanner) : (consume σ).Alike same (consume τ) := by
  unfold consume Session.advance Session.source Session.current
  rw [scanner]
  cases τ.scanner.source.cursorAfter τ.scanner.current with
  | error e => exact .error (unreadable e) scanner
  | ok next =>
    cases next with
    | none => exact .ok () scanner
    | some c => exact .ok () (congrArg (Scanner.moveTo · c) scanner)

/-- The expression that is tried counts only for the error. -/
theorem pointIf_alike (accepts : Char → Bool) (unmet : ∀ c, same (.unmet x c) (.unmet y c))
    (unreadable : ∀ e, same (.unreadable e) (.unreadable e)) (scanner : σ.scanner = τ.scanner) :
    (pointIf x accepts σ).Alike same (pointIf y accepts τ) := by
  unfold pointIf
  rw [Session.current_congr scanner]
  split
  · exact (consume_alike unreadable scanner).andThen fun _ _ _ left => .ok τ.current left
  · exact .error (unmet τ.current) scanner

theorem points_alike (cs : List Char) (last : Cursor)
    (unmet : ∀ c, same (.unmet x c) (.unmet y c))
    (unreadable : ∀ e, same (.unreadable e) (.unreadable e)) (scanner : σ.scanner = τ.scanner) :
    (points x cs last σ).Alike same (points y cs last τ) := by
  induction cs generalizing last σ τ with
  | nil => exact .ok last scanner
  | cons c cs ih =>
    exact (pointIf_alike (· == c) unmet unreadable scanner).andThen fun boundary _ _ left =>
      ih boundary left

theorem pointIf_ignoresLog (expr : Expr) (accepts : Char → Bool) :
    (pointIf expr accepts).IgnoresLog :=
  fun _ _ scanner => pointIf_alike accepts (fun _ => rfl) (fun _ => rfl) scanner

theorem literal_ignoresLog (text : String) : (literal text).IgnoresLog := by
  intro σ τ scanner
  unfold literal
  split
  · exact .error rfl scanner
  · rw [Session.current_congr scanner]
    exact points_alike _ _ (fun _ => rfl) (fun _ => rfl) scanner

theorem range_ignoresLog (first last : Char) : (range first last).IgnoresLog := by
  intro σ τ scanner
  unfold range
  split
  · exact .error rfl scanner
  · exact pointIf_ignoresLog _ _ scanner

theorem seqFrom_alike (ignore : ∀ m ∈ ms, m.IgnoresLog) (last : Cursor)
    (scanner : σ.scanner = τ.scanner) :
    (seqFrom ms last σ).Alike Eq (seqFrom ms last τ) := by
  induction ms generalizing last σ τ with
  | nil => exact .ok last scanner
  | cons m ms ih =>
    obtain ⟨head, tail⟩ := List.forall_mem_cons.mp ignore
    exact (head scanner).andThen fun boundary _ _ left => ih tail boundary left

theorem seq_ignoresLog (ignore : ∀ m ∈ ms, m.IgnoresLog) : (seq ms).IgnoresLog := by
  intro σ τ scanner
  unfold seq
  rw [Session.current_congr scanner]
  exact seqFrom_alike ignore _ scanner

theorem firstOf_alike (ignore : ∀ m ∈ ms, m.IgnoresLog) (scanner : σ.scanner = τ.scanner) :
    (firstOf ms σ).Alike Eq (firstOf ms τ) := by
  induction ms generalizing σ τ with
  | nil => exact .ok none scanner
  | cons m ms ih =>
    obtain ⟨head, tail⟩ := List.forall_mem_cons.mp ignore
    have both := head scanner
    unfold firstOf
    generalize m σ = o, m τ = o' at both ⊢
    cases both with
    | ok boundary left => exact .ok (some boundary) left
    | @error e e' _ _ errors left =>
      cases errors
      exact .retry e left (ih tail left)
    | unfinished => exact .unfinished

theorem oneOf_ignoresLog (expr : Expr) (ignore : ∀ m ∈ ms, m.IgnoresLog) :
    (oneOf expr ms).IgnoresLog := by
  intro σ τ scanner
  unfold oneOf
  rw [Session.current_congr scanner]
  refine (firstOf_alike ignore scanner).andThen fun found _ _ left => ?_
  cases found with
  | none => exact .error rfl left
  | some boundary => exact .ok boundary left

theorem anyHolds_alike (ignore : ∀ m ∈ ms, m.IgnoresLog) (scanner : σ.scanner = τ.scanner) :
    (anyHolds ms σ).Alike Eq (anyHolds ms τ) := by
  unfold anyHolds
  rw [Session.current_congr scanner]
  refine (firstOf_alike ignore scanner).andThen fun found _ _ left => ?_
  cases found with
  | none => exact .ok false left
  | some _ => exact .ok true (congrArg (Scanner.jump · τ.current) left)

theorem noneOf_ignoresLog (expr : Expr) (ignore : ∀ m ∈ ms, m.IgnoresLog) :
    (noneOf expr ms).IgnoresLog := by
  intro σ τ scanner
  unfold noneOf
  rw [Session.current_congr scanner]
  refine (anyHolds_alike ignore scanner).andThen fun holds _ _ left => ?_
  cases holds with
  | true => exact .error rfl left
  | false => exact .ok τ.current left

theorem ahead_ignoresLog (expr : Expr) (ignore : ∀ m ∈ ms, m.IgnoresLog) :
    (ahead expr ms).IgnoresLog := by
  intro σ τ scanner
  unfold ahead
  rw [Session.current_congr scanner]
  refine (anyHolds_alike ignore scanner).andThen fun holds _ _ left => ?_
  cases holds with
  | true => exact .ok τ.current left
  | false => exact .error rfl left

theorem greedyRun_alike (ignores : m.IgnoresLog) (count : Nat) (last : Cursor)
    (scanner : σ.scanner = τ.scanner) :
    (greedyRun m limit count last σ).Alike Eq (greedyRun m limit count last τ) := by
  induction limit generalizing count last σ τ with
  | zero => exact .unfinished
  | succ limit ih =>
    have both := ignores scanner
    unfold greedyRun
    rw [Session.current_congr scanner]
    generalize m σ = o, m τ = o' at both ⊢
    cases both with
    | ok boundary left =>
      dsimp only
      rw [Session.current_congr left]
      split
      · exact .ok (count + 1, boundary) left
      · exact ih (count + 1) boundary left
    | @error e e' _ _ errors left =>
      cases errors
      exact .retry e left (.ok (count, last) left)
    | unfinished => exact .unfinished

theorem bounded_alike (expr : Expr) (ignores : m.IgnoresLog) (low : Nat) (high : Option Nat)
    (scanner : σ.scanner = τ.scanner) :
    (bounded limit expr m low high σ).Alike Eq (bounded limit expr m low high τ) := by
  unfold bounded
  rw [Session.current_congr scanner]
  refine Outcome.Alike.rewinding ?_ τ.current
  refine (greedyRun_alike ignores 0 τ.current scanner).andThen fun run _ _ left => ?_
  split
  · exact .ok run left
  · exact .error (congrArg _ (Session.current_congr left)) left

theorem repeated_ignoresLog (expr : Expr) (ignores : m.IgnoresLog) (low : Nat)
    (high : Option Nat) : (repeated limit expr m low high).IgnoresLog :=
  fun _ _ scanner => (bounded_alike expr ignores low high scanner).andThen fun run _ _ left =>
    .ok run.2 left

theorem between_ignoresLog (expr : Expr) (ignores : m.IgnoresLog) (low high : Nat) :
    (between limit expr m low high).IgnoresLog := by
  intro σ τ scanner
  unfold between
  split
  · exact .error rfl scanner
  · exact repeated_ignoresLog expr ignores _ _ scanner

theorem optionalFrom_alike (expr : Expr) (ignore : ∀ m ∈ ms, m.IgnoresLog) (last : Cursor)
    (scanner : σ.scanner = τ.scanner) :
    (optionalFrom limit expr ms last σ).Alike Eq (optionalFrom limit expr ms last τ) := by
  induction ms generalizing last σ τ with
  | nil => exact .ok last scanner
  | cons m ms ih =>
    obtain ⟨head, tail⟩ := List.forall_mem_cons.mp ignore
    have both := @bounded_alike m σ τ limit expr head 0 (some 1) scanner
    unfold optionalFrom
    generalize bounded limit expr m 0 (some 1) σ = o,
      bounded limit expr m 0 (some 1) τ = o' at both ⊢
    cases both with
    | ok run left =>
      obtain ⟨count, boundary⟩ := run
      cases count with
      | zero => exact ih tail last left
      | succ count => exact ih tail boundary left
    | @error e e' _ _ errors left =>
      cases errors
      exact .retry e left (ih tail last left)
    | unfinished => exact .unfinished

theorem optional_ignoresLog (expr : Expr) (ignore : ∀ m ∈ ms, m.IgnoresLog) :
    (optional limit expr ms).IgnoresLog := by
  intro σ τ scanner
  unfold optional
  rw [Session.current_congr scanner]
  exact optionalFrom_alike expr ignore _ scanner

theorem untilFrom_alike (expr : Expr) (ignore : ∀ m ∈ ms, m.IgnoresLog) (inclusive : Bool)
    (last : Cursor) (scanner : σ.scanner = τ.scanner) :
    (untilFrom expr ms inclusive limit last σ).Alike Eq
      (untilFrom expr ms inclusive limit last τ) := by
  induction limit generalizing last σ τ with
  | zero => exact .unfinished
  | succ limit ih =>
    have both := firstOf_alike ignore scanner
    unfold untilFrom
    rw [Session.current_congr scanner]
    generalize firstOf ms σ = o, firstOf ms τ = o' at both ⊢
    cases both with
    | ok found left =>
      cases found with
      | some boundary =>
        cases inclusive with
        | true => exact .ok boundary left
        | false => exact .ok last (congrArg (Scanner.jump · τ.current) left)
      | none =>
        dsimp only
        split
        · exact .error rfl left
        · exact (consume_alike (fun _ => rfl) left).andThen fun _ _ _ stepped => ih τ.current stepped
    | @error e e' _ _ errors left =>
      cases errors
      exact .error rfl left
    | unfinished => exact .unfinished

theorem untilAny_ignoresLog (expr : Expr) (ignore : ∀ m ∈ ms, m.IgnoresLog) (inclusive : Bool) :
    (untilAny limit expr ms inclusive).IgnoresLog := by
  intro σ τ scanner
  unfold untilAny
  rw [Session.current_congr scanner]
  exact untilFrom_alike expr ignore inclusive _ scanner

theorem walkTo_congr (target : Nat) (scanner : σ.scanner = τ.scanner) :
    (walkTo target σ).1 = (walkTo target τ).1 := by
  have current := Session.current_congr scanner
  have after : σ.source.cursorAfter σ.current = τ.source.cursorAfter τ.current :=
    congrArg (fun t : Scanner => t.source.cursorAfter t.current) scanner
  fun_induction walkTo target σ generalizing τ with
  | case1 σ short c stepped ended =>
    rw [current] at short
    rw [walkTo.eq_def target τ, if_pos short]
    split
    · next d steppedToo =>
      cases stepped.symm.trans (after.trans steppedToo)
      rw [if_pos ended]
    · next stuck => exact absurd (after.symm.trans stepped) (stuck c)
  | case2 σ short c stepped onward ih =>
    rw [current] at short
    rw [walkTo.eq_def target τ, if_pos short]
    split
    · next d steppedToo =>
      cases stepped.symm.trans (after.trans steppedToo)
      rw [if_neg onward]
      have moved : (σ.moveTo c).scanner = (τ.moveTo c).scanner :=
        congrArg (Scanner.moveTo · c) scanner
      exact ih moved rfl (congrArg (fun t : Scanner => t.source.cursorAfter t.current) moved)
    · next stuck => exact absurd (after.symm.trans stepped) (stuck c)
  | case3 σ short stuck =>
    rw [current] at short
    rw [walkTo.eq_def target τ, if_pos short]
    split
    · next d stepped => exact absurd (after.trans stepped) (stuck d)
    · rfl
  | case4 σ arrived =>
    rw [current] at arrived
    rw [walkTo.eq_def target τ, if_neg arrived, current]

theorem hookBoundary_congr (start : Cursor) (scanner : σ.scanner = τ.scanner) :
    (hookBoundary start σ).1 = (hookBoundary start τ).1 := by
  have walked := walkTo_congr τ.current.offset
    (show (σ.jump start).scanner = (τ.jump start).scanner from
      congrArg (Scanner.jump · start) scanner)
  unfold hookBoundary
  rw [Session.current_congr scanner, scanner]
  split
  · rfl
  · split
    · rfl
    · dsimp only
      rw [walked]

theorem callHook_ignoresLog (h : Hook) : (callHook h).IgnoresLog := by
  intro σ τ scanner
  unfold callHook
  rw [Session.current_congr scanner, scanner]
  cases h.run τ.scanner with
  | none => exact .unfinished
  | some visit =>
    dsimp only
    split
    · have same := @hookBoundary_congr ⟨visit.scanner, visit.events.reverse ++ σ.log⟩
        ⟨visit.scanner, visit.events.reverse ++ τ.log⟩ τ.current rfl
      rw [same]
      refine .ok _ ?_
      rw [scanner_hookBoundary, scanner_hookBoundary]
    · exact .error rfl rfl

theorem attempt_ignoresLog (kind : Kind) (ignores : m.IgnoresLog) :
    (attempt kind m).IgnoresLog := by
  intro σ τ scanner
  have both := ignores scanner
  unfold attempt
  rw [Session.current_congr scanner]
  generalize m σ = o, m τ = o' at both ⊢
  cases both with
  | ok boundary left => exact .ok boundary left
  | @error e e' _ _ errors left =>
    cases errors
    exact .error rfl (congrArg (Scanner.jump · τ.current) left)
  | unfinished => exact .unfinished

end Matcher

/-- Any expression, whatever its hooks. -/
theorem Expr.matcher_ignoresLog (limit : Nat) (e : Expr) : (e.matcher limit).IgnoresLog := by
  have members {es : List Expr} (ih : ∀ e ∈ es, (e.matcher limit).IgnoresLog) :
      ∀ m ∈ Expr.matchers limit es, m.IgnoresLog := by
    rw [Expr.matchers_eq_map]
    exact List.forall_mem_map.mpr ih
  induction e using Expr.induction with
  | literal text => exact Matcher.attempt_ignoresLog _ (Matcher.literal_ignoresLog text)
  | point c => exact Matcher.attempt_ignoresLog _ (Matcher.pointIf_ignoresLog _ _)
  | any => exact Matcher.attempt_ignoresLog _ (Matcher.pointIf_ignoresLog _ _)
  | noneOf es ih => exact Matcher.attempt_ignoresLog _ (Matcher.noneOf_ignoresLog _ (members ih))
  | ahead es ih => exact Matcher.attempt_ignoresLog _ (Matcher.ahead_ignoresLog _ (members ih))
  | oneOf es ih => exact Matcher.attempt_ignoresLog _ (Matcher.oneOf_ignoresLog _ (members ih))
  | seq es ih => exact Matcher.attempt_ignoresLog _ (Matcher.seq_ignoresLog (members ih))
  | optional es ih =>
    exact Matcher.attempt_ignoresLog _ (Matcher.optional_ignoresLog _ (members ih))
  | between low high e ih =>
    exact Matcher.attempt_ignoresLog _ (Matcher.between_ignoresLog _ ih low high)
  | atLeast low e ih =>
    exact Matcher.attempt_ignoresLog _ (Matcher.repeated_ignoresLog _ ih _ _)
  | exactly times e ih =>
    exact Matcher.attempt_ignoresLog _ (Matcher.repeated_ignoresLog _ ih _ _)
  | range first last => exact Matcher.attempt_ignoresLog _ (Matcher.range_ignoresLog first last)
  | untilAny es inclusive ih =>
    exact Matcher.attempt_ignoresLog _ (Matcher.untilAny_ignoresLog _ (members ih) inclusive)
  | hook h => exact Matcher.attempt_ignoresLog _ (Matcher.callHook_ignoresLog h)

theorem Expr.matchers_ignoreLog (limit : Nat) (es : List Expr) :
    ∀ m ∈ Expr.matchers limit es, m.IgnoresLog := by
  rw [Expr.matchers_eq_map]
  exact List.forall_mem_map.mpr fun e _ => e.matcher_ignoresLog limit

end TextMatch
