import TextMatch.Proofs.Matcher.Course

/-!
# Accounts of tries

A matcher adds to the account of the try that it works for. Each has one lemma here, which gives
what it adds, and says that it adds nothing more once it has met with an error other than a
mismatch. Together they show that every try takes the course of its expression
(`Expr.matcher_takes`), and that every match that comes to an end has a genuine account
(`Session.genuine_of_expectWithin`), whatever its hooks do.
-/
namespace TextMatch

open Happening
open MatchError (fatalIn)

variable {terms : Account.Terms} {whole : Expr} {σ τ : Session}

namespace Matcher

variable {m : Matcher} {e : Expr} {es : List Expr} {last : Cursor}

theorem recounted_read (held : terms.inv.holds σ.scanner) (reads : whole.reads = true) {c : Cursor}
    (next : σ.source.cursorAfter σ.current = .ok (some c)) :
    σ.Recounted terms whole (· = [.read c]) none (σ.moveTo c) :=
  .single (Account.began.read reads next) (terms.inv.moveTo held next) fun _ occurs =>
    genuine_of_occurs_single occurs nofun (.read held next)

theorem recounted_unreadable (held : terms.inv.holds σ.scanner) (reads : whole.reads = true)
    {e : ScanError} (next : σ.source.cursorAfter σ.current = .error e) :
    σ.Recounted terms whole (· = [.broke (.unreadable e)]) (some (.unreadable e)) σ :=
  .single (Account.began.unreadable reads next) held fun _ occurs =>
    genuine_of_occurs_single occurs nofun .broke

theorem recounted_defective (held : terms.inv.holds σ.scanner) {defect : Defect}
    (wrong : whole.defect? = some defect) :
    σ.Recounted terms whole (· = [.broke (.defective whole.kind defect)])
      (some (.defective whole.kind defect)) σ :=
  .single (Account.began.defective wrong) held fun _ occurs =>
    genuine_of_occurs_single occurs nofun .broke

theorem consume_recounted (held : terms.inv.holds σ.scanner) (reads : whole.reads = true) :
    (consume σ).Recounted terms whole σ fun _ => AllOwn := by
  unfold consume Session.advance
  cases found : σ.source.cursorAfter σ.current with
  | error e =>
    exact (recounted_unreadable held reads found).own rfl
  | ok next =>
    cases next with
    | none => exact .here held allOwn_nil
    | some c =>
      exact (recounted_read held reads found).own rfl

theorem pointIf_takes (reads : whole.reads = true) (expr : Expr) (accepts : Char → Bool) :
    (pointIf expr accepts).Takes terms whole fun _ _ => AllOwn := by
  intro σ held
  unfold pointIf
  split
  · exact (consume_recounted held reads).andThen (fun _ _ own => own) fun _ _ told => told
  · exact Session.Recounted.here held allOwn_nil

theorem points_recounted (reads : whole.reads = true) (expr : Expr) (cs : List Char)
    (held : terms.inv.holds σ.scanner) :
    (points expr cs last σ).Recounted terms whole σ fun _ => AllOwn := by
  induction cs generalizing last σ with
  | nil => exact Session.Recounted.here held allOwn_nil
  | cons c cs ih =>
    refine (pointIf_takes reads expr (· == c) σ held).andThen (fun _ _ own => own) ?_
    exact fun _ _ told => told.followed (ih told.held) fun _ _ _ first later => first.append later

theorem literal_takes (text : String) :
    (literal text).Takes terms (.literal text) fun _ _ => AllOwn := by
  intro σ held
  unfold literal
  by_cases empty : text = ""
  · rw [if_pos empty]
    exact (recounted_defective held (by rw [Expr.defect?, if_pos empty])).own rfl
  · rw [if_neg empty]
    exact points_recounted rfl _ _ held

theorem range_takes (first last : Char) :
    (range first last).Takes terms (.range first last) fun _ _ => AllOwn := by
  intro σ held
  unfold range
  by_cases reversed : last < first
  · rw [if_pos reversed]
    exact (recounted_defective held (by rw [Expr.defect?, if_pos reversed])).own rfl
  · rw [if_neg reversed]
    exact pointIf_takes rfl _ _ σ held

/-! The members are matched by their own matchers, with one try for each call. -/

section Members

variable (tries : ∀ e ∈ es, (e.matcher terms.limit).Takes terms whole (Once e))

include tries

theorem seqFrom_recounted (held : terms.inv.holds σ.scanner) :
    (seqFrom (Expr.matchers terms.limit es) last σ).Recounted terms whole σ fun result hs =>
      InSequence es last hs result := by
  induction es generalizing last σ with
  | nil => exact Session.Recounted.here held .nil
  | cons e es ih =>
    obtain ⟨head, tail⟩ := List.forall_mem_cons.mp tries
    refine (head σ held).andThen ?_ fun boundary τ told => ?_
    · rintro error _ ⟨within, rfl⟩
      exact .failed
    · refine told.followed (ih tail told.held) ?_
      rintro result _ ks ⟨within, rfl⟩ later
      exact .succeeded later

theorem seq_takes :
    (seq (Expr.matchers terms.limit es)).Takes terms whole fun start result hs =>
      InSequence es start hs result :=
  fun _ held => seqFrom_recounted tries held

theorem firstOf_recounted (held : terms.inv.holds σ.scanner) :
    (firstOf (Expr.matchers terms.limit es) σ).Recounted terms whole σ fun found hs =>
      InTurn σ.current es hs found := by
  induction es generalizing σ with
  | nil => exact Session.Recounted.here held .nil
  | cons e es ih =>
    obtain ⟨head, tail⟩ := List.forall_mem_cons.mp tries
    have came := head σ held
    have back := e.matcher_restores terms.limit σ
    unfold Expr.matchers firstOf
    generalize e.matcher terms.limit σ = o at came back ⊢
    cases o with
    | ok boundary τ =>
      refine Session.Recounted.mono came ?_
      rintro _ ⟨within, rfl⟩
      exact .found
    | error error τ =>
      refine Session.Recounted.retry came ?_ fun mismatch told => ?_
      · rintro fatal _ ⟨within, rfl⟩
        exact .fatal fatal
      · refine told.followed (ih tail told.held) ?_
        rintro found _ ks ⟨within, rfl⟩ later
        rw [back.1] at later
        exact .next mismatch later
    | unfinished => trivial

/-- What a choice does, up to an error that ends the match. -/
theorem oneOf_takes (expr : Expr) :
    (oneOf expr (Expr.matchers terms.limit es)).Takes terms whole fun start result hs =>
      ∃ found, InTurn start es hs found ∧ fatalIn found = fatalIn result := by
  intro σ held
  refine (firstOf_recounted tries held).andThen (fun e hs turn => ⟨_, turn, rfl⟩) ?_
  intro found τ told
  cases found with
  | some boundary => exact told.mono fun hs turn => ⟨_, turn, rfl⟩
  | none => exact told.mono fun hs turn => ⟨_, turn, rfl⟩

theorem anyHolds_recounted (held : terms.inv.holds σ.scanner) :
    (anyHolds (Expr.matchers terms.limit es) σ).Recounted terms whole σ fun result hs =>
      ∃ found, InTurn σ.current es hs found ∧ fatalIn found = fatalIn result := by
  refine (firstOf_recounted tries held).andThen (fun e hs turn => ⟨_, turn, rfl⟩) ?_
  intro found τ told
  cases found with
  | some boundary =>
    exact (told.jump (terms.inv.current held)).mono fun hs turn => ⟨_, turn, rfl⟩
  | none => exact told.mono fun hs turn => ⟨_, turn, rfl⟩

theorem noneOf_takes (expr : Expr) :
    (noneOf expr (Expr.matchers terms.limit es)).Takes terms whole fun start result hs =>
      ∃ found, InTurn start es hs found ∧ fatalIn found = fatalIn result := by
  intro σ held
  refine (anyHolds_recounted tries held).andThen (fun e hs turn => turn) ?_
  intro holds τ told
  cases holds with
  | true => exact told
  | false => exact told

theorem ahead_takes (expr : Expr) :
    (ahead expr (Expr.matchers terms.limit es)).Takes terms whole fun start result hs =>
      ∃ found, InTurn start es hs found ∧ fatalIn found = fatalIn result := by
  intro σ held
  refine (anyHolds_recounted tries held).andThen (fun e hs turn => turn) ?_
  intro holds τ told
  cases holds with
  | true => exact told
  | false => exact told

end Members

section Loops

theorem greedyRun_recounted (once : m.Takes terms whole (Once e)) {rounds count : Nat}
    (held : terms.inv.holds σ.scanner) :
    (greedyRun m rounds count last σ).Recounted terms whole σ fun result hs =>
      InRow e hs (fatalIn result) := by
  induction rounds generalizing count last σ with
  | zero => trivial
  | succ rounds ih =>
    have came := once σ held
    unfold greedyRun
    generalize m σ = o at came ⊢
    cases o with
    | ok boundary τ =>
      have told : σ.Recounted terms whole (Once e σ.current (.ok boundary)) none τ := came
      by_cases still : τ.current = σ.current
      · simp only [if_pos still]
        refine told.mono ?_
        rintro _ ⟨within, rfl⟩
        exact .last
      · simp only [if_neg still]
        refine told.followed (ih told.held) ?_
        rintro result _ ks ⟨within, rfl⟩ later
        exact .again later
    | error error τ =>
      refine Session.Recounted.retry came ?_ fun mismatch told => ?_
      · rintro fatal _ ⟨within, rfl⟩
        exact .last
      · refine told.mono ?_
        rintro _ ⟨within, rfl⟩
        have alone := @InRow.last e σ.current (.error error) within
        rw [MatchError.fatalIn_of_mismatch mismatch] at alone
        exact alone
    | unfinished => trivial

theorem bounded_recounted (expr : Expr) (once : m.Takes terms whole (Once e)) (rounds low : Nat)
    (high : Option Nat) (held : terms.inv.holds σ.scanner) :
    (bounded rounds expr m low high σ).Recounted terms whole σ fun result hs =>
      InRow e hs (fatalIn result) := by
  refine Outcome.Recounted.rewinding ?_ (terms.inv.current held)
  refine (greedyRun_recounted once held).andThen (fun e hs row => row) fun run τ told => ?_
  split
  · exact told
  · exact told

theorem repeated_takes (expr : Expr) (once : m.Takes terms whole (Once e)) (rounds low : Nat)
    (high : Option Nat) :
    (repeated rounds expr m low high).Takes terms whole fun _ result hs =>
      InRow e hs (fatalIn result) :=
  fun _ held => (bounded_recounted expr once rounds low high held).andThen (fun _ _ row => row)
    fun _ _ told => told

theorem between_takes {low high : Nat}
    (once : m.Takes terms (.between low high e) (Once e)) (rounds : Nat) :
    (between rounds (.between low high e) m low high).Takes terms (.between low high e)
      fun _ result hs => (∃ error, hs = [.broke error]) ∨ InRow e hs (fatalIn result) := by
  intro σ held
  unfold between
  by_cases crossed : high ≠ 0 ∧ high < low
  · rw [if_pos crossed]
    exact (recounted_defective held (by rw [Expr.defect?, if_pos crossed])).mono
      fun _ alone => .inl ⟨_, alone⟩
  · rw [if_neg crossed]
    exact (repeated_takes _ once rounds _ _ σ held).mono fun _ _ row => .inr row

variable (tries : ∀ e ∈ es, (e.matcher terms.limit).Takes terms whole (Once e))

include tries

theorem optionalFrom_recounted (expr : Expr) (rounds : Nat) (held : terms.inv.holds σ.scanner) :
    (optionalFrom rounds expr (Expr.matchers terms.limit es) last σ).Recounted terms whole σ
      fun result hs => InRows es hs (fatalIn result) := by
  induction es generalizing last σ with
  | nil => exact Session.Recounted.here held .nil
  | cons e es ih =>
    obtain ⟨head, tail⟩ := List.forall_mem_cons.mp tries
    have came := bounded_recounted expr head rounds 0 (some 1) held
    -- what comes after a row that is over
    have onward {τ : Session} (told : σ.Recounted terms whole (InRow e · none) none τ)
        {last : Cursor} :
        (optionalFrom rounds expr (Expr.matchers terms.limit es) last τ).Recounted terms whole σ
          fun result hs => InRows (e :: es) hs (fatalIn result) :=
      told.followed (ih tail told.held) fun _ _ _ row later => .next row later
    unfold Expr.matchers optionalFrom
    generalize bounded rounds expr (e.matcher terms.limit) 0 (some 1) σ = o at came ⊢
    cases o with
    | ok run τ =>
      obtain ⟨count, boundary⟩ := run
      cases count with
      | zero => exact onward came
      | succ count => exact onward came
    | error error τ =>
      have told : σ.Recounted terms whole (InRow e · error.fatal?) error.fatal? τ := came
      refine told.retry (fun fatal hs row => ?_) fun mismatch told => onward ?_
      · change InRows (e :: es) hs error.fatal?
        rw [MatchError.fatal?_eq_some_iff.mpr ⟨fatal, rfl⟩] at row ⊢
        exact .broken row
      · rw [MatchError.fatal?_eq_none_iff.mpr mismatch] at told
        exact told
    | unfinished => trivial

theorem optional_takes (expr : Expr) (rounds : Nat) :
    (optional rounds expr (Expr.matchers terms.limit es)).Takes terms whole fun _ result hs =>
      InRows es hs (fatalIn result) :=
  fun _ held => optionalFrom_recounted tries expr rounds held

theorem untilFrom_recounted (reads : whole.reads = true) (expr : Expr) (inclusive : Bool)
    (rounds : Nat) (held : terms.inv.holds σ.scanner) :
    (untilFrom expr (Expr.matchers terms.limit es) inclusive rounds last σ).Recounted terms whole σ
      fun result hs => InSearch es σ.current hs (fatalIn result) := by
  induction rounds generalizing last σ with
  | zero => trivial
  | succ rounds ih =>
    have came := firstOf_recounted tries held
    have back := @firstOf_ends _ σ (Expr.matchers_restore terms.limit es)
    unfold untilFrom
    generalize firstOf (Expr.matchers terms.limit es) σ = o at came back ⊢
    cases o with
    | ok found τ =>
      have told : σ.Recounted terms whole (InTurn σ.current es · (.ok found)) none τ := came
      cases found with
      | some boundary =>
        have closed := told.mono fun hs round => InSearch.last round
        cases inclusive with
        | true => exact closed
        | false => exact closed.jump (terms.inv.current held)
      | none =>
        have here : τ.current = σ.current := back rfl
        by_cases ended : σ.current.isEnd
        · simp only [if_pos ended]
          exact told.mono fun hs round => InSearch.last round
        · simp only [if_neg ended]
          unfold consume Session.advance
          cases stepped : τ.source.cursorAfter τ.current with
          | error e =>
            refine told.trans (recounted_unreadable told.held reads stepped) ?_
            rintro hs _ round rfl
            exact .broken round
          | ok next =>
            cases next with
            | none => exact absurd (here ▸ Source.isEnd_of_cursorAfter stepped) ended
            | some c =>
              have read := recounted_read told.held reads stepped
              have onward : (untilFrom expr (Expr.matchers terms.limit es) inclusive rounds
                  σ.current (τ.moveTo c)).Recounted terms whole τ fun result hs =>
                    ∃ ks, hs = .read c :: ks ∧ InSearch es c ks (fatalIn result) := by
                refine read.followed (ih read.held) ?_
                rintro result _ ks rfl later
                exact ⟨ks, rfl, later⟩
              refine told.followed onward ?_
              rintro result hs _ round ⟨ks, rfl, later⟩
              exact .again round later
    | error error τ =>
      exact Session.Recounted.mono came fun hs round => InSearch.last round
    | unfinished => trivial

theorem untilAny_takes (reads : whole.reads = true) (expr : Expr) (inclusive : Bool)
    (rounds : Nat) :
    (untilAny rounds expr (Expr.matchers terms.limit es) inclusive).Takes terms whole
      fun start result hs => InSearch es start hs (fatalIn result) :=
  fun _ held => untilFrom_recounted tries reads expr inclusive rounds held

end Loops

theorem walkTo_recounted (reads : whole.reads = true) (target : Nat)
    (held : terms.inv.holds σ.scanner) :
    σ.Recounted terms whole AllOwn none (walkTo target σ).2 := by
  -- one step, and all that comes behind it
  have step {σ τ : Session} {c : Cursor} (held : terms.inv.holds σ.scanner)
      (stepped : σ.source.cursorAfter σ.current = .ok (some c))
      (later : (σ.moveTo c).Recounted terms whole AllOwn none τ) :
      σ.Recounted terms whole AllOwn none τ := by
    exact ((recounted_read held reads stepped).own rfl).trans later fun _ _ first later =>
      first.append later
  fun_induction walkTo target σ with
  | case1 σ _ c stepped ended =>
    exact step held stepped (.here (terms.inv.moveTo held stepped) allOwn_nil)
  | case2 σ _ c stepped _ ih => exact step held stepped (ih (terms.inv.moveTo held stepped))
  | case3 σ _ _ => exact .here held allOwn_nil
  | case4 σ _ => exact .here held allOwn_nil

/-- A walk leaves the source and the bookmark slot, so that a jump undoes it. -/
theorem jump_walkTo (target : Nat) (τ : Session) (c : Cursor) :
    (walkTo target τ).2.scanner.jump c = τ.scanner.jump c := by
  fun_induction walkTo target τ with
  | case1 | case3 | case4 => rfl
  | case2 τ _ d stepped _ ih => exact ih

theorem hookBoundary_recounted (reads : whole.reads = true) {start : Cursor}
    (visited : terms.inv.visits start) (held : terms.inv.holds σ.scanner) :
    σ.Recounted terms whole AllOwn none (hookBoundary start σ).2 := by
  unfold hookBoundary
  split
  · exact .here held allOwn_nil
  · split
    · exact .here held allOwn_nil
    · next fresh =>
      have began : σ.Recounted terms whole AllOwn none σ := .here held allOwn_nil
      have jumped := began.jump visited
      have walked : σ.Recounted terms whole AllOwn none
          (walkTo σ.current.offset (σ.jump start)).2 :=
        jumped.trans (walkTo_recounted reads _ jumped.held) fun _ _ first later =>
          first.append later
      have unmoved : σ.scanner.jump σ.current = σ.scanner := by
        rw [Scanner.jump, ← fresh]
        rfl
      have undone := (jump_walkTo σ.current.offset (σ.jump start) σ.current).trans unmoved
      have back : σ.Recounted terms whole AllOwn none
          ((walkTo σ.current.offset (σ.jump start)).2.jump σ.current) :=
        walked.jump (terms.inv.current held)
      rw [Session.jump, undone] at back
      exact back

theorem callHook_takes {h : Hook} (keeps : h.KeepsTo terms) :
    (callHook h).Takes terms (.hook h) fun _ _ hs =>
      ∃ events later, hs = .called events :: later ∧ AllOwn later := by
  intro σ held
  unfold callHook
  cases run : h.run σ.scanner with
  | none => trivial
  | some visit =>
    obtain ⟨kept, reported⟩ := keeps σ.scanner visit held run
    have returned : σ.Recounted terms (.hook h) (· = [.called visit.events]) none
        ⟨visit.scanner, visit.events.reverse ++ σ.log⟩ :=
      .single (Account.began.called run) kept fun _ occurs =>
        genuine_of_occurs_single occurs nofun (.called held run reported)
    cases accepted : visit.accepted with
    | true =>
      simp only [accepted, if_true]
      refine returned.trans (hookBoundary_recounted rfl (terms.inv.current held) returned.held) ?_
      rintro _ later rfl own
      exact ⟨_, later, rfl, own⟩
    | false =>
      simp only [accepted, Bool.false_eq_true, if_false]
      refine returned.mono ?_
      rintro _ rfl
      exact ⟨_, [], rfl, allOwn_nil⟩

/-- A try is one thing that happens, whatever it is a part of. -/
theorem attempt_takes (keep : ∀ h ∈ e.hooks, h.KeepsTo terms)
    (same : e.matcher terms.limit = attempt e.kind m)
    (takes : m.Takes terms e fun start result hs => e.Course start result hs)
    (member : e ∈ whole.members) : (e.matcher terms.limit).Takes terms whole (Once e) := by
  intro σ held
  have came := takes σ held
  have ended : e.matcher terms.limit σ = attempt e.kind m σ := by rw [same]
  have kept := e.matcher_keeps terms.limit (fun h hooked => (keep h hooked).keeps) σ held
  -- the try as a whole, once its end is known
  have told {result : Except MatchError Cursor} {τ υ : Session} {within : List Happening}
      (inside : Account.Genuine terms e σ within (fatalIn result) υ)
      (course : e.Course σ.current result within)
      (account : Account terms.limit whole σ [.tried e σ.current result within]
        (fatalIn result) τ)
      (came : (e.matcher terms.limit σ).ComesTo result τ) (left : terms.inv.holds τ.scanner) :
      σ.Recounted terms whole (Once e σ.current result) (fatalIn result) τ := by
    refine ⟨_, ⟨account, left, fun k occurs => ?_⟩, within, rfl⟩
    have logged : τ.events = σ.events ++ (tried e σ.current result within).events := by
      rw [account.events_eq, eventsIn, eventsIn, List.append_nil]
    cases occurs with
    | here listed =>
      cases List.mem_singleton.mp listed
      exact .tried held came logged (concludes_outcome _ _ _) (fun _ => kept.visits came) course
    | within listed deeper =>
      cases List.mem_singleton.mp listed
      exact inside.genuine k deeper
  rw [ended]
  unfold attempt at ended ⊢
  generalize m σ = o at came ended ⊢
  cases o with
  | ok boundary υ =>
    obtain ⟨within, inside, course⟩ := came
    exact told inside course (Account.began.matched member inside.account ended)
      (.of_ok ended) inside.held
  | error error υ =>
    obtain ⟨within, inside, course⟩ := came
    exact told inside course (Account.began.failed member inside.account ended)
      (.of_error ended) (terms.inv.jump inside.held (terms.inv.current held))
  | unfinished => trivial

end Matcher

/-- What holds of the try of a member holds of those of a list. -/
theorem Expr.members_take {es : List Expr} (keep : ∀ h ∈ Expr.hooksIn es, h.KeepsTo terms)
    (each : ∀ e ∈ es, (∀ h ∈ e.hooks, h.KeepsTo terms) → ∀ whole : Expr, e ∈ whole.members →
      (e.matcher terms.limit).Takes terms whole (Once e)) (members : whole.members = es) :
    ∀ e ∈ es, (e.matcher terms.limit).Takes terms whole (Once e) := fun e inside =>
  each e inside (fun h hooked => keep h (Expr.hooks_subset_hooksIn inside hooked)) whole
    (members ▸ inside)

theorem Expr.matcher_takes (e : Expr) (keep : ∀ h ∈ e.hooks, h.KeepsTo terms) :
    ∀ whole : Expr, e ∈ whole.members →
      (e.matcher terms.limit).Takes terms whole (Once e) := by
  intro whole
  induction e using Expr.induction generalizing whole with
  | literal text => exact Matcher.attempt_takes keep rfl (Matcher.literal_takes text)
  | point c => exact Matcher.attempt_takes keep rfl (Matcher.pointIf_takes rfl _ _)
  | any => exact Matcher.attempt_takes keep rfl (Matcher.pointIf_takes rfl _ _)
  | noneOf es ih =>
    exact Matcher.attempt_takes keep rfl (Matcher.noneOf_takes (members_take keep ih rfl) _)
  | ahead es ih =>
    exact Matcher.attempt_takes keep rfl (Matcher.ahead_takes (members_take keep ih rfl) _)
  | oneOf es ih =>
    exact Matcher.attempt_takes keep rfl (Matcher.oneOf_takes (members_take keep ih rfl) _)
  | seq es ih => exact Matcher.attempt_takes keep rfl (Matcher.seq_takes (members_take keep ih rfl))
  | optional es ih =>
    exact Matcher.attempt_takes keep rfl (Matcher.optional_takes (members_take keep ih rfl) _ _)
  | between low high e ih =>
    have once := ih keep (.between low high e) (List.mem_singleton_self e)
    exact Matcher.attempt_takes keep rfl (Matcher.between_takes once _)
  | atLeast low e ih =>
    have once := ih keep (.atLeast low e) (List.mem_singleton_self e)
    exact Matcher.attempt_takes keep rfl (Matcher.repeated_takes _ once _ _ _)
  | exactly times e ih =>
    have once := ih keep (.exactly times e) (List.mem_singleton_self e)
    exact Matcher.attempt_takes keep rfl (Matcher.repeated_takes _ once _ _ _)
  | range first last => exact Matcher.attempt_takes keep rfl (Matcher.range_takes first last)
  | untilAny es inclusive ih =>
    exact Matcher.attempt_takes keep rfl
      (Matcher.untilAny_takes (members_take keep ih rfl) rfl _ inclusive _)
  | hook h =>
    have keeps := keep h (List.mem_singleton_self h)
    exact Matcher.attempt_takes keep rfl (Matcher.callHook_takes keeps)

/-- A list is tried like the members of a sequence, without an event of the sequence itself. -/
theorem Expr.listMatcher_takes (es : List Expr) (keep : ∀ h ∈ Expr.hooksIn es, h.KeepsTo terms) :
    (Expr.listMatcher terms.limit es).Takes terms (.seq es) fun start result hs =>
      InSequence es start hs result := by
  have tries : ∀ e ∈ es, (e.matcher terms.limit).Takes terms (.seq es) (Once e) :=
    members_take keep (fun e _ keep => e.matcher_takes keep) rfl
  intro σ held
  unfold listMatcher
  split
  · next e =>
    refine (tries e (List.mem_singleton_self e) σ held).mono ?_
    rintro result _ ⟨within, rfl⟩
    cases result with
    | ok boundary => exact .succeeded .nil
    | error error => exact .failed
  · exact (Matcher.seq_takes tries σ held).rewinding (terms.inv.current held)

/-- A match that comes to an end has an account, between the event that enters it and the one that
leaves it. -/
theorem Session.genuine_of_expectWithin {es : List Expr} {result : Except MatchError Cursor}
    (keep : ∀ h ∈ Expr.hooksIn es, h.KeepsTo terms) (held : terms.inv.holds σ.scanner)
    (came : (σ.expectWithin terms.limit es).ComesTo result τ) :
    ∃ hs υ, Account.Genuine terms (.seq es) (σ.emit (.entered es.length)) hs (fatalIn result) υ ∧
      InSequence es σ.current hs result ∧ τ = υ.emit .left := by
  have told := Expr.listMatcher_takes es keep (σ.emit (.entered es.length)) held
  unfold expectWithin at came
  generalize Expr.listMatcher terms.limit es (σ.emit (.entered es.length)) = tried at told came
  cases tried with
  | ok boundary υ =>
    cases came
    obtain ⟨hs, account, course⟩ := told
    exact ⟨hs, υ, account, course, rfl⟩
  | error e υ =>
    cases came
    obtain ⟨hs, account, course⟩ := told
    exact ⟨hs, υ, account, course, rfl⟩
  | unfinished => cases came

/-- The match of a scanner is that of a session that has no events yet. -/
theorem Scanner.comesTo_of_expect {t : Scanner} {es : List Expr} {m : Match}
    (finished : t.expect es = some m) :
    ∃ τ, (Session.expect es ⟨t, []⟩).ComesTo m.result τ ∧ m.scanner = τ.scanner ∧
      m.events = τ.events := by
  unfold expect at finished
  cases came : Session.expect es ⟨t, []⟩ with
  | ok boundary τ =>
    rw [came] at finished
    cases finished
    exact ⟨τ, .ok, rfl, rfl⟩
  | error e τ =>
    rw [came] at finished
    cases finished
    exact ⟨τ, .error, rfl, rfl⟩
  | unfinished =>
    rw [came] at finished
    cases finished

/-- Nothing is asked of a scanner, and nothing of where it jumps. -/
def Scanner.Invariant.unconditional : Scanner.Invariant where
  holds _ := True
  visits _ := True
  current _ := trivial
  previous _ _ := trivial
  jump _ _ := trivial
  moveTo _ _ := trivial

/-- The account of a finished match, whatever its hooks do and report. -/
theorem Scanner.account_of_expect {t : Scanner} {es : List Expr} {m : Match}
    (finished : t.expect es = some m) :
    ∃ hs υ, Account (Session.roundLimit t.source) (.seq es) ⟨t, [.entered es.length]⟩ hs
        m.fatal? υ ∧
      m.scanner = υ.scanner ∧
      m.events = .entered es.length :: (Happening.eventsIn hs ++ [.left]) := by
  obtain ⟨τ, came, scanner, events⟩ := comesTo_of_expect finished
  let terms : Account.Terms := ⟨.unconditional, fun _ => True, Session.roundLimit t.source⟩
  have keep : ∀ h ∈ Expr.hooksIn es, h.KeepsTo terms := fun _ _ _ _ _ _ => ⟨trivial, trivial⟩
  obtain ⟨hs, υ, account, _, rfl⟩ := Session.genuine_of_expectWithin keep trivial came
  rw [Match.fatal?_eq_fatalIn]
  exact ⟨hs, υ, account.account, scanner, events.trans account.account.events_left⟩

end TextMatch
