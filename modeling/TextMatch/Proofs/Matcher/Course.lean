import TextMatch.Proofs.Matcher.Account
import TextMatch.Proofs.Matcher.Restoring

/-!
# The course of a try

What happens within a try, and in which order, depends on the form of the expression
(`Expr.Course`): there are the points that it reads by itself, the one call of a hook, and the tries
of its members, which it makes in the order of the list and no longer than one of them decides. An
account is genuine if every try in it, at any depth, takes the course of its expression and comes
out as this does (`Account.Genuine`).

What holds of the scanners at work, and what the hooks report, is left open (`Account.Terms`).
-/
namespace TextMatch

/-- The error, if it ends the whole match. -/
def MatchError.fatalIn {α : Type} : Except MatchError α → Option MatchError
  | .ok _ => none
  | .error e => e.fatal?

/-- The cursor that a result names, of its boundary or of where it failed. -/
def MatchError.cursorIn? : Except MatchError Cursor → Option Cursor
  | .ok boundary => some boundary
  | .error e => e.cursor?

theorem Match.fatal?_eq_fatalIn (m : Match) : m.fatal? = MatchError.fatalIn m.result := by
  unfold Match.fatal?
  cases m.result <;> rfl

/-- The outcome is this result, and leaves this session. -/
inductive Outcome.ComesTo {α : Type} : Outcome α → Except MatchError α → Session → Prop
  | ok {value : α} {σ : Session} : ComesTo (.ok value σ) (.ok value) σ
  | error {e : MatchError} {σ : Session} : ComesTo (.error e σ) (.error e) σ

theorem Outcome.ComesTo.of_ok {α : Type} {o : Outcome α} {value : α} {σ : Session}
    (came : o = .ok value σ) : o.ComesTo (.ok value) σ := by
  rw [came]
  exact .ok

theorem Outcome.ComesTo.of_error {α : Type} {o : Outcome α} {e : MatchError} {σ : Session}
    (came : o = .error e σ) : o.ComesTo (.error e) σ := by
  rw [came]
  exact .error

theorem Outcome.comesTo_of_session? {α : Type} {o : Outcome α} {σ : Session}
    (left : o.session? = some σ) : ∃ result, o.ComesTo result σ := by
  cases o with
  | ok value τ =>
    cases left
    exact ⟨_, .ok⟩
  | error e τ =>
    cases left
    exact ⟨_, .error⟩
  | unfinished => cases left

open MatchError (fatalIn cursorIn?)

/-- What an invariant says of the cursor that the outcome names. -/
theorem Outcome.Keeps.visits {inv : Scanner.Invariant} {o : Outcome Cursor}
    {result : Except MatchError Cursor} {σ : Session} {c : Cursor} (kept : o.Keeps inv inv.visits)
    (came : o.ComesTo result σ) (named : cursorIn? result = some c) : inv.visits c := by
  cases came with
  | ok =>
    cases named
    exact kept.1
  | error => exact kept.1 c named

namespace Happening

/-- Whether it is neither a try of a member nor the call of a hook. -/
def isOwn : Happening → Bool
  | .read _ | .broke _ => true
  | .called _ | .tried .. => false

/-- All of it is done by the expression itself. -/
def AllOwn (hs : List Happening) : Prop := ∀ h ∈ hs, h.isOwn = true

/-- The members are tried in order, up to the first that fails. The result is that of the last
try, or the boundary so far if nothing is tried. -/
inductive InSequence : List Expr → Cursor → List Happening → Except MatchError Cursor → Prop
  | nil {last : Cursor} : InSequence [] last [] (.ok last)
  | failed {e : Expr} {es : List Expr} {last start : Cursor} {error : MatchError}
      {within : List Happening} :
      InSequence (e :: es) last [.tried e start (.error error) within] (.error error)
  | succeeded {e : Expr} {es : List Expr} {last start boundary : Cursor}
      {within hs : List Happening} {result : Except MatchError Cursor}
      (later : InSequence es boundary hs result) :
      InSequence (e :: es) last (.tried e start (.ok boundary) within :: hs) result

/-- The members are tried in order, all at one place, up to the first that is no mismatch. -/
inductive InTurn (place : Cursor) :
    List Expr → List Happening → Except MatchError (Option Cursor) → Prop
  | nil : InTurn place [] [] (.ok none)
  | found {e : Expr} {es : List Expr} {boundary : Cursor} {within : List Happening} :
      InTurn place (e :: es) [.tried e place (.ok boundary) within] (.ok (some boundary))
  | fatal {e : Expr} {es : List Expr} {error : MatchError} {within : List Happening}
      (fatal : error.isMismatch = false) :
      InTurn place (e :: es) [.tried e place (.error error) within] (.error error)
  | next {e : Expr} {es : List Expr} {error : MatchError} {within hs : List Happening}
      {found : Except MatchError (Option Cursor)} (mismatch : error.isMismatch = true)
      (later : InTurn place es hs found) :
      InTurn place (e :: es) (.tried e place (.error error) within :: hs) found

/-- One expression is tried again and again, all but the last time with success. -/
inductive InRow (e : Expr) : List Happening → Option MatchError → Prop
  | last {start : Cursor} {result : Except MatchError Cursor} {within : List Happening} :
      InRow e [.tried e start result within] (fatalIn result)
  | again {start boundary : Cursor} {within hs : List Happening} {error : Option MatchError}
      (later : InRow e hs error) : InRow e (.tried e start (.ok boundary) within :: hs) error

/-- The members are tried in rows, one after the other. -/
inductive InRows : List Expr → List Happening → Option MatchError → Prop
  | nil : InRows [] [] none
  | broken {e : Expr} {es : List Expr} {hs : List Happening} {error : MatchError}
      (row : InRow e hs (some error)) : InRows (e :: es) hs (some error)
  | next {e : Expr} {es : List Expr} {hs ks : List Happening} {error : Option MatchError}
      (row : InRow e hs none) (later : InRows es ks error) : InRows (e :: es) (hs ++ ks) error

/-- The members are tried in turn at one place after the other, and none is found but at the
last. -/
inductive InSearch (es : List Expr) : Cursor → List Happening → Option MatchError → Prop
  | last {place : Cursor} {hs : List Happening} {found : Except MatchError (Option Cursor)}
      (round : InTurn place es hs found) : InSearch es place hs (fatalIn found)
  | broken {place : Cursor} {hs : List Happening} {error : MatchError}
      (round : InTurn place es hs (.ok none)) :
      InSearch es place (hs ++ [.broke error]) error.fatal?
  | again {place next : Cursor} {hs ks : List Happening} {error : Option MatchError}
      (round : InTurn place es hs (.ok none)) (later : InSearch es next ks error) :
      InSearch es place (hs ++ .read next :: ks) error

end Happening

open Happening

/-- What may happen within a try that begins at `start` and comes to the result, in order. -/
def Expr.Course (start : Cursor) (result : Except MatchError Cursor) (within : List Happening) :
    Expr → Prop
  | .literal _ | .point _ | .any | .range _ _ => AllOwn within
  | .noneOf es | .ahead es | .oneOf es =>
    ∃ found, InTurn start es within found ∧ fatalIn found = fatalIn result
  | .seq es => InSequence es start within result
  | .optional es => InRows es within (fatalIn result)
  | .between _ _ e => (∃ error, within = [.broke error]) ∨ InRow e within (fatalIn result)
  | .atLeast _ e | .exactly _ e => InRow e within (fatalIn result)
  | .untilAny es _ => InSearch es start within (fatalIn result)
  | .hook _ => ∃ events later, within = .called events :: later ∧ AllOwn later

/-- What an account relies on: a property of the scanners at work, one of what hooks report, and
the limit on the rounds of loops. -/
structure Account.Terms where
  inv : Scanner.Invariant
  report : List Event → Prop
  limit : Nat

/-- The hook keeps to the terms, if its scanner does. -/
def Hook.KeepsTo (terms : Account.Terms) (h : Hook) : Prop :=
  ∀ t visit, terms.inv.holds t → h.run t = some visit →
    terms.inv.holds visit.scanner ∧ terms.report visit.events

theorem Hook.KeepsTo.keeps {terms : Account.Terms} {h : Hook} (keeps : h.KeepsTo terms) :
    h.Keeps terms.inv :=
  fun t visit held run => (keeps t visit held run).1

/-- The event that ends a try says how it came out. -/
inductive Happening.Concludes (expr : Expr) (start : Cursor) :
    Except MatchError Cursor → Event → Prop
  | matched {boundary : Cursor} :
      Concludes expr start (.ok boundary) (.matched expr.kind boundary.offset)
  | mismatched {error : MatchError} {c : Cursor} (mismatch : error.isMismatch = true)
      (stopped : error.cursor? = some c) :
      Concludes expr start (.error error)
        (.backtracked expr.kind start.offset (some c.offset) true)
  | fatal {error : MatchError} (fatal : error.isMismatch = false) :
      Concludes expr start (.error error) (.backtracked expr.kind start.offset none false)

/-- It is not made up. A try is the evaluation of its expression in some session, with the result
that this has and the events that this logs. -/
inductive Happening.Genuine (terms : Account.Terms) : Happening → Prop
  | read {t : Scanner} {c : Cursor} (held : terms.inv.holds t)
      (next : t.source.cursorAfter t.current = .ok (some c)) : Genuine terms (.read c)
  | called {h : Hook} {t : Scanner} {visit : Visit} (held : terms.inv.holds t)
      (run : h.run t = some visit) (reported : terms.report visit.events) :
      Genuine terms (.called visit.events)
  | broke {error : MatchError} : Genuine terms (.broke error)
  | tried {expr : Expr} {σ τ : Session} {result : Except MatchError Cursor}
      {within : List Happening} (held : terms.inv.holds σ.scanner)
      (came : (expr.matcher terms.limit σ).ComesTo result τ)
      (logged : τ.events = σ.events ++ (tried expr σ.current result within).events)
      (concludes : Concludes expr σ.current result (outcome expr σ.current result))
      (named : ∀ c, cursorIn? result = some c → terms.inv.visits c)
      (course : expr.Course σ.current result within) :
      Genuine terms (.tried expr σ.current result within)

/-- An account in which nothing is made up. -/
structure Account.Genuine (terms : Account.Terms) (whole : Expr) (σ : Session)
    (hs : List Happening) (error : Option MatchError) (τ : Session) : Prop where
  account : Account terms.limit whole σ hs error τ
  held : terms.inv.holds τ.scanner
  genuine : ∀ h, Occurs h hs → h.Genuine terms

/-- There is such an account of how the first session has become the second, and what it tells
satisfies `P`. -/
def Session.Recounted (terms : Account.Terms) (whole : Expr) (σ : Session)
    (P : List Happening → Prop) (error : Option MatchError) (τ : Session) : Prop :=
  ∃ hs, Account.Genuine terms whole σ hs error τ ∧ P hs

/-- There is such an account up to the outcome, which is closed by the error of the outcome, if
anything. -/
def Outcome.Recounted {α : Type} (terms : Account.Terms) (whole : Expr) (σ : Session)
    (P : Except MatchError α → List Happening → Prop) : Outcome α → Prop
  | .ok value τ => σ.Recounted terms whole (P (.ok value)) none τ
  | .error e τ => σ.Recounted terms whole (P (.error e)) e.fatal? τ
  | .unfinished => True

/-- What the matcher does, for a try of `whole`, takes this course from wherever it begins. -/
def Matcher.Takes (terms : Account.Terms) (whole : Expr)
    (course : Cursor → Except MatchError Cursor → List Happening → Prop) (m : Matcher) : Prop :=
  ∀ σ : Session, terms.inv.holds σ.scanner → (m σ).Recounted terms whole σ (course σ.current)

/-- One try of `e` and nothing else. -/
def Happening.Once (e : Expr) (start : Cursor) (result : Except MatchError Cursor)
    (hs : List Happening) : Prop :=
  ∃ within, hs = [.tried e start result within]

theorem MatchError.fatalIn_of_mismatch {α : Type} {e : MatchError}
    (mismatch : e.isMismatch = true) : fatalIn (.error e : Except MatchError α) = none :=
  fatal?_eq_none_iff.mpr mismatch

theorem Happening.concludes_outcome (expr : Expr) (start : Cursor)
    (result : Except MatchError Cursor) :
    Concludes expr start result (outcome expr start result) := by
  cases result with
  | ok boundary => exact .matched
  | error e =>
    cases e with
    | unmet x c => exact .mismatched rfl rfl
    | refused name c => exact .mismatched rfl rfl
    | defective kind defect => exact .fatal rfl
    | unreadable error => exact .fatal rfl

namespace Happening

theorem allOwn_nil : AllOwn [] := List.forall_mem_nil _

theorem allOwn_singleton {h : Happening} (own : h.isOwn = true) : AllOwn [h] :=
  List.forall_mem_singleton.mpr own

theorem AllOwn.append {hs ks : List Happening} (first : AllOwn hs) (second : AllOwn ks) :
    AllOwn (hs ++ ks) :=
  List.forall_mem_append.mpr ⟨first, second⟩

end Happening

variable {terms : Account.Terms} {whole : Expr} {σ τ υ : Session} {P Q R : List Happening → Prop}
  {error : Option MatchError}

namespace Session.Recounted

theorem held (told : σ.Recounted terms whole P error τ) : terms.inv.holds τ.scanner := by
  obtain ⟨hs, account, _⟩ := told
  exact account.held

theorem mono (told : σ.Recounted terms whole P error τ) (weaker : ∀ hs, P hs → Q hs) :
    σ.Recounted terms whole Q error τ := by
  obtain ⟨hs, account, fits⟩ := told
  exact ⟨hs, account, weaker hs fits⟩

theorem here (held : terms.inv.holds σ.scanner) (fits : P []) :
    σ.Recounted terms whole P none σ :=
  ⟨[], ⟨.began, held, fun _ occurs => absurd occurs not_occurs_nil⟩, fits⟩

theorem jump (told : σ.Recounted terms whole P error τ) {c : Cursor}
    (visited : terms.inv.visits c) : σ.Recounted terms whole P error (τ.jump c) := by
  obtain ⟨hs, account, fits⟩ := told
  exact ⟨hs, ⟨account.account.jumped, terms.inv.jump account.held visited, account.genuine⟩, fits⟩

theorem trans (first : σ.Recounted terms whole P none τ)
    (second : τ.Recounted terms whole Q error υ)
    (joins : ∀ hs ks, P hs → Q ks → R (hs ++ ks)) : σ.Recounted terms whole R error υ := by
  obtain ⟨hs, account, fits⟩ := first
  obtain ⟨ks, account', fits'⟩ := second
  refine ⟨hs ++ ks, ⟨account.account.trans account'.account, account'.held, ?_⟩,
    joins hs ks fits fits'⟩
  intro h occurs
  exact (occurs_append_iff.mp occurs).elim (account.genuine h) (account'.genuine h)

/-- One thing that happens. -/
theorem single {h : Happening} (account : Account terms.limit whole σ [h] error τ)
    (held : terms.inv.holds τ.scanner) (genuine : ∀ k, Occurs k [h] → k.Genuine terms) :
    σ.Recounted terms whole (· = [h]) error τ :=
  ⟨[h], ⟨account, held, genuine⟩, rfl⟩

/-- The one thing that happens is not a try. -/
theorem own {h : Happening} (told : σ.Recounted terms whole (· = [h]) error τ)
    (own : h.isOwn = true) : σ.Recounted terms whole AllOwn error τ := by
  refine told.mono ?_
  rintro _ rfl
  exact allOwn_singleton own

/-- Something else follows where the account is still open. -/
theorem retry {α : Type} {e : MatchError} {again : Outcome α}
    {N : Except MatchError α → List Happening → Prop}
    (told : σ.Recounted terms whole P e.fatal? τ)
    (fails : e.isMismatch = false → ∀ hs, P hs → N (.error e) hs)
    (onward : e.isMismatch = true → σ.Recounted terms whole P none τ →
      again.Recounted terms whole σ N) :
    (if e.isMismatch then again else .error e τ).Recounted terms whole σ N := by
  cases mismatch : e.isMismatch with
  | true =>
    rw [MatchError.fatal?_eq_none_iff.mpr mismatch] at told
    exact onward mismatch told
  | false => exact told.mono (fails mismatch)

end Session.Recounted

namespace Happening

/-- Nothing lies within anything but a try. -/
theorem genuine_of_occurs_single {h k : Happening} (occurs : Occurs k [h])
    (flat : ∀ expr start result inner, h ≠ .tried expr start result inner)
    (genuine : h.Genuine terms) : k.Genuine terms := by
  cases occurs with
  | here listed =>
    cases List.mem_singleton.mp listed
    exact genuine
  | within listed _ => exact absurd (List.mem_singleton.mp listed).symm (flat _ _ _ _)

end Happening

namespace Outcome.Recounted

variable {α β : Type} {o : Outcome α} {M N : Except MatchError α → List Happening → Prop}
  {N' : Except MatchError β → List Happening → Prop}

theorem mono (told : o.Recounted terms whole σ M) (weaker : ∀ r hs, M r hs → N r hs) :
    o.Recounted terms whole σ N := by
  cases o with
  | ok value τ => exact Session.Recounted.mono told (weaker _)
  | error e τ => exact Session.Recounted.mono told (weaker _)
  | unfinished => trivial

theorem andThen {next : α → Session → Outcome β} (told : o.Recounted terms whole σ M)
    (fails : ∀ e hs, M (.error e) hs → N' (.error e) hs)
    (onward : ∀ value τ, σ.Recounted terms whole (M (.ok value)) none τ →
      (next value τ).Recounted terms whole σ N') :
    (o.andThen next).Recounted terms whole σ N' := by
  cases o with
  | ok value τ => exact onward value τ told
  | error e τ => exact Session.Recounted.mono told (fails e)
  | unfinished => trivial

theorem rewinding (told : o.Recounted terms whole σ M) {c : Cursor}
    (visited : terms.inv.visits c) : (o.rewinding c).Recounted terms whole σ M := by
  cases o with
  | ok value τ => exact told
  | error e τ => exact Session.Recounted.jump told visited
  | unfinished => trivial

end Outcome.Recounted

/-- An outcome that goes on where something has come to. -/
theorem Session.Recounted.followed {α : Type} {o : Outcome α}
    {M N : Except MatchError α → List Happening → Prop}
    (first : σ.Recounted terms whole P none τ) (second : o.Recounted terms whole τ M)
    (joins : ∀ r hs ks, P hs → M r ks → N r (hs ++ ks)) : o.Recounted terms whole σ N := by
  cases o with
  | ok value υ => exact first.trans second (joins _)
  | error e υ => exact first.trans second (joins _)
  | unfinished => trivial

end TextMatch
