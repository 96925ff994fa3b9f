import TextMatch.Proofs.Matcher.Restoring
import TextMatch.Proofs.Matcher.Unlogged
import TextMatch.Script

/-!
# Sequences

There are three ways to match one expression after another: as a list, as a sequence, and by
matching again from where the last match stopped. They come to the same (`Session.expect_sequence`),
and so do sequences within sequences and the flat one. A failure is put back at every level on its
way up, but it is the last of these jumps that counts: `Outcome.rewinding_andThen` moves it down to
the member that failed, where the jumps of the levels in between make no difference.

Nothing is asked of the hooks, and the statements are about any limit on rounds, the one that
`Session.expect` works with among them.
-/
namespace TextMatch

namespace Outcome

variable {α β : Type}

theorem andThen_ok_self (o : Outcome α) : o.andThen .ok = o := by
  cases o <;> rfl

/-- To go back once at the end is to go back wherever something fails. -/
theorem rewinding_andThen (o : Outcome α) (next : α → Session → Outcome β) (c : Cursor) :
    (o.andThen next).rewinding c =
      (o.rewinding c).andThen fun value σ => (next value σ).rewinding c := by
  cases o <;> rfl

/-- Only the last jump counts. -/
theorem rewinding_rewinding (o : Outcome α) (b c : Cursor) :
    (o.rewinding b).rewinding c = o.rewinding c := by
  cases o <;> rfl

end Outcome

namespace Matcher

variable {m : Matcher} {ms ns inner : List Matcher} {σ τ : Session}

theorem Restores.rewinding_eq (restores : m.Restores) (σ : Session) :
    (m σ).rewinding σ.current = m σ := by
  have back := restores σ
  generalize m σ = o at back ⊢
  cases o with
  | ok boundary τ => rfl
  | error e τ =>
    obtain ⟨⟨source, current, previous, bookmark⟩, log⟩ := τ
    obtain ⟨rfl, rfl⟩ := back
    rfl
  | unfinished => rfl

/-- A try differs from its matcher by the jump after a failure, and by the log. -/
theorem attempt_alike (kind : Kind) (m : Matcher) (σ : Session) :
    (attempt kind m σ).Alike Eq ((m σ).rewinding σ.current) := by
  unfold attempt
  cases m σ with
  | ok boundary τ => exact .ok boundary rfl
  | error e τ => exact .error rfl rfl
  | unfinished => exact .unfinished

theorem attempt_rewinding_alike (kind : Kind) (m : Matcher) (σ : Session) (c : Cursor) :
    ((attempt kind m σ).rewinding c).Alike Eq ((m σ).rewinding c) := by
  have both := (attempt_alike kind m σ).rewinding c
  rwa [Outcome.rewinding_rewinding] at both

theorem seqFrom_append (ms ns : List Matcher) (last : Cursor) (σ : Session) :
    seqFrom (ms ++ ns) last σ =
      (seqFrom ms last σ).andThen fun boundary τ => seqFrom ns boundary τ := by
  induction ms generalizing last σ with
  | nil => rfl
  | cons m ms ih => simp only [List.cons_append, seqFrom, Outcome.andThen_assoc, ih]

/-- The boundary so far counts only where there is no member. -/
theorem seqFrom_of_ne_nil (nonempty : ms ≠ []) (last : Cursor) (σ : Session) :
    seqFrom ms last σ = seq ms σ := by
  cases ms with
  | nil => exact absurd rfl nonempty
  | cons m ms => rfl

theorem seq_singleton (m : Matcher) (σ : Session) : seq [m] σ = m σ :=
  (m σ).andThen_ok_self

/-- The members of an inner sequence may stand in its place. -/
theorem seqFrom_nested_alike (kind : Kind) (nonempty : inner ≠ [])
    (ignore : ∀ m ∈ ms ++ inner ++ ns, m.IgnoresLog) (last c : Cursor)
    (scanner : σ.scanner = τ.scanner) :
    ((seqFrom (ms ++ [attempt kind (seq inner)] ++ ns) last σ).rewinding c).Alike Eq
      ((seqFrom (ms ++ inner ++ ns) last τ).rewinding c) := by
  simp only [List.forall_mem_append] at ignore
  obtain ⟨⟨before, within⟩, behind⟩ := ignore
  simp only [List.append_assoc, List.singleton_append, seqFrom_append, seqFrom,
    Outcome.rewinding_andThen]
  refine ((seqFrom_alike before last scanner).rewinding c).andThen fun boundary υ ω left => ?_
  rw [seqFrom_of_ne_nil nonempty]
  have members : ((attempt kind (seq inner) υ).rewinding c).Alike Eq
      ((seq inner ω).rewinding c) :=
    (attempt_rewinding_alike kind (seq inner) υ c).trans
      ((seq_ignoresLog within left).rewinding c)
  exact members.andThen fun boundary _ _ left => (seqFrom_alike behind boundary left).rewinding c

end Matcher

/-- Any number of expressions is matched as a sequence, also a single one. -/
theorem Expr.listMatcher_eq (limit : Nat) (es : List Expr) (σ : Session) :
    Expr.listMatcher limit es σ =
      (Matcher.seq (Expr.matchers limit es) σ).rewinding σ.current := by
  unfold Expr.listMatcher
  split
  · next e =>
    have alone := Matcher.seq_singleton (e.matcher limit) σ
    rw [Expr.matchers, Expr.matchers, alone, (e.matcher_restores limit).rewinding_eq]
  · rfl

namespace Session

variable {limit : Nat} {σ τ : Session}

theorem expectWithin_alike (limit : Nat) (es : List Expr) (scanner : σ.scanner = τ.scanner) :
    (σ.expectWithin limit es).Alike Eq
      ((Matcher.seq (Expr.matchers limit es) τ).rewinding τ.current) := by
  have entered : (σ.emit (.entered es.length)).scanner = τ.scanner := scanner
  have both := (Matcher.seq_ignoresLog (Expr.matchers_ignoreLog limit es) entered).rewinding
    τ.current
  unfold expectWithin
  rw [Expr.listMatcher_eq, current_congr entered]
  generalize (Matcher.seq (Expr.matchers limit es) (σ.emit (.entered es.length))).rewinding
    τ.current = o, (Matcher.seq (Expr.matchers limit es) τ).rewinding τ.current = o' at both ⊢
  cases both with
  | ok boundary left => exact .ok boundary left
  | error errors left => exact .error errors left
  | unfinished => exact .unfinished

theorem expectWithin_rewinding_alike (limit : Nat) (es : List Expr) (c : Cursor)
    (scanner : σ.scanner = τ.scanner) :
    ((σ.expectWithin limit es).rewinding c).Alike Eq
      ((Matcher.seq (Expr.matchers limit es) τ).rewinding c) := by
  have both := (expectWithin_alike limit es scanner).rewinding c
  rwa [Outcome.rewinding_rewinding] at both

theorem expectWithin_seq_alike (limit : Nat) (es : List Expr) (σ : Session) :
    (σ.expectWithin limit [.seq es]).Alike Eq
      ((Matcher.seq (Expr.matchers limit es) σ).rewinding σ.current) := by
  refine (expectWithin_alike limit [.seq es] rfl).trans ?_
  rw [Expr.matchers, Expr.matchers, Expr.matcher, Matcher.seq_singleton]
  exact Matcher.attempt_rewinding_alike _ _ σ σ.current

/-- A list of expressions comes out as the sequence of them does, with the same boundary or error
and the same scanner. An inner sequence with members comes out as these in its place. And a list in
two parts comes out as the second part matched behind the first: it succeeds where both of these
do, with what the second gives back and leaves; otherwise it gives the error of the part that fails
first, and goes back to the cursor of before either. -/
theorem expect_sequence (limit : Nat) (σ : Session) (es front middle back : List Expr)
    (nonempty : middle ≠ []) :
    (σ.expectWithin limit es).Alike Eq (σ.expectWithin limit [.seq es]) ∧
    (σ.expectWithin limit [.seq (front ++ [.seq middle] ++ back)]).Alike Eq
      (σ.expectWithin limit [.seq (front ++ middle ++ back)]) ∧
    (σ.expectWithin limit (front ++ middle)).Alike Eq
      (((σ.expectWithin limit front).andThen fun _ τ => τ.expectWithin limit middle).rewinding
        σ.current) := by
  have members : Expr.matchers limit middle ≠ [] := by
    rw [Expr.matchers_eq_map]
    exact mt List.map_eq_nil_iff.mp nonempty
  refine ⟨?_, ?_, ?_⟩
  · exact (expectWithin_alike limit es rfl).trans (expectWithin_seq_alike limit es σ).symm
  · have nested := expectWithin_seq_alike limit (front ++ [.seq middle] ++ back) σ
    have flat := expectWithin_seq_alike limit (front ++ middle ++ back) σ
    have ignore := Expr.matchers_ignoreLog limit (front ++ middle ++ back)
    simp only [Expr.matchers_eq_map, List.map_append, List.map_singleton, Expr.matcher]
      at nested flat ignore members
    refine nested.trans (Outcome.Alike.trans ?_ flat.symm)
    exact Matcher.seqFrom_nested_alike .seq members ignore σ.current σ.current rfl
  · have whole := expectWithin_alike limit (front ++ middle) (Eq.refl σ.scanner)
    rw [Expr.matchers_eq_map, List.map_append, ← Expr.matchers_eq_map, ← Expr.matchers_eq_map,
      Matcher.seq, Matcher.seqFrom_append, Outcome.rewinding_andThen] at whole
    refine whole.trans (Outcome.Alike.symm ?_)
    rw [Outcome.rewinding_andThen]
    refine (expectWithin_rewinding_alike limit front σ.current rfl).andThen fun last υ ω left => ?_
    rw [Matcher.seqFrom_of_ne_nil members]
    exact expectWithin_rewinding_alike limit middle σ.current left

/-- A letter, and a hook that sets a bookmark where it comes to; then a number sign and a digit. The
digit is not there, so all of it goes back to the letter; the bookmark of the hook remains. -/
theorem expect_sequence_unnumbered :
    let step : Hook := Script.toHook [.advance 1, .setBookmark] "step"
    let σ : Session := ⟨⟨.ofString "ab#!", ⟨.start, some 'a', 0⟩, none, none⟩, []⟩
    let front : List Expr := [.point 'a', .hook step]
    let middle : List Expr := [.point '#', .range '0' '9']
    let limit := roundLimit σ.source
    middle ≠ [] ∧
      (σ.expectWithin limit front).session?.map Session.current =
        some ⟨⟨1, 3, 3, 3⟩, some '#', 2⟩ ∧
      (σ.expectWithin limit (front ++ middle)).session?.map Session.scanner =
        some { σ.scanner with bookmark := some ⟨⟨1, 3, 3, 3⟩, some '#', 2⟩ } ∧
      (σ.expectWithin limit (front ++ middle)).Alike Eq
        (σ.expectWithin limit [.seq (front ++ middle)]) ∧
      (σ.expectWithin limit [.seq (front ++ [.seq middle] ++ [.any])]).Alike Eq
        (σ.expectWithin limit [.seq (front ++ middle ++ [.any])]) ∧
      (σ.expectWithin limit (front ++ middle)).Alike Eq
        (((σ.expectWithin limit front).andThen fun _ τ => τ.expectWithin limit middle).rewinding
          σ.current) := by
  intro step σ front middle limit
  have nonempty : middle ≠ [] := nofun
  obtain ⟨listed, nested, inTurn⟩ :=
    expect_sequence limit σ (front ++ middle) front middle [.any] nonempty
  exact ⟨nonempty, by decide +kernel, by decide +kernel, listed, nested, inTurn⟩

end Session
end TextMatch
