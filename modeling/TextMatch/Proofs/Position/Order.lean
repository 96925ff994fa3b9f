import TextMatch.Proofs.Position.Counters

/-!
# The order of positions

Positions are compared by the line first. The counters that this looks at next start again with
each line, but no step leads back: a step that leaves the line raises the first counter, any other
the second. So the position after some points is below the one after any more of them.
-/
namespace TextMatch.Position

variable {p q r : Position}

theorem compare_eq (p q : Position) :
    compare p q = (compare p.line q.line).then ((compare p.linePoint q.linePoint).then
      ((compare p.lineByte q.lineByte).then (compare p.point q.point))) := rfl

theorem lt_iff :
    p < q ↔ p.line < q.line ∨ p.line = q.line ∧
      (p.linePoint < q.linePoint ∨ p.linePoint = q.linePoint ∧
        (p.lineByte < q.lineByte ∨ p.lineByte = q.lineByte ∧ p.point < q.point)) := by
  change compare p q = .lt ↔ _
  simp only [compare_eq, Ordering.then_eq_lt, Nat.compare_eq_lt, Nat.compare_eq_eq]

theorem compare_eq_eq_iff : compare p q = .eq ↔ p = q := by
  obtain ⟨line, linePoint, lineByte, point⟩ := p
  obtain ⟨line', linePoint', lineByte', point'⟩ := q
  simp only [compare_eq, Ordering.then_eq_eq, Nat.compare_eq_eq, mk.injEq]

theorem le_iff_lt_or_eq : p ≤ q ↔ p < q ∨ p = q := by
  rw [← compare_eq_eq_iff]
  exact Ordering.isLE_iff_eq_lt_or_eq_eq

theorem le_refl (p : Position) : p ≤ p := le_iff_lt_or_eq.mpr (.inr rfl)

theorem lt_irrefl (p : Position) : ¬ p < p := by
  rw [lt_iff]
  omega

theorem lt_trans (first : p < q) (second : q < r) : p < r := by
  rw [lt_iff] at *
  omega

theorem le_trans (first : p ≤ q) (second : q ≤ r) : p ≤ r := by
  rw [le_iff_lt_or_eq] at *
  rcases first with below | rfl
  · rcases second with further | rfl
    · exact .inl (lt_trans below further)
    · exact .inl below
  · exact second

theorem lt_step (p : Position) (width : Nat) (newline : Bool) : p < p.step width newline := by
  rw [lt_iff]
  cases newline with
  | true => exact .inl (Nat.lt_succ_self p.line)
  | false => exact .inr ⟨rfl, .inl (Nat.lt_succ_self p.linePoint)⟩

/-- Each further point raises the position. -/
theorem after_lt_append (before : List Char) (c : Char) (more : List Char) :
    after before < after (before ++ c :: more) := by
  induction more using List.reverseRecOn with
  | nil =>
    rw [after_concat]
    exact lt_step _ _ _
  | append_singleton more d ih =>
    have last : before ++ c :: (more ++ [d]) = (before ++ c :: more) ++ [d] := by simp
    rw [last, after_concat]
    exact lt_trans ih (lt_step _ _ _)

theorem after_take_lt {points : List Char} {i j : Nat} (ordered : i < j)
    (inside : i < points.length) : after (points.take i) < after (points.take j) := by
  obtain ⟨k, rfl⟩ := Nat.exists_eq_add_of_lt ordered
  rw [show i + k + 1 = i + (k + 1) by omega, List.take_add, List.drop_eq_getElem_cons inside,
    List.take_succ_cons]
  exact after_lt_append _ _ _

end TextMatch.Position
