import TextMatch.MatchError.Basic
import TextMatch.Session

/-!
# Outcomes

How a try to match comes out: with a value, with an error, or not at all, because a loop went
on for more rounds than it was given. An error leaves a session too: the events of a failed try
stay in the account.
-/
namespace TextMatch

inductive Outcome (α : Type) where
  | ok (value : α) (session : Session)
  | error (error : MatchError) (session : Session)
  | unfinished

namespace Outcome

/-- Go on after a success. -/
@[inline] def andThen {α β : Type} (o : Outcome α) (next : α → Session → Outcome β) : Outcome β :=
  match o with
  | .ok value σ => next value σ
  | .error e σ => .error e σ
  | .unfinished => .unfinished

/-- On an error, go back to `c`. -/
@[inline] def rewinding {α : Type} (o : Outcome α) (c : Cursor) : Outcome α :=
  match o with
  | .ok value σ => .ok value σ
  | .error e σ => .error e (σ.jump c)
  | .unfinished => .unfinished

@[simp] theorem andThen_ok {α β : Type} (value : α) (σ : Session)
    (next : α → Session → Outcome β) : (ok value σ).andThen next = next value σ := rfl

@[simp] theorem andThen_error {α β : Type} (e : MatchError) (σ : Session)
    (next : α → Session → Outcome β) : (error e σ : Outcome α).andThen next = .error e σ := rfl

@[simp] theorem andThen_unfinished {α β : Type} (next : α → Session → Outcome β) :
    (unfinished : Outcome α).andThen next = .unfinished := rfl

theorem andThen_assoc {α β γ : Type} (o : Outcome α) (f : α → Session → Outcome β)
    (g : β → Session → Outcome γ) :
    (o.andThen f).andThen g = o.andThen fun value σ => (f value σ).andThen g := by
  cases o <;> rfl

@[simp] theorem rewinding_ok {α : Type} (value : α) (σ : Session) (c : Cursor) :
    (ok value σ).rewinding c = .ok value σ := rfl

@[simp] theorem rewinding_error {α : Type} (e : MatchError) (σ : Session) (c : Cursor) :
    (error e σ : Outcome α).rewinding c = .error e (σ.jump c) := rfl

@[simp] theorem rewinding_unfinished {α : Type} (c : Cursor) :
    (unfinished : Outcome α).rewinding c = .unfinished := rfl

end Outcome

/-- A way of matching at the current point of a session. A success gives the boundary: the
cursor of the last point consumed, or the first cursor if nothing was. -/
abbrev Matcher := Session → Outcome Cursor

end TextMatch
