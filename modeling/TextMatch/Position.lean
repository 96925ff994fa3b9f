/-!
# Positions

Line and point counters of a point in its source. All four counters start at one. The two
line-relative ones restart after a newline; the other two never go back, which is why the
order below, line first, is also the order in which the points are read.

The counters are unbounded. Where each of them has 32 bits, a step that leads out of these fails
(`step?`). No step within a source of fewer than 2^32 bytes does (`after?_eq_some`), so that on
such a source there is no difference.
-/
namespace TextMatch

structure Position where
  line : Nat
  linePoint : Nat
  lineByte : Nat
  point : Nat
  deriving DecidableEq, Repr

namespace Position

/-- Where the first point of every source is. -/
def start : Position := ⟨1, 1, 1, 1⟩

instance : Inhabited Position := ⟨start⟩

/-- Where the point after `p` is, when the point at `p` takes `width` bytes. -/
def step (p : Position) (width : Nat) (newline : Bool) : Position :=
  if newline then ⟨p.line + 1, 1, 1, p.point + 1⟩
  else ⟨p.line, p.linePoint + 1, p.lineByte + width, p.point + 1⟩

/-- Each counter has a value of 32 bits. -/
def Fits (p : Position) : Prop :=
  p.line < UInt32.size ∧ p.linePoint < UInt32.size ∧ p.lineByte < UInt32.size ∧
    p.point < UInt32.size

instance (p : Position) : Decidable p.Fits := inferInstanceAs (Decidable (_ ∧ _))

/-- The same step of counters of 32 bits each, which fails where one of them would overflow. -/
def step? (p : Position) (width : Nat) (newline : Bool) : Option Position :=
  if (p.step width newline).Fits then some (p.step width newline) else none

/-- Line, point in the line and byte in the line, as in `2,3-5`. -/
def render (p : Position) : String :=
  toString p.line ++ "," ++ toString p.linePoint ++ "-" ++ toString p.lineByte

instance : ToString Position := ⟨render⟩

/-- Lexicographic: line, point in the line, byte in the line, point in the source. -/
instance : Ord Position where
  compare p q := (compare p.line q.line).then <| (compare p.linePoint q.linePoint).then <|
    (compare p.lineByte q.lineByte).then (compare p.point q.point)

instance : LT Position := ltOfOrd

instance : LE Position := leOfOrd

@[simp] theorem point_step (p : Position) (width : Nat) (newline : Bool) :
    (p.step width newline).point = p.point + 1 := by
  cases newline <;> rfl

end Position
end TextMatch
