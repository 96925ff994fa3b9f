import TextMatch.Proofs.Reading.Agreement

/-!
# Malformed tails

Where the bytes behind the last point are malformed, a match either fails because of them, with the
offset of the first one, or it never got there: then it comes out the same over every source that
begins with the same points (`Scanner.expect_malformed_tail`). A malformed byte is thus never taken
for a point that does not match, nor for the end of data.

Two readers are run side by side, one on the points left in front of the malformed bytes, the other
on these and whatever follows in the other source. A point can be consumed only when the one behind
it is known, so the first of them cannot get past its last point and always has some points left;
as long as it does not fail for that reason, both do the same (`Reading.Extends`).
-/
namespace TextMatch

open String (utf8Len)

/-- The second reading is the first with `more` behind the points left, of which there are some,
unless the first came to what is unreadable. -/
inductive Reading.Extends (more : List Char) {α : Type} : Reading α → Reading α → Prop
  | unreadable {r : Reading α} : Extends more (.error .unreadable) r
  | ok {value : α} {rest : List Char} (onward : rest ≠ []) :
      Extends more (.ok value rest) (.ok value (rest ++ more))
  | unmet {expr : Expr} {rest : List Char} (onward : rest ≠ []) :
      Extends more (.error (.unmet expr rest)) (.error (.unmet expr (rest ++ more)))
  | defective {kind : Kind} {defect : Defect} :
      Extends more (.error (.defective kind defect)) (.error (.defective kind defect))

def Reader.Extends (more : List Char) (r r' : Reader) : Prop :=
  ∀ rest, rest ≠ [] → (r rest).Extends more (r' (rest ++ more))

theorem Reading.Extends.andThen {α β : Type} {more : List Char} {r r' : Reading α}
    {next next' : α → List Char → Reading β} (inner : r.Extends more r')
    (onward : ∀ value rest, rest ≠ [] →
      (next value rest).Extends more (next' value (rest ++ more))) :
    (r.andThen next).Extends more (r'.andThen next') := by
  cases inner with
  | unreadable => exact .unreadable
  | ok left => exact onward _ _ left
  | unmet left => exact .unmet left
  | defective => exact .defective

namespace Reader

variable {more : List Char} {whole : Bool} {r r' : Reader} {rs rs' : List Reader}
  {rest : List Char} {expr : Expr}

/-- The last point in front of malformed bytes cannot be consumed, and the others are consumed
whatever comes behind the last. -/
theorem consume_extends (more : List Char) (whole : Bool) :
    Reader.Extends more (consume false) (consume whole) := by
  intro rest onward
  cases rest with
  | nil => exact absurd rfl onward
  | cons c rest =>
    by_cases last : rest = []
    · rw [consume, if_pos ⟨last, rfl⟩]
      exact .unreadable
    · have going : rest ++ more ≠ [] := List.append_ne_nil_of_left_ne_nil last more
      rw [List.cons_append, consume, consume, if_neg fun stuck => last stuck.1,
        if_neg fun stuck => going stuck.1]
      exact .ok last

theorem head?_append_of_ne_nil (onward : rest ≠ []) (more : List Char) :
    (rest ++ more).head? = rest.head? := by
  obtain ⟨c, rest, rfl⟩ := List.exists_cons_of_ne_nil onward
  rfl

theorem pointIf_extends (expr : Expr) (accepts : Char → Bool) :
    Reader.Extends more (pointIf false expr accepts) (pointIf whole expr accepts) := by
  intro rest onward
  unfold pointIf
  rw [head?_append_of_ne_nil onward]
  by_cases accepted : rest.head?.any accepts
  · rw [if_pos accepted, if_pos accepted]
    exact consume_extends more whole rest onward
  · rw [if_neg accepted, if_neg accepted]
    exact .unmet onward

theorem points_extends (expr : Expr) (cs : List Char) (last : Option Char) :
    Reader.Extends more (points false expr cs last) (points whole expr cs last) := by
  induction cs generalizing last with
  | nil => exact fun rest onward => .ok onward
  | cons c cs ih =>
    exact fun rest onward => (pointIf_extends expr (· == c) rest onward).andThen ih

theorem literal_extends (text : String) :
    Reader.Extends more (literal false text) (literal whole text) := by
  intro rest onward
  unfold literal
  by_cases empty : text = ""
  · rw [if_pos empty, if_pos empty]
    exact .defective
  · rw [if_neg empty, if_neg empty]
    exact points_extends _ _ _ rest onward

theorem range_extends (first last : Char) :
    Reader.Extends more (range false first last) (range whole first last) := by
  intro rest onward
  unfold range
  by_cases reversed : last < first
  · rw [if_pos reversed, if_pos reversed]
    exact .defective
  · rw [if_neg reversed, if_neg reversed]
    exact pointIf_extends _ _ rest onward

theorem seqFrom_extends (parts : List.Forall₂ (Reader.Extends more) rs rs') (last : Option Char) :
    Reader.Extends more (seqFrom rs last) (seqFrom rs' last) := by
  induction parts generalizing last with
  | nil => exact fun rest onward => .ok onward
  | cons head _ ih => exact fun rest onward => (head rest onward).andThen ih

theorem firstOf_extends (parts : List.Forall₂ (Reader.Extends more) rs rs') (onward : rest ≠ []) :
    (firstOf rs rest).Extends more (firstOf rs' (rest ++ more)) := by
  induction parts with
  | nil => exact .ok onward
  | @cons r r' rs rs' head _ ih =>
    have result := head rest onward
    unfold firstOf
    generalize r rest = reading, r' (rest ++ more) = reading' at result ⊢
    cases result with
    | unreadable => exact .unreadable
    | ok left => exact .ok left
    | unmet => exact ih
    | defective => exact .defective

theorem oneOf_extends (expr : Expr) (parts : List.Forall₂ (Reader.Extends more) rs rs') :
    Reader.Extends more (oneOf expr rs) (oneOf expr rs') := by
  intro rest onward
  refine (firstOf_extends parts onward).andThen fun found stop left => ?_
  cases found with
  | some last => exact .ok left
  | none => exact .unmet onward

theorem anyHolds_extends (parts : List.Forall₂ (Reader.Extends more) rs rs') (onward : rest ≠ []) :
    (anyHolds rs rest).Extends more (anyHolds rs' (rest ++ more)) :=
  (firstOf_extends parts onward).andThen fun _ _ _ => .ok onward

theorem noneOf_extends (expr : Expr) (parts : List.Forall₂ (Reader.Extends more) rs rs') :
    Reader.Extends more (noneOf expr rs) (noneOf expr rs') := by
  intro rest onward
  refine (anyHolds_extends parts onward).andThen fun holds _ _ => ?_
  cases holds with
  | true => exact .unmet onward
  | false => exact .ok onward

theorem ahead_extends (expr : Expr) (parts : List.Forall₂ (Reader.Extends more) rs rs') :
    Reader.Extends more (ahead expr rs) (ahead expr rs') := by
  intro rest onward
  refine (anyHolds_extends parts onward).andThen fun holds _ _ => ?_
  cases holds with
  | true => exact .ok onward
  | false => exact .unmet onward

theorem greedyRun_extends (inner : r.Extends more r') (count : Nat) (last : Option Char)
    (onward : rest ≠ []) :
    (greedyRun r count last rest).Extends more (greedyRun r' count last (rest ++ more)) := by
  induction size : rest.length using Nat.strong_induction_on generalizing count last rest with
  | _ n ih =>
    have result := inner rest onward
    rw [greedyRun, greedyRun]
    generalize r rest = reading, r' (rest ++ more) = reading' at result ⊢
    cases result with
    | unreadable => exact .unreadable
    | @ok tail stop left =>
      dsimp only
      -- what comes behind leaves the difference between the lengths as it is
      have lengths : (stop ++ more).length < (rest ++ more).length ↔
          stop.length < rest.length := by simp
      by_cases shorter : stop.length < rest.length
      · rw [if_pos shorter, if_pos (lengths.mpr shorter)]
        exact ih stop.length (size ▸ shorter) (count + 1) tail left rfl
      · rw [if_neg shorter, if_neg fun fewer => shorter (lengths.mp fewer)]
        exact .ok left
    | unmet => exact .ok onward
    | defective => exact .defective

theorem bounded_extends (expr : Expr) (inner : r.Extends more r') (low : Nat)
    (high : Option Nat) (onward : rest ≠ []) :
    (bounded expr r low high rest).Extends more (bounded expr r' low high (rest ++ more)) := by
  refine (greedyRun_extends inner 0 none onward).andThen fun run stop left => ?_
  by_cases within : (low ≤ run.1 && high.all (run.1 ≤ ·)) = true
  · rw [if_pos within, if_pos within]
    exact .ok left
  · rw [if_neg within, if_neg within]
    exact .unmet left

theorem repeated_extends (expr : Expr) (inner : r.Extends more r') (low : Nat)
    (high : Option Nat) :
    Reader.Extends more (repeated expr r low high) (repeated expr r' low high) :=
  fun _ onward => (bounded_extends expr inner low high onward).andThen fun _ _ left => .ok left

theorem between_extends (expr : Expr) (inner : r.Extends more r') (low high : Nat) :
    Reader.Extends more (between expr r low high) (between expr r' low high) := by
  intro rest onward
  unfold between
  by_cases crossed : high ≠ 0 ∧ high < low
  · rw [if_pos crossed, if_pos crossed]
    exact .defective
  · rw [if_neg crossed, if_neg crossed]
    exact repeated_extends expr inner _ _ rest onward

theorem optionalFrom_extends (expr : Expr) (parts : List.Forall₂ (Reader.Extends more) rs rs')
    (last : Option Char) :
    Reader.Extends more (optionalFrom expr rs last) (optionalFrom expr rs' last) := by
  induction parts generalizing last with
  | nil => exact fun rest onward => .ok onward
  | @cons r r' rs rs' head _ ih =>
    intro rest onward
    have result := bounded_extends expr head 0 (some 1) onward
    unfold optionalFrom
    generalize bounded expr r 0 (some 1) rest = reading,
      bounded expr r' 0 (some 1) (rest ++ more) = reading' at result ⊢
    cases result with
    | unreadable => exact .unreadable
    | @ok run stop left =>
      obtain ⟨count, tail⟩ := run
      cases count with
      | zero => exact ih last rest onward
      | succ count => exact ih tail stop left
    | unmet => exact ih last rest onward
    | defective => exact .defective

theorem untilFrom_extends (expr : Expr) (parts : List.Forall₂ (Reader.Extends more) rs rs')
    (inclusive : Bool) (last : Option Char) (onward : rest ≠ []) :
    (untilFrom false expr rs inclusive last rest).Extends more
      (untilFrom whole expr rs' inclusive last (rest ++ more)) := by
  induction rest generalizing last with
  | nil => exact absurd rfl onward
  | cons c rest ih =>
    have result := firstOf_extends parts onward
    rw [List.cons_append] at result ⊢
    unfold untilFrom
    generalize firstOf rs (c :: rest) = reading, firstOf rs' (c :: (rest ++ more)) = reading'
      at result ⊢
    cases result with
    | unreadable => exact .unreadable
    | @ok found stop left =>
      cases found with
      | some tail =>
        cases inclusive with
        | true => exact .ok left
        | false => exact .ok onward
      | none =>
        dsimp only
        by_cases final : rest = []
        · rw [if_pos ⟨final, rfl⟩]
          exact .unreadable
        · have going : rest ++ more ≠ [] := List.append_ne_nil_of_left_ne_nil final more
          rw [if_neg fun stuck => final stuck.1, if_neg fun stuck => going stuck.1]
          exact ih (some c) final
    | unmet left => exact .unmet left
    | defective => exact .defective

end Reader

theorem Expr.reader_extends (more : List Char) (whole : Bool) (e : Expr) :
    Reader.Extends more (e.reader false) (e.reader whole) := by
  have members {es : List Expr}
      (ih : ∀ e ∈ es, Reader.Extends more (e.reader false) (e.reader whole)) :
      List.Forall₂ (Reader.Extends more) (Expr.readers false es) (Expr.readers whole es) := by
    rw [Expr.readers_eq_map, Expr.readers_eq_map, List.forall₂_map_left_iff,
      List.forall₂_map_right_iff, List.forall₂_same]
    exact ih
  induction e using Expr.induction with
  | literal text => exact Reader.literal_extends text
  | point c => exact Reader.pointIf_extends _ _
  | any => exact Reader.pointIf_extends _ _
  | noneOf es ih => exact Reader.noneOf_extends _ (members ih)
  | ahead es ih => exact Reader.ahead_extends _ (members ih)
  | oneOf es ih => exact Reader.oneOf_extends _ (members ih)
  | seq es ih => exact Reader.seqFrom_extends (members ih) none
  | optional es ih => exact Reader.optionalFrom_extends _ (members ih) none
  | between low high e ih => exact Reader.between_extends _ ih low high
  | atLeast low e ih => exact Reader.repeated_extends _ ih _ _
  | exactly times e ih => exact Reader.repeated_extends _ ih _ _
  | range first last => exact Reader.range_extends first last
  | untilAny es inclusive ih =>
    exact fun _ onward => Reader.untilFrom_extends _ (members ih) inclusive none onward
  | hook h => exact fun _ onward => .unmet onward

theorem Expr.listReader_extends (more : List Char) (whole : Bool) (es : List Expr) :
    Reader.Extends more (Expr.listReader false es) (Expr.listReader whole es) :=
  (Expr.seq es).reader_extends more whole

/-- The cursor is that of a point which ends at `v` or before. -/
def Cursor.InFrontOf (v : Nat) (c : Cursor) : Prop := c.isEnd = false ∧ c.next ≤ v

/-- The cursor that the match gives back, as its boundary or with its error. -/
def Match.named? (m : Match) : Option Cursor :=
  match m.result with
  | .ok boundary => some boundary
  | .error e => e.cursor?

/-- All the cursors that the match gives out are in front of `v`. -/
structure Match.StaysInFrontOf (v : Nat) (m : Match) : Prop where
  current : m.scanner.current.InFrontOf v
  named : ∀ c, m.named? = some c → c.InFrontOf v

namespace Source

variable {s s' : Source} {more rest : List Char}

theorem LongestValid.eq_readableSize {v : Nat} (longest : s.LongestValid v) :
    v = s.readableSize := by
  have other := s.longestValid_readableSize
  apply le_antisymm
  · exact other.longest v longest.inside longest.valid
  · exact longest.longest s.readableSize other.inside other.valid

theorem cursorAt_inFrontOf (suffix : rest <:+ s.points) (onward : rest ≠ []) :
    (s.cursorAt rest).InFrontOf s.readableSize := by
  obtain ⟨c, rest, rfl⟩ := List.exists_cons_of_ne_nil onward
  obtain ⟨before, split⟩ := suffix
  have passed : s.points = (before ++ [c]) ++ rest := by rw [← split]; simp
  refine ⟨rfl, ?_⟩
  calc
    (s.cursorAt (c :: rest)).next = utf8Len (before ++ [c]) := by
      rw [next_cursorAt split.symm]
      simp
    _ ≤ s.readableSize := utf8Len_le_readableSize passed

/-- Points that come behind the others change nothing for the cursors of these. -/
theorem cursorAt_append (longer : s'.points = s.points ++ more) (suffix : rest <:+ s.points)
    (onward : rest ≠ []) : s'.cursorAt (rest ++ more) = s.cursorAt rest := by
  obtain ⟨before, split⟩ := suffix
  have splitToo : s'.points = before ++ (rest ++ more) := by
    rw [longer, ← split, List.append_assoc]
  have going : rest ++ more ≠ [] := List.append_ne_nil_of_left_ne_nil onward more
  rw [cursorAt_of_split split.symm, cursorAt_of_split splitToo, Cursor.between, Cursor.between,
    if_neg onward, if_neg going, Reader.head?_append_of_ne_nil onward]

end Source

namespace Reading.Extends

variable {s s' : Source} {more rest : List Char} {r r' : Reading (Option Char)}

/-- Unless it came to what is unreadable, the one reading amounts to the same as the other. -/
theorem result_eq (both : r.Extends more r') (longer : s'.points = s.points ++ more)
    (within : r.Within rest id) (suffix : rest <:+ s.points) (onward : rest ≠ []) :
    r = .error .unreadable ∨ r'.result s' = r.result s ∧
      s'.cursorAt (r'.left (rest ++ more)) = s.cursorAt (r.left rest) := by
  cases both with
  | unreadable => exact .inl rfl
  | @ok last stop stopped =>
    right
    have boundary : s'.cursorAt ((last.toList ++ stop) ++ more) =
        s.cursorAt (last.toList ++ stop) :=
      Source.cursorAt_append longer (List.IsSuffix.trans within suffix)
        (List.append_ne_nil_of_right_ne_nil _ stopped)
    rw [List.append_assoc] at boundary
    constructor
    · exact congrArg Except.ok boundary
    · exact Source.cursorAt_append longer (within.suffix.trans suffix) stopped
  | @unmet expr place stopped =>
    right
    have same := Source.cursorAt_append longer (List.IsSuffix.trans within suffix) stopped
    constructor
    · exact congrArg (fun c => Except.error (MatchError.unmet expr c)) same
    · exact Source.cursorAt_append longer suffix onward
  | defective =>
    right
    constructor
    · rfl
    · exact Source.cursorAt_append longer suffix onward

theorem staysInFrontOf {m : Match} (both : r.Extends more r') (within : r.Within rest id)
    (suffix : rest <:+ s.points) (onward : rest ≠ []) (result : m.result = r.result s)
    (left : m.scanner.current = s.cursorAt (r.left rest)) :
    m.StaysInFrontOf s.readableSize := by
  constructor
  · rw [left]
    cases both with
    | ok stopped => exact Source.cursorAt_inFrontOf (within.suffix.trans suffix) stopped
    | unreadable | unmet | defective => exact Source.cursorAt_inFrontOf suffix onward
  · intro c named
    rw [Match.named?, result] at named
    cases both with
    | ok stopped =>
      cases named
      exact Source.cursorAt_inFrontOf (List.IsSuffix.trans within suffix)
        (List.append_ne_nil_of_right_ne_nil _ stopped)
    | unmet stopped =>
      cases named
      exact Source.cursorAt_inFrontOf (List.IsSuffix.trans within suffix) stopped
    | unreadable | defective => cases named

end Reading.Extends

namespace Scanner

variable {s s' : Source} {t u : Scanner} {more rest : List Char}

theorem At.append (here : t.At s rest) (longer : s'.points = s.points ++ more)
    (onward : rest ≠ []) (reads : u.source = s') (same : u.current = t.current) :
    u.At s' (rest ++ more) := by
  obtain ⟨before, split⟩ := here.leaves.split
  have going : rest ++ more ≠ [] := List.append_ne_nil_of_left_ne_nil onward more
  have suffix : rest ++ more <:+ s'.points := ⟨before, by rw [longer, split, List.append_assoc]⟩
  refine ⟨reads, ⟨suffix, ?_, fun nothing => absurd nothing going⟩, ?_⟩
  · rw [longer]
    exact List.append_ne_nil_of_left_ne_nil here.leaves.nonempty more
  · rw [same, here.current_eq, Source.cursorAt_append longer here.leaves.suffix onward]

/-- Over a source that is malformed from `v` on, a match without hooks never names the end of data
or anything behind `v`. It fails because of the malformed byte, or it comes out as over every other
source that begins with the same `v` bytes. -/
theorem expect_malformed_tail {i v : Nat} {es : List Expr} (longest : t.source.LongestValid v)
    (malformed : v < t.source.size) (visited : t.source.Visits i t.current)
    (free : Expr.hooksIn es = []) :
    ∃ m, t.expect es = some m ∧ m.StaysInFrontOf v ∧
      (m.result = .error (.unreadable (.malformed v)) ∨
        ∀ u : Scanner, u.source.bytes.extract 0 v = t.source.bytes.extract 0 v →
          u.current = t.current →
          ∃ n, u.expect es = some n ∧ n.result = m.result ∧
            n.scanner.current = m.scanner.current) := by
  obtain ⟨rest, start, _⟩ := At.of_visits rfl visited
  rw [longest.eq_readableSize] at malformed ⊢
  have unreadable : t.source.isReadable = false := by
    rw [Source.isReadable, beq_eq_false_iff_ne]
    exact malformed.ne
  have onward : rest ≠ [] := by
    intro nothing
    have readable := start.leaves.readable nothing
    rw [unreadable] at readable
    cases readable
  obtain ⟨m, finished, result, left⟩ := start.expect free
  have within := Expr.listReader_advances t.source.isReadable es rest
  rw [unreadable] at result left within
  have suffix := start.leaves.suffix
  have alone := Expr.listReader_extends [] false es rest onward
  refine ⟨m, finished, alone.staysInFrontOf within suffix onward result left.current_eq, ?_⟩
  by_cases met : Expr.listReader false es rest = .error .unreadable
  · left
    rw [result, met]
    rfl
  · right
    intro u begins same
    obtain ⟨more, longer⟩ := Source.isPrefix_points begins
    have startToo : u.At u.source (rest ++ more) := start.append longer.symm onward rfl same
    obtain ⟨n, finishedToo, resultToo, leftToo⟩ := startToo.expect free
    have both := Expr.listReader_extends more u.source.isReadable es rest onward
    have equal := (both.result_eq longer.symm within suffix onward).resolve_left met
    refine ⟨n, finishedToo, ?_, ?_⟩
    · rw [resultToo, result, equal.1]
    · rw [leftToo.current_eq, left.current_eq, equal.2]

/-- Three letters before a stray byte: the search ends at the second one and a digit is ruled out
there, just as over the letters alone. -/
theorem expect_in_front_of_stray_byte :
    let t : Scanner := ⟨⟨⟨#[0x61, 0x62, 0x63, 0xFF]⟩⟩, ⟨.start, some 'a', 0⟩, none, none⟩
    let u : Scanner := ⟨⟨⟨#[0x61, 0x62, 0x63]⟩⟩, ⟨.start, some 'a', 0⟩, none, none⟩
    let es : List Expr := [.untilAny [.point 'b'] false, .noneOf [.range '0' '9']]
    t.source.LongestValid 3 ∧ 3 < t.source.size ∧ t.source.Visits 0 t.current ∧
      Expr.hooksIn es = [] ∧
      ∃ m n, t.expect es = some m ∧ u.expect es = some n ∧ m.StaysInFrontOf 3 ∧
        n.result = m.result ∧ n.scanner.current = m.scanner.current := by
  intro t u es
  have size : t.source.readableSize = 3 := by decide +kernel
  have longest : t.source.LongestValid 3 := size ▸ t.source.longestValid_readableSize
  have visited : t.source.Visits 0 t.current := .first (by decide)
  have free : Expr.hooksIn es = [] := rfl
  obtain ⟨m, finished, inFront, outcome⟩ :=
    expect_malformed_tail longest (by decide) visited free
  have succeeds : (t.expect es).map (fun m => m.result.isOk) = some true := by decide
  rw [finished, Option.map_some] at succeeds
  rcases outcome with failed | alike
  · rw [failed] at succeeds
    cases succeeds
  · obtain ⟨n, finishedToo, same⟩ := alike u (by decide) rfl
    exact ⟨longest, by decide, visited, rfl, m, n, finished, finishedToo, inFront, same⟩

end Scanner
end TextMatch
