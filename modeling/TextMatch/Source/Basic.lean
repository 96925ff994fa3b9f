import TextMatch.ScanError
import TextMatch.Text.Utf8

/-!
# Sources

The bytes of one input, all of them read beforehand. Nothing is promised about the bytes: a
point is decoded where one is asked for, and text is shown even where the bytes are no UTF-8.
-/
namespace TextMatch

structure Source where
  bytes : ByteArray

instance : DecidableEq Source
  | ⟨left⟩, ⟨right⟩ =>
    match ByteArray.decEq left right with
    | isTrue same => isTrue (congrArg Source.mk same)
    | isFalse differ => isFalse fun same => differ (congrArg Source.bytes same)

/-- One answer of whatever delivers the input. -/
inductive Delivery where
  | bytes (part : ByteArray) | interrupted | failed (reason : String)

namespace Source

def ofString (text : String) : Source := ⟨text.toUTF8⟩

/-- Everything delivered, in order. An interruption loses nothing; a failure loses all. -/
def ofDeliveries (deliveries : List Delivery) : Except ScanError Source :=
  collect ByteArray.empty deliveries
where
  collect (read : ByteArray) : List Delivery → Except ScanError Source
    | [] => .ok ⟨read⟩
    | .bytes part :: rest => collect (read ++ part) rest
    | .interrupted :: rest => collect read rest
    | .failed reason :: _ => .error (.readFailed reason)

def size (s : Source) : Nat := s.bytes.size

def isEmpty (s : Source) : Bool := s.size == 0

/-- The point encoded at `offset` and the number of its bytes, or `none` at and past the end. A
byte below `0x80` is a point by itself. Any other announces how many bytes to look at, and all of
these together have to be UTF-8. -/
def decodeAt (s : Source) (offset : Nat) : Except ScanError (Option (Char × Nat)) :=
  match Utf8.byte? s.bytes offset with
  | none => .ok none
  | some lead =>
    if lead < 0x80 then .ok (some (.ofUInt8 lead, 1))
    else
      let width := Utf8.leadWidth lead
      if s.size < offset + width then .error (.malformed offset)
      else
        match Utf8.firstOf (s.bytes.extract offset (offset + width)) with
        | some point => .ok (some (point, width))
        | none => .error (.malformed offset)

/-- The point encoded at `offset`, or `none` at and past the end. -/
def pointAt (s : Source) (offset : Nat) : Except ScanError (Option Char) :=
  (s.decodeAt offset).map (Option.map Prod.fst)

/-- The text of the bytes from `start` to `stop`, both held within the source. -/
def text (s : Source) (start stop : Nat) : String :=
  let stop := min stop s.size
  Utf8.toText (s.bytes.extract (min start stop) stop)

theorem decodeAt_eq_none_iff {s : Source} {offset : Nat} :
    s.decodeAt offset = .ok none ↔ s.size ≤ offset := by
  unfold decodeAt Utf8.byte? size
  by_cases inside : offset < s.bytes.size
  · rw [dif_pos inside]
    dsimp only
    repeat' split
    all_goals simp [inside]
  · simpa [inside] using Nat.not_lt.mp inside

theorem pointAt_eq_none_iff {s : Source} {offset : Nat} :
    s.pointAt offset = .ok none ↔ s.size ≤ offset := by
  rw [← decodeAt_eq_none_iff, pointAt]
  cases s.decodeAt offset with
  | error e => simp [Except.map]
  | ok decoded => cases decoded <;> simp [Except.map]

theorem lt_size_of_pointAt {s : Source} {offset : Nat} {point : Char}
    (h : s.pointAt offset = .ok (some point)) : offset < s.size := by
  refine Nat.lt_of_not_le fun past => ?_
  rw [pointAt_eq_none_iff.mpr past] at h
  cases h

end Source
end TextMatch
