import Mathlib.Data.List.TakeWhile
import TextMatch.Text.Quoted

/-!
# Where written text ends

Numbers, escapes and quoted text can be told from whatever stands behind them: digits end where a
character is no digit, an escape ends by its own form, and quoted text at the first mark that is
not part of an escape. None of this depends on which characters show as themselves, so escapes are
taken here for any set of these.
-/
namespace TextMatch.Text

/-- Nothing that is written is the beginning of anything else that is. -/
def PrefixFree {α : Type} (write : α → List Char) : Prop :=
  ∀ ⦃a b : α⦄ ⦃r t : List Char⦄, write a ++ r = write b ++ t → a = b ∧ r = t

/-- A run of characters of one class ends where another begins. -/
theorem eq_of_runs {p : Char → Bool} {left right r t : List Char} (leftAll : ∀ c ∈ left, p c = true)
    (rightAll : ∀ c ∈ right, p c = true) (leftStop : ∀ c ∈ r.head?, p c = false)
    (rightStop : ∀ c ∈ t.head?, p c = false) (same : left ++ r = right ++ t) :
    left = right ∧ r = t := by
  have stopped : ∀ {rest : List Char}, (∀ c ∈ rest.head?, p c = false) → rest.takeWhile p = [] := by
    intro rest stop
    cases rest with
    | nil => rfl
    | cons c rest => rw [List.takeWhile_cons, stop c rfl, if_neg Bool.false_ne_true]
  have runs := congrArg (List.takeWhile p) same
  rw [List.takeWhile_append_of_pos leftAll, List.takeWhile_append_of_pos rightAll,
    stopped leftStop, stopped rightStop, List.append_nil, List.append_nil] at runs
  subst runs
  exact ⟨rfl, List.append_cancel_left same⟩

section Digits

variable {b m n d e : Nat} {c : Char}

theorem digitChar_inj (dSmall : d < 16) (eSmall : e < 16)
    (same : Nat.digitChar d = Nat.digitChar e) : d = e := by
  have all : ∀ d e : Fin 16, Nat.digitChar d = Nat.digitChar e → d = e := by decide
  exact Fin.mk.inj_iff.mp (all ⟨d, dSmall⟩ ⟨e, eSmall⟩ same)

theorem toDigits_inj (base : 1 < b) (few : b ≤ 16)
    (same : Nat.toDigits b m = Nat.toDigits b n) : m = n := by
  have digit : ∀ k, k % b < 16 := fun k => (Nat.mod_lt k (by omega)).trans_le few
  induction m using Nat.strong_induction_on generalizing n with
  | _ m ih =>
    rw [Nat.toDigits_eq_if base, Nat.toDigits_eq_if (n := n) base] at same
    by_cases mShort : m < b <;> by_cases nShort : n < b
    · rw [if_pos mShort, if_pos nShort, List.singleton_inj] at same
      exact digitChar_inj (by omega) (by omega) same
    · rw [if_pos mShort, if_neg nShort, List.singleton_eq_append_iff] at same
      simp [Nat.toDigits_ne_nil] at same
    · rw [if_neg mShort, if_pos nShort, List.append_eq_singleton_iff] at same
      simp [Nat.toDigits_ne_nil] at same
    · rw [if_neg mShort, if_neg nShort] at same
      obtain ⟨front, last⟩ := List.append_inj' same rfl
      have quotients := ih (m / b) (Nat.div_lt_self (by omega) base) front
      have remainders := digitChar_inj (digit m) (digit n) (List.singleton_inj.mp last)
      rw [← Nat.div_add_mod m b, ← Nat.div_add_mod n b, quotients, remainders]

theorem exists_digit_of_mem (base : 1 < b) (member : c ∈ Nat.toDigits b n) :
    ∃ d, c = Nat.digitChar d := by
  induction n using Nat.strong_induction_on with
  | _ n ih =>
    rw [Nat.toDigits_eq_if base] at member
    split at member
    · exact ⟨n, List.mem_singleton.mp member⟩
    · rcases List.mem_append.mp member with front | last
      · exact ih (n / b) (Nat.div_lt_self (by omega) base) front
      · exact ⟨n % b, List.mem_singleton.mp last⟩

end Digits

section Escapes

variable {shows : Char → Bool} {mark c d x : Char} {r t : List Char}

/-- The marks that text is quoted with. -/
def IsMark (mark : Char) : Prop := mark = apostrophe ∨ mark = quotationMark

/-- What stands behind the backslash, for a character that has a short escape. -/
def shortEscape? (mark c : Char) : Option Char :=
  if c = '\x00' then some '0'
  else if c = '\t' then some 't'
  else if c = '\r' then some 'r'
  else if c = '\n' then some 'n'
  else if c = '\\' || c = mark then some c
  else none

/-- How `c` is written between two `mark`s, if the characters for which `shows` holds show as
themselves. -/
def escapeShowing (shows : Char → Bool) (mark c : Char) : List Char :=
  match shortEscape? mark c with
  | some x => ['\\', x]
  | none =>
    if shows c then [c] else '\\' :: 'u' :: '\x7b' :: (hexDigits c.toNat ++ ['\x7d'])

theorem escape_eq_escapeShowing (mark c : Char) :
    escape mark c = escapeShowing isPrintable mark c := by
  unfold escape escapeShowing shortEscape?
  split_ifs <;> rfl

/-- The character whose short escape ends in `x`. -/
def escapedBy (x : Char) : Char :=
  if x = '0' then '\x00'
  else if x = 't' then '\t'
  else if x = 'r' then '\r'
  else if x = 'n' then '\n'
  else x

theorem eq_escapedBy (isMark : IsMark mark) (short : shortEscape? mark c = some x) :
    c = escapedBy x ∧ x ≠ 'u' := by
  unfold shortEscape? at short
  split_ifs at short with null tab carriage newline itself
  · cases short
    exact ⟨null, by decide⟩
  · cases short
    exact ⟨tab, by decide⟩
  · cases short
    exact ⟨carriage, by decide⟩
  · cases short
    exact ⟨newline, by decide⟩
  · cases short
    simp only [Bool.or_eq_true, decide_eq_true_eq] at itself
    rcases itself with rfl | rfl
    · decide
    · rcases isMark with rfl | rfl <;> decide

/-- The three ways in which a character is written. -/
theorem escapeShowing_cases (isMark : IsMark mark) (shows : Char → Bool) (c : Char) :
    (∃ x, x ≠ 'u' ∧ c = escapedBy x ∧ escapeShowing shows mark c = ['\\', x]) ∨
      (c ≠ '\\' ∧ c ≠ mark ∧ escapeShowing shows mark c = [c]) ∨
      escapeShowing shows mark c =
        '\\' :: 'u' :: '\x7b' :: (hexDigits c.toNat ++ ['\x7d']) := by
  unfold escapeShowing
  cases short : shortEscape? mark c with
  | some x =>
    obtain ⟨meant, other⟩ := eq_escapedBy isMark short
    exact .inl ⟨x, other, meant, rfl⟩
  | none =>
    right
    dsimp only
    split
    · left
      have long : ¬ (c = '\\' ∨ c = mark) := by
        intro itself
        unfold shortEscape? at short
        split_ifs at short with _ _ _ _ none
        simp [itself] at none
      exact ⟨fun same => long (.inl same), fun same => long (.inr same), rfl⟩
    · exact .inr rfl

theorem hexDigits_run (n : Nat) : ∀ c ∈ hexDigits n, (c != '\x7d') = true := by
  intro c member
  obtain ⟨d, rfl⟩ := exists_digit_of_mem (by decide) member
  exact bne_iff_ne.mpr (Nat.digitChar_ne '\x7d' rfl)

/-- The short escapes, the code points and the characters that show do not begin alike, and two of
one kind are the same or differ at once. -/
theorem prefixFree_escape (isMark : IsMark mark) (shows : Char → Bool) :
    PrefixFree (escapeShowing shows mark) := by
  intro c d r t same
  rcases escapeShowing_cases isMark shows c with ⟨x, short, rfl, left⟩ | ⟨plain, _, left⟩ | left <;>
    rcases escapeShowing_cases isMark shows d with
      ⟨y, shortToo, rfl, right⟩ | ⟨plainToo, _, right⟩ | right <;>
    rw [left, right] at same <;>
    simp only [List.cons_append, List.nil_append, List.append_assoc, List.cons.injEq,
      true_and] at same
  · exact ⟨congrArg escapedBy same.1, same.2⟩
  · exact absurd same.1.symm plainToo
  · exact absurd same.1 short
  · exact absurd same.1 plain
  · exact same
  · exact absurd same.1 plain
  · exact absurd same.1.symm shortToo
  · exact absurd same.1.symm plainToo
  · obtain ⟨digits, rest⟩ := eq_of_runs (hexDigits_run _) (hexDigits_run _) (by simp) (by simp) same
    exact ⟨Char.toNat_inj.mp (toDigits_inj (by decide) (by decide) digits),
      (List.cons.inj rest).2⟩

theorem escape_append_ne_mark (isMark : IsMark mark) (shows : Char → Bool) (c : Char) :
    escapeShowing shows mark c ++ r ≠ mark :: t := by
  intro same
  have other : '\\' ≠ mark := by rcases isMark with rfl | rfl <;> decide
  rcases escapeShowing_cases isMark shows c with ⟨x, _, _, left⟩ | ⟨_, differs, left⟩ | left <;>
    rw [left] at same <;>
    have begins := (List.cons.inj same).1
  · exact other begins
  · exact differs begins
  · exact other begins

/-- Escapes in a row end at the first mark between them. -/
theorem escapes_unique (isMark : IsMark mark) {cs ds : List Char}
    (same : cs.flatMap (escapeShowing shows mark) ++ mark :: r =
      ds.flatMap (escapeShowing shows mark) ++ mark :: t) : cs = ds ∧ r = t := by
  induction cs generalizing ds with
  | nil =>
    cases ds with
    | nil => exact ⟨rfl, (List.cons.inj same).2⟩
    | cons d ds =>
      rw [List.flatMap_nil, List.flatMap_cons, List.append_assoc] at same
      exact absurd same.symm (escape_append_ne_mark isMark shows d)
  | cons c cs ih =>
    cases ds with
    | nil =>
      rw [List.flatMap_nil, List.flatMap_cons, List.append_assoc] at same
      exact absurd same (escape_append_ne_mark isMark shows c)
    | cons d ds =>
      simp only [List.flatMap_cons, List.append_assoc] at same
      obtain ⟨rfl, later⟩ := prefixFree_escape isMark shows same
      obtain ⟨rfl, rest⟩ := ih later
      exact ⟨rfl, rest⟩

/-- A character between apostrophes, if the characters for which `shows` holds show. -/
def quoteCharShowing (shows : Char → Bool) (c : Char) : List Char :=
  apostrophe :: (escapeShowing shows apostrophe c ++ [apostrophe])

/-- A string between quotation marks, if the characters for which `shows` holds show. -/
def quoteShowing (shows : Char → Bool) (s : String) : List Char :=
  quotationMark :: (s.toList.flatMap (escapeShowing shows quotationMark) ++ [quotationMark])

theorem toList_quoteChar (c : Char) : (quoteChar c).toList = quoteCharShowing isPrintable c := by
  rw [quoteChar, String.toList_ofList, escape_eq_escapeShowing, quoteCharShowing]

theorem toList_quote (s : String) : (quote s).toList = quoteShowing isPrintable s := by
  have escapes : escape quotationMark = escapeShowing isPrintable quotationMark :=
    funext (escape_eq_escapeShowing quotationMark)
  rw [quote, String.toList_ofList, escapes, quoteShowing]

theorem prefixFree_quoteChar (shows : Char → Bool) : PrefixFree (quoteCharShowing shows) := by
  intro c d r t same
  simp only [quoteCharShowing, List.cons_append, List.append_assoc, List.cons.injEq,
    true_and] at same
  obtain ⟨rfl, rest⟩ := prefixFree_escape (.inl rfl) shows same
  exact ⟨rfl, (List.cons.inj rest).2⟩

theorem prefixFree_quote (shows : Char → Bool) : PrefixFree (quoteShowing shows) := by
  intro s u r t same
  simp only [quoteShowing, List.cons_append, List.append_assoc, List.cons.injEq, true_and] at same
  obtain ⟨characters, rest⟩ := escapes_unique (.inr rfl) same
  exact ⟨String.toList_inj.mp characters, rest⟩

end Escapes
end TextMatch.Text
