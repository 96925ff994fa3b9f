import TextMatch.Proofs.Text.Delimited

/-!
# Phrases

The notation that expressions are written in, apart from what it means: quoted text and
characters, numbers and words, and words with phrases in parentheses. Quoted text may hold
anything, commas and parentheses and what looks like another phrase among them. Still, a phrase
with nothing or a separator behind it is known from the text that it begins
(`Phrase.write_unique`), and so is what follows.
-/
namespace TextMatch.Text

/-- What a phrase begins with. -/
inductive Atom where
  | string (text : String)
  | character (c : Char)
  | number (n : Nat)
  | word (name : String)

inductive Phrase where
  | atom (a : Atom)
  /-- A word and the phrases in parentheses behind it. -/
  | form (name : String) (parts : List Phrase)

def Atom.write (shows : Char → Bool) : Atom → List Char
  | .string text => quoteShowing shows text
  | .character c => quoteCharShowing shows c
  | .number n => Nat.toDigits 10 n
  | .word name => name.toList

mutual

/-- The text of a phrase, if the characters for which `shows` holds show in its quotes. -/
def Phrase.write (shows : Char → Bool) : Phrase → List Char
  | .atom a => a.write shows
  | .form name parts =>
    name.toList ++ '(' :: ([',', ' '].intercalate (Phrase.writeAll shows parts) ++ [')'])

def Phrase.writeAll (shows : Char → Bool) : List Phrase → List (List Char)
  | [] => []
  | p :: ps => p.write shows :: Phrase.writeAll shows ps

end

/-- What may follow an atom: its own parts, or what may follow a phrase. -/
def punctuation : List Char := ['(', ',', ')']

/-- What may follow a phrase within a form. -/
def separators : List Char := [',', ')']

def Punctuated (rest : List Char) : Prop := ∀ c ∈ rest.head?, c ∈ punctuation

def Separated (rest : List Char) : Prop := ∀ c ∈ rest.head?, c ∈ separators

/-- What neither begins another atom nor may follow one. -/
def isWordCharacter (c : Char) : Bool :=
  !(c == quotationMark || c == apostrophe || c.isDigit || punctuation.contains c)

def isWord (name : String) : Bool := !name.toList.isEmpty && name.toList.all isWordCharacter

def Atom.Plain : Atom → Prop
  | .word name => isWord name = true
  | _ => True

/-- All its words are words. -/
inductive Phrase.Plain : Phrase → Prop
  | atom {a : Atom} (plain : a.Plain) : Phrase.Plain (.atom a)
  | form {name : String} {parts : List Phrase} (named : isWord name = true)
      (plain : ∀ p ∈ parts, Phrase.Plain p) : Phrase.Plain (.form name parts)

variable {shows : Char → Bool} {a b : Atom} {r t : List Char}

theorem isWord_iff {name : String} :
    isWord name = true ↔ name.toList ≠ [] ∧ ∀ c ∈ name.toList, isWordCharacter c = true := by
  rw [isWord, Bool.and_eq_true, Bool.not_eq_true', List.isEmpty_eq_false_iff, List.all_eq_true]

theorem Separated.punctuated (separated : Separated r) : Punctuated r :=
  fun c first => List.mem_cons_of_mem '(' (separated c first)

theorem separated_nil : Separated [] := by simp [Separated]

theorem punctuated_open (r : List Char) : Punctuated ('(' :: r) := by simp [Punctuated, punctuation]

theorem not_separated_open (r : List Char) : ¬ Separated ('(' :: r) := by
  simp [Separated, separators]

namespace Atom

inductive Style where
  | string | character | number | word
  deriving DecidableEq

def style : Atom → Style
  | .string _ => .string
  | .character _ => .character
  | .number _ => .number
  | .word _ => .word

/-- The style of the atoms that begin with `c`. -/
def styleOf (c : Char) : Style :=
  if c = quotationMark then .string
  else if c = apostrophe then .character
  else if c.isDigit then .number
  else .word

theorem exists_first (shows : Char → Bool) (plain : a.Plain) :
    ∃ c w, a.write shows = c :: w ∧ styleOf c = a.style ∧ c ∉ punctuation := by
  cases a with
  | string text =>
    have opens : styleOf quotationMark = .string ∧ quotationMark ∉ punctuation := by decide
    exact ⟨_, _, rfl, opens⟩
  | character c =>
    have opens : styleOf apostrophe = .character ∧ apostrophe ∉ punctuation := by decide
    exact ⟨_, _, rfl, opens⟩
  | number n =>
    obtain ⟨c, w, digits⟩ := List.exists_cons_of_ne_nil (Nat.toDigits_ne_nil (n := n) (b := 10))
    have digit : c.isDigit = true :=
      Nat.isDigit_of_mem_toDigits (by decide) (by decide) (digits ▸ List.mem_cons_self)
    have other : ∀ d : Char, d.isDigit = false → c ≠ d := by
      rintro d no rfl
      exact Bool.false_ne_true (no.symm.trans digit)
    refine ⟨c, w, digits, ?_, ?_⟩
    · rw [styleOf, if_neg (other quotationMark rfl), if_neg (other apostrophe rfl), if_pos digit,
        style]
    · simp [punctuation, other '(' rfl, other ',' rfl, other ')' rfl]
  | word name =>
    obtain ⟨nonempty, characters⟩ := isWord_iff.mp plain
    obtain ⟨c, w, begins⟩ := List.exists_cons_of_ne_nil nonempty
    have letter : isWordCharacter c = true := characters c (begins ▸ List.mem_cons_self)
    simp only [isWordCharacter, Bool.not_eq_true', Bool.or_eq_false_iff, beq_eq_false_iff_ne,
      List.contains_eq_mem, decide_eq_false_iff_not] at letter
    obtain ⟨⟨⟨noQuotation, noApostrophe⟩, noDigit⟩, noPunctuation⟩ := letter
    refine ⟨c, w, begins, ?_, noPunctuation⟩
    rw [styleOf, if_neg noQuotation, if_neg noApostrophe, noDigit, if_neg Bool.false_ne_true, style]

/-- Words and numbers end where punctuation follows. -/
theorem eq_of_punctuated {p : Char → Bool} {left right : List Char}
    (outside : punctuation.any p = false) (leftAll : ∀ c ∈ left, p c = true)
    (rightAll : ∀ c ∈ right, p c = true) (leftStop : Punctuated r) (rightStop : Punctuated t)
    (same : left ++ r = right ++ t) : left = right ∧ r = t := by
  have stops : ∀ c ∈ punctuation, p c = false := by
    simpa only [List.any_eq_false, Bool.not_eq_true] using outside
  exact eq_of_runs leftAll rightAll (fun c first => stops c (leftStop c first))
    (fun c first => stops c (rightStop c first)) same

/-- In front of punctuation, an atom can be told from the text. -/
theorem write_unique (plainA : a.Plain) (plainB : b.Plain) (leftStop : Punctuated r)
    (rightStop : Punctuated t) (same : a.write shows ++ r = b.write shows ++ t) : a = b ∧ r = t := by
  have styles : a.style = b.style := by
    obtain ⟨c, w, left, styleC, _⟩ := exists_first shows plainA
    obtain ⟨d, v, right, styleD, _⟩ := exists_first shows plainB
    rw [left, right] at same
    rw [← styleC, ← styleD, (List.cons.inj same).1]
  cases a with
  | string text =>
    cases b with
    | string text' =>
      obtain ⟨rfl, rest⟩ := prefixFree_quote shows same
      exact ⟨rfl, rest⟩
    | character | number | word => cases styles
  | character c =>
    cases b with
    | character d =>
      obtain ⟨rfl, rest⟩ := prefixFree_quoteChar shows same
      exact ⟨rfl, rest⟩
    | string | number | word => cases styles
  | number m =>
    cases b with
    | number n =>
      have digits : ∀ n, ∀ c ∈ Nat.toDigits 10 n, c.isDigit = true := fun n c member =>
        Nat.isDigit_of_mem_toDigits (by decide) (by decide) member
      obtain ⟨numbers, rest⟩ :=
        eq_of_punctuated rfl (digits m) (digits n) leftStop rightStop same
      exact ⟨congrArg number (toDigits_inj (by decide) (by decide) numbers), rest⟩
    | string | character | word => cases styles
  | word name =>
    cases b with
    | word name' =>
      obtain ⟨names, rest⟩ := eq_of_punctuated rfl (isWord_iff.mp plainA).2
        (isWord_iff.mp plainB).2 leftStop rightStop same
      exact ⟨congrArg word (String.toList_inj.mp names), rest⟩
    | string | character | number => cases styles

end Atom

namespace Phrase

variable {p q : Phrase} {ps qs : List Phrase}

theorem writeAll_eq_map (shows : Char → Bool) (ps : List Phrase) :
    writeAll shows ps = ps.map (write shows) := by
  induction ps with
  | nil => rfl
  | cons p ps ih => rw [writeAll, ih, List.map_cons]

theorem exists_first (shows : Char → Bool) (plain : p.Plain) :
    ∃ c w, p.write shows = c :: w ∧ c ∉ punctuation := by
  cases plain with
  | @atom a plainA =>
    obtain ⟨c, w, first, _, other⟩ := a.exists_first shows plainA
    exact ⟨c, w, first, other⟩
  | @form name parts named _ =>
    obtain ⟨c, w, first, _, other⟩ := (Atom.word name).exists_first shows named
    exact ⟨c, _, congrArg (· ++ _) first, other⟩

/-- In front of a separator, the phrase can be told from the text. -/
def Readable (shows : Char → Bool) (p : Phrase) : Prop :=
  ∀ ⦃q r t⦄, q.Plain → Separated r → Separated t → p.write shows ++ r = q.write shows ++ t →
    p = q ∧ r = t

/-- The parts of a form, with the parenthesis and the text `r` behind them. -/
def writeParts (shows : Char → Bool) (ps : List Phrase) (r : List Char) : List Char :=
  [',', ' '].intercalate (writeAll shows ps) ++ ')' :: r

/-- What comes behind one of the parts, if `ps` are the later ones. -/
def behindPart (shows : Char → Bool) (ps : List Phrase) (r : List Char) : List Char :=
  if ps = [] then ')' :: r else ',' :: ' ' :: writeParts shows ps r

theorem writeParts_cons (shows : Char → Bool) (p : Phrase) (ps : List Phrase) (r : List Char) :
    writeParts shows (p :: ps) r = p.write shows ++ behindPart shows ps r := by
  cases ps with
  | nil => simp [writeParts, behindPart, writeAll]
  | cons q ps => simp [writeParts, behindPart, writeAll, List.intercalate_cons_cons]

theorem separated_behindPart (shows : Char → Bool) (ps : List Phrase) (r : List Char) :
    Separated (behindPart shows ps r) := by
  unfold behindPart
  split <;> simp [Separated, separators]

theorem writeParts_ne_close (shows : Char → Bool) (plain : p.Plain) :
    writeParts shows (p :: ps) r ≠ ')' :: t := by
  intro same
  obtain ⟨c, w, first, other⟩ := exists_first shows plain
  rw [writeParts_cons, first] at same
  rw [(List.cons.inj same).1] at other
  exact other (by decide)

/-- Parts that can be told from the text can be told one after another. -/
theorem writeParts_unique (readable : ∀ p ∈ ps, p.Readable shows) (plain : ∀ p ∈ ps, p.Plain)
    (plainToo : ∀ q ∈ qs, q.Plain) (same : writeParts shows ps r = writeParts shows qs t) :
    ps = qs ∧ r = t := by
  induction ps generalizing qs with
  | nil =>
    cases qs with
    | nil => exact ⟨rfl, (List.cons.inj same).2⟩
    | cons q qs =>
      exact absurd same.symm (writeParts_ne_close shows (plainToo q List.mem_cons_self))
  | cons p ps ih =>
    obtain ⟨plainHere, plainLater⟩ := List.forall_mem_cons.mp plain
    obtain ⟨readableHere, readableLater⟩ := List.forall_mem_cons.mp readable
    cases qs with
    | nil => exact absurd same (writeParts_ne_close shows plainHere)
    | cons q qs =>
      obtain ⟨plainQ, plainQs⟩ := List.forall_mem_cons.mp plainToo
      rw [writeParts_cons, writeParts_cons] at same
      obtain ⟨rfl, behind⟩ := readableHere plainQ (separated_behindPart shows ps r)
        (separated_behindPart shows qs t) same
      -- one is the last part of its form exactly if the other is
      unfold behindPart at behind
      split_ifs at behind with last lastToo lastToo
      · rw [last, lastToo]
        exact ⟨rfl, (List.cons.inj behind).2⟩
      · cases (List.cons.inj behind).1
      · cases (List.cons.inj behind).1
      · obtain ⟨rfl, rest⟩ := ih readableLater plainLater plainQs
          (List.cons.inj (List.cons.inj behind).2).2
        exact ⟨rfl, rest⟩

theorem write_form (shows : Char → Bool) (name : String) (parts : List Phrase) (r : List Char) :
    (form name parts).write shows ++ r =
      (Atom.word name).write shows ++ '(' :: writeParts shows parts r := by
  simp [write, writeParts, Atom.write]

/-- A phrase is known from the text that it begins, if nothing or a separator is behind it. -/
theorem write_unique (plain : p.Plain) : p.Readable shows := by
  induction plain with
  | @atom a plainA =>
    intro q r t plainQ leftStop rightStop same
    cases plainQ with
    | @atom b plainB =>
      obtain ⟨rfl, rest⟩ :=
        Atom.write_unique plainA plainB leftStop.punctuated rightStop.punctuated same
      exact ⟨rfl, rest⟩
    | @form name parts named _ =>
      rw [write_form] at same
      obtain ⟨_, rfl⟩ := Atom.write_unique (b := .word name) plainA named leftStop.punctuated
        (punctuated_open _) same
      exact absurd leftStop (not_separated_open _)
  | @form name parts named plainParts ih =>
    intro q r t plainQ leftStop rightStop same
    rw [write_form] at same
    cases plainQ with
    | @atom b plainB =>
      obtain ⟨_, rfl⟩ := Atom.write_unique (a := .word name) named plainB (punctuated_open _)
        rightStop.punctuated same
      exact absurd rightStop (not_separated_open _)
    | @form name' parts' named' plainParts' =>
      rw [write_form] at same
      obtain ⟨names, rest⟩ := Atom.write_unique (a := .word name) (b := .word name') named named'
        (punctuated_open _) (punctuated_open _) same
      obtain ⟨rfl, behind⟩ := writeParts_unique ih plainParts plainParts' (List.cons.inj rest).2
      cases names
      exact ⟨rfl, behind⟩

end Phrase
end TextMatch.Text
