import TextMatch.Expr.Printer
import TextMatch.Proofs.Expr.Induction
import TextMatch.Proofs.Text.Phrase

/-!
# What the one-line form tells

An expression is written as a phrase: the phrase says how it is put together, and the text of the
phrase is the one-line form. An expression without hooks is known from its phrase, and a phrase
from its text, so two such expressions with the same one-line form are the same expression
(`render_determines`), whichever characters are shown as themselves. A hook shows by its name
alone, which says neither what it does nor where it ends.
-/
namespace TextMatch.Expr

open Text

mutual

/-- How an expression is written, apart from what its quotes show. -/
def phrase : Expr → Phrase
  | .literal text => .atom (.string text)
  | .point c => .atom (.character c)
  | .any => .atom (.word "any")
  | .noneOf es => .form "not" (phrases es)
  | .ahead es => .form "ahead" (phrases es)
  | .oneOf es => .form "one_of" (phrases es)
  | .seq es => .form "seq" (phrases es)
  | .optional es => .form "opt" (phrases es)
  | .between low high e =>
    .form "min_max" [.atom (.number low), .atom (.number high), e.phrase]
  | .atLeast low e => .form "min" [.atom (.number low), e.phrase]
  | .exactly times e => .form "count" [.atom (.number times), e.phrase]
  | .range first last => .form "range" [.atom (.character first), .atom (.character last)]
  | .untilAny es false => .form "until" (phrases es)
  | .untilAny es true => .form "until_incl" (phrases es)
  | .hook h => .form "hook" [.atom (.word h.name)]

def phrases : List Expr → List Phrase
  | [] => []
  | e :: es => e.phrase :: phrases es

end

/-- The one-line form, if the characters for which `shows` holds show in quotes. -/
def renderShowing (shows : Char → Bool) (e : Expr) : String := String.ofList (e.phrase.write shows)

theorem phrases_eq_map (es : List Expr) : phrases es = es.map phrase := by
  induction es with
  | nil => rfl
  | cons e es ih => rw [phrases, ih, List.map_cons]

theorem toList_form (name : String) {texts : List String} {parts : List Phrase}
    (same : texts.map String.toList = Phrase.writeAll isPrintable parts) :
    (form name texts).toList = (Phrase.form name parts).write isPrintable := by
  simp [form, String.toList_intercalate, same, Phrase.write]

theorem toList_renderAll {es : List Expr}
    (members : ∀ e ∈ es, e.render.toList = e.phrase.write isPrintable) :
    (renderAll es).map String.toList = Phrase.writeAll isPrintable (phrases es) := by
  rw [renderAll_eq_map, phrases_eq_map, Phrase.writeAll_eq_map, List.map_map, List.map_map]
  exact List.map_congr_left members

theorem toList_toString (n : Nat) : (toString n).toList = (Atom.number n).write isPrintable := by
  rw [Nat.toString_eq_ofList_toDigits, String.toList_ofList, Atom.write]

/-- The printer writes the phrase. -/
theorem toList_render (e : Expr) : e.render.toList = e.phrase.write isPrintable := by
  induction e using Expr.induction with
  | literal text => exact toList_quote text
  | point c => exact toList_quoteChar c
  | any => rfl
  | noneOf es ih => exact toList_form "not" (toList_renderAll ih)
  | ahead es ih => exact toList_form "ahead" (toList_renderAll ih)
  | oneOf es ih => exact toList_form "one_of" (toList_renderAll ih)
  | seq es ih => exact toList_form "seq" (toList_renderAll ih)
  | optional es ih => exact toList_form "opt" (toList_renderAll ih)
  | between low high e ih =>
    refine toList_form "min_max" ?_
    simp only [List.map_cons, List.map_nil, toList_toString, ih, Phrase.writeAll, Phrase.write]
  | atLeast low e ih =>
    refine toList_form "min" ?_
    simp only [List.map_cons, List.map_nil, toList_toString, ih, Phrase.writeAll, Phrase.write]
  | exactly times e ih =>
    refine toList_form "count" ?_
    simp only [List.map_cons, List.map_nil, toList_toString, ih, Phrase.writeAll, Phrase.write]
  | range first last =>
    refine toList_form "range" ?_
    simp only [List.map_cons, List.map_nil, toList_quoteChar, Phrase.writeAll, Phrase.write,
      Atom.write]
  | untilAny es inclusive ih =>
    cases inclusive with
    | false => exact toList_form "until" (toList_renderAll ih)
    | true => exact toList_form "until_incl" (toList_renderAll ih)
  | hook h => exact toList_form "hook" rfl

theorem renderShowing_isPrintable (e : Expr) : e.renderShowing isPrintable = e.render := by
  rw [renderShowing, ← toList_render, String.ofList_toList]

theorem plain_phrases {es : List Expr} (free : hooksIn es = [])
    (members : ∀ e ∈ es, e.hooks = [] → e.phrase.Plain) : ∀ p ∈ phrases es, p.Plain := by
  intro p part
  rw [phrases_eq_map] at part
  obtain ⟨e, member, rfl⟩ := List.mem_map.mp part
  exact members e member (hooks_eq_nil_of_mem free member)

/-- Without hooks, all words of the phrase belong to the notation. -/
theorem plain_phrase {e : Expr} (free : e.hooks = []) : e.phrase.Plain := by
  have plain_number : ∀ n, (Phrase.atom (.number n)).Plain := fun _ => .atom trivial
  have plain_character : ∀ c, (Phrase.atom (.character c)).Plain := fun _ => .atom trivial
  induction e using Expr.induction with
  | literal text => exact .atom trivial
  | point c => exact plain_character c
  | any => exact .atom (a := .word "any") rfl
  | noneOf es ih => exact .form rfl (plain_phrases free ih)
  | ahead es ih => exact .form rfl (plain_phrases free ih)
  | oneOf es ih => exact .form rfl (plain_phrases free ih)
  | seq es ih => exact .form rfl (plain_phrases free ih)
  | optional es ih => exact .form rfl (plain_phrases free ih)
  | between low high e ih => exact .form rfl (by simp [plain_number, ih free])
  | atLeast low e ih => exact .form rfl (by simp [plain_number, ih free])
  | exactly times e ih => exact .form rfl (by simp [plain_number, ih free])
  | range first last => exact .form rfl (by simp [plain_character])
  | untilAny es inclusive ih =>
    cases inclusive with
    | false => exact .form rfl (plain_phrases free ih)
    | true => exact .form rfl (plain_phrases free ih)
  | hook h => cases free

/-- The kind of the expressions that are written as such a phrase. -/
def kindOf : Phrase → Kind
  | .atom (.string _) => .literal
  | .atom (.character _) => .point
  | .atom _ => .any
  | .form "not" _ => .noneOf
  | .form "ahead" _ => .ahead
  | .form "one_of" _ => .oneOf
  | .form "seq" _ => .seq
  | .form "opt" _ => .optional
  | .form "min_max" _ => .between
  | .form "min" _ => .atLeast
  | .form "count" _ => .exactly
  | .form "range" _ => .range
  | .form "until" _ => .untilAny
  | .form "until_incl" _ => .untilAny
  | .form _ _ => .hook

theorem kindOf_phrase (e : Expr) : kindOf e.phrase = e.kind := by
  cases e with
  | untilAny es inclusive => cases inclusive <;> rfl
  | _ => rfl

theorem kind_eq_of_phrase_eq {a b : Expr} (same : a.phrase = b.phrase) : a.kind = b.kind := by
  rw [← kindOf_phrase, same, kindOf_phrase]

theorem phrases_inj {es ds : List Expr}
    (members : ∀ e ∈ es, e.hooks = [] → ∀ b, e.phrase = b.phrase → e = b)
    (free : hooksIn es = []) (same : phrases es = phrases ds) : es = ds := by
  induction es generalizing ds with
  | nil =>
    cases ds with
    | nil => rfl
    | cons d ds => cases same
  | cons e es ih =>
    cases ds with
    | nil => cases same
    | cons d ds =>
      obtain ⟨here, later⟩ := List.cons.inj same
      obtain ⟨freeHere, freeLater⟩ := List.append_eq_nil_iff.mp free
      obtain ⟨head, tail⟩ := List.forall_mem_cons.mp members
      rw [head freeHere d here, ih tail freeLater later]

theorem counted_inj {name : String} {m n : Nat} {p q : Phrase}
    (same : Phrase.form name [.atom (.number m), p] = .form name [.atom (.number n), q]) :
    m = n ∧ p = q := by
  simpa using same

/-- Without hooks, the phrase says everything about the expression. -/
theorem phrase_inj {a : Expr} (free : a.hooks = []) : ∀ b, a.phrase = b.phrase → a = b := by
  -- over pairs of expressions: their kinds are the same, which leaves one form of `b` in each case
  induction a using Expr.induction with
  | literal text =>
    intro b same
    cases b <;> cases kind_eq_of_phrase_eq same
    cases same
    rfl
  | point c =>
    intro b same
    cases b <;> cases kind_eq_of_phrase_eq same
    cases same
    rfl
  | any =>
    intro b same
    cases b <;> cases kind_eq_of_phrase_eq same
    rfl
  | noneOf es ih =>
    intro b same
    cases b <;> cases kind_eq_of_phrase_eq same
    exact congrArg noneOf (phrases_inj ih free (Phrase.form.inj same).2)
  | ahead es ih =>
    intro b same
    cases b <;> cases kind_eq_of_phrase_eq same
    exact congrArg ahead (phrases_inj ih free (Phrase.form.inj same).2)
  | oneOf es ih =>
    intro b same
    cases b <;> cases kind_eq_of_phrase_eq same
    exact congrArg oneOf (phrases_inj ih free (Phrase.form.inj same).2)
  | seq es ih =>
    intro b same
    cases b <;> cases kind_eq_of_phrase_eq same
    exact congrArg seq (phrases_inj ih free (Phrase.form.inj same).2)
  | optional es ih =>
    intro b same
    cases b <;> cases kind_eq_of_phrase_eq same
    exact congrArg optional (phrases_inj ih free (Phrase.form.inj same).2)
  | between low high e ih =>
    intro b same
    cases b <;> cases kind_eq_of_phrase_eq same
    simp only [phrase, Phrase.form.injEq, List.cons.injEq, Phrase.atom.injEq,
      Atom.number.injEq] at same
    obtain ⟨-, rfl, rfl, inner, -⟩ := same
    rw [ih free _ inner]
  | atLeast low e ih =>
    intro b same
    cases b <;> cases kind_eq_of_phrase_eq same
    obtain ⟨rfl, inner⟩ := counted_inj same
    rw [ih free _ inner]
  | exactly times e ih =>
    intro b same
    cases b <;> cases kind_eq_of_phrase_eq same
    obtain ⟨rfl, inner⟩ := counted_inj same
    rw [ih free _ inner]
  | range first last =>
    intro b same
    cases b <;> cases kind_eq_of_phrase_eq same
    cases same
    rfl
  | untilAny es inclusive ih =>
    intro b same
    cases b <;> cases kind_eq_of_phrase_eq same
    next ds other =>
    have members : phrases es = phrases ds := by
      cases inclusive <;> cases other <;> exact (Phrase.form.inj same).2
    have ends : inclusive = other := by
      cases inclusive <;> cases other <;> simp [phrase] at same ⊢
    rw [phrases_inj ih free members, ends]
  | hook h => cases free

theorem eq_of_renderShowing_eq {shows : Char → Bool} {a b : Expr} (aFree : a.hooks = [])
    (bFree : b.hooks = []) (same : a.renderShowing shows = b.renderShowing shows) : a = b := by
  have texts : a.phrase.write shows ++ [] = b.phrase.write shows ++ [] :=
    congrArg (· ++ []) (String.ofList_injective same)
  obtain ⟨phrases, _⟩ := Phrase.write_unique (plain_phrase aFree) (plain_phrase bFree)
    separated_nil separated_nil texts
  exact phrase_inj aFree b phrases

/-- Expressions without hooks that look the same are the same, whichever characters show. -/
theorem render_determines {a b : Expr} (aFree : a.hooks = []) (bFree : b.hooks = []) :
    (a.render = b.render ↔ a = b) ∧
      (∀ shows : Char → Bool, a.renderShowing shows = b.renderShowing shows ↔ a = b) ∧
      ∀ e : Expr, e.renderShowing isPrintable = e.render := by
  have showing : ∀ shows : Char → Bool, a.renderShowing shows = b.renderShowing shows ↔ a = b :=
    fun _ => ⟨eq_of_renderShowing_eq aFree bFree, fun same => same ▸ rfl⟩
  have usual := showing isPrintable
  rw [renderShowing_isPrintable, renderShowing_isPrintable] at usual
  exact ⟨usual, showing, renderShowing_isPrintable⟩

/-- A literal that holds what stands between two others. -/
theorem render_determines_literals :
    let one : Expr := .oneOf [.literal "min(1, \"b", .any]
    let two : Expr := .oneOf [.literal "min(1, ", .literal "b", .any]
    one.hooks = [] ∧ two.hooks = [] ∧ (one.render = two.render ↔ one = two) ∧
      (∀ shows : Char → Bool, one.renderShowing shows = two.renderShowing shows ↔ one = two) ∧
      ∀ e : Expr, e.renderShowing isPrintable = e.render :=
  ⟨rfl, rfl, render_determines rfl rfl⟩

end TextMatch.Expr
