import ScriptWire.Script.Grammar.Markup
import ScriptWire.Script.Grammar.Member
import ScriptWire.Script.Grammar.Operator
import Mathlib.Data.List.Basic

/-!
# What scanners leave of a text

Every scanner takes characters off the front of the text and leaves the rest as it is. What is
skipped between two tokens is made of blanks and comments.

## Main definitions

- `Script.Trivia` — blanks and comments
- `Script.Leaves` — a scanner leaves an end of the text

## Main results

- `Script.follows_skipTrivia` — what is skipped are blanks and comments
- `Script.leaves_word?`, `Script.leaves_number?`, … — the scanners leave an end of the text
-/

namespace ScriptWire

namespace Script

variable {markup : Bool} {s t : List Char}

/-- What holds of a text when it holds of all shorter ones holds of every text. -/
theorem text_induction {P : List Char → Prop}
    (step : ∀ s : List Char, (∀ t : List Char, t.length < s.length → P t) → P s)
    (s : List Char) : P s :=
  step s fun t _ => text_induction step t
termination_by s.length

/-- The character ends a comment that runs to the end of its line. -/
def EndsLine (c : Char) : Prop :=
  c = '\r' ∨ isLineBreak c = true

/-- Blanks and comments. With `markup`, the marks of markup comments start comments as well. -/
inductive Trivia (markup : Bool) : List Char → Prop
  | nil : Trivia markup []
  | blank {c : Char} {rest : List Char} (hc : isBlank c = true) (h : Trivia markup rest) :
    Trivia markup (c :: rest)
  /-- A comment that runs to the end of its line. -/
  | line {body rest : List Char} {c : Char} (hbody : ∀ d ∈ body, ¬ EndsLine d) (hc : EndsLine c)
    (h : Trivia markup rest) : Trivia markup ('/' :: '/' :: (body ++ c :: rest))
  /-- A comment that ends with the first closing mark. -/
  | block {body rest : List Char} (hbody : ¬ ['*', '/'] <:+: body) (h : Trivia markup rest) :
    Trivia markup ('/' :: '*' :: (body ++ '*' :: '/' :: rest))
  /-- A markup comment, which runs to the end of its line. -/
  | markupLine {mark body rest : List Char} {c : Char} (hmarkup : markup = true)
    (hmark : mark = ['<', '!', '-', '-'] ∨ mark = ['-', '-', '>'])
    (hbody : ∀ d ∈ body, isLineBreak d = false) (hc : isLineBreak c = true)
    (h : Trivia markup rest) : Trivia markup (mark ++ (body ++ c :: rest))

/-- The text `t` follows blanks and comments in `s`. Nothing is asked of what was skipped if it runs
to the end of the text, where a comment need not be closed by a line break. -/
def Follows (markup : Bool) (s t : List Char) : Prop :=
  ∃ gap, s = gap ++ t ∧ (t ≠ [] → Trivia markup gap)

theorem Follows.refl : Follows markup s s :=
  ⟨[], rfl, fun _ => .nil⟩

theorem Follows.nil : Follows markup s [] :=
  ⟨s, (List.append_nil s).symm, fun h => absurd rfl h⟩

section Comments

variable {body rest : List Char} {c : Char} (h : Follows markup rest t)

include h

theorem Follows.blank (hc : isBlank c = true) : Follows markup (c :: rest) t := by
  obtain ⟨gap, rfl, hgap⟩ := h
  exact ⟨c :: gap, rfl, fun ht => .blank hc (hgap ht)⟩

theorem Follows.line (hbody : ∀ d ∈ body, ¬ EndsLine d) (hc : EndsLine c) :
    Follows markup ('/' :: '/' :: (body ++ c :: rest)) t := by
  obtain ⟨gap, rfl, hgap⟩ := h
  exact ⟨'/' :: '/' :: (body ++ c :: gap), by simp, fun ht => .line hbody hc (hgap ht)⟩

theorem Follows.block (hbody : ¬ ['*', '/'] <:+: body) :
    Follows markup ('/' :: '*' :: (body ++ '*' :: '/' :: rest)) t := by
  obtain ⟨gap, rfl, hgap⟩ := h
  exact ⟨'/' :: '*' :: (body ++ '*' :: '/' :: gap), by simp, fun ht => .block hbody (hgap ht)⟩

theorem Follows.markupLine {mark : List Char} (hmarkup : markup = true)
    (hmark : mark = ['<', '!', '-', '-'] ∨ mark = ['-', '-', '>'])
    (hbody : ∀ d ∈ body, isLineBreak d = false) (hc : isLineBreak c = true) :
    Follows markup (mark ++ (body ++ c :: rest)) t := by
  obtain ⟨gap, rfl, hgap⟩ := h
  exact ⟨mark ++ (body ++ c :: gap), by simp,
    fun ht => .markupLine hmarkup hmark hbody hc (hgap ht)⟩

end Comments

/-- A comment that runs to the end of its line ends at a line break, or with the text. -/
theorem skipLine_cases (markup : Bool) (s : List Char) :
    skipLine markup s = [] ∨ ∃ body c rest, s = body ++ c :: rest ∧ (∀ d ∈ body, ¬ EndsLine d) ∧
      EndsLine c ∧ skipLine markup s = skipTrivia markup rest := by
  induction s with
  | nil => exact .inl (by rw [skipLine])
  | cons c cs ih =>
    rw [skipLine]
    split
    · rename_i hc
      exact .inr ⟨[], c, cs, rfl, List.forall_mem_nil _, by simpa [EndsLine] using hc, rfl⟩
    · rename_i hc
      have hplain : ¬ EndsLine c := by simpa [EndsLine] using hc
      refine ih.imp_right ?_
      rintro ⟨body, d, rest, rfl, hbody, hd, hskip⟩
      exact ⟨c :: body, d, rest, rfl, List.forall_mem_cons.mpr ⟨hplain, hbody⟩, hd, hskip⟩

theorem skipMarkup_cases (s : List Char) :
    skipMarkup s = [] ∨ ∃ body c rest, s = body ++ c :: rest ∧
      (∀ d ∈ body, isLineBreak d = false) ∧ isLineBreak c = true ∧
        skipMarkup s = skipTrivia true rest := by
  induction s with
  | nil => exact .inl (by rw [skipMarkup])
  | cons c cs ih =>
    rw [skipMarkup]
    split
    · rename_i hc
      exact .inr ⟨[], c, cs, rfl, List.forall_mem_nil _, hc, rfl⟩
    · rename_i hc
      refine ih.imp_right ?_
      rintro ⟨body, d, rest, rfl, hbody, hd, hskip⟩
      have hplain : isLineBreak c = false := by simpa using hc
      exact ⟨c :: body, d, rest, rfl, List.forall_mem_cons.mpr ⟨hplain, hbody⟩, hd, hskip⟩

/-- A comment with a closing mark ends at the first one, or is no comment. -/
theorem skipBlock_cases (markup : Bool) (start s : List Char) :
    skipBlock markup start s = start ∨ ∃ body rest, s = body ++ '*' :: '/' :: rest ∧
      ¬ ['*', '/'] <:+: body ∧ skipBlock markup start s = skipTrivia markup rest := by
  induction s with
  | nil => exact .inl (by rw [skipBlock])
  | cons c cs ih =>
    rw [skipBlock.eq_def]
    split
    · exact .inl rfl
    · rename_i rest heq
      cases heq
      exact .inr ⟨[], _, rfl, by decide, rfl⟩
    · rename_i d rest hno heq
      cases heq
      refine ih.imp_right ?_
      rintro ⟨body, rest, rfl, hbody, hskip⟩
      refine ⟨c :: body, rest, rfl, ?_, hskip⟩
      rw [List.infix_cons_iff]
      rintro (hfirst | hlater)
      · -- The mark would stand right here, across the first character of the body.
        cases body with
        | nil => simp at hfirst
        | cons d body =>
          have hmark : '*' = c ∧ '/' = d := by simpa using hfirst
          obtain ⟨rfl, rfl⟩ := hmark
          exact hno _ rfl rfl
      · exact hbody hlater

theorem follows_skipMarkup {mark : List Char}
    (hmark : mark = ['<', '!', '-', '-'] ∨ mark = ['-', '-', '>'])
    (h : ∀ rest, rest.length < s.length → Follows true rest (skipTrivia true rest)) :
    Follows true (mark ++ s) (skipMarkup s) := by
  rcases skipMarkup_cases s with hnil | ⟨body, c, rest, rfl, hbody, hc, hskip⟩
  · rw [hnil]
    exact .nil
  · have hshort : rest.length < (body ++ c :: rest).length := by
      rw [List.length_append, List.length_cons]
      omega
    rw [hskip]
    exact (h rest hshort).markupLine rfl hmark hbody hc

/-- What is skipped are blanks and comments. -/
theorem follows_skipTrivia (markup : Bool) (s : List Char) :
    Follows markup s (skipTrivia markup s) := by
  -- The text after a comment is shorter, so the length of the text carries the induction.
  induction s using text_induction generalizing markup with
  | step s ih =>
  fun_cases skipTrivia markup s with
  | case1 => exact .refl
  | case2 cs =>
    rcases skipLine_cases markup cs with hnil | ⟨body, c, rest, rfl, hbody, hc, hskip⟩
    · rw [hnil]
      exact .nil
    · rw [hskip]
      exact (ih rest (by grind) markup).line hbody hc
  | case3 cs =>
    rcases skipBlock_cases markup ('/' :: '*' :: cs) cs with
      hstart | ⟨body, rest, rfl, hbody, hskip⟩
    · rw [hstart]
      exact .refl
    · rw [hskip]
      exact (ih rest (by grind) markup).block hbody
  | case4 cs hmarkup =>
    subst hmarkup
    exact follows_skipMarkup (.inl rfl) fun rest h => ih rest (by grind) true
  | case5 => exact .refl
  | case6 cs hmarkup =>
    subst hmarkup
    exact follows_skipMarkup (.inr rfl) fun rest h => ih rest (by grind) true
  | case7 => exact .refl
  | case8 c cs _ _ _ _ hc => exact (ih cs (by simp) markup).blank hc
  | case9 => exact .refl

theorem suffix_skipTrivia (markup : Bool) (s : List Char) : skipTrivia markup s <:+ s := by
  obtain ⟨gap, hgap, _⟩ := follows_skipTrivia markup s
  exact ⟨gap, hgap.symm⟩

theorem suffix_skip (s : List Char) : skip s <:+ s :=
  suffix_skipTrivia false s

theorem suffix_skipOperand (s : List Char) : skipOperand s <:+ s :=
  suffix_skipTrivia true s

/-! ### Lexemes -/

/-- A scanner that has a result on the text `s` leaves an end of it. -/
def Leaves {α : Type} (s : List Char) (scan : Option (α × List Char)) : Prop :=
  ∀ a rest, scan = some (a, rest) → rest <:+ s

namespace Leaves

variable {α : Type} {scan : Option (α × List Char)}

theorem none : Leaves s (none : Option (α × List Char)) := by
  rintro a rest ⟨⟩

theorem some {a : α} (h : t <:+ s) : Leaves s (some (a, t)) := by
  rintro _ _ ⟨⟩
  exact h

theorem of_suffix (h : Leaves t scan) (ht : t <:+ s) : Leaves s scan :=
  fun a rest hscan => (h a rest hscan).trans ht

theorem append (h : Leaves t scan) (front : List Char) : Leaves (front ++ t) scan :=
  h.of_suffix (List.suffix_append front t)

theorem cons (h : Leaves t scan) (c : Char) : Leaves (c :: t) scan :=
  h.of_suffix (List.suffix_cons c t)

theorem after {front : List Char} {scan : Scan} (h : Leaves t scan) :
    Leaves (front ++ t) (scan.after front) := by
  rintro a rest hscan
  obtain ⟨⟨taken, left⟩, hleft, heq⟩ := Option.map_eq_some_iff.mp hscan
  cases heq
  exact (h taken rest hleft).trans (List.suffix_append front t)

end Leaves

theorem leaves_nameTail_and_bracedCode (s : List Char) :
    Leaves s (nameTail s) ∧ ∀ filled, Leaves s (bracedCode filled s) := by
  induction s using text_induction with
  | step s ih =>
  constructor
  · fun_cases nameTail s with
    | case1 cs => exact ((ih cs (by grind)).2 false).after
    | case2 a b c d cs => exact (ih cs (by grind)).1.after
    | case5 c cs => exact (ih cs (by grind)).1.after
    | case6 | case7 => exact .some (List.suffix_refl _)
    | _ => exact .none
  · intro filled
    fun_cases bracedCode filled s with
    | case2 c cs => exact ((ih cs (by grind)).2 true).after
    | case3 c cs => exact (ih cs (by grind)).1.after
    | _ => exact .none

theorem leaves_word? (s : List Char) : Leaves s (word? s) := by
  fun_cases word? s with
  | case1 | case2 => exact (leaves_nameTail_and_bracedCode _).1
  | _ => exact .none

/-- The six parts of the scan of a string literal. -/
theorem leaves_stringTail_and_parts (q : Char) (s : List Char) :
    Leaves s (stringTail q s) ∧ Leaves s (escapeTail q s) ∧
      (∀ filled, Leaves s (escapeCode q filled s)) ∧ Leaves s (stringGap q s) ∧
        Leaves s (gapLine q s) ∧ Leaves s (gapBlock q s) := by
  induction s using text_induction with
  | step s ih =>
  refine ⟨?_, ?_, fun filled => ?_, ?_, ?_, ?_⟩
  · fun_cases stringTail q s with
    | case1 => exact .none
    | case2 cs => exact (ih cs (by grind)).2.1.after
    | case3 c cs => exact .some (List.suffix_cons _ _)
    | case4 c cs => exact (ih cs (by grind)).2.2.2.1.after
    | case5 c cs => exact (ih cs (by grind)).1.after
  · fun_cases escapeTail q s with
    | case1 a b cs => exact (ih cs (by grind)).1.after
    | case3 cs => exact ((ih cs (by grind)).2.2.1 false).after
    | case4 a b c d cs => exact (ih cs (by grind)).1.after
    | case6 cs | case7 cs => exact (ih cs (by grind)).1.after
    | case9 c cs => exact (ih cs (by grind)).1.after
    | _ => exact .none
  · fun_cases escapeCode q filled s with
    | case2 c cs => exact ((ih cs (by grind)).2.2.1 true).after
    | case3 c cs => exact (ih cs (by grind)).1.after
    | _ => exact .none
  · fun_cases stringGap q s with
    | case2 cs => exact (ih cs (by grind)).2.2.2.2.1.after
    | case3 cs => exact (ih cs (by grind)).2.2.2.2.2.after
    | case4 c cs => exact .some (List.suffix_cons _ _)
    | case5 c cs => exact (ih cs (by grind)).2.2.2.1.after
    | _ => exact .none
  · fun_cases gapLine q s with
    | case1 => exact .none
    | case2 c cs => exact (ih cs (by grind)).2.2.2.1.after
    | case3 c cs => exact (ih cs (by grind)).2.2.2.2.1.after
  · fun_cases gapBlock q s with
    | case1 => exact .none
    | case2 cs => exact (ih cs (by grind)).1.after
    | case3 c cs => exact (ih cs (by grind)).2.2.2.2.2.after

theorem leaves_quoted? (s : List Char) : Leaves s (quoted? s) := by
  fun_cases quoted? s with
  | case1 q cs => exact (leaves_stringTail_and_parts q cs).1.after
  | _ => exact .none

theorem leaves_patternTail_and_patternClass (s : List Char) :
    Leaves s (patternTail s) ∧ Leaves s (patternClass s) := by
  induction s using text_induction with
  | step s ih =>
  constructor
  · fun_cases patternTail s with
    | case2 cs => exact .some (List.suffix_cons _ _)
    | case4 c cs => exact (ih cs (by grind)).1.after
    | case5 cs => exact (ih cs (by grind)).2.after
    | case7 c cs => exact (ih cs (by grind)).1.after
    | _ => exact .none
  · fun_cases patternClass s with
    | case2 cs => exact (ih cs (by grind)).1.after
    | case4 c cs => exact (ih cs (by grind)).2.after
    | case6 c cs => exact (ih cs (by grind)).2.after
    | _ => exact .none

theorem leaves_pattern? (s : List Char) : Leaves s (pattern? s) := by
  rw [pattern?]
  split
  · exact .none
  · exact (leaves_patternTail_and_patternClass s).1

theorem leaves_templateTail_and_parts (s : List Char) :
    Leaves s (templateTail s) ∧ Leaves s (templateEscape s) ∧
      ∀ filled, Leaves s (templateCode filled s) := by
  induction s using text_induction with
  | step s ih =>
  refine ⟨?_, ?_, fun filled => ?_⟩
  · fun_cases templateTail s with
    | case1 => exact .none
    | case2 cs => exact .some (List.suffix_cons _ _)
    | case3 cs => exact .some (List.suffix_append ['$', '{'] cs)
    | case4 cs => exact (ih cs (by grind)).2.1.cons _
    | case5 c cs => exact (ih cs (by grind)).1.cons _
  · fun_cases templateEscape s with
    | case1 a b cs => exact (ih cs (by grind)).1.append ['x', a, b]
    | case3 cs => exact ((ih cs (by grind)).2.2 false).append ['u', '{']
    | case4 a b c d cs => exact (ih cs (by grind)).1.append ['u', a, b, c, d]
    | case7 c cs => exact (ih cs (by grind)).1.cons _
    | _ => exact .none
  · fun_cases templateCode filled s with
    | case2 c cs => exact ((ih cs (by grind)).2.2 true).cons _
    | case3 c cs => exact (ih cs (by grind)).1.cons _
    | _ => exact .none

theorem suffix_digitGroup (p : Char → Bool) (s : List Char) : (digitGroup p s).2 <:+ s := by
  induction s using text_induction with
  | step s ih =>
  fun_cases digitGroup p s with
  | case1 c cs hc taken rest hgroup =>
    have h := ih cs (by grind)
    rw [hgroup] at h
    exact h.trans (List.suffix_append ['_', c] cs)
  | case3 c cs hno hc taken rest hgroup =>
    have h := ih cs (by grind)
    rw [hgroup] at h
    exact h.trans (List.suffix_cons c cs)
  | _ => exact List.suffix_refl _

theorem leaves_digits? (p : Char → Bool) (s : List Char) : Leaves s (digits? p s) := by
  rw [digits?]
  split
  · exact .some (suffix_digitGroup p s)
  · exact .none

theorem suffix_bigMark (s : List Char) : (bigMark s).2 <:+ s := by
  fun_cases bigMark s with
  | case1 cs => exact List.suffix_cons _ _
  | case2 => exact List.suffix_refl _

theorem suffix_exponentPart (s : List Char) : (exponentPart s).2 <:+ s := by
  fun_cases exponentPart s with
  | case1 mark cs hmark sign tail hsign taken rest hdigits =>
    have htail : tail <:+ cs := by
      split at hsign
      all_goals
        cases hsign
        first | exact List.suffix_cons _ _ | exact List.suffix_refl _
    exact (leaves_digits? _ tail _ _ hdigits).trans (htail.trans (List.suffix_cons mark cs))
  | _ => exact List.suffix_refl _

theorem suffix_placesPart (s : List Char) : (placesPart s).2 <:+ s := by
  have hplaces : ((digits? Char.isDigit s).getD ([], s)).2 <:+ s := by
    cases h : digits? Char.isDigit s with
    | none => exact List.suffix_refl _
    | some found => exact leaves_digits? _ s _ _ h
  exact (suffix_exponentPart _).trans hplaces

theorem leaves_radixNumber? (mark : List Char) (radix : Nat) (s : List Char) :
    Leaves s (radixNumber? mark radix s) := by
  intro taken rest h
  obtain ⟨⟨digits, left⟩, hdigits, h⟩ := Option.bind_eq_some_iff.mp h
  cases h
  exact (suffix_bigMark left).trans (leaves_digits? _ s _ _ hdigits)

theorem leaves_decimalNumber? (s : List Char) : Leaves s (decimalNumber? s) := by
  intro taken rest h
  obtain ⟨⟨whole, left⟩, hdigits, h⟩ := Option.bind_eq_some_iff.mp h
  refine List.IsSuffix.trans ?_ (leaves_digits? _ s _ _ hdigits)
  dsimp only at h
  split at h
  · split at h
    · cases h
      exact (suffix_placesPart _).trans (List.suffix_cons _ _)
    · have hexponent := suffix_exponentPart left
      split at h
      · cases h
        exact suffix_bigMark left
      · rename_i exponent tail _ heq
        rw [heq] at hexponent
        cases h
        exact hexponent
  · cases h
    exact suffix_bigMark left

theorem leaves_number? (s : List Char) : Leaves s (number? s) := by
  rw [number?.eq_def]
  split
  · rename_i c cs
    intro taken rest h
    rcases Option.or_eq_some_iff.mp h with h | ⟨_, h⟩
    · have hmarked (radix : Nat) : Leaves ('0' :: c :: cs) (radixNumber? ['0', c] radix cs) :=
        (leaves_radixNumber? ['0', c] radix cs).append ['0', c]
      split_ifs at h
      all_goals exact hmarked _ taken rest h
    · exact leaves_decimalNumber? _ taken rest h
  · split
    · exact .some ((suffix_placesPart _).trans (List.suffix_cons _ _))
    · exact .none
  · exact leaves_decimalNumber? s

theorem leaves_operatorIn? (table : List (String × Follow)) (s : List Char) :
    Leaves s (operatorIn? table s) := by
  induction table with
  | nil => exact .none
  | cons entry rest ih =>
    rw [operatorIn?]
    split
    · exact .some (List.drop_suffix _ _)
    · exact ih

theorem leaves_follow? (s : List Char) : Leaves s (follow? s) := by
  fun_cases follow? s with
  | case3 c cs => exact .some (List.suffix_cons _ _)
  | case4 c cs => exact .some (List.suffix_cons _ _)
  | case5 c cs => exact .some (List.suffix_append ['?', '.'] (c :: cs))
  | case6 cs => exact leaves_operatorIn? operators _
  | case7 cs => exact .some (List.suffix_cons _ _)
  | case8 cs rest hword | case9 cs rest hword => exact .some (leaves_word? _ _ _ hword)
  | case11 => exact leaves_operatorIn? operators s
  | _ => exact .none

/-! ### Markup and members -/

theorem leaves_markupWord? (s : List Char) : Leaves s (markupWord? s) := by
  rw [markupWord?]
  dsimp only [stretch]
  split
  · rename_i c rest hfront hrest
    split
    · exact .none
    · exact .some (List.dropWhile_suffix _ |>.trans (List.dropWhile_suffix _))
  · exact leaves_word? s

theorem suffix_of_stretch {p : Char → Bool} {front : List Char} (h : stretch p s = (front, t)) :
    t <:+ s := by
  obtain ⟨-, rfl⟩ := Prod.mk.inj h
  exact List.dropWhile_suffix p

theorem suffix_characterReference? {s rest : List Char} (h : characterReference? s = some rest) :
    rest <:+ s := by
  revert h
  fun_cases characterReference? s with
  | case1 c cs hex digits left hdigits =>
    rintro ⟨⟩
    refine (List.drop_suffix 1 left).trans ?_
    split at hdigits
    · exact (suffix_of_stretch hdigits).trans (List.suffix_append ['&', '#', c] cs)
    · exact (suffix_of_stretch hdigits).trans (List.suffix_append ['&', '#'] (c :: cs))
  | case3 cs _ letters left hletters =>
    rintro ⟨⟩
    refine (List.drop_suffix 1 left).trans ?_
    exact (suffix_of_stretch hletters).trans (List.suffix_cons _ _)
  | _ => rintro ⟨⟩

theorem suffix_attributeTail {q : Char} {fuel : Nat} {s rest : List Char}
    (h : attributeTail q fuel s = some rest) : rest <:+ s := by
  fun_induction attributeTail q fuel s with
  | case3 cs =>
    cases h
    exact List.suffix_cons _ _
  | case4 fuel d tail hd left hq hreference ih =>
    rw [hreference] at h
    exact (ih h).trans (suffix_characterReference? hreference)
  | case5 fuel d tail hd hq hreference =>
    rw [hreference] at h
    cases h
  | case6 fuel d tail hd hq ih => exact (ih h).trans (List.suffix_append ['&', d] tail)
  | case8 fuel c cs hq hc ih => exact (ih h).trans (List.suffix_cons _ _)
  | _ => cases h

theorem suffix_staticGet? {s rest : List Char} (h : staticGet? s = some rest) : rest <:+ s := by
  revert h
  fun_cases staticGet? s with
  | case1 hstatic gap tail htail hget behind left hleft =>
    rintro ⟨⟩
    have htext : tail <:+ s := (suffix_of_stretch htail).trans (List.drop_suffix 6 s)
    exact ((suffix_of_stretch hleft).trans (List.drop_suffix 3 tail)).trans htext
  | _ => rintro ⟨⟩

end Script

end ScriptWire
