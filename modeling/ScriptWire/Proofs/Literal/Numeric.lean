import ScriptWire.Literal.Number
import ScriptWire.Proofs.Binary64.Arithmetic
import ScriptWire.Proofs.Binary64.Value
import ScriptWire.Proofs.Literal.Numeral

/-!
# Numeric literals

The grammar of numeric literals, and what is read of each of them. Separators may stand between
two digits, but neither after a leading zero nor among octal digits that only a leading zero
announces.

## Main definitions

- `NumericLiteral` — the texts that are numeric literals
- `IntegerLiteral` — those without a fraction and an exponent, with their values

## Main results

- `Literal.number_of_numericLiteral` — every numeric literal is read, and an integer of at most
  fifty-three bits is read as itself
-/

namespace ScriptWire

/-- A character that stands for a digit is no other character. -/
theorem StandsFor.ne {c other : Char} {d : Nat} (h : StandsFor c d)
    (hother : other ∉ smallDigits ∧ other ∉ capitalDigits) : c ≠ other := by
  rintro rfl
  rcases exists_standsFor_iff.mp ⟨d, h⟩ with hsmall | hcapital
  · exact hother.1 hsmall
  · exact hother.2 hcapital

/-- A decimal digit is found from its place after the zero. -/
theorem StandsFor.decimal {c : Char} {d : Nat} (h : StandsFor c d) (hd : d < 10) :
    c.isDigit = true ∧ c.toNat - '0'.toNat = d := by
  rcases h with h | h
  · interval_cases d <;> cases h <;> decide
  · interval_cases d <;> cases h <;> decide

namespace Literal

/-- The characters stand for the digits in a radix, one by one. -/
def AreDigits (radix : Nat) : List Char → List Nat → Prop :=
  List.Forall₂ fun c d => StandsFor c d ∧ d < radix

/-- Digits in a radix, with separators between them. -/
inductive SeparatedDigits (radix : Nat) : List Char → List Nat → Prop
  | digit {c : Char} {d : Nat} (hd : StandsFor c d ∧ d < radix) : SeparatedDigits radix [c] [d]
  | more {cs : List Char} {ds : List Nat} {c : Char} {d : Nat} (hcs : SeparatedDigits radix cs ds)
      (hd : StandsFor c d ∧ d < radix) : SeparatedDigits radix (cs ++ [c]) (ds ++ [d])
  | separated {cs : List Char} {ds : List Nat} {c : Char} {d : Nat}
      (hcs : SeparatedDigits radix cs ds) (hd : StandsFor c d ∧ d < radix) :
      SeparatedDigits radix (cs ++ ['_', c]) (ds ++ [d])

/-- The whole part of a decimal literal. -/
inductive DecimalInteger : List Char → List Nat → Prop
  | zero : DecimalInteger ['0'] [0]
  | one {c : Char} {d : Nat} (hd : StandsFor c d ∧ d < 10) (hpos : 0 < d) : DecimalInteger [c] [d]
  | more {c : Char} {d : Nat} {cs : List Char} {ds : List Nat} (hd : StandsFor c d ∧ d < 10)
      (hpos : 0 < d) (hcs : SeparatedDigits 10 cs ds) : DecimalInteger (c :: cs) (d :: ds)
  | separated {c : Char} {d : Nat} {cs : List Char} {ds : List Nat} (hd : StandsFor c d ∧ d < 10)
      (hpos : 0 < d) (hcs : SeparatedDigits 10 cs ds) : DecimalInteger (c :: '_' :: cs) (d :: ds)
  | leadingZero {cs : List Char} {ds : List Nat} (hcs : AreDigits 10 cs ds)
      (hnonOctal : ∃ d ∈ ds, 8 ≤ d) : DecimalInteger ('0' :: cs) (0 :: ds)

/-- The exponent of a decimal literal. -/
inductive ExponentPart : List Char → Prop
  | unsigned {mark : Char} {cs : List Char} {ds : List Nat} (hmark : mark ∈ ['e', 'E'])
      (hcs : SeparatedDigits 10 cs ds) : ExponentPart (mark :: cs)
  | signed {mark sign : Char} {cs : List Char} {ds : List Nat} (hmark : mark ∈ ['e', 'E'])
      (hsign : sign ∈ ['+', '-']) (hcs : SeparatedDigits 10 cs ds) :
      ExponentPart (mark :: sign :: cs)

/-- The letters that announce a radix. -/
inductive RadixMark : Char → Nat → Prop
  | hexadecimal {mark : Char} (hmark : mark ∈ ['x', 'X']) : RadixMark mark 16
  | octal {mark : Char} (hmark : mark ∈ ['o', 'O']) : RadixMark mark 8
  | binary {mark : Char} (hmark : mark ∈ ['b', 'B']) : RadixMark mark 2

/-- The number that digits stand for, the highest one in front. -/
def valueOf (radix : Nat) (ds : List Nat) : Nat :=
  Nat.ofDigits radix ds.reverse

/-- The numeric literals without a fraction and an exponent, with their values. -/
inductive IntegerLiteral : List Char → Nat → Prop
  | decimal {cs : List Char} {ds : List Nat} (hcs : DecimalInteger cs ds) :
      IntegerLiteral cs (valueOf 10 ds)
  | finalPoint {cs : List Char} {ds : List Nat} (hcs : DecimalInteger cs ds) :
      IntegerLiteral (cs ++ ['.']) (valueOf 10 ds)
  | marked {mark : Char} {radix : Nat} {cs : List Char} {ds : List Nat}
      (hmark : RadixMark mark radix) (hcs : SeparatedDigits radix cs ds) :
      IntegerLiteral ('0' :: mark :: cs) (valueOf radix ds)
  | legacyOctal {cs : List Char} {ds : List Nat} (hcs : AreDigits 8 cs ds) (hne : cs ≠ []) :
      IntegerLiteral ('0' :: cs) (valueOf 8 ds)

/-- The numeric literals. -/
inductive NumericLiteral : List Char → Prop
  | integer {cs : List Char} {n : Nat} (hcs : IntegerLiteral cs n) : NumericLiteral cs
  | pointExponent {whole exponent : List Char} {ds : List Nat} (hwhole : DecimalInteger whole ds)
      (hexponent : ExponentPart exponent) : NumericLiteral (whole ++ '.' :: exponent)
  | fraction {whole places exponent : List Char} {ds es : List Nat}
      (hwhole : DecimalInteger whole ds) (hplaces : SeparatedDigits 10 places es)
      (hexponent : exponent = [] ∨ ExponentPart exponent) :
      NumericLiteral (whole ++ '.' :: (places ++ exponent))
  | leadingPoint {places exponent : List Char} {es : List Nat}
      (hplaces : SeparatedDigits 10 places es) (hexponent : exponent = [] ∨ ExponentPart exponent) :
      NumericLiteral ('.' :: (places ++ exponent))
  | exponent {whole exponent : List Char} {ds : List Nat} (hwhole : DecimalInteger whole ds)
      (hexponent : ExponentPart exponent) : NumericLiteral (whole ++ exponent)

section Separators

variable {radix : Nat} {cs : List Char} {ds : List Nat}

@[simp]
theorem withoutSeparators_append (as bs : List Char) :
    withoutSeparators (as ++ bs) = withoutSeparators as ++ withoutSeparators bs :=
  List.filter_append ..

theorem withoutSeparators_cons {c : Char} (hc : c ≠ '_') (cs : List Char) :
    withoutSeparators (c :: cs) = c :: withoutSeparators cs :=
  List.filter_cons_of_pos (by simpa using hc)

@[simp]
theorem withoutSeparators_underscore (cs : List Char) :
    withoutSeparators ('_' :: cs) = withoutSeparators cs :=
  rfl

theorem withoutSeparators_digits (h : AreDigits radix cs ds) : withoutSeparators cs = cs := by
  induction h with
  | nil => rfl
  | cons hd _ ih => rw [withoutSeparators_cons (hd.1.ne (by decide)), ih]

/-- Without its separators, a text of digits is one digit or more. -/
theorem SeparatedDigits.areDigits (h : SeparatedDigits radix cs ds) :
    AreDigits radix (withoutSeparators cs) ds ∧ withoutSeparators cs ≠ [] := by
  induction h with
  | @digit c d hd =>
    rw [withoutSeparators_cons (hd.1.ne (by decide))]
    exact ⟨.cons hd .nil, List.cons_ne_nil _ _⟩
  | @more cs ds c d _ hd ih =>
    rw [withoutSeparators_append, withoutSeparators_cons (hd.1.ne (by decide))]
    exact ⟨List.rel_append ih.1 (.cons hd .nil), by simp⟩
  | @separated cs ds c d _ hd ih =>
    rw [withoutSeparators_append, withoutSeparators_underscore,
      withoutSeparators_cons (hd.1.ne (by decide))]
    exact ⟨List.rel_append ih.1 (.cons hd .nil), by simp⟩

end Separators

section Digits

variable {radix : Nat} {cs : List Char} {ds : List Nat}

theorem le_foldl_digits (hradix : 0 < radix) (ds : List Nat) (m : Nat) :
    m ≤ ds.foldl (fun n d => radix * n + d) m := by
  induction ds generalizing m with
  | nil => exact Nat.le_refl m
  | cons d rest ih =>
    have hstep : m ≤ radix * m + d :=
      Nat.le_trans (Nat.le_mul_of_pos_left m hradix) (Nat.le_add_right _ _)
    exact Nat.le_trans hstep (ih _)

theorem AreDigits.all_isDigit (h : AreDigits 10 cs ds) : cs.all Char.isDigit = true := by
  induction h with
  | nil => rfl
  | cons hd _ ih => rw [List.all_cons, (hd.1.decimal hd.2).1, ih]; rfl

theorem AreDigits.all_isSome (h : AreDigits radix cs ds) :
    cs.all (fun c => (digit? radix c).isSome) = true := by
  induction h with
  | nil => rfl
  | cons hd _ ih => rw [List.all_cons, digit?_of_standsFor hd.1 hd.2, ih]; rfl

theorem AreDigits.digitsValue_eq (h : AreDigits 10 cs ds) :
    Binary64.digitsValue cs = valueOf 10 ds := by
  have hfold (m : Nat) : cs.foldl (fun n c => 10 * n + (c.toNat - '0'.toNat)) m =
      ds.foldl (fun n d => 10 * n + d) m := by
    induction h generalizing m with
    | nil => rfl
    | cons hd _ ih => rw [List.foldl_cons, List.foldl_cons, (hd.1.decimal hd.2).2, ih]
  rw [Binary64.digitsValue, hfold, valueOf, ofDigits_reverse_eq_foldl]

/-- Digits are accumulated from any start, and without rounding while there is room. -/
theorem AreDigits.foldlM_eq (h : AreDigits radix cs ds) :
    (∀ x : Binary64, ∃ y, cs.foldlM (fun x c => (digit? radix c).map fun d =>
      (x.mul (Binary64.ofNat radix)).addNat d) x = some y) ∧
    ∀ m, radix ≤ Nat.pow 2 53 → ds.foldl (fun n d => radix * n + d) m ≤ Nat.pow 2 53 →
      cs.foldlM (fun x c => (digit? radix c).map fun d =>
        (x.mul (Binary64.ofNat radix)).addNat d) (Binary64.ofNat m) =
          some (Binary64.ofNat (ds.foldl (fun n d => radix * n + d) m)) := by
  induction h with
  | nil => exact ⟨fun x => ⟨x, rfl⟩, fun m _ _ => rfl⟩
  | @cons c d cs ds hd _ ih =>
    have hdigit : digit? radix c = some d := digit?_of_standsFor hd.1 hd.2
    have hpos : 0 < radix := Nat.zero_lt_of_lt hd.2
    constructor
    · intro x
      rw [List.foldlM_cons, hdigit]
      exact ih.1 _
    · intro m hradix hroom
      rw [List.foldl_cons] at hroom ⊢
      -- Every partial sum is at most the last one.
      have hnext : radix * m + d ≤ Nat.pow 2 53 := Nat.le_trans (le_foldl_digits hpos ds _) hroom
      rw [List.foldlM_cons, hdigit, Option.map_some,
        Binary64.addNat_mul_ofNat hpos hnext hradix]
      exact ih.2 _ hradix hroom

/-- What is accumulated of digits: a number, and their value if there is room for it. -/
theorem AreDigits.accumulate?_eq (h : AreDigits radix cs ds) (hne : cs ≠ [])
    (hradix : radix ≤ 16) :
    ∃ x, accumulate? radix cs = some x ∧
      (valueOf radix ds ≤ Nat.pow 2 53 → x = Binary64.ofNat (valueOf radix ds)) := by
  obtain ⟨htotal, hexact⟩ := h.foldlM_eq
  obtain ⟨x, hx⟩ := htotal Binary64.zero
  refine ⟨x, by rw [accumulate?, if_neg hne, hx], fun hroom => ?_⟩
  rw [valueOf, ofDigits_reverse_eq_foldl] at hroom ⊢
  rw [← Binary64.ofNat_zero, hexact 0 (Nat.le_trans hradix (by decide)) hroom] at hx
  exact (Option.some.inj hx).symm

end Digits

section Decimal

open Binary64 (parse? parseUnsigned? parseExponent? ofDecimal digitsValue splitSign)

/-- A point or a decimal digit. -/
def Leads (c : Char) : Prop :=
  c = '.' ∨ ∃ d, StandsFor c d ∧ d < 10

/-- What begins with a point or a digit has no sign and is no word. -/
theorem Leads.ne {c : Char} (h : Leads c) :
    c ≠ '-' ∧ c ≠ '+' ∧ c.toLower ≠ 'i' ∧ c.toLower ≠ 'n' := by
  rcases h with rfl | ⟨d, h | h, hd⟩
  · decide
  · interval_cases d <;> cases h <;> decide
  · interval_cases d <;> cases h <;> decide

theorem splitSign_of_leads {c : Char} {tail : List Char} (hc : Leads c) :
    splitSign (c :: tail) = (false, c :: tail) := by
  unfold splitSign
  split
  · exact absurd (List.cons.inj ‹_›).1 hc.ne.1
  · exact absurd (List.cons.inj ‹_›).1 hc.ne.2.1
  · rfl

/-- A decimal text that begins with a point or a digit. -/
theorem parse?_of_leads {c : Char} {tail : List Char} (hc : Leads c) :
    parse? (c :: tail) = parseUnsigned? (c :: tail) := by
  obtain ⟨-, -, hi, hn⟩ := hc.ne
  have hword (first : Char) (rest : List Char) (hne : c.toLower ≠ first) :
      String.ofList ((c :: tail).map Char.toLower) ≠ String.ofList (first :: rest) := by
    intro heq
    rw [String.ofList_inj, List.map_cons] at heq
    exact hne (List.cons.inj heq).1
  have hinf : String.ofList ((c :: tail).map Char.toLower) ≠ "inf" := hword 'i' ['n', 'f'] hi
  have hinfinity : String.ofList ((c :: tail).map Char.toLower) ≠ "infinity" :=
    hword 'i' ['n', 'f', 'i', 'n', 'i', 't', 'y'] hi
  have hnan : String.ofList ((c :: tail).map Char.toLower) ≠ "nan" := hword 'n' ['a', 'n'] hn
  simp only [parse?, splitSign_of_leads hc, hinf, hinfinity, hnan, or_self, if_false]
  cases parseUnsigned? (c :: tail) <;> rfl

theorem parse?_digits {digits rest : List Char} {ds : List Nat} (h : AreDigits 10 digits ds)
    (hne : digits ≠ []) : parse? (digits ++ rest) = parseUnsigned? (digits ++ rest) := by
  cases h with
  | nil => exact absurd rfl hne
  | @cons _ d _ _ hd _ => exact parse?_of_leads (.inr ⟨d, hd⟩)

/-- The rest of a decimal text after its digits: nothing, or an exponent that can be read. -/
structure EndsWith (rest : List Char) : Prop where
  parsed : ∃ e, parseExponent? rest = some e
  head_mem : ∀ c ∈ rest.head?, c ∈ ['e', 'E']
  no_point : '.' ∉ rest

theorem takeWhile_digits {digits rest : List Char} (hdigits : digits.all Char.isDigit = true)
    (hrest : ∀ c ∈ rest.head?, c.isDigit = false) :
    (digits ++ rest).takeWhile Char.isDigit = digits ∧
      (digits ++ rest).dropWhile Char.isDigit = rest := by
  have hall : ∀ c ∈ digits, c.isDigit = true := List.all_eq_true.mp hdigits
  rw [List.takeWhile_append_of_pos hall, List.dropWhile_append_of_pos hall]
  cases rest with
  | nil => simp
  | cons c tail =>
    have hc : c.isDigit = false := hrest c rfl
    simp [hc]

theorem EndsWith.isDigit_head {rest : List Char} (h : EndsWith rest) :
    ∀ c ∈ rest.head?, c.isDigit = false := by
  have hmarks : ∀ c ∈ ['e', 'E'], c.isDigit = false := by simp
  exact fun c hc => hmarks c (h.head_mem c hc)

/-- Digits without a point are read as a natural. -/
theorem parseUnsigned?_whole {whole rest : List Char} (hwhole : whole.all Char.isDigit = true)
    (hne : whole ≠ []) (hrest : EndsWith rest) :
    parseUnsigned? (whole ++ rest) = (parseExponent? rest).map (ofDecimal (digitsValue whole)) := by
  obtain ⟨htake, hdrop⟩ := takeWhile_digits hwhole hrest.isDigit_head
  have hpoint : ∀ tail, rest ≠ '.' :: tail := by
    rintro tail rfl
    have hmark : '.' ∈ ['e', 'E'] := hrest.head_mem '.' rfl
    exact absurd hmark (by decide)
  simp only [parseUnsigned?, htake, hdrop, hne, false_and, if_false, List.append_nil,
    List.length_nil, Nat.cast_zero, Int.sub_zero]

/-- Digits with a point are read as their value before and after it. -/
theorem parseUnsigned?_point {whole places rest : List Char}
    (hwhole : whole.all Char.isDigit = true) (hplaces : places.all Char.isDigit = true)
    (hne : whole ≠ [] ∨ places ≠ []) (hrest : EndsWith rest) :
    parseUnsigned? (whole ++ '.' :: (places ++ rest)) =
      (parseExponent? rest).map fun e =>
        ofDecimal (digitsValue (whole ++ places)) (e - places.length) := by
  have hpoint : ∀ c ∈ ('.' :: (places ++ rest)).head?, c.isDigit = false := by
    intro c hc
    obtain rfl : '.' = c := Option.some.inj hc
    rfl
  obtain ⟨htake, hdrop⟩ := takeWhile_digits hwhole hpoint
  obtain ⟨htakePlaces, hdropPlaces⟩ := takeWhile_digits hplaces hrest.isDigit_head
  have hdigit : ¬ (whole = [] ∧ places = []) := fun h => hne.elim (· h.1) (· h.2)
  simp only [parseUnsigned?, htake, hdrop, htakePlaces, hdropPlaces, hdigit, if_false]

theorem AreDigits.no_point {radix : Nat} {cs : List Char} {ds : List Nat}
    (h : AreDigits radix cs ds) : '.' ∉ cs := by
  induction h with
  | nil => exact List.not_mem_nil
  | cons hd _ ih => exact List.not_mem_cons_of_ne_of_not_mem (hd.1.ne (by decide)).symm ih

/-- The exponent of a literal can be read, and begins with its mark. -/
theorem ExponentPart.endsWith {cs : List Char} (h : ExponentPart cs) :
    EndsWith (withoutSeparators cs) ∧ withoutSeparators cs ≠ [] := by
  have hmarks : ∀ c ∈ ['e', 'E'], c ≠ '_' ∧ '.' ≠ c ∧ (c = 'e' ∨ c = 'E') := by simp
  cases h with
  | @unsigned mark cs ds hmark hcs =>
    obtain ⟨hdigits, hne⟩ := hcs.areDigits
    obtain ⟨hseparator, hpoint, hletter⟩ := hmarks mark hmark
    -- A digit is not taken for a sign.
    have hsplit : splitSign (withoutSeparators cs) = (false, withoutSeparators cs) := by
      generalize withoutSeparators cs = digits at hdigits hne
      cases hdigits with
      | nil => exact absurd rfl hne
      | @cons c d _ _ hd _ => exact splitSign_of_leads (.inr ⟨d, hd⟩)
    rw [withoutSeparators_cons hseparator]
    refine ⟨⟨?_, fun c hc => Option.some.inj hc ▸ hmark, ?_⟩, List.cons_ne_nil _ _⟩
    · rw [parseExponent?, hsplit]
      exact ⟨_, if_pos ⟨hletter, hne, hdigits.all_isDigit⟩⟩
    · exact List.not_mem_cons_of_ne_of_not_mem hpoint hdigits.no_point
  | @signed mark sign cs ds hmark hsign hcs =>
    obtain ⟨hdigits, hne⟩ := hcs.areDigits
    obtain ⟨hseparator, hpoint, hletter⟩ := hmarks mark hmark
    have hsigns : ∀ c ∈ ['+', '-'], c ≠ '_' ∧ '.' ≠ c := by simp
    obtain ⟨hunderscore, hdifferent⟩ := hsigns sign hsign
    have hsplit : ∃ negative,
        splitSign (sign :: withoutSeparators cs) = (negative, withoutSeparators cs) := by
      rcases List.mem_pair.mp hsign with rfl | rfl
      · exact ⟨false, rfl⟩
      · exact ⟨true, rfl⟩
    obtain ⟨negative, hsplit⟩ := hsplit
    rw [withoutSeparators_cons hseparator, withoutSeparators_cons hunderscore]
    refine ⟨⟨?_, fun c hc => Option.some.inj hc ▸ hmark, ?_⟩, List.cons_ne_nil _ _⟩
    · rw [parseExponent?, hsplit]
      exact ⟨_, if_pos ⟨hletter, hne, hdigits.all_isDigit⟩⟩
    · exact List.not_mem_cons_of_ne_of_not_mem hpoint
        (List.not_mem_cons_of_ne_of_not_mem hdifferent hdigits.no_point)

theorem endsWith_nil : EndsWith [] :=
  ⟨⟨0, rfl⟩, fun _ hc => (by cases hc), List.not_mem_nil⟩

theorem endsWith_of_optional {cs : List Char} (h : cs = [] ∨ ExponentPart cs) :
    EndsWith (withoutSeparators cs) := by
  rcases h with rfl | h
  · exact endsWith_nil
  · exact h.endsWith.1

/-- Digits with a decimal rest do not announce a radix. -/
theorem announcedRadix?_digits {digits rest : List Char} {ds : List Nat}
    (h : AreDigits 10 digits ds) (hrest : ∀ c ∈ rest.head?, c ∈ ['.', 'e', 'E']) :
    announcedRadix? (digits ++ rest) = none := by
  have hmarks : ∀ c ∈ ['.', 'e', 'E'], c ≠ '0' ∧
      ¬ (c = 'x' ∨ c = 'X') ∧ ¬ (c = 'o' ∨ c = 'O') ∧ ¬ (c = 'b' ∨ c = 'B') := by simp
  have hdigit {c : Char} {d : Nat} (hd : StandsFor c d ∧ d < 10) :
      ¬ (c = 'x' ∨ c = 'X') ∧ ¬ (c = 'o' ∨ c = 'O') ∧ ¬ (c = 'b' ∨ c = 'B') := by
    obtain ⟨h | h, hlt⟩ := hd
    · interval_cases d <;> cases h <;> decide
    · interval_cases d <;> cases h <;> decide
  unfold announcedRadix?
  split
  · rename_i c tail heq
    -- The second character is a digit, or the first one of the rest.
    have hsecond : ¬ (c = 'x' ∨ c = 'X') ∧ ¬ (c = 'o' ∨ c = 'O') ∧ ¬ (c = 'b' ∨ c = 'B') := by
      cases h with
      | nil =>
        rw [List.nil_append] at heq
        exact absurd rfl (hmarks '0' (hrest '0' (by rw [heq]; rfl))).1
      | cons _ hmore =>
        rw [List.cons_append] at heq
        obtain ⟨-, heq⟩ := List.cons.inj heq
        cases hmore with
        | nil =>
          rw [List.nil_append] at heq
          exact (hmarks c (hrest c (by rw [heq]; rfl))).2
        | cons hd _ => exact (List.cons.inj heq).1 ▸ hdigit hd
    rw [if_neg hsecond.1, if_neg hsecond.2.1, if_neg hsecond.2.2]
  · rfl

theorem dropFinalPoint_append {front rest : List Char} (hpoint : '.' ∉ rest) (hne : rest ≠ []) :
    dropFinalPoint (front ++ rest) = front ++ rest := by
  rw [dropFinalPoint, if_neg]
  intro hlast
  rw [List.getLast?_append_of_ne_nil _ hne] at hlast
  exact hpoint (List.mem_of_getLast? hlast)

/-- A text that is not made of digits alone is read as a decimal text. -/
theorem numberValue?_append {front rest : List Char}
    (hradix : announcedRadix? (front ++ rest) = none)
    (hdigits : (front ++ rest).all Char.isDigit = false) (hpoint : '.' ∉ rest) (hne : rest ≠ []) :
    numberValue? (front ++ rest) = parse? (front ++ rest) := by
  have hlegacy : ¬ (1 < (front ++ rest).length ∧ (front ++ rest).head? = some '0' ∧
      (front ++ rest).all Char.isDigit = true) := by
    rintro ⟨-, -, hall⟩
    rw [hdigits] at hall
    cases hall
  simp only [numberValue?, hradix, if_neg hlegacy, dropFinalPoint_append hpoint hne]

/-- A text with a point and a digit on either side of it is read. -/
theorem exists_numberValue?_point {whole places rest : List Char} {ds es : List Nat}
    (hwhole : AreDigits 10 whole ds) (hplaces : AreDigits 10 places es) (hrest : EndsWith rest)
    (hdigit : whole ≠ [] ∨ places ≠ []) (hne : places ++ rest ≠ []) :
    ∃ x, numberValue? (whole ++ '.' :: (places ++ rest)) = some x := by
  have hpoint : '.' ∉ places ++ rest := by
    rw [List.mem_append, not_or]
    exact ⟨hplaces.no_point, hrest.no_point⟩
  have hradix : announcedRadix? (whole ++ '.' :: (places ++ rest)) = none :=
    announcedRadix?_digits hwhole fun c hc => Option.some.inj hc ▸ List.mem_cons_self
  have hall : (whole ++ '.' :: (places ++ rest)).all Char.isDigit = false := by
    rw [List.all_eq_false]
    exact ⟨'.', by simp, by decide⟩
  have hleads : parse? (whole ++ '.' :: (places ++ rest)) =
      parseUnsigned? (whole ++ '.' :: (places ++ rest)) := by
    cases hwhole with
    | nil => exact parse?_of_leads (.inl rfl)
    | cons hd _ => exact parse?_of_leads (.inr ⟨_, hd⟩)
  obtain ⟨e, he⟩ := hrest.parsed
  have hsplit : whole ++ '.' :: (places ++ rest) = (whole ++ ['.']) ++ (places ++ rest) := by simp
  rw [hsplit] at hradix hall
  rw [hsplit, numberValue?_append hradix hall hpoint hne, ← hsplit, hleads,
    parseUnsigned?_point hwhole.all_isDigit hplaces.all_isDigit hdigit hrest, he]
  exact ⟨_, rfl⟩

/-- A text of digits with an exponent is read. -/
theorem exists_numberValue?_exponent {whole rest : List Char} {ds : List Nat}
    (hwhole : AreDigits 10 whole ds) (hrest : EndsWith rest) (hdigit : whole ≠ [])
    (hne : rest ≠ []) : ∃ x, numberValue? (whole ++ rest) = some x := by
  have hmarks : ∀ c ∈ ['e', 'E'], c ∈ ['.', 'e', 'E'] ∧ c.isDigit = false := by simp
  have hradix : announcedRadix? (whole ++ rest) = none :=
    announcedRadix?_digits hwhole fun c hc => (hmarks c (hrest.head_mem c hc)).1
  have hall : (whole ++ rest).all Char.isDigit = false := by
    cases rest with
    | nil => exact absurd rfl hne
    | cons mark tail =>
      rw [List.all_eq_false]
      refine ⟨mark, by simp, ?_⟩
      rw [(hmarks mark (hrest.head_mem mark rfl)).2]
      decide
  obtain ⟨e, he⟩ := hrest.parsed
  rw [numberValue?_append hradix hall hrest.no_point hne,
    parse?_digits hwhole hdigit, parseUnsigned?_whole hwhole.all_isDigit hdigit hrest, he]
  exact ⟨_, rfl⟩

theorem AreDigits.exists_of_mem {radix : Nat} {cs : List Char} {ds : List Nat} {d : Nat}
    (h : AreDigits radix cs ds) (hd : d ∈ ds) : ∃ c ∈ cs, StandsFor c d := by
  induction h with
  | nil => cases hd
  | @cons c _ _ _ hc _ ih =>
    rcases List.mem_cons.mp hd with rfl | hmem
    · exact ⟨c, List.mem_cons_self, hc.1⟩
    · obtain ⟨c, hc, hstands⟩ := ih hmem
      exact ⟨c, List.mem_cons_of_mem _ hc, hstands⟩

/-- A character that stands for eight or more is no octal digit. -/
theorem digit?_eight_of_le {c : Char} {d : Nat} (h : StandsFor c d) (hd : 8 ≤ d) :
    digit? 8 c = none := by
  rw [Option.eq_none_iff_forall_ne_some]
  intro octal hoctal
  obtain ⟨hstands, hlt⟩ := standsFor_of_digit? (by decide) hoctal
  have hleft := digit?_of_standsFor h h.lt
  rw [digit?_of_standsFor hstands hstands.lt] at hleft
  have heq : octal = d := Option.some.inj hleft
  omega

/-- The whole part of a decimal literal is one digit or more, and is not taken for octal digits
after a leading zero. -/
theorem DecimalInteger.areDigits {cs : List Char} {ds : List Nat} (h : DecimalInteger cs ds) :
    AreDigits 10 (withoutSeparators cs) ds ∧ withoutSeparators cs ≠ [] ∧
      (1 < (withoutSeparators cs).length → (withoutSeparators cs).head? = some '0' →
        (withoutSeparators cs).all (fun c => (digit? 8 c).isSome) = false) := by
  have hfirst {c : Char} {d : Nat} {tail : List Char} (hd : StandsFor c d ∧ d < 10) (hpos : 0 < d) :
      (c :: tail).head? ≠ some '0' := by
    intro heq
    obtain rfl : c = '0' := Option.some.inj heq
    have hzero : digit? 10 '0' = some d := digit?_of_standsFor hd.1 hd.2
    obtain rfl : 0 = d := Option.some.inj hzero
    exact Nat.lt_irrefl 0 hpos
  cases h with
  | zero => exact ⟨.cons ⟨.inl rfl, by decide⟩ .nil, by decide, fun h => absurd h (by decide)⟩
  | one hd hpos =>
    rw [withoutSeparators_cons (hd.1.ne (by decide))]
    exact ⟨.cons hd .nil, List.cons_ne_nil _ _, fun _ h => absurd h (hfirst hd hpos)⟩
  | more hd hpos hcs =>
    rw [withoutSeparators_cons (hd.1.ne (by decide))]
    exact ⟨.cons hd hcs.areDigits.1, List.cons_ne_nil _ _, fun _ h => absurd h (hfirst hd hpos)⟩
  | separated hd hpos hcs =>
    rw [withoutSeparators_cons (hd.1.ne (by decide)), withoutSeparators_underscore]
    exact ⟨.cons hd hcs.areDigits.1, List.cons_ne_nil _ _, fun _ h => absurd h (hfirst hd hpos)⟩
  | leadingZero hcs hnonOctal =>
    rw [withoutSeparators_cons (by decide), withoutSeparators_digits hcs]
    refine ⟨.cons ⟨.inl rfl, by decide⟩ hcs, List.cons_ne_nil _ _, fun _ _ => ?_⟩
    obtain ⟨d, hd, hlarge⟩ := hnonOctal
    obtain ⟨c, hc, hstands⟩ := AreDigits.exists_of_mem hcs hd
    rw [List.all_eq_false]
    refine ⟨c, List.mem_cons_of_mem _ hc, ?_⟩
    rw [digit?_eight_of_le hstands hlarge]
    decide

/-- The whole part of a decimal literal is read as a natural, with a point after it or not. -/
theorem DecimalInteger.numberValue?_eq {cs : List Char} {ds : List Nat} (h : DecimalInteger cs ds) :
    numberValue? (withoutSeparators cs) = some (ofDecimal (valueOf 10 ds) 0) ∧
      numberValue? (withoutSeparators cs ++ ['.']) = some (ofDecimal (valueOf 10 ds) 0) := by
  obtain ⟨hdigits, hne, hoctal⟩ := h.areDigits
  generalize withoutSeparators cs = digits at hdigits hne hoctal
  have hparse : parse? digits = some (ofDecimal (valueOf 10 ds) 0) := by
    have hread : parse? (digits ++ []) = parseUnsigned? (digits ++ []) := parse?_digits hdigits hne
    have hwhole := parseUnsigned?_whole hdigits.all_isDigit hne endsWith_nil
    rw [List.append_nil] at hread hwhole
    rw [hread, hwhole, ← hdigits.digitsValue_eq]
    rfl
  have hdrop : dropFinalPoint ([] ++ digits) = [] ++ digits :=
    dropFinalPoint_append hdigits.no_point hne
  rw [List.nil_append] at hdrop
  constructor
  · have hradix : announcedRadix? (digits ++ []) = none :=
      announcedRadix?_digits hdigits fun c hc => (by cases hc)
    rw [List.append_nil] at hradix
    simp only [numberValue?, hradix]
    split
    next hlegacy =>
      rw [hoctal hlegacy.1 hlegacy.2.1, if_neg (by decide), hparse]
    next => rw [hdrop, hparse]
  · have hradix : announcedRadix? (digits ++ ['.']) = none :=
      announcedRadix?_digits hdigits fun c hc => Option.some.inj hc ▸ List.mem_cons_self
    have hpoint : (digits ++ ['.']).all Char.isDigit = false := by simp
    have hfinal : dropFinalPoint (digits ++ ['.']) = digits := by simp [dropFinalPoint]
    simp only [numberValue?, hradix, hpoint, and_false, Bool.false_eq_true, if_false, hfinal,
      hparse]

end Decimal

/-- A text after a radix mark is accumulated in that radix. -/
theorem numberValue?_marked {mark : Char} {radix : Nat} (h : RadixMark mark radix)
    (cs : List Char) :
    mark ≠ '_' ∧ radix ≤ 16 ∧ numberValue? ('0' :: mark :: cs) = accumulate? radix cs := by
  cases h with
  | hexadecimal hmark =>
    rcases List.mem_pair.mp hmark with rfl | rfl
    · exact ⟨by decide, by decide, rfl⟩
    · exact ⟨by decide, by decide, rfl⟩
  | octal hmark =>
    rcases List.mem_pair.mp hmark with rfl | rfl
    · exact ⟨by decide, by decide, rfl⟩
    · exact ⟨by decide, by decide, rfl⟩
  | binary hmark =>
    rcases List.mem_pair.mp hmark with rfl | rfl
    · exact ⟨by decide, by decide, rfl⟩
    · exact ⟨by decide, by decide, rfl⟩

/-- Octal digits after a leading zero are accumulated as such. -/
theorem numberValue?_legacyOctal {cs : List Char} {ds : List Nat} (h : AreDigits 8 cs ds)
    (hne : cs ≠ []) : numberValue? ('0' :: cs) = accumulate? 8 cs := by
  have hdecimal : AreDigits 10 cs ds := h.imp fun _ _ hd => ⟨hd.1, Nat.lt_trans hd.2 (by decide)⟩
  have hzero : AreDigits 10 ('0' :: cs) (0 :: ds) := .cons ⟨.inl rfl, by decide⟩ hdecimal
  have hradix : announcedRadix? (('0' :: cs) ++ []) = none :=
    announcedRadix?_digits hzero fun c hc => (by cases hc)
  rw [List.append_nil] at hradix
  have hlength : 1 < ('0' :: cs).length := by
    have hpos := List.length_pos_iff.mpr hne
    rw [List.length_cons]
    omega
  have hoctal : ('0' :: cs).all (fun c => (digit? 8 c).isSome) = true := by
    rw [List.all_cons, h.all_isSome]
    rfl
  have hall := hzero.all_isDigit
  simp only [numberValue?, hradix, hlength, hall, hoctal, List.head?_cons, and_self, if_true,
    List.drop_one, List.tail_cons]

/-- Integers are read, and without rounding if they have at most fifty-three bits. -/
theorem IntegerLiteral.numberValue?_eq {cs : List Char} {n : Nat} (h : IntegerLiteral cs n) :
    ∃ x, numberValue? (withoutSeparators cs) = some x ∧
      (n ≤ Nat.pow 2 53 → x = Binary64.ofNat n) := by
  cases h with
  | decimal hcs =>
    exact ⟨_, hcs.numberValue?_eq.1, fun hn => Binary64.ofDecimal_zero hn⟩
  | finalPoint hcs =>
    refine ⟨_, ?_, fun hn => Binary64.ofDecimal_zero hn⟩
    rw [withoutSeparators_append]
    exact hcs.numberValue?_eq.2
  | marked hmark hcs =>
    obtain ⟨hdigits, hne⟩ := hcs.areDigits
    obtain ⟨hunderscore, hradix, hvalue⟩ := numberValue?_marked hmark (withoutSeparators _)
    rw [withoutSeparators_cons (by decide), withoutSeparators_cons hunderscore, hvalue]
    exact hdigits.accumulate?_eq hne hradix
  | legacyOctal hcs hne =>
    rw [withoutSeparators_cons (by decide), withoutSeparators_digits hcs,
      numberValue?_legacyOctal hcs hne]
    exact hcs.accumulate?_eq hne (by decide)

/-- Every numeric literal is read. -/
theorem NumericLiteral.exists_numberValue? {cs : List Char} (h : NumericLiteral cs) :
    ∃ x, numberValue? (withoutSeparators cs) = some x := by
  cases h with
  | integer hcs =>
    obtain ⟨x, hx, -⟩ := hcs.numberValue?_eq
    exact ⟨x, hx⟩
  | pointExponent hwhole hexponent =>
    obtain ⟨hdigits, hne, -⟩ := hwhole.areDigits
    obtain ⟨hrest, hsome⟩ := hexponent.endsWith
    rw [withoutSeparators_append, withoutSeparators_cons (by decide)]
    exact exists_numberValue?_point hdigits .nil hrest (.inl hne) hsome
  | fraction hwhole hplaces hexponent =>
    obtain ⟨hdigits, hne, -⟩ := hwhole.areDigits
    obtain ⟨hdecimals, hsome⟩ := hplaces.areDigits
    rw [withoutSeparators_append, withoutSeparators_cons (by decide), withoutSeparators_append]
    exact exists_numberValue?_point hdigits hdecimals (endsWith_of_optional hexponent) (.inl hne)
      (List.append_ne_nil_of_left_ne_nil hsome _)
  | leadingPoint hplaces hexponent =>
    obtain ⟨hdecimals, hsome⟩ := hplaces.areDigits
    rw [withoutSeparators_cons (by decide), withoutSeparators_append]
    exact exists_numberValue?_point .nil hdecimals (endsWith_of_optional hexponent) (.inr hsome)
      (List.append_ne_nil_of_left_ne_nil hsome _)
  | exponent hwhole hexponent =>
    obtain ⟨hdigits, hne, -⟩ := hwhole.areDigits
    obtain ⟨hrest, hsome⟩ := hexponent.endsWith
    rw [withoutSeparators_append]
    exact exists_numberValue?_exponent hdigits hrest hne hsome

/-- Every numeric literal is read as a number, and one that is an integer without fraction and
exponent, of at most fifty-three bits or the one right above them, as the number with exactly that
value. -/
theorem number_of_numericLiteral {cs : List Char} (h : NumericLiteral cs) :
    ∃ x, number (String.ofList cs) = .ok x ∧
      ∀ n, IntegerLiteral cs n → n ≤ 2 ^ 53 → x.value? = some (n : ℚ) ∧ x.isNegative = false := by
  obtain ⟨x, hx⟩ := h.exists_numberValue?
  refine ⟨x, by rw [number, String.toList_ofList, hx], fun n hn hroom => ?_⟩
  obtain ⟨y, hy, hexact⟩ := hn.numberValue?_eq
  obtain rfl : x = y := Option.some.inj (hx.symm.trans hy)
  rw [hexact hroom]
  exact ⟨Binary64.value?_ofNat hroom, (Binary64.magnitude_ofNat hroom).2.1⟩

theorem number_of_numericLiteral_separated :
    IntegerLiteral ['0', 'X', '1', '_', 'f'] 31 ∧
      ∃ x, number (String.ofList ['0', 'X', '1', '_', 'f']) = .ok x ∧
        x.value? = some ((31 : Nat) : ℚ) ∧ x.isNegative = false := by
  have hone : StandsFor '1' 1 ∧ 1 < 16 := ⟨.inl rfl, by decide⟩
  have hfifteen : StandsFor 'f' 15 ∧ 15 < 16 := ⟨.inl rfl, by decide⟩
  have hdigits : SeparatedDigits 16 ['1', '_', 'f'] [1, 15] := .separated (.digit hone) hfifteen
  have hinteger : IntegerLiteral ['0', 'X', '1', '_', 'f'] 31 :=
    .marked (.hexadecimal (by decide)) hdigits
  obtain ⟨x, hx, hexact⟩ := number_of_numericLiteral (.integer hinteger)
  exact ⟨hinteger, x, hx, hexact 31 hinteger (by decide)⟩

end Literal

end ScriptWire
