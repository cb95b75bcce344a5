import ScriptWire.Literal.Digit
import Mathlib.Data.List.Forall2
import Mathlib.Data.Nat.Digits.Defs
import Mathlib.Tactic.IntervalCases

/-!
# Numerals

A numeral is a text of digits, the highest one in front. Letters stand for the digits from ten on,
in either case.

## Main definitions

- `StandsFor` — a character is a digit
- `Numeral` — a text of digits stands for a number
- `HexText` — a text of hexadecimal digits

## Main results

- `digit?_eq_some_iff`, `digitsIn?_eq_some_iff` — what is read as digits and as numbers
- `unsigned?_eq_some_iff` — a number without a sign is a numeral, after a plus sign or not
-/

namespace ScriptWire

/-- The digits up to fifteen, with small letters. -/
def smallDigits : List Char :=
  ['0', '1', '2', '3', '4', '5', '6', '7', '8', '9', 'a', 'b', 'c', 'd', 'e', 'f']

/-- The digits up to fifteen, with capital letters. -/
def capitalDigits : List Char :=
  ['0', '1', '2', '3', '4', '5', '6', '7', '8', '9', 'A', 'B', 'C', 'D', 'E', 'F']

/-- The character stands for the digit. -/
def StandsFor (c : Char) (d : Nat) : Prop :=
  smallDigits[d]? = some c ∨ capitalDigits[d]? = some c

/-- The text of digits in a radix stands for the number. -/
def Numeral (radix : Nat) (cs : List Char) (n : Nat) : Prop :=
  ∃ digits, List.Forall₂ (fun c d => StandsFor c d ∧ d < radix) cs digits ∧
    Nat.ofDigits radix digits.reverse = n

/-- The characters are hexadecimal digits. -/
def HexText (cs : List Char) : Prop :=
  ∀ c ∈ cs, c ∈ smallDigits ∨ c ∈ capitalDigits

theorem StandsFor.lt {c : Char} {d : Nat} (h : StandsFor c d) : d < 16 := by
  rcases h with h | h
  · exact (List.getElem?_eq_some_iff.mp h).1
  · exact (List.getElem?_eq_some_iff.mp h).1

theorem exists_standsFor_iff {c : Char} :
    (∃ d, StandsFor c d) ↔ c ∈ smallDigits ∨ c ∈ capitalDigits := by
  simp only [StandsFor, exists_or, List.mem_iff_getElem?]

theorem digit?_of_standsFor {radix : Nat} {c : Char} {d : Nat} (h : StandsFor c d)
    (hd : d < radix) : digit? radix c = some d := by
  have hlt : d < 16 := h.lt
  rcases h with h | h
  · interval_cases d <;> cases h <;> simp [digit?, hd]
  · interval_cases d <;> cases h <;> simp [digit?, hd]

theorem toNat_bounds {a b c : Char} (h : a ≤ c ∧ c ≤ b) :
    a.toNat ≤ c.toNat ∧ c.toNat ≤ b.toNat := by
  simpa only [Char.le_def, UInt32.le_iff_toNat_le, Char.toNat_val] using h

/-- Digits and letters follow each other in the order of their codes. -/
theorem standsFor_of_toNat {c : Char} {d : Nat}
    (h : (d ≤ 9 ∧ c.toNat = 48 + d) ∨ (10 ≤ d ∧ d ≤ 15 ∧ (c.toNat = 87 + d ∨ c.toNat = 55 + d))) :
    StandsFor c d := by
  have hc : c = Char.ofNat c.toNat := (Char.ofNat_toNat c).symm
  rcases h with ⟨hd, hn⟩ | ⟨hlow, hhigh, hn | hn⟩
  · rw [hn] at hc
    subst hc
    left
    interval_cases d <;> rfl
  · rw [hn] at hc
    subst hc
    left
    interval_cases d <;> rfl
  · rw [hn] at hc
    subst hc
    right
    interval_cases d <;> rfl

theorem standsFor_of_digit? {radix : Nat} {c : Char} {d : Nat} (hradix : radix ≤ 16)
    (h : digit? radix c = some d) : StandsFor c d ∧ d < radix := by
  have h0 : '0'.toNat = 48 := rfl
  have h9 : '9'.toNat = 57 := rfl
  have ha : 'a'.toNat = 97 := rfl
  have hA : 'A'.toNat = 65 := rfl
  simp only [digit?, Option.ite_none_right_eq_some, Option.some.injEq] at h
  obtain ⟨hlt, hvalue⟩ := h
  rw [hvalue] at hlt
  refine ⟨standsFor_of_toNat ?_, hlt⟩
  -- The value tells the range of the character: digits, small letters or capital ones.
  split at hvalue
  · have hbounds := toNat_bounds ‹_›
    omega
  · split at hvalue
    · have hbounds := toNat_bounds ‹_›
      omega
    · split at hvalue
      · have hbounds := toNat_bounds ‹_›
        omega
      · omega

/-- A character is read as the digit that it stands for. -/
theorem digit?_eq_some_iff {radix : Nat} {c : Char} {d : Nat} (hradix : radix ≤ 16) :
    digit? radix c = some d ↔ StandsFor c d ∧ d < radix :=
  ⟨standsFor_of_digit? hradix, fun h => digit?_of_standsFor h.1 h.2⟩

/-- The digits of a text are gathered from the left. -/
theorem foldlM_digits_iff {radix : Nat} (hradix : radix ≤ 16) {cs : List Char} {start n : Nat} :
    cs.foldlM (fun n c => (digit? radix c).map (radix * n + ·)) start = some n ↔
      ∃ digits, List.Forall₂ (fun c d => StandsFor c d ∧ d < radix) cs digits ∧
        digits.foldl (fun n d => radix * n + d) start = n := by
  induction cs generalizing start with
  | nil => simp [List.forall₂_nil_left_iff]
  | cons c rest ih =>
    rw [List.foldlM_cons]
    constructor
    · intro h
      obtain ⟨next, hnext, hrest⟩ := Option.bind_eq_some_iff.mp h
      obtain ⟨d, hd, rfl⟩ := Option.map_eq_some_iff.mp hnext
      obtain ⟨digits, hdigits, hn⟩ := ih.mp hrest
      exact ⟨d :: digits, .cons ((digit?_eq_some_iff hradix).mp hd) hdigits, hn⟩
    · rintro ⟨digits, hdigits, hn⟩
      cases hdigits with
      | @cons _ d _ digits hd hdigits =>
        rw [(digit?_eq_some_iff hradix).mpr hd]
        exact ih.mpr ⟨digits, hdigits, hn⟩

/-- The number that digits stand for, the highest one in front, is gathered from the left. -/
theorem ofDigits_reverse_eq_foldl (radix : Nat) (digits : List Nat) :
    Nat.ofDigits radix digits.reverse = digits.foldl (fun n d => radix * n + d) 0 := by
  rw [Nat.ofDigits_eq_foldr, List.foldr_reverse]
  simp [Nat.add_comm]

/-- A text is read as the number that it stands for. -/
theorem digitsIn?_eq_some_iff {radix : Nat} (hradix : radix ≤ 16) {cs : List Char} {n : Nat} :
    digitsIn? radix cs = some n ↔ Numeral radix cs n := by
  rw [digitsIn?, foldlM_digits_iff hradix, Numeral]
  simp only [ofDigits_reverse_eq_foldl]

/-- The characters of a numeral in radix sixteen. -/
theorem Numeral.hexText {radix : Nat} {cs : List Char} {n : Nat} (h : Numeral radix cs n) :
    HexText cs := by
  obtain ⟨digits, hdigits, -⟩ := h
  intro c hc
  induction hdigits with
  | nil => cases hc
  | cons hd _ ih =>
    rcases List.mem_cons.mp hc with rfl | hmem
    · exact exists_standsFor_iff.mp ⟨_, hd.1⟩
    · exact ih hmem

theorem HexText.not_mem {cs : List Char} {c : Char} (h : HexText cs)
    (hc : c ∉ smallDigits ∧ c ∉ capitalDigits) : c ∉ cs := by
  intro hmem
  rcases h c hmem with hsmall | hcapital
  · exact hc.1 hsmall
  · exact hc.2 hcapital

/-- A text that begins with a hexadecimal digit does not begin with another character. -/
theorem HexText.head?_append_ne {cs : List Char} {c : Char} (h : HexText cs) (hne : cs ≠ [])
    (hc : c ∉ smallDigits ∧ c ∉ capitalDigits) (rest : List Char) :
    (cs ++ rest).head? ≠ some c := by
  intro heq
  rw [List.head?_append_of_ne_nil cs hne] at heq
  exact h.not_mem hc (List.mem_of_head? heq)

/-- What is read of a number: its digits, which are all of it or what follows a plus sign. -/
theorem exists_unsigned?_eq (radix bits : Nat) (cs : List Char) :
    ∃ digits, (cs = '+' :: digits ∨ cs = digits ∧ ∀ tail, cs ≠ '+' :: tail) ∧
      ∀ n, unsigned? radix bits cs = some n ↔ digits ≠ [] ∧ digitsIn? radix digits = some n ∧
        n < Nat.pow 2 bits := by
  have hread (digits : List Char) (n : Nat) :
      unsigned? radix bits ('+' :: digits) = some n ↔
        digits ≠ [] ∧ digitsIn? radix digits = some n ∧ n < Nat.pow 2 bits := by
    unfold unsigned?
    dsimp only
    cases digits with
    | nil => simp
    | cons c rest =>
      cases hvalue : digitsIn? radix (c :: rest) with
      | none => simp [hvalue]
      | some value =>
        simp only [hvalue, Option.ite_none_right_eq_some, Option.some.injEq, ne_eq, reduceCtorEq,
          not_false_eq_true, true_and]
        constructor
        · rintro ⟨hlt, rfl⟩
          exact ⟨rfl, hlt⟩
        · rintro ⟨rfl, hlt⟩
          exact ⟨hlt, rfl⟩
  by_cases hplus : ∃ digits, cs = '+' :: digits
  · obtain ⟨digits, rfl⟩ := hplus
    exact ⟨digits, .inl rfl, hread digits⟩
  · rw [not_exists] at hplus
    have hsame : unsigned? radix bits cs = unsigned? radix bits ('+' :: cs) := by
      unfold unsigned?
      split
      · exact absurd rfl (hplus _)
      · rfl
    refine ⟨cs, .inr ⟨rfl, hplus⟩, fun n => ?_⟩
    rw [hsame]
    exact hread cs n

/-- A number without a sign is a numeral that is not too large, after a plus sign or not. -/
theorem unsigned?_eq_some_iff {radix bits : Nat} (hradix : radix ≤ 16) {cs : List Char} {n : Nat} :
    unsigned? radix bits cs = some n ↔
      ∃ digits, (cs = '+' :: digits ∨ cs = digits) ∧ digits ≠ [] ∧ Numeral radix digits n ∧
        n < Nat.pow 2 bits := by
  obtain ⟨digits, hcs, hcode⟩ := exists_unsigned?_eq radix bits cs
  rw [hcode, digitsIn?_eq_some_iff hradix]
  constructor
  · intro h
    exact ⟨digits, hcs.imp id And.left, h⟩
  · rintro ⟨others, hothers, h⟩
    -- A numeral does not begin with a plus sign, so both are the digits of the same number.
    have hplus : ∀ tail, others ≠ '+' :: tail := by
      rintro tail rfl
      exact h.2.1.hexText.not_mem (by decide) List.mem_cons_self
    have heq : others = digits := by
      rcases hcs with rfl | ⟨rfl, hunsigned⟩
      · rcases hothers with heq | heq
        · exact (List.cons.inj heq).2.symm
        · exact absurd heq.symm (hplus digits)
      · exact hothers.resolve_left (hunsigned others) |>.symm
    rwa [← heq]

/-- A code is a numeral in radix sixteen that is not too large, after a plus sign or not. -/
theorem hexCode?_eq_some_iff {cs : List Char} {n : Nat} :
    hexCode? cs = some n ↔
      ∃ digits, (cs = '+' :: digits ∨ cs = digits) ∧ digits ≠ [] ∧ Numeral 16 digits n ∧
        n < Nat.pow 2 32 :=
  unsigned?_eq_some_iff (Nat.le_refl 16)

end ScriptWire
