import ScriptWire.Proofs.Literal.Numeric
import ScriptWire.Proofs.Script.Parser
import ScriptWire.Toml.Parser

/-!
# Written TOML values

How integers, truth values and strings are written, and that they are read as what they denote,
whatever follows them on their line.

## Main definitions

- `Toml.Decimal` — the digits of a decimal number
- `Toml.Value.Written` — how integers, truth values and strings are written

## Main results

- `Toml.run_value` — a value is read as it is written
-/

namespace ScriptWire

namespace Toml

/-- The characters may stand in strings and comments. -/
def Printable (cs : List Char) : Prop :=
  ∀ c ∈ cs, c = '\t' ∨ ' ' ≤ c ∧ c ≠ '\x7f'

/-- The letters that announce a radix. -/
inductive RadixLetter : Char → Nat → Prop
  | hexadecimal : RadixLetter 'x' 16
  | octal : RadixLetter 'o' 8
  | binary : RadixLetter 'b' 2

/-- The digits of a decimal number: zero is the only one that starts with the digit zero. -/
def Decimal (cs : List Char) (n : Nat) : Prop :=
  ∃ ds, Literal.SeparatedDigits 10 cs ds ∧ Literal.valueOf 10 ds = n ∧
    (cs.head? = some '0' → cs = ['0'])

/-- How integers, truth values and strings are written. -/
inductive Value.Written : Value → List Char → Prop
  | boolean (b : Bool) : Written (.boolean b) (toString b).toList
  | decimal {cs : List Char} {n : Nat} (hcs : Decimal cs n) (hn : n < Nat.pow 2 63) :
      Written (.integer n) cs
  | negative {cs : List Char} {n : Nat} (hcs : Decimal cs n) (hn : n ≤ Nat.pow 2 63) :
      Written (.integer (-n)) ('-' :: cs)
  | marked {letter : Char} {radix : Nat} {cs : List Char} {ds : List Nat}
      (hletter : RadixLetter letter radix) (hcs : Literal.SeparatedDigits radix cs ds)
      (hn : Literal.valueOf radix ds < Nat.pow 2 63) :
      Written (.integer (Literal.valueOf radix ds)) ('0' :: letter :: cs)
  | string {cs : List Char} (hcs : Printable cs) (hquote : '\x22' ∉ cs) (hescape : '\\' ∉ cs) :
      Written (.string (String.ofList cs)) ('\x22' :: (cs ++ ['\x22']))
  | literal {cs : List Char} (hcs : Printable cs) (hquote : '\x27' ∉ cs) :
      Written (.string (String.ofList cs)) ('\x27' :: (cs ++ ['\x27']))

/-- The characters that may follow a key or a value. -/
inductive Follows : Char → Prop
  | space : Follows ' '
  | tab : Follows '\t'
  | comment : Follows '#'
  | lineEnd : Follows '\n'

open Script (run_bind_of_eq run_get_bind run_set_bind)

section Characters

variable {cs rest : List Char} {c : Char}

theorem printable_iff : Printable cs ↔ cs.all isText = true := by
  simp [Printable, isText]

theorem Printable.isText (h : Printable cs) (hc : c ∈ cs) : isText c = true :=
  List.all_eq_true.mp (printable_iff.mp h) c hc

/-- Characters that a test tells apart are different. -/
theorem ne_of_test {p : Char → Bool} {d : Char} (hc : p c = true) (hd : p d = false) : c ≠ d := by
  rintro rfl
  exact absurd (hc.symm.trans hd) (by decide)

theorem isBlank_of_ne (hspace : c ≠ ' ') (htab : c ≠ '\t') : isBlank c = false := by
  simp [isBlank, hspace, htab]

theorem dropWhile_append_cons {p : Char → Bool} (h : ∀ c ∈ cs, p c = true) (hc : p c = false) :
    (cs ++ c :: rest).dropWhile p = c :: rest := by
  rw [List.dropWhile_append_of_pos h, List.dropWhile_cons_of_neg (by simp [hc])]

theorem takeWhile_append_cons {p : Char → Bool} (h : ∀ c ∈ cs, p c = true) (hc : p c = false) :
    (cs ++ c :: rest).takeWhile p = cs := by
  rw [List.takeWhile_append_of_pos h, List.takeWhile_cons_of_neg (by simp [hc]), List.append_nil]

theorem lineQuoted?_eq_none (hdouble : c ≠ '\x22')
    (hsingle : c ≠ '\x27') : lineQuoted? (c :: cs) = none := by
  rw [lineQuoted?]
  · exact fun _ h => hdouble (List.cons.inj h).1
  · exact fun _ h => hsingle (List.cons.inj h).1

theorem run_mark?_of_ne {d : Char} (h : c ≠ d) :
    (mark? d).run (c :: rest) = some (false, c :: rest) := by
  have hafter : after? d (c :: rest) = none := if_neg h
  rw [mark?]
  refine (run_get_bind _ _).trans ?_
  rw [hafter]
  rfl

end Characters

section Numbers

variable {radix : Nat} {cs : List Char} {ds : List Nat}

theorem digit?_separator (radix : Nat) : digit? radix '_' = none := by
  simp [digit?]

theorem groupedAfter_append {n m : Nat} (h : groupedAfter radix n cs = some m)
    (rest : List Char) :
    groupedAfter radix n (cs ++ rest) = groupedAfter radix m rest := by
  fun_induction groupedAfter radix n cs with
  | case1 n =>
    cases h
    rfl
  | case2 n c cs ih =>
    obtain ⟨d, hd, hcs⟩ := Option.bind_eq_some_iff.mp h
    rw [List.cons_append, List.cons_append, groupedAfter, hd]
    exact ih d hcs
  | case3 n c cs _ ih =>
    obtain ⟨d, hd, hcs⟩ := Option.bind_eq_some_iff.mp h
    rw [List.cons_append, groupedAfter, hd]
    · exact ih d hcs
    · rintro _ _ rfl
      rw [digit?_separator] at hd
      cases hd

theorem grouped?_append {m : Nat} (h : grouped? radix cs = some m) (rest : List Char) :
    grouped? radix (cs ++ rest) = groupedAfter radix m rest := by
  cases cs with
  | nil => cases h
  | cons c cs =>
    obtain ⟨d, hd, hcs⟩ := Option.bind_eq_some_iff.mp h
    rw [List.cons_append, grouped?, hd]
    exact groupedAfter_append hcs rest

theorem groupedAfter_digit {c : Char} {d : Nat} (n : Nat) (hd : StandsFor c d ∧ d < radix) :
    groupedAfter radix n [c] = some (radix * n + d) ∧
      groupedAfter radix n ['_', c] = some (radix * n + d) := by
  have hdigit : digit? radix c = some d := digit?_of_standsFor hd.1 hd.2
  constructor
  · rw [groupedAfter, hdigit]
    · rfl
    · simp
  · rw [groupedAfter, hdigit]
    rfl

theorem valueOf_concat (radix : Nat) (ds : List Nat) (d : Nat) :
    Literal.valueOf radix (ds ++ [d]) = radix * Literal.valueOf radix ds + d := by
  simp only [Literal.valueOf, ofDigits_reverse_eq_foldl, List.foldl_append, List.foldl_cons,
    List.foldl_nil]

/-- Digits with single separators between them have the value of the digits. -/
theorem grouped?_of_separatedDigits (h : Literal.SeparatedDigits radix cs ds) :
    grouped? radix cs = some (Literal.valueOf radix ds) := by
  induction h with
  | digit hd =>
    rw [grouped?, digit?_of_standsFor hd.1 hd.2]
    simp [Literal.valueOf, groupedAfter]
  | more hcs hd ih => rw [grouped?_append ih, (groupedAfter_digit _ hd).1, valueOf_concat]
  | separated hcs hd ih => rw [grouped?_append ih, (groupedAfter_digit _ hd).2, valueOf_concat]

/-- The characters of digits with separators. -/
theorem mem_separatedDigits (h : Literal.SeparatedDigits radix cs ds) {c : Char} (hc : c ∈ cs) :
    c = '_' ∨ ∃ d, StandsFor c d ∧ d < radix := by
  induction h with
  | digit hd =>
    obtain rfl := List.mem_singleton.mp hc
    exact .inr ⟨_, hd⟩
  | more hcs hd ih =>
    rcases List.mem_append.mp hc with hc | hc
    · exact ih hc
    · obtain rfl := List.mem_singleton.mp hc
      exact .inr ⟨_, hd⟩
  | separated hcs hd ih =>
    rcases List.mem_append.mp hc with hc | hc
    · exact ih hc
    · rcases List.mem_cons.mp hc with rfl | hc
      · exact .inl rfl
      · obtain rfl := List.mem_singleton.mp hc
        exact .inr ⟨_, hd⟩

theorem decimal?_of_decimal {n : Nat} (h : Decimal cs n) : decimal? cs = some n := by
  obtain ⟨ds, hcs, rfl, hzero⟩ := h
  rw [decimal?]
  · exact grouped?_of_separatedDigits hcs
  · rintro c tail rfl
    exact absurd (hzero rfl) (by simp)

end Numbers

section Moments

variable {cs rest tail : List Char} {c : Char}

theorem after?_eq_none {mark d : Char} (hd : tail.head? = some d) (hne : d ≠ mark) :
    after? mark tail = none := by
  cases tail with
  | nil => rfl
  | cons first tail =>
    cases hd
    exact if_neg hne

/-- A number of fixed length in front of what is no digit ends before it. -/
theorem exists_head?_of_fixed? {count n : Nat} (hc : digit? 10 c = none)
    (h : fixed? count (cs ++ c :: rest) = some (n, tail)) :
    ∃ d ∈ cs ++ [c], tail.head? = some d := by
  rw [fixed?] at h
  split at h
  · cases h
  · rename_i hlength
    obtain ⟨value, hvalue, heq⟩ := Option.bind_eq_some_iff.mp h
    obtain ⟨rfl, rfl⟩ := Prod.mk.inj (Option.some.inj heq)
    have hcount : count ≤ cs.length := by
      by_contra hlt
      obtain ⟨more, hmore⟩ : ∃ more, count - cs.length = more + 1 :=
        ⟨count - cs.length - 1, by omega⟩
      have hmem : c ∈ (cs ++ c :: rest).take count := by
        rw [List.take_append, hmore, List.take_succ_cons]
        exact List.mem_append_right _ List.mem_cons_self
      obtain ⟨ds, hdigits, -⟩ := (digitsIn?_eq_some_iff (by decide)).mp hvalue
      have hsome := List.all_eq_true.mp (Literal.AreDigits.all_isSome hdigits) c hmem
      rw [hc] at hsome
      cases hsome
    rw [List.drop_append_of_le_length hcount]
    cases hdrop : cs.drop count with
    | nil => exact ⟨c, by simp, rfl⟩
    | cons d ds =>
      refine ⟨d, List.mem_append_left _ (List.mem_of_mem_drop (hdrop ▸ List.mem_cons_self)), rfl⟩

/-- What begins with a number and goes on with neither a hyphen nor a colon is no moment. -/
theorem moment?_of_number (hc : digit? 10 c = none) (hdate : '-' ∉ cs ++ [c])
    (htime : ':' ∉ cs ++ [c]) : moment? (cs ++ c :: rest) = none := by
  have hnoDate : date? (cs ++ c :: rest) = none := by
    rw [date?]
    cases hyear : fixed? 4 (cs ++ c :: rest) with
    | none => rfl
    | some year =>
      obtain ⟨d, hd, hhead⟩ := exists_head?_of_fixed? hc hyear
      simp only [Option.bind_eq_bind, Option.bind_some,
        after?_eq_none hhead (ne_of_mem_of_not_mem hd hdate)]
      rfl
  have hnoTime : time? (cs ++ c :: rest) = none := by
    rw [time?, pair?]
    cases hhour : fixed? 2 (cs ++ c :: rest) with
    | none => rfl
    | some hour =>
      obtain ⟨d, hd, hhead⟩ := exists_head?_of_fixed? hc hhour
      have hafter := after?_eq_none hhead (ne_of_mem_of_not_mem hd htime)
      simp only [Option.bind_eq_bind, Option.bind_some]
      split
      · simp only [Option.bind_some, hafter]
        rfl
      · rfl
  rw [moment?, hnoDate, hnoTime]

theorem moment?_of_first (hc : digit? 10 c = none) : moment? (c :: cs) = none := by
  have hfixed (count : Nat) : fixed? (count + 1) (c :: cs) = none := by
    rw [fixed?]
    split
    · rfl
    · rw [List.take_succ_cons, digitsIn?, List.foldlM_cons, hc]
      rfl
  rw [moment?, date?, hfixed 3, time?, pair?, hfixed 1]
  rfl

end Moments

section Values

variable {cs rest text : List Char} {c : Char} {v : Value}

theorem Follows.ne (h : Follows c) :
    isAtomPart c = false ∧ digit? 10 c = none ∧ c ≠ '-' ∧ c ≠ ':' ∧ c ≠ '\x22' ∧ c ≠ '\x27' := by
  cases h <;> decide

theorem quoted?_eq_none (hdouble : c ≠ '\x22') (hsingle : c ≠ '\x27') :
    quoted? (c :: cs) = none := by
  rw [quoted?]
  · exact lineQuoted?_eq_none hdouble hsingle
  · exact fun _ h => hdouble (List.cons.inj h).1
  · exact fun _ h => hsingle (List.cons.inj h).1

/-- A word or a number is read as what it denotes. -/
theorem run_scalar_atom (hatom : atom? text = some v) (hparts : ∀ d ∈ text, isAtomPart d = true)
    (hmoment : moment? (text ++ c :: rest) = none) (hc : Follows c) :
    scalar.run (text ++ c :: rest) = some (v, c :: rest) := by
  obtain ⟨hend, -, -, -, hdouble, hsingle⟩ := hc.ne
  have hquoted : quoted? (text ++ c :: rest) = none := by
    cases text with
    | nil => exact quoted?_eq_none hdouble hsingle
    | cons d text =>
      have hd : isAtomPart d = true := hparts d List.mem_cons_self
      exact quoted?_eq_none (ne_of_test hd (by decide)) (ne_of_test hd (by decide))
  rw [scalar]
  refine (run_get_bind _ _).trans ?_
  rw [hquoted]
  dsimp only
  rw [hmoment]
  dsimp only
  refine (run_set_bind _ _ _).trans ?_
  rw [takeWhile_append_cons hparts hend, dropWhile_append_cons hparts hend, hatom]
  rfl

theorem basicTail_eq (hcs : Printable cs) (hquote : '\x22' ∉ cs) (hescape : '\\' ∉ cs) :
    basicTail (cs ++ '\x22' :: rest) = some (cs, rest) := by
  induction cs with
  | nil => rfl
  | cons d cs ih =>
    have htext : isText d = true := hcs.isText List.mem_cons_self
    have htail := ih (fun e he => hcs e (List.mem_cons_of_mem d he))
      (fun he => hquote (List.mem_cons_of_mem d he)) (fun he => hescape (List.mem_cons_of_mem d he))
    have hdouble : d ≠ '\x22' := fun heq => hquote (heq ▸ List.mem_cons_self)
    have hback : d ≠ '\\' := fun heq => hescape (heq ▸ List.mem_cons_self)
    rw [List.cons_append, basicTail, if_pos htext, htail]
    · rfl
    all_goals simp_all

theorem literalTail_eq (hcs : Printable cs) (hquote : '\x27' ∉ cs) :
    literalTail (cs ++ '\x27' :: rest) = some (cs, rest) := by
  induction cs with
  | nil => rfl
  | cons d cs ih =>
    have htext : isText d = true := hcs.isText List.mem_cons_self
    have htail := ih (fun e he => hcs e (List.mem_cons_of_mem d he))
      (fun he => hquote (List.mem_cons_of_mem d he))
    have hsingle : d ≠ '\x27' := fun heq => hquote (heq ▸ List.mem_cons_self)
    rw [List.cons_append, literalTail, if_pos htext, htail]
    · rfl
    · exact hsingle

theorem atom?_of_integer? {n : Int} (h : integer? text = some n) :
    atom? text = some (.integer n) := by
  have hword (word : List Char) (hnone : integer? word = none) : text ≠ word := by
    rintro rfl
    rw [hnone] at h
    cases h
  rw [atom?, if_neg (hword _ (by rfl)), if_neg (hword _ (by rfl)), h]

theorem integer?_of_wholeNumber? {n : Int} (h : wholeNumber? text = some n)
    (hlow : -(Nat.pow 2 63 : Int) ≤ n) (hhigh : n < (Nat.pow 2 63 : Int)) :
    integer? text = some n := by
  rw [integer?, h]
  refine if_pos ?_
  rw [Bool.and_eq_true, decide_eq_true_iff, decide_eq_true_iff]
  exact ⟨hlow, hhigh⟩

theorem isAtomPart_of_standsFor {d : Nat} (h : StandsFor c d) : isAtomPart c = true := by
  have hsmall : smallDigits.all isAtomPart = true := by decide
  have hcapital : capitalDigits.all isAtomPart = true := by decide
  rcases exists_standsFor_iff.mp ⟨d, h⟩ with hc | hc
  · exact List.all_eq_true.mp hsmall c hc
  · exact List.all_eq_true.mp hcapital c hc

theorem run_value_scalar (hbracket : c ≠ '[') (hbrace : c ≠ '\x7b') (levels : Nat) :
    (value (levels + 1)).run (c :: rest) = scalar.run (c :: rest) := by
  rw [value]
  exact (run_bind_of_eq (run_mark?_of_ne hbracket)).trans
    (run_bind_of_eq (run_mark?_of_ne hbrace))

theorem run_value_atom (hatom : atom? text = some v) (hparts : ∀ d ∈ text, isAtomPart d = true)
    (hmoment : moment? (text ++ c :: rest) = none) (hc : Follows c) (levels : Nat) :
    (value (levels + 1)).run (text ++ c :: rest) = some (v, c :: rest) := by
  cases text with
  | nil => cases hatom
  | cons d text =>
    have hd : isAtomPart d = true := hparts d List.mem_cons_self
    rw [List.cons_append, run_value_scalar (ne_of_test hd (by decide)) (ne_of_test hd (by decide))]
    exact run_scalar_atom hatom hparts hmoment hc

/-- What digits with separators are made of. -/
theorem isAtomPart_of_separatedDigits {radix : Nat} {ds : List Nat}
    (h : Literal.SeparatedDigits radix cs ds) :
    (∀ d ∈ cs, isAtomPart d = true) ∧ '-' ∉ cs ∧ ':' ∉ cs := by
  refine ⟨fun d hd => ?_, fun hd => ?_, fun hd => ?_⟩
  · rcases mem_separatedDigits h hd with rfl | ⟨_, hdigit, _⟩
    · decide
    · exact isAtomPart_of_standsFor hdigit
  · rcases mem_separatedDigits h hd with heq | ⟨_, hdigit, _⟩
    · exact absurd heq (by decide)
    · exact hdigit.ne (by decide) rfl
  · rcases mem_separatedDigits h hd with heq | ⟨_, hdigit, _⟩
    · exact absurd heq (by decide)
    · exact hdigit.ne (by decide) rfl

theorem Decimal.isAtomPart {n : Nat} (h : Decimal cs n) :
    (∀ d ∈ cs, isAtomPart d = true) ∧ '-' ∉ cs ∧ ':' ∉ cs := by
  obtain ⟨ds, hdigits, -, -⟩ := h
  exact isAtomPart_of_separatedDigits hdigits

/-- An integer in front of what may follow it. -/
theorem run_value_integer {n : Int} (hwhole : wholeNumber? text = some n)
    (hlow : -(Nat.pow 2 63 : Int) ≤ n) (hhigh : n < (Nat.pow 2 63 : Int))
    (hparts : ∀ d ∈ text, isAtomPart d = true)
    (hmoment : moment? (text ++ c :: rest) = none) (hc : Follows c) (levels : Nat) :
    (value (levels + 1)).run (text ++ c :: rest) = some (.integer n, c :: rest) :=
  run_value_atom (atom?_of_integer? (integer?_of_wholeNumber? hwhole hlow hhigh)) hparts hmoment hc
    levels

theorem moment?_of_parts (hdate : '-' ∉ text) (htime : ':' ∉ text) (hc : Follows c) :
    moment? (text ++ c :: rest) = none := by
  obtain ⟨-, hdigit, hhyphen, hcolon, -, -⟩ := hc.ne
  refine moment?_of_number hdigit ?_ ?_
  · simp [hdate, hhyphen.symm]
  · simp [htime, hcolon.symm]

/-- A decimal number does not begin with the mark of another radix or with a sign. -/
theorem wholeNumber?_of_decimal {n : Nat} (h : Decimal cs n) :
    wholeNumber? cs = some (n : Int) := by
  have hvalue := decimal?_of_decimal h
  obtain ⟨ds, hcs, -, hzero⟩ := h
  have hmark (mark : Char) (tail : List Char) : cs ≠ '0' :: mark :: tail := by
    rintro rfl
    exact absurd (hzero rfl) (by simp)
  have hplus (tail : List Char) : cs ≠ '+' :: tail := by
    rintro rfl
    rcases mem_separatedDigits hcs List.mem_cons_self with heq | ⟨_, hdigit, _⟩
    · exact absurd heq (by decide)
    · exact hdigit.ne (by decide) rfl
  have hminus (tail : List Char) : cs ≠ '-' :: tail := by
    rintro rfl
    exact (isAtomPart_of_separatedDigits hcs).2.1 List.mem_cons_self
  rw [wholeNumber?, hvalue]
  · rfl
  all_goals simp_all

/-- A string on one line is not mistaken for one in three quotes. -/
theorem ne_quote_quote {quote : Char} (hquote : quote ∉ cs) (hc : c ≠ quote) (tail : List Char) :
    cs ++ quote :: c :: rest ≠ quote :: quote :: tail := by
  cases cs with
  | nil => simp [hc]
  | cons d cs =>
    have hd : d ≠ quote := fun heq => hquote (heq ▸ List.mem_cons_self)
    simp [hd]

theorem run_value_quoted {taken : List Char} (hquoted : quoted? (c :: cs) = some (taken, rest))
    (hc : c = '\x22' ∨ c = '\x27') (levels : Nat) :
    (value (levels + 1)).run (c :: cs) = some (.string (String.ofList taken), rest) := by
  have hscalar : scalar.run (c :: cs) = some (.string (String.ofList taken), rest) := by
    rw [scalar]
    refine (run_get_bind _ _).trans ?_
    rw [hquoted]
    rfl
  rcases hc with rfl | rfl
  · exact (run_value_scalar (by decide) (by decide) levels).trans hscalar
  · exact (run_value_scalar (by decide) (by decide) levels).trans hscalar

/-- A value is read as it is written. -/
theorem run_value (h : v.Written text) (hc : Follows c) (levels : Nat) :
    (value (levels + 1)).run (text ++ c :: rest) = some (v, c :: rest) := by
  have hbound : 0 < Nat.pow 2 63 := by decide
  cases h with
  | boolean b =>
    have hparts : (toString b).toList.all isAtomPart = true := by
      cases b <;> decide
    have hatom : atom? (toString b).toList = some (.boolean b) := by
      cases b <;> rfl
    refine run_value_atom hatom (List.all_eq_true.mp hparts) ?_ hc levels
    cases b <;> exact moment?_of_first (by decide)
  | @decimal _ n hcs hn =>
    obtain ⟨hparts, hhyphen, hcolon⟩ := hcs.isAtomPart
    exact run_value_integer (wholeNumber?_of_decimal hcs) (by omega) (by omega) hparts
      (moment?_of_parts hhyphen hcolon hc) hc levels
  | @negative cs n hcs hn =>
    have hwhole : wholeNumber? ('-' :: cs) = some (-(n : Int)) := by
      rw [wholeNumber?, decimal?_of_decimal hcs]
      rfl
    refine run_value_integer hwhole (by omega) (by omega) ?_ (moment?_of_first (by decide)) hc
      levels
    exact List.forall_mem_cons.mpr ⟨by decide, hcs.isAtomPart.1⟩
  | @marked letter radix cs ds hletter hcs hn =>
    obtain ⟨hparts, hhyphen, hcolon⟩ := isAtomPart_of_separatedDigits hcs
    have hwhole : wholeNumber? ('0' :: letter :: cs) = some (Literal.valueOf radix ds : Int) := by
      cases hletter <;> rw [wholeNumber?, grouped?_of_separatedDigits hcs] <;> rfl
    have hmarked : isAtomPart letter = true ∧ letter ≠ '-' ∧ letter ≠ ':' := by
      cases hletter <;> decide
    refine run_value_integer hwhole (by omega) (by omega) ?_ (moment?_of_parts ?_ ?_ hc) hc levels
    · exact List.forall_mem_cons.mpr ⟨by decide, List.forall_mem_cons.mpr ⟨hmarked.1, hparts⟩⟩
    · simp [hhyphen, hmarked.2.1.symm]
    · simp [hcolon, hmarked.2.2.symm]
  | @string cs hcs hquote hescape =>
    obtain ⟨-, -, -, -, hdouble, -⟩ := hc.ne
    rw [List.cons_append, List.append_assoc, List.singleton_append]
    refine run_value_quoted ?_ (.inl rfl) levels
    rw [quoted?]
    · exact basicTail_eq hcs hquote hescape
    · exact fun tail h => ne_quote_quote hquote hdouble tail (List.cons.inj h).2
    · simp
  | @literal cs hcs hquote =>
    obtain ⟨-, -, -, -, -, hsingle⟩ := hc.ne
    rw [List.cons_append, List.append_assoc, List.singleton_append]
    refine run_value_quoted ?_ (.inr rfl) levels
    rw [quoted?]
    · exact literalTail_eq hcs hquote
    · simp
    · exact fun tail h => ne_quote_quote hquote hsingle tail (List.cons.inj h).2


theorem Value.Written.exists_cons (h : v.Written text) :
    ∃ c tail, text = c :: tail ∧ isBlank c = false := by
  cases h with
  | boolean b =>
    cases b with
    | false => exact ⟨'f', _, rfl, rfl⟩
    | true => exact ⟨'t', _, rfl, rfl⟩
  | decimal hcs _ =>
    obtain ⟨ds, hdigits, -, -⟩ := hcs
    obtain ⟨hparts, -, -⟩ := isAtomPart_of_separatedDigits hdigits
    cases text with
    | nil => cases grouped?_of_separatedDigits hdigits
    | cons c tail =>
      have hc : isAtomPart c = true := hparts c List.mem_cons_self
      exact ⟨c, tail, rfl, isBlank_of_ne (ne_of_test hc (by decide)) (ne_of_test hc (by decide))⟩
  | negative _ _ => exact ⟨'-', _, rfl, rfl⟩
  | marked _ _ _ => exact ⟨'0', _, rfl, rfl⟩
  | string _ _ _ => exact ⟨'\x22', _, rfl, rfl⟩
  | literal _ _ => exact ⟨'\x27', _, rfl, rfl⟩

end Values

end Toml

end ScriptWire
