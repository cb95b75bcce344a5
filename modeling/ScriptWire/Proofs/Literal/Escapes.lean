import ScriptWire.Proofs.Ensures
import ScriptWire.Proofs.Literal.Spelling
import Mathlib.Data.List.TakeWhile

/-!
# Escapes of a text that is read

The digits of an escape are read as a code, which may have a plus sign in front, and an escape at
the end of the text is read from the digits that are left. Apart from these two liberties, the
escapes of a text that is read are well-formed.

## Main definitions

- `Literal.EveryEscape` — a property of all escapes of a text
- `Literal.WellFormed` — an escape has the digits that its letter asks for
- `Literal.Accepted` — the digits of an escape are a code
- `Literal.Signed`, `Literal.CutShort` — the two liberties

## Main results

- `Literal.Accepted.wellFormed_iff` — what keeps an accepted escape from being well-formed
- `Literal.everyEscape_of_escape` — one step only goes past accepted escapes
- `Literal.everyEscape_of_unescape` — the escapes of a text that is read
- `Literal.unescape_malformed` — texts that are read though their escapes are not well-formed
-/

namespace ScriptWire

namespace Literal

/-- Read from the left, every backslash is followed by a character, and that character and the text
after it have the property. -/
inductive EveryEscape (P : Char → List Char → Prop) : (raw : List Char) → Prop
  | nil : EveryEscape P []
  | plain {c : Char} {rest : List Char} (hc : c ≠ '\\') (h : EveryEscape P rest) :
      EveryEscape P (c :: rest)
  | escape {c : Char} {rest : List Char} (hc : P c rest) (h : EveryEscape P rest) :
      EveryEscape P ('\\' :: c :: rest)

/-- After `x` stand two hexadecimal digits, and after `u` four, or at least one between braces. -/
structure WellFormed (c : Char) (rest : List Char) : Prop where
  byte : c = 'x' → ∃ hex after, rest = hex ++ after ∧ hex.length = 2 ∧ HexText hex
  unit : c = 'u' →
    (∃ hex after, rest = hex ++ after ∧ hex.length = 4 ∧ HexText hex) ∨
      ∃ hex after, rest = '{' :: (hex ++ '}' :: after) ∧ hex ≠ [] ∧ HexText hex

/-- At least one hexadecimal digit, after a plus sign or not. -/
def Code (cs : List Char) : Prop :=
  ∃ hex, (cs = '+' :: hex ∨ cs = hex) ∧ hex ≠ [] ∧ HexText hex

/-- In the two places after `x` stands a code, and so in the four after `u`, or in front of the next
closing brace. Where the text ends, there are fewer places and there need not be such a brace. -/
structure Accepted (c : Char) (rest : List Char) : Prop where
  byte : c = 'x' → Code (rest.take 2)
  unit : c = 'u' →
    Code (rest.take 4) ∨ ∃ tail, rest = '{' :: tail ∧ Code (tail.takeWhile (· != '}'))

/-- A plus sign stands where the first digit of an escape belongs. -/
def Signed (c : Char) (rest : List Char) : Prop :=
  (c = 'x' ∨ c = 'u') ∧ rest.head? = some '+' ∨ c = 'u' ∧ ∃ tail, rest = '{' :: '+' :: tail

/-- The text ends before the escape does. -/
def CutShort (c : Char) (rest : List Char) : Prop :=
  c = 'x' ∧ rest.length < 2 ∨
    c = 'u' ∧ if rest.head? = some '{' then '}' ∉ rest else rest.length < 4

/-! ### Codes -/

theorem code_of_hexCode? {cs : List Char} {n : Nat} (h : hexCode? cs = some n) : Code cs := by
  obtain ⟨hex, hcs, hne, hcode, -⟩ := hexCode?_eq_some_iff.mp h
  exact ⟨hex, hcs, hne, hcode.hexText⟩

theorem Code.ne_nil {cs : List Char} (h : Code cs) : cs ≠ [] := by
  obtain ⟨hex, rfl | rfl, hne, -⟩ := h
  · exact List.cons_ne_nil _ _
  · exact hne

theorem Code.not_mem {cs : List Char} {c : Char} (h : Code cs) (hplus : c ≠ '+')
    (hc : c ∉ smallDigits ∧ c ∉ capitalDigits) : c ∉ cs := by
  obtain ⟨hex, rfl | rfl, -, hhex⟩ := h
  · rw [List.mem_cons, not_or]
    exact ⟨hplus, hhex.not_mem hc⟩
  · exact hhex.not_mem hc

/-- A code without a plus sign in front has digits only. -/
theorem Code.hexText {cs : List Char} (h : Code cs) (hplus : cs.head? ≠ some '+') :
    HexText cs := by
  obtain ⟨hex, rfl | rfl, -, hhex⟩ := h
  · exact absurd rfl hplus
  · exact hhex

/-! ### Accepted escapes -/

variable {c : Char} {rest : List Char}

theorem WellFormed.not_signed (h : WellFormed c rest) : ¬ Signed c rest := by
  rintro (⟨rfl | rfl, hhead⟩ | ⟨rfl, tail, rfl⟩)
  · obtain ⟨hex, after, rfl, hlength, hhex⟩ := h.byte rfl
    have hne : hex ≠ [] := List.ne_nil_of_length_pos (by omega)
    exact hhex.head?_append_ne hne (by decide) after hhead
  · rcases h.unit rfl with ⟨hex, after, rfl, hlength, hhex⟩ | ⟨hex, after, rfl, -, -⟩
    · have hne : hex ≠ [] := List.ne_nil_of_length_pos (by omega)
      exact hhex.head?_append_ne hne (by decide) after hhead
    · rw [List.head?_cons, Option.some.injEq] at hhead
      exact absurd hhead (by decide)
  · rcases h.unit rfl with ⟨hex, after, heq, hlength, hhex⟩ | ⟨hex, after, heq, hne, hhex⟩
    · have hne : hex ≠ [] := List.ne_nil_of_length_pos (by omega)
      refine hhex.head?_append_ne (c := '{') hne (by decide) after ?_
      rw [← heq, List.head?_cons]
    · refine hhex.head?_append_ne (c := '+') hne (by decide) ('}' :: after) ?_
      rw [← (List.cons.inj heq).2, List.head?_cons]

theorem WellFormed.not_cutShort (h : WellFormed c rest) : ¬ CutShort c rest := by
  rintro (⟨rfl, hshort⟩ | ⟨rfl, hshort⟩)
  · obtain ⟨hex, after, rfl, hlength, -⟩ := h.byte rfl
    rw [List.length_append] at hshort
    omega
  · rcases h.unit rfl with ⟨hex, after, rfl, hlength, hhex⟩ | ⟨hex, after, rfl, -, -⟩
    · have hne : hex ≠ [] := List.ne_nil_of_length_pos (by omega)
      rw [if_neg (hhex.head?_append_ne hne (by decide) after), List.length_append] at hshort
      omega
    · rw [List.head?_cons, if_pos rfl] at hshort
      exact hshort (by simp)

/-- The places of an accepted escape hold digits if there are enough of them and no plus sign. -/
theorem exists_hexText_of_code {places : Nat} (hplaces : 0 < places)
    (hcode : Code (rest.take places)) (hplus : rest.head? ≠ some '+')
    (hlength : places ≤ rest.length) :
    ∃ hex after, rest = hex ++ after ∧ hex.length = places ∧ HexText hex := by
  refine ⟨rest.take places, rest.drop places, (List.take_append_drop places rest).symm,
    List.length_take_of_le hlength, hcode.hexText ?_⟩
  rw [List.head?_take, if_neg (Nat.ne_of_gt hplaces)]
  exact hplus

theorem accepted_byte (h : Code (rest.take 2)) : Accepted 'x' rest :=
  ⟨fun _ => h, fun heq => absurd heq (by decide)⟩

theorem accepted_unit
    (h : Code (rest.take 4) ∨ ∃ tail, rest = '{' :: tail ∧ Code (tail.takeWhile (· != '}'))) :
    Accepted 'u' rest :=
  ⟨fun heq => absurd heq (by decide), fun _ => h⟩

/-- A closing brace divides a text, or there is none in it. -/
theorem splitBrace_cases (cs : List Char) :
    cs = (splitBrace cs).1 ++ '}' :: (splitBrace cs).2 ∨
      cs = (splitBrace cs).1 ∧ '}' ∉ cs := by
  have hsplit : cs.takeWhile (· != '}') ++ cs.dropWhile (· != '}') = cs :=
    List.takeWhile_append_dropWhile
  cases hdrop : cs.dropWhile (· != '}') with
  | nil =>
    right
    have hnone : '}' ∉ cs := by
      intro hmem
      have hall := List.dropWhile_eq_nil_iff.mp hdrop '}' hmem
      exact absurd hall (by decide)
    rw [hdrop, List.append_nil] at hsplit
    exact ⟨hsplit.symm, hnone⟩
  | cons d tail =>
    left
    have hd : d = '}' := by
      have hhead := List.head?_dropWhile_not (· != '}') cs
      rw [hdrop] at hhead
      simpa using hhead
    subst hd
    rw [splitBrace, hdrop, List.drop_one, List.tail_cons, ← hdrop]
    exact hsplit.symm

theorem exists_hexText_of_braced {tail : List Char} (hcode : Code (splitBrace tail).1)
    (hplus : tail.head? ≠ some '+') (hbrace : '}' ∈ tail) :
    ∃ hex after, tail = hex ++ '}' :: after ∧ hex ≠ [] ∧ HexText hex := by
  rcases splitBrace_cases tail with heq | ⟨-, hnone⟩
  · have hhead : tail.head? = (splitBrace tail).1.head? := by
      rw [← List.head?_append_of_ne_nil _ hcode.ne_nil, ← heq]
    rw [hhead] at hplus
    exact ⟨_, _, heq, hcode.ne_nil, hcode.hexText hplus⟩
  · exact absurd hbrace hnone

/-- An accepted escape is well-formed unless it takes one of the two liberties. -/
theorem Accepted.wellFormed_iff (h : Accepted c rest) :
    WellFormed c rest ↔ ¬ Signed c rest ∧ ¬ CutShort c rest := by
  constructor
  · intro hwell
    exact ⟨hwell.not_signed, hwell.not_cutShort⟩
  · rintro ⟨hsigned, hcut⟩
    constructor
    · rintro rfl
      have hplus : rest.head? ≠ some '+' := fun heq => hsigned (.inl ⟨.inl rfl, heq⟩)
      have hlength : 2 ≤ rest.length := Nat.le_of_not_lt fun hlt => hcut (.inl ⟨rfl, hlt⟩)
      exact exists_hexText_of_code (by decide) (h.byte rfl) hplus hlength
    · rintro rfl
      have hcut : ¬ if rest.head? = some '{' then '}' ∉ rest else rest.length < 4 :=
        fun heq => hcut (.inr ⟨rfl, heq⟩)
      rcases h.unit rfl with hcode | ⟨tail, rfl, hcode⟩
      · left
        have hbrace : rest.head? ≠ some '{' := by
          intro heq
          refine hcode.not_mem (by decide) (by decide) (List.mem_of_head? (a := '{') ?_)
          rw [List.head?_take, if_neg (by decide)]
          exact heq
        have hplus : rest.head? ≠ some '+' := fun heq => hsigned (.inl ⟨.inr rfl, heq⟩)
        rw [if_neg hbrace] at hcut
        exact exists_hexText_of_code (by decide) hcode hplus (Nat.le_of_not_lt hcut)
      · right
        rw [List.head?_cons, if_pos rfl, not_not, List.mem_cons] at hcut
        have hbrace : '}' ∈ tail := hcut.resolve_left (by decide)
        have hplus : tail.head? ≠ some '+' := by
          intro heq
          obtain ⟨digits, rfl⟩ := List.head?_eq_some_iff.mp heq
          exact hsigned (.inr ⟨rfl, digits, rfl⟩)
        obtain ⟨hex, after, rfl, hhex⟩ := exists_hexText_of_braced hcode hplus hbrace
        exact ⟨hex, after, rfl, hhex⟩

/-! ### Reading goes past accepted escapes -/

variable {P Q R : Char → List Char → Prop} {raw : List Char}

theorem EveryEscape.append_of_not_mem {cs : List Char} (h : '\\' ∉ cs)
    (hrest : EveryEscape P rest) : EveryEscape P (cs ++ rest) := by
  induction cs with
  | nil => exact hrest
  | cons c tail ih =>
    rw [List.mem_cons, not_or] at h
    exact .plain (Ne.symm h.1) (ih h.2)

/-- Two properties of all escapes give a third one. -/
theorem EveryEscape.imp₂ (hP : EveryEscape P raw) (hQ : EveryEscape Q raw)
    (himp : ∀ c rest, P c rest → Q c rest → R c rest) : EveryEscape R raw := by
  induction hP with
  | nil => exact .nil
  | plain hc _ ih =>
    cases hQ with
    | plain _ hQ => exact .plain hc (ih hQ)
    | escape _ _ => exact absurd rfl hc
  | escape hc _ ih =>
    cases hQ with
    | plain hne _ => exact absurd rfl hne
    | escape hq hQ => exact .escape (himp _ _ hc hq) (ih hQ)

/-- The places of a code are gone past. -/
theorem EveryEscape.of_code {cs : List Char} (hcode : Code cs) (hrest : EveryEscape P rest) :
    EveryEscape P (cs ++ rest) :=
  hrest.append_of_not_mem (hcode.not_mem (by decide) (by decide))

theorem everyEscape_of_lowHalf? {cs : List Char} {low : Nat} (h : lowHalf? cs = some (low, rest))
    (hrest : EveryEscape Accepted rest) : EveryEscape Accepted cs := by
  unfold lowHalf? at h
  split at h
  · rename_i tail
    obtain ⟨n, hn, h⟩ := Option.bind_eq_some_iff.mp h
    have hcode : Code (tail.take 4) := code_of_hexCode? hn
    rw [Option.ite_none_right_eq_some, Option.some.injEq, Prod.mk.injEq] at h
    obtain ⟨-, -, rfl⟩ := h
    refine .escape (accepted_unit (.inl hcode)) ?_
    rw [← List.take_append_drop 4 tail]
    exact hrest.of_code hcode
  · cases h

theorem everyEscape_of_unitChar? {unit : Nat} {cs : List Char}
    (h : unitChar? unit cs = some (c, rest)) (hrest : EveryEscape Accepted rest) :
    EveryEscape Accepted cs := by
  unfold unitChar? at h
  split at h
  · obtain ⟨⟨low, tail⟩, hlow, h⟩ := Option.bind_eq_some_iff.mp h
    obtain ⟨d, -, h⟩ := Option.bind_eq_some_iff.mp h
    cases h
    exact everyEscape_of_lowHalf? hlow hrest
  · obtain ⟨d, -, h⟩ := Option.map_eq_some_iff.mp h
    cases h
    exact hrest

theorem everyEscape_of_unicodeEscape {digits cs : List Char} {d : Option Char}
    (h : unicodeEscape digits cs = .ok (d, rest)) (hrest : EveryEscape Accepted rest) :
    Code digits ∧ EveryEscape Accepted cs := by
  unfold unicodeEscape at h
  split at h
  · cases h
  · rename_i unit hunit
    refine ⟨code_of_hexCode? hunit, ?_⟩
    split at h
    · rename_i hchar
      cases h
      exact everyEscape_of_unitChar? hchar hrest
    · split at h <;> cases h

theorem code_of_byteEscape {digits cs : List Char} {d : Option Char}
    (h : byteEscape digits cs = .ok (d, rest)) : Code digits ∧ rest = cs := by
  unfold byteEscape at h
  split at h
  · rename_i hchar
    obtain ⟨n, hn, -⟩ := Option.bind_eq_some_iff.mp hchar
    cases h
    exact ⟨code_of_hexCode? hn, rfl⟩
  · cases h

/-- Other letters take nothing but the line feed after a carriage return. -/
theorem escape_other {cs : List Char} {d : Option Char} (hx : c ≠ 'x') (hu : c ≠ 'u')
    (h : escape (c :: cs) = .ok (d, rest)) : cs = rest ∨ cs = '\n' :: rest := by
  unfold escape at h
  dsimp only at h
  split at h
  · cases h
    exact .inl rfl
  · split at h
    · cases h
      exact .inl rfl
    · split at h
      · cases h
        exact .inl rfl
      · split at h
        · split at h
          · cases h
            exact .inr rfl
          · cases h
            exact .inl rfl
        · cases h
          exact .inl rfl

theorem everyEscape_of_byte {cs : List Char} {d : Option Char}
    (h : escape ('x' :: cs) = .ok (d, rest)) (hrest : EveryEscape Accepted rest) :
    EveryEscape Accepted ('\\' :: 'x' :: cs) := by
  rw [escape_byte] at h
  obtain ⟨hcode, rfl⟩ := code_of_byteEscape h
  refine .escape (accepted_byte hcode) ?_
  rw [← List.take_append_drop 2 cs]
  exact hrest.of_code hcode

theorem everyEscape_of_braced {cs : List Char} {d : Option Char}
    (h : escape ('u' :: '{' :: cs) = .ok (d, rest)) (hrest : EveryEscape Accepted rest) :
    EveryEscape Accepted ('\\' :: 'u' :: '{' :: cs) := by
  rw [escape_braced] at h
  obtain ⟨hcode, hafter⟩ := everyEscape_of_unicodeEscape h hrest
  refine .escape (accepted_unit (.inr ⟨cs, rfl, hcode⟩)) (.plain (by decide) ?_)
  rcases splitBrace_cases cs with heq | ⟨heq, -⟩
  · rw [heq]
    exact (EveryEscape.plain (by decide) hafter).of_code hcode
  · rw [heq, ← List.append_nil (splitBrace cs).1]
    exact EveryEscape.nil.of_code hcode

theorem everyEscape_of_unit {cs : List Char} {d : Option Char} (hbrace : cs.head? ≠ some '{')
    (h : escape ('u' :: cs) = .ok (d, rest)) (hrest : EveryEscape Accepted rest) :
    EveryEscape Accepted ('\\' :: 'u' :: cs) := by
  rw [escape_unit hbrace] at h
  obtain ⟨hcode, hafter⟩ := everyEscape_of_unicodeEscape h hrest
  refine .escape (accepted_unit (.inl hcode)) ?_
  rw [← List.take_append_drop 4 cs]
  exact hafter.of_code hcode

theorem everyEscape_of_other {cs : List Char} {d : Option Char} (hx : c ≠ 'x') (hu : c ≠ 'u')
    (h : escape (c :: cs) = .ok (d, rest)) (hrest : EveryEscape Accepted rest) :
    EveryEscape Accepted ('\\' :: c :: cs) := by
  refine .escape ⟨fun heq => absurd heq hx, fun heq => absurd heq hu⟩ ?_
  rcases escape_other hx hu h with rfl | rfl
  · exact hrest
  · exact .plain (by decide) hrest

/-- What is read with one backslash begins with an accepted escape, and so does the low half of a
pair that is read with the high one. -/
theorem everyEscape_of_escape {cs : List Char} {d : Option Char}
    (h : escape cs = .ok (d, rest)) (hrest : EveryEscape Accepted rest) :
    EveryEscape Accepted ('\\' :: cs) := by
  cases cs with
  | nil => cases h
  | cons c tail =>
    by_cases hx : c = 'x'
    · subst hx
      exact everyEscape_of_byte h hrest
    by_cases hu : c = 'u'
    · subst hu
      by_cases hbrace : tail.head? = some '{'
      · obtain ⟨inside, rfl⟩ := List.head?_eq_some_iff.mp hbrace
        exact everyEscape_of_braced h hrest
      · exact everyEscape_of_unit hbrace h hrest
    · exact everyEscape_of_other hx hu h hrest

/-- All escapes of a text that is read are accepted. -/
theorem everyEscape_of_decode {text : List Char} (h : decode raw = .ok text) :
    EveryEscape Accepted raw := by
  -- The induction follows the steps of reading; only the text from the next step on is known to
  -- be read.
  induction raw using decode.induct generalizing text with
  | case1 => exact .nil
  | case2 cs e hescape =>
    rw [decode_backslash, hescape] at h
    cases h
  | case3 cs d rest hescape ih =>
    rw [decode_of_escape hescape] at h
    obtain ⟨chars, hchars, -⟩ := map_eq_ok.mp h
    exact everyEscape_of_escape hescape (ih hchars)
  | case4 c cs hc ih =>
    rw [decode_cons hc] at h
    obtain ⟨chars, hchars, -⟩ := map_eq_ok.mp h
    exact .plain hc (ih hchars)

/-- If a text is read, no backslash stands at its end and the digits of its escapes are codes. Its
escapes are well-formed exactly if no plus sign stands in front of digits and the text does not end
inside of an escape. -/
theorem everyEscape_of_unescape {raw text : String} (h : unescape raw = .ok text) :
    EveryEscape Accepted raw.toList ∧
      (EveryEscape WellFormed raw.toList ↔
        EveryEscape (fun c rest => ¬ Signed c rest ∧ ¬ CutShort c rest) raw.toList) := by
  obtain ⟨chars, hchars, -⟩ := map_eq_ok.mp h
  have haccepted : EveryEscape Accepted raw.toList := everyEscape_of_decode hchars
  refine ⟨haccepted, ?_⟩
  constructor
  · intro hwell
    exact haccepted.imp₂ hwell fun _ _ ha hw => ha.wellFormed_iff.mp hw
  · intro hliberty
    exact haccepted.imp₂ hliberty fun _ _ ha hl => ha.wellFormed_iff.mpr hl

/-- A text with both kinds of escapes, which take no liberties. -/
theorem everyEscape_of_unescape_plain :
    unescape "\\x41-\\u\x7b61\x7d" = .ok "A-a" ∧
      EveryEscape WellFormed "\\x41-\\u\x7b61\x7d".toList := by
  have hread : unescape "\\x41-\\u\x7b61\x7d" = .ok "A-a" := by decide +kernel
  refine ⟨hread, (everyEscape_of_unescape hread).2.mpr ?_⟩
  change EveryEscape _ ('\\' :: 'x' :: '4' :: '1' :: '-' :: '\\' :: 'u' :: ['{', '6', '1', '}'])
  apply EveryEscape.escape (by simp [Signed, CutShort])
  refine .plain (by decide) (.plain (by decide) (.plain (by decide) ?_))
  apply EveryEscape.escape (by simp [Signed, CutShort])
  exact .plain (by decide) (.plain (by decide) (.plain (by decide) (.plain (by decide) .nil)))

/-- Texts with a plus sign among the digits, or with too few digits at the end, are read all the
same. -/
theorem unescape_malformed :
    (unescape "\\x+1" = .ok "\x01" ∧ ¬ EveryEscape WellFormed "\\x+1".toList) ∧
      unescape "\\x4" = .ok "\x04" ∧ ¬ EveryEscape WellFormed "\\x4".toList := by
  have hfirst {c : Char} {rest : List Char} (h : EveryEscape WellFormed ('\\' :: c :: rest)) :
      WellFormed c rest := by
    cases h with
    | plain hc _ => exact absurd rfl hc
    | escape hc _ => exact hc
  refine ⟨⟨by decide +kernel, ?_⟩, by decide +kernel, ?_⟩
  · intro h
    exact (hfirst h).not_signed (.inl ⟨.inl rfl, rfl⟩)
  · intro h
    exact (hfirst h).not_cutShort (.inl ⟨rfl, by decide⟩)

end Literal

end ScriptWire
