import ScriptWire.Literal.Text
import ScriptWire.Proofs.Literal.Numeral

/-!
# Spellings of a text

A text has many spellings inside quotes: each character stands for itself or is written with one of
the escapes, and a line may be continued between any two characters. All of them are read as the
same text.

## Main definitions

- `Literal.Spelling` — the ways to write one character
- `Literal.Continuation` — the ways to continue a line
- `Literal.Spells` — a spelling of a whole text

## Main results

- `Literal.decode_spelling`, `Literal.decode_continuation` — what one step reads
- `Literal.eq_iff_of_decode` — a text is read as itself only if it has no escapes
- `Literal.unescape_of_spells` — every spelling of a text is read as the text
-/

namespace ScriptWire

namespace Literal

/-- The letters that denote another character after a backslash, with that character. -/
def letters : List (Char × Char) :=
  [('n', '\n'), ('t', '\t'), ('r', '\r'), ('b', '\x08'), ('f', '\x0c'), ('v', '\x0b')]

/-- The characters that end a line. -/
def lineEnds : List Char :=
  ['\n', '\r', '\u2028', '\u2029']

/-- The characters `written` denote one character where `rest` follows them. -/
inductive Spelling (rest : List Char) : (written : List Char) → Char → Prop
  | plain {c : Char} (h : c ≠ '\\') : Spelling rest [c] c
  | letter {l c : Char} (h : (l, c) ∈ letters) : Spelling rest ['\\', l] c
  | null (h : ∀ d ∈ rest.head?, ¬ d.isDigit) : Spelling rest ['\\', '0'] '\x00'
  | byte {hex : List Char} {c : Char} (hlength : hex.length = 2)
      (hcode : Numeral 16 hex c.toNat) : Spelling rest ('\\' :: 'x' :: hex) c
  | unit {hex : List Char} {c : Char} (hlength : hex.length = 4)
      (hcode : Numeral 16 hex c.toNat) : Spelling rest ('\\' :: 'u' :: hex) c
  | pair {high low : List Char} {c : Char} (hhigh : high.length = 4) (hlow : low.length = 4)
      (hplane : 0x10000 ≤ c.toNat)
      (hhighCode : Numeral 16 high (0xD800 + (c.toNat - 0x10000) / 0x400))
      (hlowCode : Numeral 16 low (0xDC00 + (c.toNat - 0x10000) % 0x400)) :
      Spelling rest ('\\' :: 'u' :: high ++ '\\' :: 'u' :: low) c
  | braced {hex : List Char} {c : Char} (hne : hex ≠ []) (hcode : Numeral 16 hex c.toNat) :
      Spelling rest ('\\' :: 'u' :: '{' :: hex ++ ['}']) c
  | itself {c : Char} (hletter : c ∉ ['n', 't', 'r', 'b', 'f', 'v', '0', 'x', 'u'])
      (hdigit : ¬ c.isDigit) (hline : c ∉ lineEnds) : Spelling rest ['\\', c] c

/-- The characters `written` continue a line where `rest` follows them. -/
inductive Continuation (rest : List Char) : (written : List Char) → Prop
  | lineFeed : Continuation rest ['\\', '\n']
  | carriageReturn (h : rest.head? ≠ some '\n') : Continuation rest ['\\', '\r']
  | carriageReturnLineFeed : Continuation rest ['\\', '\r', '\n']
  | lineSeparator : Continuation rest ['\\', '\u2028']
  | paragraphSeparator : Continuation rest ['\\', '\u2029']

/-- The characters `raw` spell the text, with lines continued anywhere between its characters. -/
inductive Spells : (raw text : List Char) → Prop
  | nil : Spells [] []
  | char {written rest text : List Char} {c : Char} (h : Spelling rest written c)
      (hrest : Spells rest text) : Spells (written ++ rest) (c :: text)
  | continuation {written rest text : List Char} (h : Continuation rest written)
      (hrest : Spells rest text) : Spells (written ++ rest) text

/-! ### Codes and characters -/

theorem charOfCode?_toNat (c : Char) : charOfCode? c.toNat = some c := by
  have hvalid : c.toNat.isValidChar := c.valid
  rw [charOfCode?, if_pos hvalid, Char.ofNat_toNat]

/-- No character has the code of half a surrogate pair. -/
theorem toNat_lt_or_gt (c : Char) :
    c.toNat < 0xD800 ∨ 0xE000 ≤ c.toNat ∧ c.toNat < 0x110000 := by
  rcases c.valid with h | ⟨hlow, hhigh⟩
  · exact .inl h
  · exact .inr ⟨hlow, hhigh⟩

theorem hexCode?_of_numeral {hex : List Char} {n : Nat} (hne : hex ≠ [])
    (hcode : Numeral 16 hex n) (hlt : n < 0x110000) : hexCode? hex = some n := by
  have hsmall : n < Nat.pow 2 32 := Nat.lt_trans hlt (by decide)
  exact hexCode?_eq_some_iff.mpr ⟨hex, .inr rfl, hne, hcode, hsmall⟩

theorem unitChar?_toNat (c : Char) (rest : List Char) :
    unitChar? c.toNat rest = some (c, rest) := by
  have hhalf : ¬ (0xD800 ≤ c.toNat ∧ c.toNat < 0xDC00) := by
    have hcode := toNat_lt_or_gt c
    omega
  rw [unitChar?, if_neg hhalf, charOfCode?_toNat, Option.map_some]

/-- The low half of a pair is read after the high one. -/
theorem unitChar?_pair {c : Char} {high low : Nat} {hex rest : List Char}
    (hhigh : 0xD800 ≤ high ∧ high < 0xDC00) (hlow : 0xDC00 ≤ low ∧ low < 0xE000)
    (hcode : 0x10000 + (high - 0xD800) * 0x400 + (low - 0xDC00) = c.toNat)
    (hlength : hex.length = 4) (hhex : Numeral 16 hex low) :
    unitChar? high ('\\' :: 'u' :: (hex ++ rest)) = some (c, rest) := by
  have hne : hex ≠ [] := List.ne_nil_of_length_pos (by omega)
  have hread : hexCode? hex = some low := hexCode?_of_numeral hne hhex (by omega)
  have hhalf : lowHalf? ('\\' :: 'u' :: (hex ++ rest)) = some (low, rest) := by
    simp only [lowHalf?, List.take_left' hlength, List.drop_left' hlength, hread,
      Option.bind_eq_bind, Option.bind_some, if_pos hlow]
  have hchar : charOfCode? (0x10000 + (high - 0xD800) * 0x400 + (low - 0xDC00)) = some c := by
    rw [hcode]
    exact charOfCode?_toNat c
  rw [unitChar?, if_pos hhigh]
  exact Option.bind_eq_some_iff.mpr
    ⟨(low, rest), hhalf, Option.bind_eq_some_iff.mpr ⟨c, hchar, rfl⟩⟩

theorem byteEscape_of_numeral {hex rest : List Char} {c : Char} (hne : hex ≠ [])
    (hcode : Numeral 16 hex c.toNat) : byteEscape hex rest = .ok (some c, rest) := by
  have hlt : c.toNat < 0x110000 := by
    have hcode := toNat_lt_or_gt c
    omega
  rw [byteEscape, hexCode?_of_numeral hne hcode hlt, Option.bind_some, charOfCode?_toNat]

theorem unicodeEscape_of_numeral {hex rest after : List Char} {unit : Nat} {c : Char}
    (hne : hex ≠ []) (hcode : Numeral 16 hex unit) (hlt : unit < 0x110000)
    (hchar : unitChar? unit rest = some (c, after)) :
    unicodeEscape hex rest = .ok (some c, after) := by
  rw [unicodeEscape, hexCode?_of_numeral hne hcode hlt]
  simp only [hchar]

theorem splitBrace_append {hex : List Char} (h : '}' ∉ hex) (rest : List Char) :
    splitBrace (hex ++ '}' :: rest) = (hex, rest) := by
  have hall : ∀ c ∈ hex, (c != '}') = true := by
    intro c hc
    rw [bne_iff_ne]
    rintro rfl
    exact h hc
  rw [splitBrace, List.takeWhile_append_of_pos hall, List.dropWhile_append_of_pos hall]
  simp

/-! ### What follows a backslash -/

theorem letterEscape?_eq_some_iff {l c : Char} : letterEscape? l = some c ↔ (l, c) ∈ letters := by
  unfold letterEscape?
  split <;> simp_all [letters, eq_comm]

theorem escape_letter {l c : Char} (h : (l, c) ∈ letters) (rest : List Char) :
    escape (l :: rest) = .ok (some c, rest) := by
  simp only [escape, letterEscape?_eq_some_iff.mpr h]

theorem escape_null {rest : List Char} (h : ∀ d ∈ rest.head?, ¬ d.isDigit) :
    escape ('0' :: rest) = .ok (some '\x00', rest) := by
  have hnext : rest.head?.any Char.isDigit = false := by
    rw [Option.any_eq_false]
    intro d hd
    exact Bool.eq_false_of_not_eq_true (h d hd)
  simp [escape, letterEscape?, hnext]

theorem escape_byte (cs : List Char) :
    escape ('x' :: cs) = byteEscape (cs.take 2) (cs.drop 2) :=
  rfl

theorem escape_braced (cs : List Char) :
    escape ('u' :: '{' :: cs) = unicodeEscape (splitBrace cs).1 (splitBrace cs).2 :=
  rfl

theorem escape_unit {cs : List Char} (h : cs.head? ≠ some '{') :
    escape ('u' :: cs) = unicodeEscape (cs.take 4) (cs.drop 4) := by
  cases cs with
  | nil => rfl
  | cons c rest =>
    have hc : c ≠ '{' := fun heq => h (congrArg some heq)
    simp [escape, letterEscape?, hc]

theorem escape_of_continuation {written rest : List Char} (h : Continuation rest written) :
    ∃ tail, written = '\\' :: tail ∧ escape (tail ++ rest) = .ok (none, rest) := by
  cases h with
  | carriageReturn h =>
    refine ⟨_, rfl, ?_⟩
    cases rest with
    | nil => rfl
    | cons c rest =>
      have hc : c ≠ '\n' := fun heq => h (congrArg some heq)
      simp [escape, letterEscape?, isContinuation, hc]
  | _ => exact ⟨_, rfl, rfl⟩

theorem escape_itself {c : Char} (hletter : c ∉ ['n', 't', 'r', 'b', 'f', 'v', '0', 'x', 'u'])
    (hline : c ∉ lineEnds) (rest : List Char) : escape (c :: rest) = .ok (some c, rest) := by
  have hnone : letterEscape? c = none := by
    rw [Option.eq_none_iff_forall_ne_some]
    intro d hd
    have hmem : (c, d) ∈ letters := letterEscape?_eq_some_iff.mp hd
    simp_all [letters]
  simp only [List.mem_cons, List.not_mem_nil, or_false, not_or, lineEnds] at hletter hline
  simp [escape, hnone, isContinuation, hletter, hline]

/-! ### Reading a spelling -/

theorem decode_cons {c : Char} (h : c ≠ '\\') (cs : List Char) :
    decode (c :: cs) = (decode cs).map (c :: ·) := by
  rw [decode, if_neg h]

theorem decode_backslash (cs : List Char) :
    decode ('\\' :: cs) =
      (escape cs >>= fun step => (decode step.2).map (step.1.toList ++ ·)) := by
  rw [decode, if_pos rfl]
  split
  · rename_i heq
    rw [heq]
    rfl
  · rename_i heq
    rw [heq]
    rfl

theorem decode_of_escape {cs rest : List Char} {d : Option Char}
    (h : escape cs = .ok (d, rest)) :
    decode ('\\' :: cs) = (decode rest).map (d.toList ++ ·) := by
  rw [decode_backslash, h]
  rfl

/-- One way to write a character is read as that character. -/
theorem decode_spelling {written rest : List Char} {c : Char} (h : Spelling rest written c) :
    decode (written ++ rest) = (decode rest).map (c :: ·) := by
  have hlt : c.toNat < 0x110000 := by
    have hcode := toNat_lt_or_gt c
    omega
  cases h with
  | plain h => exact decode_cons h rest
  | letter h => exact decode_of_escape (escape_letter h rest)
  | null h => exact decode_of_escape (escape_null h)
  | @byte hex _ hlength hcode =>
    have hne : hex ≠ [] := List.ne_nil_of_length_pos (by omega)
    refine decode_of_escape (d := some c) ?_
    change escape ('x' :: (hex ++ rest)) = _
    rw [escape_byte, List.take_left' hlength, List.drop_left' hlength]
    exact byteEscape_of_numeral hne hcode
  | @unit hex _ hlength hcode =>
    have hne : hex ≠ [] := List.ne_nil_of_length_pos (by omega)
    refine decode_of_escape (d := some c) ?_
    change escape ('u' :: (hex ++ rest)) = _
    rw [escape_unit (hcode.hexText.head?_append_ne hne (by decide) _),
      List.take_left' hlength, List.drop_left' hlength]
    exact unicodeEscape_of_numeral hne hcode hlt (unitChar?_toNat c rest)
  | @pair high low _ hhigh hlow hplane hhighCode hlowCode =>
    have hne : high ≠ [] := List.ne_nil_of_length_pos (by omega)
    -- The escape of the high half is read together with the one that follows it.
    have hchar : unitChar? (0xD800 + (c.toNat - 0x10000) / 0x400)
        ('\\' :: 'u' :: (low ++ rest)) = some (c, rest) :=
      unitChar?_pair (by omega) (by omega) (by omega) hlow hlowCode
    rw [List.append_assoc]
    refine decode_of_escape (d := some c) ?_
    change escape ('u' :: (high ++ '\\' :: 'u' :: (low ++ rest))) = _
    rw [escape_unit (hhighCode.hexText.head?_append_ne hne (by decide) _),
      List.take_left' hhigh, List.drop_left' hhigh]
    exact unicodeEscape_of_numeral hne hhighCode (by omega) hchar
  | @braced hex _ hne hcode =>
    -- No digit is a brace, so the first closing brace is the one behind the digits.
    have hbrace : '}' ∉ hex := hcode.hexText.not_mem (by decide)
    rw [List.append_assoc]
    refine decode_of_escape (d := some c) ?_
    change escape ('u' :: '{' :: (hex ++ '}' :: rest)) = _
    rw [escape_braced, splitBrace_append hbrace]
    exact unicodeEscape_of_numeral hne hcode hlt (unitChar?_toNat c rest)
  | itself hletter _ hline => exact decode_of_escape (escape_itself hletter hline rest)

/-- A continued line denotes nothing. -/
theorem decode_continuation {written rest : List Char} (h : Continuation rest written) :
    decode (written ++ rest) = decode rest := by
  obtain ⟨tail, rfl, hescape⟩ := escape_of_continuation h
  rw [List.cons_append, decode_of_escape hescape]
  cases decode rest <;> rfl

/-- The steps of reading follow the spelling of the text. -/
theorem decode_of_spells {raw text : List Char} (h : Spells raw text) : decode raw = .ok text := by
  induction h with
  | nil => rw [decode]
  | char h _ ih =>
    rw [decode_spelling h, ih]
    rfl
  | continuation h _ ih =>
    rw [decode_continuation h]
    exact ih

/-- Escapes only make a text shorter. -/
theorem length_of_decode {raw text : List Char} (h : decode raw = .ok text) :
    text.length ≤ raw.length ∧ ('\\' ∈ raw → text.length < raw.length) := by
  induction raw using decode.induct generalizing text with
  | case1 =>
    rw [decode] at h
    cases h
    exact ⟨Nat.le_refl _, fun hmem => absurd hmem List.not_mem_nil⟩
  | case2 cs e hescape =>
    rw [decode_backslash, hescape] at h
    cases h
  | case3 cs d rest hescape ih =>
    rw [decode_of_escape hescape] at h
    cases hrest : decode rest with
    | error e => rw [hrest] at h; cases h
    | ok chars =>
      rw [hrest] at h
      cases h
      -- An escape takes two characters or more and denotes one at most.
      have hshorter := escape_length_lt hescape
      have hle := (ih hrest).1
      have hone : d.toList.length ≤ 1 := by cases d <;> simp
      simp only [List.length_append, List.length_cons]
      omega
  | case4 c cs hc ih =>
    rw [decode_cons hc] at h
    cases hrest : decode cs with
    | error e => rw [hrest] at h; cases h
    | ok chars =>
      rw [hrest] at h
      cases h
      obtain ⟨hle, hlt⟩ := ih hrest
      refine ⟨Nat.succ_le_succ hle, fun hmem => Nat.succ_lt_succ (hlt ?_)⟩
      exact (List.mem_cons.mp hmem).resolve_left (Ne.symm hc)

/-- A text denotes itself exactly if it has no escapes. -/
theorem eq_iff_of_decode {raw text : List Char} (h : decode raw = .ok text) :
    text = raw ↔ '\\' ∉ raw := by
  constructor
  · rintro rfl hmem
    exact Nat.lt_irrefl _ ((length_of_decode h).2 hmem)
  · intro hplain
    have hself : decode raw = .ok raw := by
      clear h
      induction raw with
      | nil => rw [decode]
      | cons c rest ih =>
        rw [List.mem_cons, not_or] at hplain
        rw [decode_cons (Ne.symm hplain.1), ih hplain.2]
        rfl
    rw [h] at hself
    exact Except.ok.inj hself

theorem between?_quoted (q : Char) (cs : List Char) :
    between? q (q :: (cs ++ [q])) = some cs := by
  simp [between?]

theorem between?_of_ne {q c : Char} (h : c ≠ q) (cs : List Char) : between? q (c :: cs) = none := by
  rw [between?, if_neg]
  exact fun hc => h hc.1

/-- Between two equal quotes of either kind, the text inside them is read. -/
theorem unquote_quoted {quote : Char} (h : quote ∈ ['\x22', '\x27']) (raw : String) :
    unquote (String.singleton quote ++ raw ++ String.singleton quote) = unescape raw := by
  have htext : (String.singleton quote ++ raw ++ String.singleton quote).toList =
      quote :: (raw.toList ++ [quote]) := by
    simp
  rw [unquote, htext, unescape]
  simp only [List.mem_cons, List.not_mem_nil, or_false] at h
  rcases h with rfl | rfl
  · rw [between?_quoted, Option.some_or]
  · rw [between?_of_ne (by decide), between?_quoted, Option.none_or]

/-- Every spelling of a text is read as that text, by itself and between quotes of either kind. -/
theorem unescape_of_spells {raw text : String} (h : Spells raw.toList text.toList) :
    unescape raw = .ok text ∧
      ∀ quote ∈ ['\x22', '\x27'],
        unquote (String.singleton quote ++ raw ++ String.singleton quote) = .ok text := by
  have hread : unescape raw = .ok text := by
    rw [unescape, decode_of_spells h]
    exact congrArg Except.ok String.ofList_toList
  refine ⟨hread, ?_⟩
  intro quote hquote
  rw [unquote_quoted hquote]
  exact hread

/-- Each way to write a character once, with two continued lines. -/
theorem unescape_of_spells_mixed :
    Spells "a\\n\\0\\x41\\u00e9\\\r\n\\ud83d\\uDE00\\u\x7b00e9\x7d\\-\\\r".toList
        "a\n\x00Aé😀é-".toList ∧
      unquote "'a\\n\\0\\x41\\u00e9\\\r\n\\ud83d\\uDE00\\u\x7b00e9\x7d\\-\\\r'" =
        .ok "a\n\x00Aé😀é-" := by
  have hcode {hex : List Char} {n : Nat} (h : digitsIn? 16 hex = some n) : Numeral 16 hex n :=
    (digitsIn?_eq_some_iff (Nat.le_refl 16)).mp h
  have hpieces : Spells
      (['a'] ++ (['\\', 'n'] ++ (['\\', '0'] ++ (['\\', 'x', '4', '1'] ++
        (['\\', 'u', '0', '0', 'e', '9'] ++ (['\\', '\r', '\n'] ++
        ((['\\', 'u', 'd', '8', '3', 'd'] ++ ['\\', 'u', 'D', 'E', '0', '0']) ++
        ((['\\', 'u', '{', '0', '0', 'e', '9'] ++ ['}']) ++
        (['\\', '-'] ++ (['\\', '\r'] ++ []))))))))))
      ['a', '\n', '\x00', 'A', 'é', '😀', 'é', '-'] := by
    apply Spells.char (.plain (by decide))
    apply Spells.char (.letter (by decide))
    apply Spells.char (.null (by simp))
    apply Spells.char (.byte rfl (hcode rfl))
    apply Spells.char (.unit rfl (hcode rfl))
    apply Spells.continuation .carriageReturnLineFeed
    apply Spells.char (.pair rfl rfl (by decide) (hcode rfl) (hcode rfl))
    apply Spells.char (.braced (by decide) (hcode rfl))
    apply Spells.char (.itself (by decide) (by decide) (by decide))
    apply Spells.continuation (.carriageReturn (by decide))
    exact Spells.nil
  have hspells : Spells "a\\n\\0\\x41\\u00e9\\\r\n\\ud83d\\uDE00\\u\x7b00e9\x7d\\-\\\r".toList
      "a\n\x00Aé😀é-".toList := hpieces
  exact ⟨hspells, (unescape_of_spells hspells).2 '\x27' (by decide)⟩

end Literal

end ScriptWire
