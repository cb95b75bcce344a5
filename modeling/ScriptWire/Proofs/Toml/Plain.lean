import ScriptWire.Proofs.Toml.Written

/-!
# Plain TOML texts

The texts that configuration files are written in: keys with values, then sections under headers of
their own, with blank lines and comments between them. Such a text is read as the table that it
says.

## Main definitions

- `Toml.Silent` — the end of a line, with blanks and a comment in front of it
- `Toml.Entries`, `Toml.Sections` — lines with keys, and sections under headers
- `Toml.Plain` — the texts with the keys and sections that they say

## Main results

- `Toml.parse?_of_plain` — a plain text is read as the table that it says
-/

namespace ScriptWire

namespace Toml

/-- The characters are spaces and tabs. -/
def Blanks (cs : List Char) : Prop :=
  ∀ c ∈ cs, c = ' ' ∨ c = '\t'

/-- The characters are a key that is written without quotes. -/
def BareKey (cs : List Char) : Prop :=
  cs ≠ [] ∧ ∀ c ∈ cs, c.isAlphanum = true ∨ c = '_' ∨ c = '-'

/-- The end of a line that says nothing more: blanks, a comment or not, and the line end. -/
inductive Silent : List Char → Prop
  | blank {blanks : List Char} (hblanks : Blanks blanks) : Silent (blanks ++ ['\n'])
  | comment {blanks comment : List Char} (hblanks : Blanks blanks) (hcomment : Printable comment) :
      Silent (blanks ++ '#' :: (comment ++ ['\n']))

/-- Lines with keys and values, and lines that say nothing. -/
inductive Entries : List (String × Value) → List Char → Prop
  | nil : Entries [] []
  | silent {line cs : List Char} {entries : List (String × Value)} (hline : Silent line)
      (hrest : Entries entries cs) : Entries entries (line ++ cs)
  | cons {key before after text line cs : List Char} {v : Value} {entries : List (String × Value)}
      (hkey : BareKey key) (hbefore : Blanks before) (hafter : Blanks after)
      (hv : v.Written text) (hline : Silent line) (hrest : Entries entries cs) :
      Entries ((String.ofList key, v) :: entries)
        (key ++ (before ++ '=' :: (after ++ (text ++ (line ++ cs)))))

/-- Sections under headers of their own. -/
inductive Sections : List (String × List (String × Value)) → List Char → Prop
  | nil : Sections [] []
  | cons {name line cs rest : List Char} {entries : List (String × Value)}
      {sections : List (String × List (String × Value))} (hname : BareKey name)
      (hline : Silent line) (hentries : Entries entries cs) (hrest : Sections sections rest) :
      Sections ((String.ofList name, entries) :: sections)
        ('[' :: (name ++ ']' :: (line ++ (cs ++ rest))))

/-- The table of a plain text. -/
def plainTable (entries : List (String × Value))
    (sections : List (String × List (String × Value))) : Table :=
  entries ++ sections.map fun (name, inner) => (name, .table .header inner)

/-- A text of keys and sections. No key stands twice in one place. -/
structure Plain (entries : List (String × Value)) (sections : List (String × List (String × Value)))
    (text : String) : Prop where
  written : ∃ front back, text.toList = front ++ back ∧ Entries entries front ∧
    Sections sections back
  nodup_keys : ((plainTable entries sections).map Prod.fst).Nodup
  nodup_inner : ∀ inner ∈ sections, (inner.2.map Prod.fst).Nodup

open Script (run_bind_of_eq run_get_bind)

section Characters

variable {cs : List Char} {c : Char}

theorem Blanks.isBlank (h : Blanks cs) (hc : c ∈ cs) : isBlank c = true := by
  rcases h c hc with rfl | rfl <;> rfl

theorem blanks_nil : Blanks [] :=
  List.forall_mem_nil _

theorem bareKey_iff : BareKey cs ↔ cs ≠ [] ∧ cs.all isKeyPart = true := by
  simp [BareKey, isKeyPart, or_assoc]

theorem BareKey.isKeyPart (h : BareKey cs) (hc : c ∈ cs) : isKeyPart c = true :=
  List.all_eq_true.mp (bareKey_iff.mp h).2 c hc

/-- A key and its value on a line of their own, with spaces around the equals sign. -/
theorem entries_line (key : List Char) {text : List Char} {v : Value} (hne : key ≠ [])
    (hparts : key.all isKeyPart = true) (hv : v.Written text) :
    Entries [(String.ofList key, v)] (key ++ ' ' :: '=' :: ' ' :: (text ++ ['\n'])) := by
  have hspace : Blanks [' '] := fun _ hc => .inl (List.mem_singleton.mp hc)
  exact @Entries.cons key [' '] [' '] text ['\n'] [] v [] (bareKey_iff.mpr ⟨hne, hparts⟩) hspace
    hspace hv (.blank blanks_nil) .nil

/-- A header on a line of its own, and what follows it. -/
theorem sections_header (name : List Char) {cs rest : List Char} {entries : List (String × Value)}
    {sections : List (String × List (String × Value))} (hne : name ≠ [])
    (hparts : name.all isKeyPart = true) (hentries : Entries entries cs)
    (hrest : Sections sections rest) :
    Sections ((String.ofList name, entries) :: sections)
      ('[' :: (name ++ ']' :: '\n' :: (cs ++ rest))) :=
  .cons (bareKey_iff.mpr ⟨hne, hparts⟩) (.blank blanks_nil) hentries hrest

theorem Silent.exists_cons (h : Silent cs) : ∃ c rest, cs = c :: rest ∧ Follows c := by
  have hfirst (blanks tail : List Char) (c : Char) (hblanks : Blanks blanks) (hc : Follows c) :
      ∃ d rest, blanks ++ c :: tail = d :: rest ∧ Follows d := by
    cases blanks with
    | nil => exact ⟨c, tail, rfl, hc⟩
    | cons b blanks =>
      refine ⟨b, _, rfl, ?_⟩
      rcases hblanks b List.mem_cons_self with rfl | rfl
      · exact .space
      · exact .tab
  cases h with
  | blank hblanks => exact hfirst _ _ _ hblanks .lineEnd
  | comment hblanks _ => exact hfirst _ _ _ hblanks .comment

end Characters

section Lines

variable {line cs : List Char}

theorem dropLines_blanks {blanks : List Char} (h : Blanks blanks) :
    dropLines false (blanks ++ cs) = dropLines false cs := by
  induction blanks with
  | nil => rfl
  | cons c blanks ih =>
    have hrest := ih fun d hd => h d (List.mem_cons_of_mem c hd)
    rcases h c List.mem_cons_self with rfl | rfl
    · exact hrest
    · exact hrest

theorem dropLines_comment {comment : List Char} (h : Printable comment) :
    dropLines true (comment ++ '\n' :: cs) = dropLines false cs := by
  induction comment with
  | nil => rfl
  | cons c comment ih =>
    have hrest := ih fun d hd => h d (List.mem_cons_of_mem c hd)
    have htext : isText c = true := h.isText List.mem_cons_self
    rw [List.cons_append, dropLines]
    · rw [if_pos rfl, if_pos htext]
      exact hrest
    · rintro rfl
      cases htext
    · rintro tail rfl
      cases htext

/-- Lines that say nothing are dropped. -/
theorem dropLines_silent (h : Silent line) : dropLines false (line ++ cs) = dropLines false cs := by
  cases h with
  | blank hblanks =>
    rw [List.append_assoc, dropLines_blanks hblanks]
    rfl
  | comment hblanks hcomment =>
    rw [List.append_assoc, dropLines_blanks hblanks, List.cons_append, List.append_assoc]
    exact dropLines_comment hcomment

theorem run_blanks {blanks rest : List Char} {c : Char} (h : Blanks blanks)
    (hc : isBlank c = false) : Toml.blanks.run (blanks ++ c :: rest) = some ((), c :: rest) :=
  congrArg (fun s => some ((), s)) (dropWhile_append_cons (fun _ => h.isBlank) hc)

/-- A line ends with what is silent. -/
theorem run_lineEnd (h : Silent line) : lineEnd.run (line ++ cs) = some ((), cs) := by
  cases h with
  | blank hblanks =>
    rw [List.append_assoc, lineEnd]
    exact run_bind_of_eq (run_blanks hblanks rfl)
  | @comment _ comment hblanks hcomment =>
    have hmark : (mark? '#').run ('#' :: (comment ++ '\n' :: cs)) =
        some (true, comment ++ '\n' :: cs) := rfl
    have hdrop : (modify fun s => s.dropWhile isText : Parser PUnit).run (comment ++ '\n' :: cs) =
        some ((), '\n' :: cs) :=
      congrArg (fun s => some ((), s)) (dropWhile_append_cons (fun _ => hcomment.isText) rfl)
    rw [List.append_assoc, List.cons_append, List.append_assoc, lineEnd]
    refine (run_bind_of_eq (run_blanks hblanks rfl)).trans ((run_bind_of_eq hmark).trans ?_)
    exact run_bind_of_eq hdrop

theorem run_lines (cs : List Char) :
    lines.run cs = (dropLines false cs).map fun rest => ((), rest) := by
  rw [lines]
  refine (run_get_bind _ cs).trans ?_
  cases dropLines false cs <;> rfl

theorem run_lines_silent (h : Silent line) : lines.run (line ++ cs) = lines.run cs := by
  rw [run_lines, run_lines, dropLines_silent h]

theorem run_lines_start {c : Char} (hc : isKeyPart c = true ∨ c = '[') :
    lines.run (c :: cs) = some ((), c :: cs) := by
  have hne (d : Char) (hd : isKeyPart d = false ∧ d ≠ '[') : c ≠ d := by
    rcases hc with hc | rfl
    · exact ne_of_test hc hd.1
    · exact hd.2.symm
  have hblank : isBlank c = false := isBlank_of_ne (hne ' ' (by decide)) (hne '\t' (by decide))
  rw [run_lines, dropLines, if_neg Bool.false_ne_true, if_neg (by simp [hblank]),
    if_neg (hne '#' (by decide))]
  · rfl
  · exact hne '\n' (by decide)
  · exact fun _ hr => absurd hr (hne '\r' (by decide))

end Lines

section Keys

variable {name rest : List Char}

theorem run_keyPart {c : Char} (h : BareKey name) (hc : isKeyPart c = false) :
    keyPart.run (name ++ c :: rest) = some (String.ofList name, c :: rest) := by
  have hquoted : lineQuoted? (name ++ c :: rest) = none := by
    obtain ⟨first, tail, rfl⟩ := List.exists_cons_of_ne_nil h.1
    have hfirst : isKeyPart first = true := h.isKeyPart List.mem_cons_self
    exact lineQuoted?_eq_none (ne_of_test hfirst (by decide))
      (ne_of_test hfirst (by decide))
  have hempty : name.isEmpty = false := by simpa using h.1
  rw [keyPart]
  refine (run_get_bind _ _).trans ?_
  rw [hquoted, takeWhile_append_cons (fun _ => h.isKeyPart) hc,
    dropWhile_append_cons (fun _ => h.isKeyPart) hc]
  dsimp only
  rw [if_neg (by simp [hempty])]
  rfl

/-- A key without quotes and points is read as its name. -/
theorem run_key {before : List Char} {c : Char} (h : BareKey name) (hbefore : Blanks before)
    (hc : isKeyPart c = false) (hblank : isBlank c = false) (hpoint : c ≠ '.') :
    key.run (name ++ (before ++ c :: rest)) = some (([], String.ofList name), c :: rest) := by
  have hpart : keyPart.run (name ++ (before ++ c :: rest)) =
      some (String.ofList name, before ++ c :: rest) := by
    cases before with
    | nil => exact run_keyPart h hc
    | cons b before =>
      refine run_keyPart h ?_
      rcases hbefore b List.mem_cons_self with rfl | rfl <;> decide
  have hmore : (moreKeyParts (nestingLimit - 1)).run (before ++ c :: rest) =
      some ([], c :: rest) :=
    (run_bind_of_eq (run_blanks hbefore hblank)).trans (run_bind_of_eq (run_mark?_of_ne hpoint))
  exact (run_bind_of_eq hpart).trans (run_bind_of_eq hmore)

end Keys

section Tables

variable {key name : String} {v : Value} {t u : Table}

theorem get?_of_new (h : key ∉ t.map Prod.fst) : Table.get? (t ++ u) key = Table.get? u key := by
  have hnone : t.lookup key = none := by
    rw [List.lookup_eq_none_iff]
    intro member hmember
    simpa using fun heq => h (List.mem_map.mpr ⟨member, hmember, heq.symm⟩)
  rw [Table.get?, List.lookup_append, hnone, Option.none_or, Table.get?]

theorem put_of_new (h : key ∉ t.map Prod.fst) : Table.put key v (t ++ u) = t ++ u.put key v := by
  induction t with
  | nil => rfl
  | cons first t ih =>
    rw [List.map_cons, List.mem_cons, not_or] at h
    rw [List.cons_append, Table.put, if_neg (Ne.symm h.1), ih h.2, List.cons_append]

theorem get?_eq_none_of_new (h : key ∉ t.map Prod.fst) : t.get? key = none := by
  rw [← List.append_nil t, get?_of_new h]
  rfl

theorem put_eq_append_of_new (h : key ∉ t.map Prod.fst) : t.put key v = t ++ [(key, v)] := by
  rw [← List.append_nil t, put_of_new h, List.append_nil]
  rfl

theorem define_of_new (h : key ∉ t.map Prod.fst) : t.define key v [] = some (t ++ [(key, v)]) := by
  rw [Table.define, get?_eq_none_of_new h, put_eq_append_of_new h]
  rfl

theorem openTable_of_new (h : key ∉ t.map Prod.fst) :
    t.openTable key = some (t ++ [(key, .table .header [])]) := by
  rw [Table.openTable, get?_eq_none_of_new h, put_eq_append_of_new h]

/-- Work on the last table is done in its place. -/
theorem reach_last (h : name ∉ t.map Prod.fst) (work : Table → Option Table) (inner : Table) :
    Table.reach work [name] (t ++ [(name, .table .header inner)]) =
      (work inner).map fun after => t ++ [(name, .table .header after)] := by
  have hget : Table.get? (t ++ [(name, .table .header inner)]) name =
      some (.table .header inner) := by
    rw [get?_of_new h]
    exact List.lookup_cons_self
  have hput (after : Table) :
      Table.put name (.table .header after) (t ++ [(name, .table .header inner)]) =
        t ++ [(name, .table .header after)] := by
    rw [put_of_new h, Table.put, if_pos rfl]
  rw [Table.reach, hget]
  simp only [Table.reach, hput]
  cases work inner <;> rfl

end Tables

section Bodies

variable {cs rest line : List Char} {here : List String} {t : Table}

theorem run_entry {key before after text : List Char} {v : Value} (hkey : BareKey key)
    (hbefore : Blanks before) (hafter : Blanks after) (hv : v.Written text) (hline : Silent line) :
    (entry (value (nestingLimit - 1))).run
        (key ++ (before ++ '=' :: (after ++ (text ++ (line ++ cs))))) =
      some (([], String.ofList key, v), line ++ cs) := by
  obtain ⟨c, tail, rfl, hc⟩ := hline.exists_cons
  obtain ⟨first, more, hfirst, hblank⟩ := hv.exists_cons
  have hmark : (mark '=').run ('=' :: (after ++ (text ++ (c :: tail ++ cs)))) =
      some ((), after ++ (text ++ (c :: tail ++ cs))) := rfl
  have hblanks : blanks.run (after ++ (text ++ (c :: tail ++ cs))) =
      some ((), text ++ (c :: tail ++ cs)) := by
    rw [hfirst]
    exact run_blanks hafter hblank
  refine (run_bind_of_eq (run_key hkey hbefore (by decide) (by decide) (by decide))).trans ?_
  refine (run_bind_of_eq (run_blanks blanks_nil (by decide))).trans ?_
  refine (run_bind_of_eq hmark).trans ((run_bind_of_eq hblanks).trans ?_)
  exact run_bind_of_eq (run_value hv hc 78)

theorem run_body_silent (h : Silent line) (n : Nat) :
    (body n here t).run (line ++ cs) = (body n here t).run cs := by
  cases n with
  | zero => rfl
  | succ n =>
    rw [body, StateT.run_bind, StateT.run_bind, run_lines_silent h]

theorem run_body_entry {key before after text : List Char} {v : Value} (hkey : BareKey key)
    (hbefore : Blanks before) (hafter : Blanks after) (hv : v.Written text) (hline : Silent line)
    (n : Nat) :
    (body (n + 1) here t).run (key ++ (before ++ '=' :: (after ++ (text ++ (line ++ cs))))) =
      (t.reach (Table.define (String.ofList key) v []) here).bind fun next =>
        (body n here next).run cs := by
  have hentry := @run_entry cs line key before after text v hkey hbefore hafter hv hline
  obtain ⟨c, tail, rfl⟩ := List.exists_cons_of_ne_nil hkey.1
  have hc : isKeyPart c = true := hkey.isKeyPart List.mem_cons_self
  rw [body]
  refine (run_bind_of_eq (run_lines_start (.inl hc))).trans ((run_get_bind _ _).trans ?_)
  refine (run_bind_of_eq (run_mark?_of_ne (ne_of_test hc (by decide)))).trans ?_
  refine (run_bind_of_eq hentry).trans ((run_bind_of_eq (run_lineEnd hline)).trans ?_)
  cases t.reach (Table.define (String.ofList (c :: tail)) v []) here <;> rfl

theorem run_body_header {name : List Char} (hname : BareKey name) (hline : Silent line) (n : Nat) :
    (body (n + 1) here t).run ('[' :: (name ++ ']' :: (line ++ cs))) =
      (t.openTable (String.ofList name)).bind fun next =>
        (body n [String.ofList name] next).run cs := by
  have hkey : key.run (name ++ ']' :: (line ++ cs)) =
      some (([], String.ofList name), ']' :: (line ++ cs)) :=
    run_key hname blanks_nil (by decide) (by decide) (by decide)
  have hmark : (mark? '[').run ('[' :: (name ++ ']' :: (line ++ cs))) =
      some (true, name ++ ']' :: (line ++ cs)) := rfl
  have hclose : (mark ']').run (']' :: (line ++ cs)) = some ((), line ++ cs) := rfl
  obtain ⟨c, tail, rfl⟩ := List.exists_cons_of_ne_nil hname.1
  have hc : isKeyPart c = true := hname.isKeyPart List.mem_cons_self
  have hblank : isBlank c = false :=
    isBlank_of_ne (ne_of_test hc (by decide)) (ne_of_test hc (by decide))
  rw [body]
  refine (run_bind_of_eq (run_lines_start (.inr rfl))).trans ((run_get_bind _ _).trans ?_)
  refine (run_bind_of_eq hmark).trans ?_
  refine (run_bind_of_eq (run_mark?_of_ne (ne_of_test hc (by decide)))).trans ?_
  refine (run_bind_of_eq (run_blanks blanks_nil hblank)).trans ((run_bind_of_eq hkey).trans ?_)
  refine (run_bind_of_eq (run_blanks blanks_nil (by decide))).trans ?_
  refine (run_bind_of_eq hclose).trans ((run_bind_of_eq (run_lineEnd hline)).trans ?_)
  change (liftM (t.openTable (String.ofList (c :: tail))) >>= fun next =>
    body n [String.ofList (c :: tail)] next : Parser Table).run cs = _
  cases t.openTable (String.ofList (c :: tail)) <;> rfl

/-- The entries of a table are put into it one by one. -/
theorem run_body_entries {entries : List (String × Value)} (build : Table → Table) (inner : Table)
    (h : Entries entries cs)
    (hbuild : ∀ inner key v, key ∉ inner.map Prod.fst →
      (build inner).reach (Table.define key v []) here = some (build (inner ++ [(key, v)])))
    (hnodup : ((inner ++ entries).map Prod.fst).Nodup) (n : Nat) :
    (body (entries.length + n) here (build inner)).run (cs ++ rest) =
      (body n here (build (inner ++ entries))).run rest := by
  induction h generalizing inner with
  | nil =>
    rw [List.append_nil, List.length_nil, Nat.zero_add]
    rfl
  | silent hline _ ih =>
    rw [List.append_assoc, run_body_silent hline]
    exact ih inner hnodup
  | @cons key before after text line cs v entries hkey hbefore hafter hv hline _ ih =>
    have hnew : String.ofList key ∉ inner.map Prod.fst := by
      intro hmem
      rw [List.map_append, List.map_cons, List.nodup_append] at hnodup
      exact hnodup.2.2 _ hmem _ List.mem_cons_self rfl
    rw [List.append_cons] at hnodup
    have hrest := ih (inner ++ [(String.ofList key, v)]) hnodup
    rw [← List.append_cons] at hrest
    simp only [List.append_assoc, List.cons_append, List.length_cons, Nat.add_right_comm _ 1 n]
    rw [run_body_entry hkey hbefore hafter hv hline, hbuild inner _ v hnew]
    exact hrest

/-- The number of lines that sections need. -/
def sectionLines (sections : List (String × List (String × Value))) : Nat :=
  (sections.map fun inner => inner.2.length + 1).sum

/-- Sections are put into the table one by one. -/
theorem run_body_sections {sections : List (String × List (String × Value))}
    (h : Sections sections cs)
    (hnodup : ((t ++ plainTable [] sections).map Prod.fst).Nodup)
    (hinner : ∀ inner ∈ sections, (inner.2.map Prod.fst).Nodup) (n : Nat) :
    (body (sectionLines sections + (n + 1)) here t).run cs =
      some (t ++ plainTable [] sections, []) := by
  induction h generalizing t here with
  | nil =>
    rw [plainTable, List.map_nil, List.append_nil, List.append_nil]
    rfl
  | @cons name line cs rest entries sections hname hline hentries _ ih =>
    have hsplit : t ++ plainTable [] ((String.ofList name, entries) :: sections) =
        t ++ [(String.ofList name, .table .header entries)] ++ plainTable [] sections := by
      rw [List.append_assoc]
      rfl
    have hnew : String.ofList name ∉ t.map Prod.fst := by
      intro hmem
      rw [List.map_append, List.nodup_append] at hnodup
      exact hnodup.2.2 _ hmem _ List.mem_cons_self rfl
    have hbuild (inner : Table) (key : String) (v : Value) (hkey : key ∉ inner.map Prod.fst) :
        Table.reach (Table.define key v []) [String.ofList name]
            (t ++ [(String.ofList name, .table .header inner)]) =
          some (t ++ [(String.ofList name, .table .header (inner ++ [(key, v)]))]) := by
      rw [reach_last hnew, define_of_new hkey]
      rfl
    have hfuel : sectionLines ((String.ofList name, entries) :: sections) + (n + 1) =
        entries.length + (sectionLines sections + (n + 1)) + 1 := by
      simp only [sectionLines, List.map_cons, List.sum_cons]
      omega
    rw [hfuel, run_body_header hname hline, openTable_of_new hnew, Option.bind_some]
    refine (run_body_entries (fun inner => t ++ [(String.ofList name, .table .header inner)]) []
      hentries hbuild (hinner _ List.mem_cons_self) _).trans ?_
    rw [hsplit] at hnodup ⊢
    exact ih hnodup fun inner h => hinner inner (List.mem_cons_of_mem _ h)

theorem Entries.length_le {entries : List (String × Value)} (h : Entries entries cs) :
    entries.length ≤ cs.length := by
  induction h with
  | nil => exact Nat.le_refl 0
  | silent _ _ ih =>
    rw [List.length_append]
    omega
  | cons hkey _ _ _ _ _ ih =>
    simp only [List.length_append, List.length_cons]
    omega

theorem Sections.length_le {sections : List (String × List (String × Value))}
    (h : Sections sections cs) : sectionLines sections ≤ cs.length := by
  induction h with
  | nil => exact Nat.le_refl 0
  | cons _ _ hentries _ ih =>
    have hlength := hentries.length_le
    simp only [sectionLines, List.map_cons, List.sum_cons, List.length_append,
      List.length_cons] at ih ⊢
    omega

theorem Entries.head?_ne {entries : List (String × Value)} (h : Entries entries cs) :
    cs.head? ≠ some '\uFEFF' := by
  cases h with
  | nil => simp
  | silent hline _ =>
    obtain ⟨c, tail, rfl, hc⟩ := hline.exists_cons
    cases hc <;> simp
  | cons hkey _ _ _ _ _ =>
    obtain ⟨c, tail, rfl⟩ := List.exists_cons_of_ne_nil hkey.1
    simpa using ne_of_test (hkey.isKeyPart List.mem_cons_self) (by decide)

theorem Sections.head?_ne {sections : List (String × List (String × Value))}
    (h : Sections sections cs) : cs.head? ≠ some '\uFEFF' := by
  cases h <;> simp

theorem dropOrderMark_of_head?_ne (h : cs.head? ≠ some '\uFEFF') : dropOrderMark cs = cs := by
  cases cs with
  | nil => rfl
  | cons c cs =>
    rw [dropOrderMark]
    rintro tail heq
    cases heq
    exact h rfl

end Bodies

/-- A plain text is read as the table that it says. -/
theorem parse?_of_plain {entries : List (String × Value)}
    {sections : List (String × List (String × Value))} {text : String}
    (h : Plain entries sections text) : parse? text = some (plainTable entries sections) := by
  obtain ⟨front, back, htext, hentries, hsections⟩ := h.written
  have hmark : dropOrderMark text.toList = front ++ back := by
    rw [htext, dropOrderMark_of_head?_ne]
    rw [List.head?_append, ne_eq, Option.or_eq_some_iff, not_or]
    exact ⟨hentries.head?_ne, fun hback => hsections.head?_ne hback.2⟩
  obtain ⟨n, hn⟩ : ∃ n, (front ++ back).length + 1 =
      entries.length + (sectionLines sections + (n + 1)) := by
    have hfront := hentries.length_le
    have hback := hsections.length_le
    rw [List.length_append]
    exact ⟨front.length + back.length - entries.length - sectionLines sections, by omega⟩
  have hkeys : ((entries ++ plainTable [] sections).map Prod.fst).Nodup := h.nodup_keys
  have hfront : (entries.map Prod.fst).Nodup := by
    rw [List.map_append] at hkeys
    exact hkeys.of_append_left
  have hrun : (body ((front ++ back).length + 1) [] []).run (front ++ back) =
      some (plainTable entries sections, []) := by
    rw [hn]
    exact (run_body_entries id [] hentries (fun _ _ _ => define_of_new) hfront _).trans
      (run_body_sections hsections hkeys h.nodup_inner n)
  rw [parse?, hmark, hrun]
  rfl

end Toml

end ScriptWire
