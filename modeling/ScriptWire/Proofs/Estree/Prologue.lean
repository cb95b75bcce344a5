import ScriptWire.Proofs.Ensures
import ScriptWire.Proofs.Estree.Written
import ScriptWire.Proofs.Literal.Spelling
import ScriptWire.Proofs.Script.Prologue
import Mathlib.Data.List.Basic

/-!
# Directives

A directive holds the text between the quotes as it is written, and becomes a string literal with
that text as its value. In a script the same line has the text that the characters denote, so the
two differ wherever an escape is written.

## Main definitions

- `Estree.IsDirective` — a value is a directive with a text
- `Estree.HasPrologue` — an object has directives and statements

## Main results

- `Estree.readValue_prologue` — the directives of a block stand in front of its statements
- `Estree.read_prologue` — where directives can stand, and when both readers agree on them
-/

namespace ScriptWire

namespace Estree

open Document (Value lookup? Ascending)
open ScriptWire.Tree

variable {bare : Bool} {members : List (String × Value)} {texts values : List String}
  {body : List Statement}

/-- The value is a directive with the text: under its value, a literal whose value is the text.
Further members do not matter. -/
def IsDirective (text : String) (v : Value) : Prop :=
  ∃ outer inner, v = .object outer ∧ Ascending outer ∧ Ascending inner ∧
    lookup? "value" outer = some (.object inner) ∧ lookup? "value" inner = some (.string text)

/-- The members of an object hold the directives with the texts, and statements. -/
structure HasPrologue (members : List (String × Value)) (texts : List String)
    (body : List Statement) : Prop where
  ascending : Ascending members
  directives : ∃ items, lookup? "directives" members = some (.array items) ∧
    List.Forall₂ IsDirective texts items
  statements : ∃ v, lookup? "body" members = some v ∧
    ∀ bare, readValue bare (.list statementPlace) v = .ok body

theorem Entry.supplied_of_lookup {e : Entry} {found : Option Value} {v : Value}
    {x : e.place.Result} (hfound : found = some v) (h : readValue bare e.place v = .ok x) :
    e.Supplied bare found x := by
  subst hfound
  exact h

/-- A directive is read as its text. -/
theorem IsDirective.readValue_eq {text : String} {v : Value} (h : IsDirective text v) :
    readValue bare (.record .directive) v = .ok text := by
  obtain ⟨outer, inner, rfl, houter, hinner, hvalue, htext⟩ := h
  have hinside : Supplied bare inner directiveLiteralForm.entries (text, ()) :=
    ⟨Entry.supplied_of_lookup htext (readValue_text text), trivial⟩
  have hliteral : readValue bare (.record .directiveLiteral) (.object inner) = .ok text :=
    readValue_fill (.record .directiveLiteral) directiveLiteralForm (text, ()) rfl
      (Record.nodup_names .directiveLiteral) hinner hinside
  have houtside : Supplied bare outer directiveForm.entries (text, ()) :=
    ⟨Entry.supplied_of_lookup hvalue hliteral, trivial⟩
  exact readValue_fill (.record .directive) directiveForm (text, ()) rfl
    (Record.nodup_names .directive) houter houtside

theorem readItems_directives {items : List Value} (h : List.Forall₂ IsDirective texts items) :
    readItems bare (.record .directive) items = .ok texts := by
  induction h with
  | nil => rw [readItems]; rfl
  | cons hdirective _ ih =>
    rw [readItems, hdirective.readValue_eq, ih]
    rfl

/-- The members of a block give both of its parts. -/
theorem HasPrologue.supplied (h : HasPrologue members texts body) :
    Supplied bare members blockForm.entries (body, texts, ()) := by
  obtain ⟨items, hitems, hdirectives⟩ := h.directives
  obtain ⟨v, hv, hbody⟩ := h.statements
  have hlist : readValue bare (.list (.record .directive)) (.array items) = .ok texts := by
    rw [readValue, Place.arrayPlan]
    simp only [readItems_directives hdirectives]
    rfl
  exact ⟨Entry.supplied_of_lookup hv (hbody bare), Entry.supplied_of_lookup hitems hlist, trivial⟩

/-- The directives of a block stand in front of its statements, as string literals with their
texts. So it is for a block that stands as a record, as a statement or as the body of an arrow
function. -/
theorem readValue_prologue (h : HasPrologue members texts body) :
    readValue bare (.record .block) (.object members) =
        .ok (texts.map directiveStatement ++ body) ∧
      (hasKind "BlockStatement" members = true →
        readValue bare statementPlace (.object members) =
            .ok (.blockStatement (texts.map directiveStatement ++ body)) ∧
          readValue bare .arrowBody (.object members) =
            .ok (.blockStatement (texts.map directiveStatement ++ body))) := by
  have hrecord : readValue bare (.record .block) (.object members) =
      .ok (texts.map directiveStatement ++ body) :=
    readValue_fill (.record .block) blockForm (body, texts, ()) rfl
      (Record.nodup_names .block) h.ascending h.supplied
  refine ⟨hrecord, fun hkind => ⟨?_, ?_⟩⟩
  · have hplan : Place.objectPlan bare statementPlace members =
        .fill (blockForm.map .blockStatement) false := by
      obtain ⟨hknown, hform⟩ : "BlockStatement" ∈ Level.statement.known ∧
          Level.statement.form? "BlockStatement" = some (blockForm.map .blockStatement) :=
        ⟨by decide, rfl⟩
      rw [Place.objectPlan, Level.objectPlan, hasKind_iff.mp hkind]
      simp only [if_pos hknown, hform]
    exact readValue_fill statementPlace (blockForm.map .blockStatement) (body, texts, ()) hplan
      (Record.nodup_names .block) h.ascending h.supplied
  · have hplan : Place.objectPlan bare .arrowBody members =
        .fill (blockForm.map .blockStatement) true := by
      rw [Place.objectPlan, if_pos hkind]
    exact readValue_fill .arrowBody (blockForm.map .blockStatement) (body, texts, ()) hplan
      (Record.nodup_names .block) h.ascending h.supplied

/-- A program is read like a block. -/
theorem readDocument_prologue (h : HasPrologue members texts body)
    (hkind : hasKind "Program" members = true) :
    readDocument (.object members) = .ok ⟨texts.map directiveStatement ++ body⟩ := by
  have hvalue : programValue (.object members) = .ok (.object members) := by
    rw [programValue, hasKind_iff.mp hkind]
    rfl
  have hprogram : readProgram (.object members) = .ok ⟨texts.map directiveStatement ++ body⟩ := by
    rw [readProgram, (readValue_prologue h).1]
    rfl
  rw [readDocument, hvalue]
  exact congrArg (Except.mapError ReadError.fault) hprogram

/-- The text of a directive is what its characters denote exactly if it has no escapes. -/
theorem map_directiveStatement_eq_iff
    (h : List.Forall₂ (fun text value => Literal.unquote ("'" ++ text ++ "'") = .ok value)
      texts values) :
    texts.map directiveStatement = values.map directiveStatement ↔
      ∀ text ∈ texts, '\\' ∉ text.toList := by
  induction h with
  | nil => simp
  | @cons text value texts values hvalue _ ih =>
    have hquote : String.singleton '\x27' = "'" := by decide
    have hdecode : Literal.unquote
        (String.singleton '\x27' ++ text ++ String.singleton '\x27') = Literal.unescape text :=
      Literal.unquote_quoted (by decide) text
    rw [hquote, hvalue] at hdecode
    obtain ⟨chars, hchars, rfl⟩ := map_eq_ok.mp hdecode.symm
    have hsame : directiveStatement text = directiveStatement (String.ofList chars) ↔
        '\\' ∉ text.toList := by
      rw [← Literal.eq_iff_of_decode hchars, directiveStatement, directiveStatement,
        Statement.expressionStatement.injEq, Expression.stringLiteral.injEq, eq_comm,
        ← String.toList_inj, String.toList_ofList]
    rw [List.map_cons, List.map_cons, List.cons.injEq, hsame, ih, List.forall_mem_cons]

/-- Wherever a block, a function body or a program has directives, they are read as string literals
in front of the statements, with the texts between the quotes as their values. A script of lines
with the same literals is read as what the characters denote. So both readers agree on directives
exactly if these have no escapes. -/
theorem read_prologue
    (hvalues : List.Forall₂ (fun text value => Literal.unquote ("'" ++ text ++ "'") = .ok value)
      texts values) (h : HasPrologue members texts body) :
    (∀ bare, readValue bare (.record .block) (.object members) =
        .ok (texts.map directiveStatement ++ body)) ∧
      (hasKind "BlockStatement" members = true → ∀ bare,
        readValue bare statementPlace (.object members) =
            .ok (.blockStatement (texts.map directiveStatement ++ body)) ∧
          readValue bare .arrowBody (.object members) =
            .ok (.blockStatement (texts.map directiveStatement ++ body))) ∧
      (hasKind "Program" members = true →
        readDocument (.object members) = .ok ⟨texts.map directiveStatement ++ body⟩) ∧
      ((∀ text ∈ texts, Script.StringBody '\x27' text.toList) →
        Script.read (String.ofList (texts.flatMap Script.stringLine)) =
          .ok ⟨values.map directiveStatement⟩) ∧
      (texts.map directiveStatement ++ body = values.map directiveStatement ++ body ↔
        ∀ text ∈ texts, '\\' ∉ text.toList) := by
  refine ⟨fun _ => (readValue_prologue h).1, fun hkind _ => (readValue_prologue h).2 hkind,
    readDocument_prologue h, fun hbodies => Script.read_lines hbodies hvalues, ?_⟩
  rw [List.append_left_inj]
  exact map_directiveStatement_eq_iff hvalues

/-- A directive as an object with a kind. -/
def directiveValue (text : String) : Value :=
  .object [("type", .string "Directive"),
    ("value", .object [("type", .string "DirectiveLiteral"), ("value", .string text)])]

theorem isDirective_directiveValue (text : String) : IsDirective text (directiveValue text) := by
  have hkeys : List.Pairwise (· < ·) ["type", "value"] := by decide
  refine ⟨_, _, rfl, ?_, ?_, rfl, rfl⟩
  · exact hkeys
  · exact hkeys

/-- The members of a program with two directives, one of them with an escape, and a statement. -/
def escapedProgram : List (String × Value) :=
  [("body", .array [.object [("type", .string "EmptyStatement")]]),
    ("directives", .array [directiveValue "use strict", directiveValue "\\x41"]),
    ("type", .string "Program")]

theorem hasPrologue_escapedProgram :
    HasPrologue escapedProgram ["use strict", "\\x41"] [.emptyStatement] where
  ascending := (by decide : List.Pairwise (· < ·) ["body", "directives", "type"])
  directives :=
    ⟨_, rfl, .cons (isDirective_directiveValue _) (.cons (isDirective_directiveValue _) .nil)⟩
  statements := ⟨_, rfl, fun bare => by cases bare <;> rfl⟩

theorem read_prologue_escapedProgram :
    (Literal.unquote "'use strict'" = .ok "use strict" ∧ Literal.unquote "'\\x41'" = .ok "A") ∧
      readDocument (.object escapedProgram) =
        .ok ⟨[directiveStatement "use strict", directiveStatement "\\x41", .emptyStatement]⟩ ∧
      Script.read "'use strict';\n'\\x41';\n" =
        .ok ⟨[directiveStatement "use strict", directiveStatement "A"]⟩ := by
  have hvalues : List.Forall₂
      (fun text value => Literal.unquote ("'" ++ text ++ "'") = .ok value)
      ["use strict", "\\x41"] ["use strict", "A"] :=
    .cons (by decide +kernel) (.cons (by decide +kernel) .nil)
  have hbodies : ∀ text ∈ ["use strict", "\\x41"], Script.StringBody '\x27' text.toList := by
    rw [List.forall_mem_cons, List.forall_mem_singleton]
    exact ⟨.of_plain (by simp), .byte (by decide) .nil⟩
  obtain ⟨-, -, hdocument, hscript, -⟩ := read_prologue hvalues hasPrologue_escapedProgram
  have hsource : String.ofList (["use strict", "\\x41"].flatMap Script.stringLine) =
      "'use strict';\n'\\x41';\n" := by decide
  rw [hsource] at hscript
  exact ⟨⟨by decide +kernel, by decide +kernel⟩, hdocument (by decide), hscript hbodies⟩

set_option maxRecDepth 2000 in
/-- A directive with an escape is read as the text that is written, a line of a script with the same
literal as the character that it denotes. -/
theorem directive_keeps_escape :
    Literal.unquote "'\\x41'" = .ok "A" ∧
      read ("\x7b\"type\":\"Program\",\"body\":[],\"directives\":[\x7b\"type\":\"Directive\"," ++
        "\"value\":\x7b\"type\":\"DirectiveLiteral\",\"value\":\"\\\\x41\"\x7d\x7d]\x7d") =
          .ok ⟨[directiveStatement "\\x41"]⟩ ∧
      Script.read "'\\x41';\n" = .ok ⟨[directiveStatement "A"]⟩ ∧
      directiveStatement "\\x41" ≠ directiveStatement "A" := by
  have hline : ∀ text ∈ ["\\x41"], Script.StringBody '\x27' text.toList := by
    rw [List.forall_mem_singleton]
    exact .byte (by decide) .nil
  have hvalue : Literal.unquote ("'" ++ "\\x41" ++ "'") = .ok "A" := by decide +kernel
  have hscript := Script.read_lines hline (.cons hvalue .nil)
  have hsource : String.ofList (["\\x41"].flatMap Script.stringLine) = "'\\x41';\n" := by decide
  rw [hsource] at hscript
  have hparse : Document.parse
      ("\x7b\"type\":\"Program\",\"body\":[],\"directives\":[\x7b\"type\":\"Directive\"," ++
        "\"value\":\x7b\"type\":\"DirectiveLiteral\",\"value\":\"\\\\x41\"\x7d\x7d]\x7d") =
      .ok (.object [("body", .array []), ("directives", .array [directiveValue "\\x41"]),
        ("type", .string "Program")]) := rfl
  refine ⟨hvalue, ?_, hscript, ?_⟩
  · rw [read, hparse]
    rfl
  · intro h
    injection h with hliteral
    injection hliteral with htext
    exact absurd htext (by decide)

end Estree

end ScriptWire
