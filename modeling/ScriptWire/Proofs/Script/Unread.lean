import ScriptWire.Proofs.Estree.Sound
import ScriptWire.Proofs.Script.Reading
import Mathlib.Data.List.Basic

/-!
# What scripts leave unread

The tree of a script holds a construct without a shape only where the script has a construct that is
kept as its kind. None of these kinds is one that a document is looked at for.

## Main results

- `Script.ensures_read` — a construct without a shape is one that scripts keep unread
- `Tree.Program.foreign_of_ofScript` — the kinds of such constructs are foreign
- `every_foreign_of_read` — neither reader gives a tree that its document would not hold
-/

namespace ScriptWire

namespace Script

open ScriptWire.Tree (Part)

theorem MemberName.ofScript_node (name : MemberName) :
    (Part.expression name.node).Every Part.OfScript := by
  cases name with
  | plain name => exact Part.every_of_leaf rfl trivial
  | hidden => exact Part.every_of_leaf rfl ⟨.privateName, rfl⟩

/-- That constructs without a shape are those of scripts is asked of names as of other parts. -/
theorem Rule.ofScript : Rule fun _ n => n.Every Part.OfScript := by
  have hname (name : String) : (Part.expression (.identifier name)).Every Part.OfScript :=
    Part.every_of_leaf rfl trivial
  refine { (Tree.Rule.every Part.OfScript) with
    access := fun name hobject => ?_
    pair := fun name hvalue => ?_
    shorthand := fun name => ?_
    method := fun kind name hparams hbody => ?_ }
  · exact Part.every_iff.mpr ⟨trivial, Part.forall_pair hobject name.ofScript_node⟩
  · exact Part.every_iff.mpr ⟨trivial, Part.forall_pair (hname name) hvalue⟩
  · exact Part.every_iff.mpr ⟨trivial, Part.forall_pair (hname name) (hname name)⟩
  · exact Part.every_iff.mpr ⟨trivial,
      List.forall_mem_cons.mpr ⟨hname name, Part.forall_function hparams hbody⟩⟩

/-- The tree of a script has constructs without a shape only for constructs that are kept unread. -/
theorem ensures_read (source : String) : Ensures (read source) fun p => p.Every Part.OfScript :=
  Rule.ofScript.ensures_read source

open Estree (Level)

theorem UnreadStatement.kind_not_mem (u : UnreadStatement) : u.kind ∉ Level.statement.known := by
  cases u <;> decide

/-- The kind of an unread expression is none of expressions, and none that a loop head or the body
of an arrow function is looked at for. -/
theorem UnreadExpression.kind_not_mem (u : UnreadExpression) :
    u.kind ∉ "VariableDeclaration" :: "BlockStatement" :: Level.expression.known := by
  cases u <;> decide

theorem memberAccessKind_not_mem : memberAccessKind ∉ Level.pattern.known := by
  decide

-- A binding to a computed member follows a rule of its own, which has the same kind.
example : kindOfRule "subscript_expression" = memberAccessKind := by
  decide

end Script

namespace Tree

/-- An expression in the tree of a script is not unsupported under a kind that no unread expression
has. -/
theorem Part.OfScript.ne_unsupported {e : Expression} {kind : String}
    (h : (Part.expression e).OfScript)
    (hkind : ∀ u : Script.UnreadExpression, u.kind ≠ kind) : e ≠ .unsupported kind := by
  rintro rfl
  obtain ⟨u, hu⟩ := h
  exact hkind u hu

theorem Part.foreign_of_ofScript {n : Part} (h : n.Every OfScript) : n.Foreign := by
  obtain ⟨hn, hc⟩ := every_iff.mp h
  cases n with
  | statement s =>
    cases s with
    | unsupported kind =>
      obtain ⟨u, rfl⟩ := hn
      exact u.kind_not_mem
    | _ => trivial
  | expression e =>
    cases e with
    | unsupported kind =>
      obtain ⟨u, rfl⟩ := hn
      exact fun hmem => u.kind_not_mem (.tail _ (.tail _ hmem))
    | _ => trivial
  | pattern p =>
    cases p with
    | unsupported kind =>
      obtain rfl := hn
      exact Script.memberAccessKind_not_mem
    | _ => trivial
  | member m =>
    cases m with
    | unsupported kind => exact hn.elim
    | _ => trivial
  | declarator d => trivial
  | loopHead head =>
    cases head with
    | expression e =>
      have he : (Part.expression e).OfScript := hc _ (.head _) _ .refl
      exact he.ne_unsupported fun u hu => u.kind_not_mem (hu ▸ .head _)
    | variableDeclaration keyword declarations => trivial
  | catchClause clause => trivial
  | arrowBody body =>
    cases body with
    | expression e =>
      have he : (Part.expression e).OfScript := hc _ (.head _) _ .refl
      exact he.ne_unsupported fun u hu => u.kind_not_mem (hu ▸ .tail _ (.head _))
    | blockStatement body => trivial

theorem Program.foreign_of_ofScript {p : Program} (h : p.Every Part.OfScript) :
    p.Every Part.Foreign :=
  fun s hs _ hinner => Part.foreign_of_ofScript fun _ hwithin =>
    h s hs _ (hinner.trans hwithin)

end Tree

open ScriptWire.Tree

/-- A tree that is read from a document or from a script has foreign kinds only, and one from a
document has finite numbers. -/
theorem every_foreign_of_read (source : String) (p : Program) :
    (Estree.read source = .ok p → p.Every Part.Foreign ∧ p.Every Part.Finite) ∧
      (Script.read source = .ok p → p.Every Part.Foreign) :=
  ⟨fun h => Program.every_readable_iff.mp (Estree.ensures_read source p h),
    fun h => Program.foreign_of_ofScript (Script.ensures_read source p h)⟩

/-- A document with one statement of a foreign kind. -/
def debuggerDocument : String :=
  "\x7b\"type\":\"Program\",\"body\":[\x7b\"type\":\"DebuggerStatement\"\x7d]\x7d"

theorem every_foreign_of_read_template :
    (∃ p, Estree.read debuggerDocument = .ok p ∧ p = ⟨[.unsupported "DebuggerStatement"]⟩ ∧
        p.Every Part.Foreign ∧ p.Every Part.Finite) ∧
      ∃ p, Script.read "_=>``" = .ok p ∧
        p = ⟨[.expressionStatement (.arrowFunctionExpression none [.identifier "_"]
          (.expression (.unsupported "TemplateLiteral")) false false)]⟩ ∧ p.Every Part.Foreign := by
  constructor
  · have hparse : Document.parse debuggerDocument =
        .ok (.object [("body", .array [.object [("type", .string "DebuggerStatement")]]),
          ("type", .string "Program")]) := rfl
    have h : Estree.read debuggerDocument = .ok ⟨[.unsupported "DebuggerStatement"]⟩ := by
      rw [Estree.read, hparse]
      rfl
    exact ⟨_, h, rfl, (every_foreign_of_read _ _).1 h⟩
  · have h : Script.read "_=>``" =
        .ok ⟨[.expressionStatement (.arrowFunctionExpression none [.identifier "_"]
          (.expression (.unsupported "TemplateLiteral")) false false)]⟩ := by
      rfl
    exact ⟨_, h, rfl, (every_foreign_of_read _ _).2 h⟩

end ScriptWire
