import ScriptWire.Estree.Kind
import ScriptWire.Proofs.Tree.Part

/-!
# Trees that documents can hold

A document names the kind of a construct that the tree has no shape for. If that kind were one that
the level knows, or one that its place is looked at for, the document would be read differently.

## Main definitions

- `Tree.Part.Foreign` — the rule for constructs without a shape
- `Tree.Part.Finite` — the rule for numbers
- `Tree.Part.Readable` — both rules
-/

namespace ScriptWire

namespace Tree

open Estree (Level)

/-- A construct without a shape is of a kind that its level does not know. The head of a loop is no
unknown declaration, and the body of an arrow function no unknown block. -/
def Part.Foreign : Part → Prop
  | .statement (.unsupported kind) => kind ∉ Level.statement.known
  | .expression (.unsupported kind) => kind ∉ Level.expression.known
  | .pattern (.unsupported kind) => kind ∉ Level.pattern.known
  | .member (.unsupported kind) => kind ∉ Level.member.known
  | .loopHead (.expression e) => e ≠ .unsupported "VariableDeclaration"
  | .arrowBody (.expression e) => e ≠ .unsupported "BlockStatement"
  | _ => True

/-- A number is finite. -/
def Part.Finite : Part → Prop
  | .expression (.numericLiteral value) => value.isFinite = true
  | _ => True

/-- A part follows both rules. -/
def Part.Readable (n : Part) : Prop :=
  n.Foreign ∧ n.Finite

theorem Part.every_readable_iff {n : Part} :
    n.Every Readable ↔ n.Every Foreign ∧ n.Every Finite :=
  forall₂_and

theorem Program.every_readable_iff {p : Program} :
    p.Every Part.Readable ↔ p.Every Part.Foreign ∧ p.Every Part.Finite := by
  simp only [Program.Every, Part.every_readable_iff, forall₂_and]

end Tree

end ScriptWire
