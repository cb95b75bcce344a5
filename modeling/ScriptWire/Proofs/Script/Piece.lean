import ScriptWire.Script.Tree
import Mathlib.Data.List.Basic
import Mathlib.Logic.Relation

/-!
# All pieces of a script

A script as it is written is taken apart here, down to the defaults of parameters and the computed
keys of members. Array literals are the pieces that a property is asked of.

## Main definitions

- `Script.Piece` — a piece of a script
- `Script.Piece.contents` — the pieces right below a piece
- `Script.Piece.Within` — one piece stands somewhere inside another
- `Script.Piece.EachArray` — a property of all array literals in a piece
-/

namespace ScriptWire

namespace Script

/-- A piece of a script. -/
inductive Piece
  | statement (s : Statement)
  | expression (e : Expression)
  | pattern (p : Pattern)
  | member (m : Member)
  | declarator (d : Declarator)
  | loopHead (head : ForHead)
  | handler (clause : Handler)

/-- The pieces right below a statement. -/
def Statement.contents : Statement → List Piece
  | .empty => []
  | .block body => body.map .statement
  | .expression value => [.expression value]
  | .declaration _ declarators => declarators.map .declarator
  | .function _ params body _ _ => params.map .pattern ++ body.map .statement
  | .returns argument => argument.toList.map .expression
  | .conditional test consequent alternate =>
    .expression test :: .statement consequent :: alternate.toList.map .statement
  | .whileLoop test body => [.expression test, .statement body]
  | .doLoop body test => [.statement body, .expression test]
  | .forLoop init test update body =>
    init.toList.map .loopHead ++ test.toList.map .expression ++ update.toList.map .expression ++
      [.statement body]
  | .forIn left right body => [.loopHead left, .expression right, .statement body]
  | .forOf _ left right body => [.loopHead left, .expression right, .statement body]
  | .tries body handler finalizer =>
    body.map .statement ++ handler.toList.map .handler ++ finalizer.toList.flatten.map .statement
  | .throws argument => [.expression argument]
  | .unread _ => []

/-- The piece in a token of an array literal. -/
def ArrayItem.contents : ArrayItem → List Piece
  | .comma => []
  | .element value => [.expression value]

/-- The pieces right below the body of an arrow function. -/
def ArrowBody.contents : ArrowBody → List Piece
  | .block body => body.map .statement
  | .expression value => [.expression value]

/-- The pieces right below an expression. -/
def Expression.contents : Expression → List Piece
  | .group inner => [.expression inner]
  | .assign _ left right => [.expression left, .expression right]
  | .object members => members.map .member
  | .array items => items.flatMap ArrayItem.contents
  | .function _ params body _ _ => params.map .pattern ++ body.map .statement
  | .arrow _ params body => params.map .pattern ++ body.contents
  | .call callee arguments => .expression callee :: arguments.map .expression
  | .construct callee arguments => .expression callee :: arguments.map .expression
  | .member owner _ => [.expression owner]
  | .index owner place => [.expression owner, .expression place]
  | .unary _ argument => [.expression argument]
  | .binary _ left right => [.expression left, .expression right]
  | .update _ _ argument => [.expression argument]
  | .yields argument _ => argument.toList.map .expression
  | .awaits argument => [.expression argument]
  | .conditional test consequent alternate =>
    [.expression test, .expression consequent, .expression alternate]
  | .sequence expressions => expressions.map .expression
  | .spread argument => [.expression argument]
  | _ => []

/-- The pieces right below a binding. -/
def Pattern.contents : Pattern → List Piece
  | .withDefault target value => [.pattern target, .expression value]
  | .rest target => [.pattern target]
  | _ => []

/-- The piece in a key. A name or a literal has no pieces. -/
def MemberKey.contents : MemberKey → List Piece
  | .computed value => [.expression value]
  | _ => []

/-- The pieces right below a member of an object literal. -/
def Member.contents : Member → List Piece
  | .pair key value => key.contents ++ [.expression value]
  | .shorthand _ => []
  | .method _ key params body => key.contents ++ (params.map .pattern ++ body.map .statement)
  | .spread argument => [.expression argument]

/-- The pieces right below the head of a loop. -/
def ForHead.contents : ForHead → List Piece
  | .declaration _ declarators => declarators.map .declarator
  | .expression value => [.expression value]

namespace Piece

/-- The pieces right below a piece. -/
def contents : Piece → List Piece
  | .statement s => s.contents
  | .expression e => e.contents
  | .pattern p => p.contents
  | .member m => m.contents
  | .declarator (.mk target value) => .pattern target :: value.toList.map .expression
  | .loopHead head => head.contents
  | .handler (.mk param body) => param.toList.map .pattern ++ body.map .statement

/-- One piece stands inside another, or is the other. -/
def Within (inner outer : Piece) : Prop :=
  Relation.ReflTransGen (fun n c => c ∈ n.contents) outer inner

/-- The tokens of an array literal. -/
def tokens? : Piece → Option (List ArrayItem)
  | .expression (.array items) => some items
  | _ => none

/-- The property holds of the tokens of every array literal in a piece. -/
def EachArray (P : List ArrayItem → Prop) (n : Piece) : Prop :=
  ∀ items, (Piece.expression (.array items)).Within n → P items

namespace EachArray

variable {P : List ArrayItem → Prop} {n : Piece}

/-- A piece that is no array literal has the array literals of the pieces below it. -/
theorem node (hn : n.tokens? = none) (h : ∀ c ∈ n.contents, c.EachArray P) : n.EachArray P := by
  intro items hwithin
  rcases Relation.ReflTransGen.cases_head hwithin with rfl | ⟨c, hc, hrest⟩
  · cases hn
  · exact h c hc items hrest

theorem array {items : List ArrayItem} (hself : P items)
    (h : ∀ c ∈ items.flatMap ArrayItem.contents, c.EachArray P) :
    (Piece.expression (.array items)).EachArray P := by
  intro inner hwithin
  rcases Relation.ReflTransGen.cases_head hwithin with heq | ⟨c, hc, hrest⟩
  · cases heq
    exact hself
  · exact h c hc inner hrest

theorem leaf (hn : n.tokens? = none) (hc : n.contents = []) : n.EachArray P := by
  refine node hn ?_
  rw [hc]
  exact List.forall_mem_nil _

theorem single {a : Piece} (hn : n.tokens? = none) (hcontents : n.contents = [a])
    (ha : a.EachArray P) : n.EachArray P := by
  refine node hn ?_
  rw [hcontents]
  exact List.forall_mem_singleton.mpr ha

theorem pair {a b : Piece} (hn : n.tokens? = none) (hcontents : n.contents = [a, b])
    (ha : a.EachArray P) (hb : b.EachArray P) : n.EachArray P := by
  refine node hn ?_
  rw [hcontents]
  exact List.forall_mem_cons.mpr ⟨ha, List.forall_mem_singleton.mpr hb⟩

theorem triple {a b c : Piece} (hn : n.tokens? = none) (hcontents : n.contents = [a, b, c])
    (ha : a.EachArray P) (hb : b.EachArray P) (hc : c.EachArray P) : n.EachArray P := by
  refine node hn ?_
  rw [hcontents]
  exact List.forall_mem_cons.mpr
    ⟨ha, List.forall_mem_cons.mpr ⟨hb, List.forall_mem_singleton.mpr hc⟩⟩

/-- The pieces of a function are its parameters and its body. -/
theorem function {params : List Pattern} {body : List Statement} (hn : n.tokens? = none)
    (hcontents : n.contents = params.map .pattern ++ body.map .statement)
    (hparams : ∀ p ∈ params, (Piece.pattern p).EachArray P)
    (hbody : ∀ x ∈ body, (Piece.statement x).EachArray P) : n.EachArray P := by
  refine node hn ?_
  rw [hcontents]
  exact List.forall_mem_append.mpr ⟨List.forall_mem_map.mpr hparams, List.forall_mem_map.mpr hbody⟩

theorem contents (h : n.EachArray P) : ∀ c ∈ n.contents, c.EachArray P :=
  fun _ hc items hwithin => h items (.head hc hwithin)

end EachArray

end Piece

end Script

end ScriptWire
