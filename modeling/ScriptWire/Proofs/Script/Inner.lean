import ScriptWire.Proofs.Ensures
import ScriptWire.Proofs.Script.Piece
import ScriptWire.Proofs.Tree.Grammar
import ScriptWire.Script.Reader
import Mathlib.Data.List.Forall2

/-!
# What the pieces of a script are read into

The nodes right below what is read from a piece are read from the pieces right below it. Groups have
no nodes of their own, and some pieces are left out of the tree, but not of an accepted one. So each
piece of a script is read into a node that stands inside the node of the whole.

## Main definitions

- `Script.Piece.Reads` — a piece is read into a node, with a number of levels left

## Main results

- `Script.Piece.Reads.below` — the pieces right below a piece are read into nodes right below its
  node
- `Script.Piece.Reads.inside` — the pieces inside a piece are read into nodes inside its node
-/

namespace ScriptWire

namespace Script

open ScriptWire.Tree (Node)

/-- A piece is read into a node, with a number of levels left. -/
inductive Piece.Reads (levels : Nat) : Piece → Node → Prop
  | statement {s : Statement} {t : Tree.Statement} (h : s.read levels = .ok t) :
    Reads levels (.statement s) (.statement t)
  | expression {e : Expression} {t : Tree.Expression} (h : e.read levels = .ok t) :
    Reads levels (.expression e) (.expression t)
  | pattern {p : Pattern} {t : Tree.Pattern} (h : p.read levels = .ok t) :
    Reads levels (.pattern p) (.pattern t)
  | member {m : Member} {t : Tree.Member} (h : m.read levels = .ok t) :
    Reads levels (.member m) (.member t)
  | declarator {d : Declarator} {t : Tree.Declarator} (h : d.read levels = .ok t) :
    Reads levels (.declarator d) (.declarator t)
  | countingHead {head : ForHead} {t : Tree.ForInit} (h : head.read levels = .ok t) :
    Reads levels (.loopHead head) (.countingHead t)
  | iterationHead {head : ForHead} {t : Tree.ForInit} (loop : String)
    (h : head.read levels = .ok t) : Reads levels (.loopHead head) (.iterationHead loop t)
  | handler {clause : Handler} {t : Tree.CatchClause} (h : clause.read levels = .ok t) :
    Reads levels (.handler clause) (.catchClause t)

/-- The nodes are read from the pieces, in their order. -/
abbrev ReadsAll (levels : Nat) (pieces : List Piece) (nodes : List Node) : Prop :=
  List.Forall₂ (Piece.Reads levels) pieces nodes

variable {levels : Nat}

/-! ### Single pieces -/

theorem reads_statement (s : Statement) :
    Ensures (s.read levels) fun t => (Piece.statement s).Reads levels (.statement t) :=
  fun _ h => .statement h

theorem reads_expression (e : Expression) :
    Ensures (e.read levels) fun t => (Piece.expression e).Reads levels (.expression t) :=
  fun _ h => .expression h

theorem reads_pattern (p : Pattern) :
    Ensures (p.read levels) fun t => (Piece.pattern p).Reads levels (.pattern t) :=
  fun _ h => .pattern h

/-! ### Lists of pieces -/

namespace ReadsAll

theorem single {piece : Piece} {node : Node} (h : piece.Reads levels node) :
    ReadsAll levels [piece] [node] :=
  .cons h .nil

theorem append {pieces others : List Piece} {nodes more : List Node}
    (h : ReadsAll levels pieces nodes)
    (hmore : ReadsAll levels others more) : ReadsAll levels (pieces ++ others) (nodes ++ more) :=
  List.rel_append h hmore

/-- Pieces that are read one by one are read in their order. -/
theorem each {α β : Type} {f : α → Except ReadError β} {piece : α → Piece} {node : β → Node}
    (hf : ∀ a, Ensures (f a) fun b => (piece a).Reads levels (node b))
    (g : List α → Except ReadError (List β)) (hnil : g [] = pure [])
    (hcons : ∀ a as, g (a :: as) = do
      let b ← f a
      return b :: (← g as))
    (as : List α) : Ensures (g as) fun bs => ReadsAll levels (as.map piece) (bs.map node) := by
  induction as with
  | nil =>
    rw [hnil]
    exact .pure .nil
  | cons a as ih =>
    rw [hcons]
    exact (hf a).bind fun b hb => ih.bind fun bs hbs => .pure (.cons hb hbs)

theorem statements (body : List Statement) :
    Ensures (readStatements levels body) fun ts =>
      ReadsAll levels (body.map .statement) (ts.map .statement) :=
  each reads_statement (readStatements levels) rfl (fun _ _ => rfl) body

theorem expressions (es : List Expression) :
    Ensures (readExpressions levels es) fun ts =>
      ReadsAll levels (es.map .expression) (ts.map .expression) :=
  each reads_expression (readExpressions levels) rfl (fun _ _ => rfl) es

theorem patterns (ps : List Pattern) :
    Ensures (readPatterns levels ps) fun ts =>
      ReadsAll levels (ps.map .pattern) (ts.map .pattern) :=
  each reads_pattern (readPatterns levels) rfl (fun _ _ => rfl) ps

theorem declarators (ds : List Declarator) :
    Ensures (readDeclarators levels ds) fun ts =>
      ReadsAll levels (ds.map .declarator) (ts.map .declarator) :=
  each (fun _ _ h => .declarator h) (readDeclarators levels) rfl (fun _ _ => rfl) ds

theorem members (ms : List Member) :
    Ensures (readMembers levels ms) fun ts =>
      ReadsAll levels (ms.map .member) (ts.map .member) :=
  each (fun _ _ h => .member h) (readMembers levels) rfl (fun _ _ => rfl) ms

theorem items (vacant : Bool) (tokens : List ArrayItem) :
    Ensures (readItems levels vacant tokens) fun ts =>
      ReadsAll levels (tokens.flatMap ArrayItem.contents)
        (ts.flatMap fun t => t.toList.map .expression) := by
  induction tokens generalizing vacant with
  | nil => exact .pure .nil
  | cons token rest ih =>
    cases token with
    | comma =>
      refine (ih true).bind fun ts hts => .pure ?_
      cases vacant with
      | false => exact hts
      | true => exact hts
    | element value =>
      exact (reads_expression value).bind fun t ht => (ih false).bind fun ts hts =>
        .pure (.cons ht hts)

/-! ### Pieces that may be missing -/

theorem expression? (e : Option Expression) :
    Ensures (readExpression? levels e) fun t =>
      ReadsAll levels (e.toList.map .expression) (t.toList.map .expression) := by
  cases e with
  | none => exact .pure .nil
  | some e => exact (reads_expression e).bind fun _ he => .pure (single he)

theorem forHead? (head : Option ForHead) :
    Ensures (readForHead? levels head) fun t =>
      ReadsAll levels (head.toList.map .loopHead) (t.toList.map .countingHead) := by
  cases head with
  | none => exact .pure .nil
  | some head =>
    exact Ensures.bind (fun _ h => Piece.Reads.countingHead h) fun _ ht => .pure (single ht)

theorem handler? (clause : Option Handler) :
    Ensures (readHandler? levels clause) fun t =>
      ReadsAll levels (clause.toList.map .handler) (t.toList.map .catchClause) := by
  cases clause with
  | none => exact .pure .nil
  | some clause =>
    exact Ensures.bind (fun _ h => Piece.Reads.handler h) fun _ ht => .pure (single ht)

theorem block? (body : Option (List Statement)) :
    Ensures (readBlock? levels body) fun t =>
      ReadsAll levels (body.toList.flatten.map .statement)
        (t.toList.flatten.map .statement) := by
  cases body with
  | none => exact .pure .nil
  | some body =>
    refine (statements body).bind fun ts hts => .pure ?_
    simpa using hts

theorem arrowBody (body : ArrowBody) :
    Ensures (body.read levels) fun t => ReadsAll levels body.contents t.children := by
  cases body with
  | block body => exact (statements body).bind fun _ hbody => .pure hbody
  | expression value => exact (reads_expression value).bind fun _ hvalue => .pure (single hvalue)

end ReadsAll

/-! ### One level down -/

open ReadsAll (single)

theorem readsAll_statement (s : Statement) :
    Ensures (s.read (levels + 1)) fun t => ReadsAll levels s.contents t.children := by
  -- The pieces come in the order in which they are read, which is not always that of the result.
  cases s with
  | empty => exact .pure .nil
  | block body => exact (ReadsAll.statements body).bind fun _ hbody => .pure hbody
  | expression value => exact (reads_expression value).bind fun _ hvalue => .pure (single hvalue)
  | declaration keyword ds => exact (ReadsAll.declarators ds).bind fun _ hds => .pure hds
  | function name params body generator isAsync =>
    exact (ReadsAll.patterns params).bind fun _ hparams => (ReadsAll.statements body).bind
      fun _ hbody => .pure (hparams.append hbody)
  | returns argument =>
    cases argument with
    | none => exact .pure .nil
    | some value => exact (reads_expression value).bind fun _ hvalue => .pure (single hvalue)
  | conditional test consequent alternate =>
    cases alternate with
    | none =>
      exact (reads_expression test).bind fun _ htest => (reads_statement consequent).bind
        fun _ hconsequent => .pure (.cons htest (single hconsequent))
    | some alternate =>
      exact (reads_expression test).bind fun _ htest => (reads_statement consequent).bind
        fun _ hconsequent => (reads_statement alternate).bind fun _ halternate =>
          .pure (.cons htest (.cons hconsequent (single halternate)))
  | whileLoop test body =>
    exact (reads_expression test).bind fun _ htest => (reads_statement body).bind fun _ hbody =>
      .pure (.cons htest (single hbody))
  | doLoop body test =>
    exact (reads_statement body).bind fun _ hbody => (reads_expression test).bind fun _ htest =>
      .pure (.cons hbody (single htest))
  | forLoop init test update body =>
    refine (ReadsAll.forHead? init).bind fun _ hinit => (ReadsAll.expression? test).bind
      fun _ htest => (ReadsAll.expression? update).bind fun _ hupdate =>
        (reads_statement body).bind fun _ hbody => .pure ?_
    exact ((hinit.append htest).append hupdate).append (single hbody)
  | forIn left right body =>
    refine (reads_expression right).bind fun _ hright => (reads_statement body).bind
      fun _ hbody => Ensures.bind (fun _ h => h) fun _ hleft => .pure ?_
    exact .cons (.iterationHead _ hleft) (.cons hright (single hbody))
  | forOf isAwait left right body =>
    refine (reads_expression right).bind fun _ hright => (reads_statement body).bind
      fun _ hbody => Ensures.bind (fun _ h => h) fun _ hleft => .pure ?_
    exact .cons (.iterationHead _ hleft) (.cons hright (single hbody))
  | tries body handler finalizer =>
    refine (ReadsAll.statements body).bind fun _ hbody => (ReadsAll.handler? handler).bind
      fun _ hhandler => (ReadsAll.block? finalizer).bind fun _ hfinalizer => .pure ?_
    exact (hbody.append hhandler).append hfinalizer
  | throws argument =>
    exact (reads_expression argument).bind fun _ hargument => .pure (single hargument)
  | unread kind => exact .pure .nil

theorem readsAll_number (text : String) :
    Ensures (readNumber text) fun t => ReadsAll levels [] t.children := by
  refine .ite (fun _ => ?_) fun _ => ?_
  · exact Ensures.trivial.map fun _ _ => .nil
  · exact Ensures.trivial.map fun _ _ => .nil

theorem readsAll_binaryNode {operator : String} {left right : Expression}
    {first second : Tree.Expression}
    (hleft : (Piece.expression left).Reads levels (.expression first))
    (hright : (Piece.expression right).Reads levels (.expression second)) :
    ReadsAll levels [.expression left, .expression right]
      (binaryNode operator first second).children := by
  rw [binaryNode]
  split
  · exact .cons hleft (single hright)
  · exact .cons hleft (single hright)

/-- The expression is a group, which has no node of its own. -/
def Expression.isGroup : Expression → Bool
  | .group _ => true
  | _ => false

theorem readsAll_expression (e : Expression) (he : e.isGroup = false) :
    Ensures (e.read (levels + 1)) fun t => ReadsAll levels e.contents t.children := by
  cases e with
  | number text => exact readsAll_number text
  | string text => exact Ensures.trivial.bind fun _ _ => .pure .nil
  | group inner => cases he
  | assign operator left right =>
    exact (reads_expression left).bind fun _ hleft => (reads_expression right).bind
      fun _ hright => .pure (.cons hleft (single hright))
  | object members => exact (ReadsAll.members members).bind fun _ hmembers => .pure hmembers
  | array tokens => exact (ReadsAll.items true tokens).bind fun _ htokens => .pure htokens
  | function name params body generator isAsync =>
    exact (ReadsAll.patterns params).bind fun _ hparams => (ReadsAll.statements body).bind
      fun _ hbody => .pure (hparams.append hbody)
  | arrow isAsync params body =>
    exact (ReadsAll.patterns params).bind fun _ hparams => (ReadsAll.arrowBody body).bind
      fun _ hbody => .pure (hparams.append hbody)
  | call callee arguments =>
    exact (reads_expression callee).bind fun _ hcallee => (ReadsAll.expressions arguments).bind
      fun _ harguments => .pure (.cons hcallee harguments)
  | construct callee arguments =>
    exact (ReadsAll.expressions arguments).bind fun _ harguments =>
      (reads_expression callee).bind fun _ hcallee => .pure (.cons hcallee harguments)
  | member owner name => exact (reads_expression owner).bind fun _ howner => .pure (single howner)
  | index owner place =>
    exact (reads_expression owner).bind fun _ howner => (reads_expression place).bind
      fun _ hplace => .pure (.cons howner (single hplace))
  | unary operator argument =>
    exact (reads_expression argument).bind fun _ hargument => .pure (single hargument)
  | binary operator left right =>
    exact (reads_expression left).bind fun _ hleft => (reads_expression right).bind
      fun _ hright => .pure (readsAll_binaryNode hleft hright)
  | update operator isPrefix argument =>
    exact (reads_expression argument).bind fun _ hargument => .pure (single hargument)
  | yields argument delegate =>
    exact (ReadsAll.expression? argument).bind fun _ hargument => .pure hargument
  | awaits argument =>
    exact (reads_expression argument).bind fun _ hargument => .pure (single hargument)
  | conditional test consequent alternate =>
    exact (reads_expression test).bind fun _ htest => (reads_expression consequent).bind
      fun _ hconsequent => (reads_expression alternate).bind fun _ halternate =>
        .pure (.cons htest (.cons hconsequent (single halternate)))
  | sequence es => exact (ReadsAll.expressions es).bind fun _ hes => .pure hes
  | spread argument =>
    exact (reads_expression argument).bind fun _ hargument => .pure (single hargument)
  | _ => exact .pure .nil

/-- A key is read into a node if it is computed, and is no piece otherwise. -/
theorem readsAll_key (key : MemberKey) :
    Ensures (key.read levels) fun t =>
      ReadsAll levels key.contents (if t.2 then [.expression t.1] else []) := by
  cases key with
  | name text => exact .pure .nil
  | computed value => exact (reads_expression value).bind fun _ hvalue => .pure (single hvalue)
  | literal value => exact Ensures.trivial.bind fun _ _ => .pure .nil

theorem readsAll_member (m : Member) :
    Ensures (m.read levels) fun t => t.Regular → ReadsAll levels m.contents t.children := by
  cases m with
  | pair key value =>
    exact (readsAll_key key).bind fun _ hkey => (reads_expression value).bind fun _ hvalue =>
      .pure fun _ => hkey.append (single hvalue)
  | shorthand name =>
    refine .pure fun hregular => ?_
    cases hregular.1
  | method marks key params body =>
    refine (readsAll_key key).bind fun found hkey => (ReadsAll.patterns params).bind
      fun _ hparams => (ReadsAll.statements body).bind fun _ hbody => .pure fun hregular => ?_
    obtain ⟨name, computed⟩ := found
    obtain rfl : computed = false := hregular.1
    have hnone : ReadsAll levels key.contents [] := hkey
    exact hnone.append (hparams.append hbody)
  | spread argument =>
    exact Ensures.trivial.bind fun _ _ => .pure fun hregular => hregular.elim

/-- A binding with pieces is no name, and so is left out of an accepted tree. -/
theorem readsAll_pattern (p : Pattern) :
    Ensures (p.read (levels + 1)) fun t => t.Regular → ReadsAll levels p.contents [] := by
  cases p with
  | withDefault target value =>
    refine Ensures.trivial.bind fun _ _ => Ensures.trivial.bind fun _ _ => .pure ?_
    rintro ⟨name, ⟨⟩, _⟩
  | rest target =>
    refine Ensures.trivial.bind fun _ _ => .pure ?_
    rintro ⟨name, ⟨⟩, _⟩
  | _ => exact .pure fun _ => .nil

theorem readsAll_declarator (d : Declarator) :
    Ensures (d.read levels) fun t =>
      ReadsAll levels (Piece.declarator d).contents (Node.declarator t).children := by
  obtain ⟨target, value⟩ := d
  exact (reads_pattern target).bind fun _ htarget => (ReadsAll.expression? value).bind
    fun _ hvalue => .pure (.cons htarget hvalue)

/-- The head of a loop declares a variable in an accepted tree. -/
theorem readsAll_forHead (head : ForHead) :
    Ensures (head.read levels) fun t =>
      (∃ kind ds, t = .variableDeclaration kind ds) → ReadsAll levels head.contents t.children := by
  cases head with
  | declaration keyword ds => exact (ReadsAll.declarators ds).bind fun _ hds => .pure fun _ => hds
  | expression value =>
    refine Ensures.trivial.bind fun _ _ => .pure ?_
    rintro ⟨kind, ds, ⟨⟩⟩

theorem readsAll_handler (clause : Handler) :
    Ensures (clause.read levels) fun t =>
      ReadsAll levels (Piece.handler clause).contents (Node.catchClause t).children := by
  rcases clause with ⟨_ | param, body⟩
  · exact (ReadsAll.statements body).bind fun _ hbody => .pure hbody
  · exact (reads_pattern param).bind fun _ hparam => (ReadsAll.statements body).bind
      fun _ hbody => .pure (.cons hparam hbody)

/-- What is read from a piece that is no group has the nodes of the pieces right below it. -/
theorem Piece.Reads.below {n : Piece} {t : Node} (h : n.Reads levels t) (hregular : t.Regular) :
    (∃ inner, n = .expression (.group inner) ∧ ∃ k, (Piece.expression inner).Reads k t) ∨
      ∃ k, ReadsAll k n.contents t.children := by
  cases h with
  | @statement s t h =>
    cases levels with
    | zero => cases s <;> cases h
    | succ k => exact .inr ⟨k, readsAll_statement _ _ h⟩
  | @expression e t h =>
    cases levels with
    | zero => cases e <;> cases h
    | succ k =>
      cases e with
      | group inner => exact .inl ⟨inner, rfl, k, .expression h⟩
      | _ => exact .inr ⟨k, readsAll_expression _ rfl _ h⟩
  | @pattern p t h =>
    cases levels with
    | zero => cases p <;> cases h
    | succ k => exact .inr ⟨k, readsAll_pattern _ _ h hregular⟩
  | member h => exact .inr ⟨levels, readsAll_member _ _ h hregular⟩
  | declarator h => exact .inr ⟨levels, readsAll_declarator _ _ h⟩
  | countingHead h =>
    obtain ⟨kind, d, heq, _⟩ := hregular
    exact .inr ⟨levels, readsAll_forHead _ _ h ⟨kind, [d], heq⟩⟩
  | iterationHead loop h =>
    obtain ⟨kind, id, heq, _⟩ := hregular
    exact .inr ⟨levels, readsAll_forHead _ _ h ⟨kind, [.mk id none], heq⟩⟩
  | handler h => exact .inr ⟨levels, readsAll_handler _ _ h⟩

theorem ReadsAll.exists_of_mem {pieces : List Piece} {nodes : List Node}
    (h : ReadsAll levels pieces nodes) {piece : Piece} (hpart : piece ∈ pieces) :
    ∃ node ∈ nodes, piece.Reads levels node := by
  induction h with
  | nil => cases hpart
  | cons hfirst _ ih =>
    rcases List.mem_cons.mp hpart with rfl | hpart
    · exact ⟨_, .head _, hfirst⟩
    · obtain ⟨node, hnode, hreads⟩ := ih hpart
      exact ⟨node, .tail _ hnode, hreads⟩

/-- The pieces inside a piece are read into nodes inside its node, if that is accepted. -/
theorem Piece.Reads.inside {inner outer : Piece} (hwithin : inner.Within outer) {t : Node}
    (h : outer.Reads levels t) (haccepted : t.Accepted) :
    ∃ k node, inner.Reads k node ∧ node.Inside t := by
  induction hwithin using Relation.ReflTransGen.head_induction_on generalizing levels t with
  | refl => exact ⟨levels, t, h, .refl⟩
  | @head outer c hc _ ih =>
    obtain ⟨hregular, hchildren⟩ := Node.accepted_iff.mp haccepted
    rcases h.below hregular with ⟨group, rfl, k, hgroup⟩ | ⟨k, hall⟩
    · obtain rfl := List.mem_singleton.mp hc
      exact ih hgroup haccepted
    · obtain ⟨child, hchild, hreads⟩ := hall.exists_of_mem hc
      obtain ⟨k, node, hnode, hinside⟩ := ih hreads (hchildren child hchild)
      exact ⟨k, node, hnode, .head hchild hinside⟩

end Script

end ScriptWire
