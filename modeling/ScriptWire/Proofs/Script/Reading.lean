import ScriptWire.Proofs.Ensures
import ScriptWire.Proofs.Tree.Part
import ScriptWire.Script.Reader

/-!
# What is read from a script

A rule that trees are built up along holds of whatever is read from a script, with the number of
levels that is left to the reader. Some names stand in a tree as expressions but are not read as
such, so a rule must not ask for their levels.

## Main definitions

- `Tree.Part.OfScript` — the rule for constructs without a shape in the tree of a script
- `Script.Rule` — a rule that reading keeps
- `Script.Reads` — what is read with a number of levels left follows a rule

## Main results

- `Script.Rule.reads`, `Script.Rule.ensures_read` — reading keeps the rule
-/

namespace ScriptWire

namespace Tree

open Script (UnreadStatement UnreadExpression memberAccessKind)

/-- A construct without a shape has the kind of one that scripts keep unread. -/
def Part.OfScript : Part → Prop
  | .statement (.unsupported kind) => ∃ u : UnreadStatement, u.kind = kind
  | .expression (.unsupported kind) => ∃ u : UnreadExpression, u.kind = kind
  | .pattern (.unsupported kind) => kind = memberAccessKind
  | .member (.unsupported _) => False
  | _ => True

end Tree

namespace Script

open ScriptWire.Tree (Part)

/-- A rule that is built up along trees and holds of names that are not read as expressions, however
few levels are left. -/
structure Rule (R : Nat → Part → Prop) : Prop extends Tree.Rule Part.OfScript R where
  access {levels : Nat} {object : Tree.Expression} (name : MemberName)
    (h : R levels (.expression object)) :
    R (levels + 1) (.expression (.memberExpression object name.node false))
  pair {levels : Nat} {value : Tree.Expression} (name : String)
    (h : R levels (.expression value)) :
    R levels (.member (.objectProperty (.identifier name) value false false false))
  shorthand {levels : Nat} (name : String) :
    R levels (.member (.objectProperty (.identifier name) (.identifier name) false true false))
  method {levels : Nat} {params : List Tree.Pattern} {body : List Tree.Statement}
    {generator isAsync : Bool} (kind : Tree.MethodKind) (name : String)
    (hparams : ∀ p ∈ params, R levels (.pattern p)) (hbody : ∀ s ∈ body, R levels (.statement s)) :
    R levels
      (.member (.objectMethod kind (.identifier name) params body false false generator isAsync))

namespace Rule

variable {R : Nat → Part → Prop} {levels : Nat} (rule : Rule R)

include rule

theorem ensures_readNumber (text : String) :
    Ensures (readNumber text) fun t => R (levels + 1) (.expression t) := by
  refine Ensures.ite (fun _ => ?_) fun _ => ?_
  all_goals
    refine Ensures.trivial.map fun _ _ => ?_
    exact rule.leaf rfl trivial

theorem binaryNode_step (operator : String) {left right : Tree.Expression}
    (hleft : R levels (.expression left)) (hright : R levels (.expression right)) :
    R (levels + 1) (.expression (binaryNode operator left right)) := by
  rw [binaryNode]
  split
  all_goals
    exact rule.step trivial (Part.forall_pair hleft hright)

end Rule

/-- Whatever is read with a number of levels left follows a rule on that number of levels. -/
structure Reads (R : Nat → Part → Prop) (levels : Nat) : Prop where
  statement (s : Statement) : Ensures (s.read levels) fun t => R levels (.statement t)
  expression (e : Expression) : Ensures (e.read levels) fun t => R levels (.expression t)
  pattern (p : Pattern) : Ensures (p.read levels) fun t => R levels (.pattern t)

namespace Reads

variable {R : Nat → Part → Prop} {levels : Nat} (h : Reads R levels) (rule : Rule R)

include h

theorem statements (body : List Statement) :
    Ensures (readStatements levels body) fun ts => ∀ t ∈ ts, R levels (.statement t) :=
  .each (readStatements levels) rfl (fun _ _ => rfl) h.statement body

theorem expressions (es : List Expression) :
    Ensures (readExpressions levels es) fun ts => ∀ t ∈ ts, R levels (.expression t) :=
  .each (readExpressions levels) rfl (fun _ _ => rfl) h.expression es

theorem patterns (ps : List Pattern) :
    Ensures (readPatterns levels ps) fun ts => ∀ t ∈ ts, R levels (.pattern t) :=
  .each (readPatterns levels) rfl (fun _ _ => rfl) h.pattern ps

theorem expression? (e : Option Expression) :
    Ensures (readExpression? levels e) fun t => ∀ x ∈ t.toList, R levels (.expression x) := by
  cases e with
  | none => exact .pure (List.forall_mem_nil _)
  | some e => exact (h.expression e).bind fun _ he => .pure (List.forall_mem_singleton.mpr he)

theorem block? (body : Option (List Statement)) :
    Ensures (readBlock? levels body) fun t => ∀ x ∈ t.toList.flatten, R levels (.statement x) := by
  cases body with
  | none => exact .pure (List.forall_mem_nil _)
  | some body =>
    refine (h.statements body).bind fun ts hts => .pure ?_
    simpa using hts

/-- The elements of an array literal are read one by one, and holes have no parts. -/
theorem items (vacant : Bool) (items : List ArrayItem) :
    Ensures (readItems levels vacant items) fun ts =>
      ∀ t ∈ ts, ∀ x ∈ t.toList, R levels (.expression x) := by
  induction items generalizing vacant with
  | nil => exact .pure (List.forall_mem_nil _)
  | cons item rest ih =>
    cases item with
    | comma =>
      refine (ih true).bind fun ts hts => .pure ?_
      cases vacant with
      | false => exact hts
      | true => exact List.forall_mem_cons.mpr ⟨List.forall_mem_nil _, hts⟩
    | element value =>
      refine (h.expression value).bind fun t ht => (ih false).bind fun ts hts => .pure ?_
      exact List.forall_mem_cons.mpr ⟨List.forall_mem_singleton.mpr ht, hts⟩

include rule

theorem declarator (d : Declarator) :
    Ensures (d.read levels) fun t => R levels (.declarator t) := by
  cases d with
  | mk target value =>
    refine (h.pattern target).bind fun _ htarget => (h.expression? value).bind fun _ hvalue => ?_
    exact .pure (rule.flat rfl trivial
      (List.forall_mem_cons.mpr ⟨htarget, List.forall_mem_map.mpr hvalue⟩))

theorem declarators (ds : List Declarator) :
    Ensures (readDeclarators levels ds) fun ts => ∀ t ∈ ts, R levels (.declarator t) :=
  .each (readDeclarators levels) rfl (fun _ _ => rfl) (h.declarator rule) ds

theorem forHead (head : ForHead) : Ensures (head.read levels) fun t => R levels (.loopHead t) := by
  cases head with
  | declaration keyword ds =>
    refine (h.declarators rule ds).bind fun _ hds => .pure ?_
    exact rule.flat rfl trivial (List.forall_mem_map.mpr hds)
  | expression value =>
    refine (h.expression value).bind fun _ hvalue => .pure ?_
    exact rule.flat rfl trivial (List.forall_mem_singleton.mpr hvalue)

theorem forHead? (head : Option ForHead) :
    Ensures (readForHead? levels head) fun t => ∀ x ∈ t.toList, R levels (.loopHead x) := by
  cases head with
  | none => exact .pure (List.forall_mem_nil _)
  | some head =>
    exact (h.forHead rule head).bind fun _ ht => .pure (List.forall_mem_singleton.mpr ht)

theorem handler (clause : Handler) :
    Ensures (clause.read levels) fun t => R levels (.catchClause t) := by
  rcases clause with ⟨_ | param, body⟩
  · refine (h.statements body).bind fun _ hbody => .pure ?_
    exact rule.flat rfl trivial (List.forall_mem_map.mpr hbody)
  · refine (h.pattern param).bind fun _ hparam => (h.statements body).bind fun _ hbody => .pure ?_
    exact rule.flat rfl trivial
      (List.forall_mem_cons.mpr ⟨hparam, List.forall_mem_map.mpr hbody⟩)

theorem handler? (clause : Option Handler) :
    Ensures (readHandler? levels clause) fun t => ∀ x ∈ t.toList, R levels (.catchClause x) := by
  cases clause with
  | none => exact .pure (List.forall_mem_nil _)
  | some clause =>
    exact (h.handler rule clause).bind fun _ ht => .pure (List.forall_mem_singleton.mpr ht)

theorem arrowBody (body : ArrowBody) :
    Ensures (body.read levels) fun t => R levels (.arrowBody t) := by
  cases body with
  | block body =>
    refine (h.statements body).bind fun _ hbody => .pure ?_
    exact rule.flat rfl trivial (List.forall_mem_map.mpr hbody)
  | expression value =>
    refine (h.expression value).bind fun _ hvalue => .pure ?_
    exact rule.flat rfl trivial (List.forall_mem_singleton.mpr hvalue)

omit rule in
/-- A key is a name that stands as it is, or is read as an expression. -/
theorem memberKey (key : MemberKey) :
    Ensures (key.read levels) fun t =>
      (∃ name, t = (.identifier name, false)) ∨ R levels (.expression t.1) := by
  cases key with
  | name text => exact .pure (.inl ⟨text, rfl⟩)
  | computed value => exact (h.expression value).bind fun _ hvalue => .pure (.inr hvalue)
  | literal value => exact (h.expression value).bind fun _ hvalue => .pure (.inr hvalue)

theorem member (m : Member) : Ensures (m.read levels) fun t => R levels (.member t) := by
  cases m with
  | pair key value =>
    refine (h.memberKey key).bind fun _ hkey => (h.expression value).bind fun _ hvalue => .pure ?_
    rcases hkey with ⟨name, rfl⟩ | hkey
    · exact rule.pair name hvalue
    · exact rule.flat rfl trivial (Part.forall_pair hkey hvalue)
  | shorthand name => exact .pure (rule.shorthand name)
  | method marks key params body =>
    refine (h.memberKey key).bind fun _ hkey => (h.patterns params).bind fun _ hparams =>
      (h.statements body).bind fun _ hbody => .pure ?_
    rcases hkey with ⟨name, rfl⟩ | hkey
    · exact rule.method marks.kind name hparams hbody
    · exact rule.flat rfl trivial
        (List.forall_mem_cons.mpr ⟨hkey, Part.forall_function hparams hbody⟩)
  | spread argument =>
    refine (h.expression argument).bind fun _ hargument => .pure ?_
    exact rule.flat rfl trivial (List.forall_mem_singleton.mpr hargument)

theorem members (ms : List Member) :
    Ensures (readMembers levels ms) fun ts => ∀ t ∈ ts, R levels (.member t) :=
  .each (readMembers levels) rfl (fun _ _ => rfl) (h.member rule) ms

theorem statement_succ (s : Statement) :
    Ensures (s.read (levels + 1)) fun t => R (levels + 1) (.statement t) := by
  -- The parts come in the order in which they are read, which is not always that of the result.
  cases s with
  | empty => exact .pure (rule.leaf rfl trivial)
  | block body =>
    refine (h.statements body).bind fun _ hbody => .pure ?_
    exact rule.step trivial (List.forall_mem_map.mpr hbody)
  | expression value =>
    refine (h.expression value).bind fun _ hvalue => .pure ?_
    exact rule.step trivial (List.forall_mem_singleton.mpr hvalue)
  | declaration keyword ds =>
    refine (h.declarators rule ds).bind fun _ hds => .pure ?_
    exact rule.step trivial (List.forall_mem_map.mpr hds)
  | function name params body generator isAsync =>
    refine (h.patterns params).bind fun _ hparams => (h.statements body).bind fun _ hbody =>
      .pure ?_
    exact rule.step trivial (Part.forall_function hparams hbody)
  | returns argument =>
    cases argument with
    | none => exact .pure (rule.leaf rfl trivial)
    | some value =>
      refine (h.expression value).bind fun _ hvalue => .pure ?_
      exact rule.step trivial (List.forall_mem_singleton.mpr hvalue)
  | conditional test consequent alternate =>
    cases alternate with
    | none =>
      refine (h.expression test).bind fun _ htest => (h.statement consequent).bind fun _ hthen =>
        .pure ?_
      exact rule.step trivial (Part.forall_pair htest hthen)
    | some alternate =>
      refine (h.expression test).bind fun _ htest => (h.statement consequent).bind fun _ hthen =>
        (h.statement alternate).bind fun _ helse => .pure ?_
      exact rule.step trivial (List.forall_mem_cons.mpr ⟨htest,
        Part.forall_pair hthen helse⟩)
  | whileLoop test body =>
    refine (h.expression test).bind fun _ htest => (h.statement body).bind fun _ hbody => .pure ?_
    exact rule.step trivial (Part.forall_pair htest hbody)
  | doLoop body test =>
    refine (h.statement body).bind fun _ hbody => (h.expression test).bind fun _ htest => .pure ?_
    exact rule.step trivial (Part.forall_pair hbody htest)
  | forLoop init test update body =>
    refine (h.forHead? rule init).bind fun _ hinit => (h.expression? test).bind fun _ htest =>
      (h.expression? update).bind fun _ hupdate => (h.statement body).bind fun _ hbody => .pure ?_
    refine rule.step trivial ?_
    simp only [Part.contents, Tree.Statement.contents, List.forall_mem_append, List.forall_mem_map,
      List.forall_mem_singleton]
    exact ⟨⟨⟨hinit, htest⟩, hupdate⟩, hbody⟩
  | forIn left right body =>
    refine (h.expression right).bind fun _ hright => (h.statement body).bind fun _ hbody =>
      (h.forHead rule left).bind fun _ hleft => .pure ?_
    exact rule.step trivial (List.forall_mem_cons.mpr ⟨hleft, Part.forall_pair hright hbody⟩)
  | forOf isAwait left right body =>
    refine (h.expression right).bind fun _ hright => (h.statement body).bind fun _ hbody =>
      (h.forHead rule left).bind fun _ hleft => .pure ?_
    exact rule.step trivial (List.forall_mem_cons.mpr ⟨hleft, Part.forall_pair hright hbody⟩)
  | tries block handler finalizer =>
    refine (h.statements block).bind fun _ hblock =>
      (h.handler? rule handler).bind fun _ hhandler =>
        (h.block? finalizer).bind fun _ hfinalizer => .pure ?_
    refine rule.step trivial ?_
    simp only [Part.contents, Tree.Statement.contents, List.forall_mem_append, List.forall_mem_map]
    exact ⟨⟨hblock, hhandler⟩, hfinalizer⟩
  | throws argument =>
    refine (h.expression argument).bind fun _ hargument => .pure ?_
    exact rule.step trivial (List.forall_mem_singleton.mpr hargument)
  | unread kind => exact .pure (rule.leaf rfl ⟨kind, rfl⟩)

theorem expression_succ (e : Expression) :
    Ensures (e.read (levels + 1)) fun t => R (levels + 1) (.expression t) := by
  cases e with
  | identifier name => exact .pure (rule.leaf rfl trivial)
  | number text => exact rule.ensures_readNumber text
  | string text =>
    refine Ensures.trivial.bind fun _ _ => .pure ?_
    exact rule.leaf rfl trivial
  | regex body flags => exact .pure (rule.leaf rfl trivial)
  | boolean value => exact .pure (rule.leaf rfl trivial)
  | null => exact .pure (rule.leaf rfl trivial)
  | this => exact .pure (rule.leaf rfl trivial)
  | group inner => exact fun t ht => rule.more (h.expression inner t ht)
  | assign operator left right =>
    refine (h.expression left).bind fun _ hleft => (h.expression right).bind fun _ hright =>
      .pure ?_
    exact rule.step trivial (Part.forall_pair hleft hright)
  | object members =>
    refine (h.members rule members).bind fun _ hmembers => .pure ?_
    exact rule.step trivial (List.forall_mem_map.mpr hmembers)
  | array items =>
    refine (h.items true items).bind fun _ hitems => .pure ?_
    refine rule.step trivial (List.forall_mem_flatMap.mpr fun item hitem => ?_)
    exact List.forall_mem_map.mpr (hitems item hitem)
  | function name params body generator isAsync =>
    refine (h.patterns params).bind fun _ hparams => (h.statements body).bind fun _ hbody =>
      .pure ?_
    exact rule.step trivial (Part.forall_function hparams hbody)
  | arrow isAsync params body =>
    refine (h.patterns params).bind fun _ hparams => (h.arrowBody rule body).bind fun _ hbody =>
      .pure ?_
    exact rule.step trivial (List.forall_mem_append.mpr
      ⟨List.forall_mem_map.mpr hparams, List.forall_mem_singleton.mpr hbody⟩)
  | call callee arguments =>
    refine (h.expression callee).bind fun _ hcallee => (h.expressions arguments).bind fun _ hargs =>
      .pure ?_
    exact rule.step trivial
      (List.forall_mem_cons.mpr ⟨hcallee, List.forall_mem_map.mpr hargs⟩)
  | construct callee arguments =>
    refine (h.expressions arguments).bind fun _ hargs => (h.expression callee).bind fun _ hcallee =>
      .pure ?_
    exact rule.step trivial
      (List.forall_mem_cons.mpr ⟨hcallee, List.forall_mem_map.mpr hargs⟩)
  | member object name =>
    refine (h.expression object).bind fun _ hobject => .pure ?_
    exact rule.access name hobject
  | index object place =>
    refine (h.expression object).bind fun _ hobject => (h.expression place).bind fun _ hplace =>
      .pure ?_
    exact rule.step trivial (Part.forall_pair hobject hplace)
  | unary operator argument =>
    refine (h.expression argument).bind fun _ hargument => .pure ?_
    exact rule.step trivial (List.forall_mem_singleton.mpr hargument)
  | binary operator left right =>
    refine (h.expression left).bind fun _ hleft => (h.expression right).bind fun _ hright =>
      .pure ?_
    exact rule.binaryNode_step operator hleft hright
  | update operator isPrefix argument =>
    refine (h.expression argument).bind fun _ hargument => .pure ?_
    exact rule.step trivial (List.forall_mem_singleton.mpr hargument)
  | yields argument delegate =>
    refine (h.expression? argument).bind fun _ hargument => .pure ?_
    exact rule.step trivial (List.forall_mem_map.mpr hargument)
  | awaits argument =>
    refine (h.expression argument).bind fun _ hargument => .pure ?_
    exact rule.step trivial (List.forall_mem_singleton.mpr hargument)
  | conditional test consequent alternate =>
    refine (h.expression test).bind fun _ htest => (h.expression consequent).bind fun _ hthen =>
      (h.expression alternate).bind fun _ helse => .pure ?_
    exact rule.step trivial (List.forall_mem_cons.mpr ⟨htest, Part.forall_pair hthen helse⟩)
  | sequence es =>
    refine (h.expressions es).bind fun _ hes => .pure ?_
    exact rule.step trivial (List.forall_mem_map.mpr hes)
  | spread argument =>
    refine (h.expression argument).bind fun _ hargument => .pure ?_
    exact rule.step trivial (List.forall_mem_singleton.mpr hargument)
  | unread kind => exact .pure (rule.leaf rfl ⟨kind, rfl⟩)

theorem pattern_succ (p : Pattern) :
    Ensures (p.read (levels + 1)) fun t => R (levels + 1) (.pattern t) := by
  cases p with
  | identifier name => exact .pure (rule.leaf rfl trivial)
  | withDefault target value =>
    refine (h.pattern target).bind fun _ htarget => (h.expression value).bind fun _ hvalue =>
      .pure ?_
    exact rule.step trivial (Part.forall_pair htarget hvalue)
  | rest target =>
    refine (h.pattern target).bind fun _ htarget => .pure ?_
    exact rule.step trivial (List.forall_mem_singleton.mpr htarget)
  | object => exact .pure (rule.leaf rfl trivial)
  | array => exact .pure (rule.leaf rfl trivial)
  | memberAccess => exact .pure (rule.leaf rfl rfl)

end Reads

theorem Rule.reads {R : Nat → Part → Prop} (rule : Rule R) (levels : Nat) : Reads R levels := by
  -- What is inside a construct is read with one level fewer, so the levels carry the induction and
  -- the tree is only split into cases.
  induction levels with
  | zero =>
    refine ⟨fun s => ?_, fun e => ?_, fun p => ?_⟩
    · cases s <;> exact .error
    · cases e <;> exact .error
    · cases p <;> exact .error
  | succ levels h => exact ⟨h.statement_succ rule, h.expression_succ rule, h.pattern_succ rule⟩

/-- The tree of a script follows the rule, with the levels that scripts may have. -/
theorem Rule.ensures_read {R : Nat → Part → Prop} (rule : Rule R) (source : String) :
    Ensures (read source) fun p => ∀ s ∈ p.body, R nestingLimit (.statement s) := by
  rw [read]
  split
  · exact .error
  · exact ((rule.reads nestingLimit).statements _).bind fun _ hbody => .pure hbody

end Script

end ScriptWire
