import ScriptWire.Proofs.Lowering.Limit
import ScriptWire.Proofs.Script.Unread

/-!
# Programs that are read are not nested too deeply

Readers and the compiler each count in their own way what stands inside each other. Scripts count
groups and bindings, documents count all arrays and objects, and the compiler counts statements and
expressions only. Nothing that the compiler counts is free for the readers, but for names that are
not read as expressions; the compiler does not come to any of these.

## Main definitions

- `Tree.Node.Fits`, `Tree.Part.Fits` — the walk over a node is not stopped for its depth if it may
  enter a number of levels more

## Main results

- `Tree.Node.fits_of_children` — what one node adds to the levels of its children
- `Tree.Part.rule_fits`, `Script.rule_fits` — what the compiler counts is counted by the readers
- `compile_ne_tooDeep_of_read` — a limit as large as the one of the reader is never exceeded
-/

namespace ScriptWire

namespace Tree

open Lowering

/-- The walk over a node is not stopped for its depth if it may enter a number of levels more than
the node stands in. -/
def Node.Fits (levels : Nat) (n : Node) : Prop :=
  ∀ depth limit k, depth + levels ≤ limit → ¬ Stops limit (n.trace depth) (.tooDeep k)

section Node

variable {n : Node} {levels : Nat}

/-- A node needs its own level beside those of its children. -/
theorem Node.fits_of_children (n : Node) (h : ∀ c ∈ n.children, c.Fits levels) :
    n.Fits (levels + n.levels) := by
  intro depth limit k hlimit hstop
  rcases stops_trace_cases.mp hstop with hself | ⟨_, hchildren | ⟨_, hafter⟩⟩
  · have hlevel := (stops_self_tooDeep hself).2
    omega
  · obtain ⟨earlier, c, later, hsplit, _, hc⟩ := stops_flatMap_iff.mp hchildren
    have hmem : c ∈ n.children := by
      rw [hsplit]
      simp
    exact h c hmem (depth + n.levels) limit k (by omega) hc
  · exact not_stops_after_tooDeep hafter

/-- The walk does not come to the children of a node with a fault of its own. -/
theorem Node.fits_of_fault (hn : n.levels = 0) (h : ∀ limit, ¬ Passes limit n.before) :
    n.Fits levels := by
  intro depth limit k hlimit hstop
  rcases stops_trace_cases.mp hstop with hself | ⟨hself, _⟩
  · have hlevel := (stops_self_tooDeep hself).2
    omega
  · exact h limit (passes_append.mp hself).2

theorem Node.Fits.more (h : n.Fits levels) : n.Fits (levels + 1) :=
  fun depth limit k hlimit => h depth limit k (by omega)

end Node

/-- The walk over the nodes of a part is not stopped for their depth if it may enter a number of
levels more. -/
def Part.Fits (levels : Nat) : Part → Prop
  | .statement s => (Node.statement s).Fits levels
  | .expression e => (Node.expression e).Fits levels
  | .pattern p => (Node.pattern p).Fits levels
  | .member m => (Node.member m).Fits levels
  | .declarator d => (Node.declarator d).Fits levels
  | .loopHead head =>
    (Node.countingHead head).Fits levels ∧ ∀ loop, (Node.iterationHead loop head).Fits levels
  | .catchClause clause => (Node.catchClause clause).Fits levels
  | .arrowBody body => ∀ c ∈ body.children, c.Fits levels

section Part

variable {levels : Nat}

theorem Statement.fits_children {s : Statement} (h : ∀ c ∈ s.contents, c.Fits levels) :
    ∀ c ∈ s.children, c.Fits levels := by
  cases s with
  | emptyStatement => exact List.forall_mem_nil _
  | unsupported kind => exact List.forall_mem_nil _
  | _ =>
    simp only [Statement.contents, List.forall_mem_append, List.forall_mem_map,
      List.forall_mem_cons, Part.Fits] at h
    simp only [Statement.children, List.forall_mem_append, List.forall_mem_map,
      List.forall_mem_cons]
    grind

theorem Expression.fits_children {e : Expression} (h : ∀ c ∈ e.contents, c.Fits levels) :
    ∀ c ∈ e.children, c.Fits levels := by
  cases e with
  | memberExpression object property computed =>
    obtain ⟨hobject, hrest⟩ := List.forall_mem_cons.mp h
    have hproperty := List.forall_mem_singleton.mp hrest
    refine List.forall_mem_cons.mpr ⟨hobject, ?_⟩
    cases computed with
    | false => exact List.forall_mem_nil _
    | true => exact List.forall_mem_singleton.mpr hproperty
  | _ =>
    simp only [Expression.contents, List.forall_mem_append, List.forall_mem_map,
      List.forall_mem_cons, List.forall_mem_flatMap, Part.Fits] at h
    simp only [Expression.children, List.forall_mem_append, List.forall_mem_map,
      List.forall_mem_cons, List.forall_mem_flatMap]
    grind

theorem Member.fits_children {m : Member} (h : ∀ c ∈ m.contents, c.Fits levels) :
    ∀ c ∈ m.children, c.Fits levels := by
  cases m with
  | objectProperty key value computed shorthand method =>
    obtain ⟨hkey, hrest⟩ := List.forall_mem_cons.mp h
    have hvalue := List.forall_mem_singleton.mp hrest
    cases computed with
    | false => exact List.forall_mem_singleton.mpr hvalue
    | true => exact List.forall_mem_cons.mpr ⟨hkey, List.forall_mem_singleton.mpr hvalue⟩
  | objectMethod kind key params body computed shorthand generator isAsync =>
    obtain ⟨hparams, hbody⟩ := List.forall_mem_append.mp (List.forall_mem_cons.mp h).2
    rw [List.forall_mem_map] at hparams hbody
    exact List.forall_mem_append.mpr
      ⟨List.forall_mem_map.mpr hparams, List.forall_mem_map.mpr hbody⟩
  | _ => exact List.forall_mem_nil _

theorem ForInit.fits_children {head : ForInit} (h : ∀ c ∈ head.contents, c.Fits levels) :
    ∀ c ∈ head.children, c.Fits levels := by
  cases head with
  | variableDeclaration kind declarations =>
    have hdeclarations := List.forall_mem_map.mp h
    exact List.forall_mem_map.mpr hdeclarations
  | expression e => exact List.forall_mem_nil _

theorem ArrowBody.fits_children {body : ArrowBody} (h : ∀ c ∈ body.contents, c.Fits levels) :
    ∀ c ∈ body.children, c.Fits levels := by
  cases body with
  | blockStatement body =>
    have hbody := List.forall_mem_map.mp h
    exact List.forall_mem_map.mpr hbody
  | expression e =>
    have he := List.forall_mem_singleton.mp h
    exact List.forall_mem_singleton.mpr he

/-- What the compiler counts is built up along trees. -/
theorem Part.rule_fits (Admits : Part → Prop) : Rule Admits fun levels n => n.Fits levels := by
  constructor
  · intro levels n _ h
    cases n with
    | statement s => exact (Node.statement s).fits_of_children (Statement.fits_children h)
    | expression e => exact (Node.expression e).fits_of_children (Expression.fits_children h)
    | pattern p => exact ((Node.pattern p).fits_of_children (List.forall_mem_nil _)).more
    | member m => exact (Node.member m).fits_of_children (Member.fits_children h)
    | declarator d =>
      obtain ⟨id, init⟩ := d
      obtain ⟨hid, hinit⟩ := List.forall_mem_cons.mp h
      rw [List.forall_mem_map] at hinit
      exact (Node.declarator (.mk id init)).fits_of_children
        (List.forall_mem_cons.mpr ⟨hid, List.forall_mem_map.mpr hinit⟩)
    | loopHead head =>
      have hchildren := ForInit.fits_children h
      exact ⟨(Node.countingHead head).fits_of_children hchildren,
        fun loop => (Node.iterationHead loop head).fits_of_children hchildren⟩
    | catchClause clause =>
      obtain ⟨param, body⟩ := clause
      obtain ⟨hparam, hbody⟩ := List.forall_mem_append.mp h
      rw [List.forall_mem_map] at hparam hbody
      exact (Node.catchClause (.mk param body)).fits_of_children
        (List.forall_mem_append.mpr ⟨List.forall_mem_map.mpr hparam, List.forall_mem_map.mpr hbody⟩)
    | arrowBody body => exact ArrowBody.fits_children h
  · intro levels n h
    cases n with
    | loopHead head => exact ⟨h.1.more, fun loop => (h.2 loop).more⟩
    | arrowBody body => exact fun c hc => (h c hc).more
    | _ => exact Node.Fits.more h

end Part

end Tree

namespace Script

open ScriptWire.Tree (Part Node)

/-- What the compiler counts is counted by the reader of scripts. -/
theorem rule_fits : Rule fun levels n => n.Fits levels := by
  refine { (Part.rule_fits Part.OfScript) with
    access := fun name hobject => ?_
    pair := fun name hvalue => ?_
    shorthand := fun name => ?_
    method := fun kind name hparams hbody => ?_ }
  · exact (Node.expression _).fits_of_children (List.forall_mem_singleton.mpr hobject)
  · exact (Node.member _).fits_of_children (List.forall_mem_singleton.mpr hvalue)
  · -- The name of a shorthand is read for no level, but the walk refuses the member before it.
    refine Node.fits_of_fault rfl fun limit => ?_
    simp [Node.before, Tree.Member.before]
  · exact (Node.member _).fits_of_children (List.forall_mem_append.mpr
      ⟨List.forall_mem_map.mpr hparams, List.forall_mem_map.mpr hbody⟩)

end Script

open ScriptWire.Tree Lowering

/-- A program is never refused for its depth if each of its statements fits the limit. -/
theorem compile_ne_tooDeep {p : Program} {levels limit : Nat}
    (h : ∀ s ∈ p.body, (Part.statement s).Fits levels) (hlimit : levels ≤ limit) (k : Nat) :
    compile limit p ≠ .error (.tooDeep k) := by
  rw [compile_eq, ne_eq, outcome_eq_error_iff, Program.trace, stops_flatMap_iff]
  rintro ⟨earlier, s, later, hsplit, _, hstop⟩
  have hmem : s ∈ p.body := by
    rw [hsplit]
    simp
  exact h s hmem 0 limit k (by omega) hstop

/-- A program that is read from a script is never refused for its depth under a limit of at least
1000 levels, and one that is read from a document under a limit of at least 128. -/
theorem compile_ne_tooDeep_of_read (source : String) (p : Program) (limit : Nat) :
    (Script.read source = .ok p → 1000 ≤ limit → ∀ k, compile limit p ≠ .error (.tooDeep k)) ∧
      (Estree.read source = .ok p → 128 ≤ limit →
        ∀ k, compile limit p ≠ .error (.tooDeep k)) := by
  constructor
  · intro h hlimit
    exact compile_ne_tooDeep (Script.rule_fits.ensures_read source p h) hlimit
  · intro h hlimit
    have hlevels : Document.nestingLimit ≤ limit := Nat.le_trans (by decide) hlimit
    exact compile_ne_tooDeep
      (Estree.ensures_read_rule (Part.rule_fits Part.Readable) source p h) hlevels

/-- A document with nothing but a directive. -/
def strictDocument : String :=
  "\x7b\"type\":\"Program\",\"body\":[]," ++
    "\"directives\":[\x7b\"value\":\x7b\"value\":\"use strict\"\x7d\x7d]\x7d"

theorem compile_ne_tooDeep_of_read_shorthand :
    (∃ p, Script.read "(\x7ba\x7d)" = .ok p ∧
        p = ⟨[.expressionStatement (.objectExpression
          [.objectProperty (.identifier "a") (.identifier "a") false true false])]⟩ ∧
        ∀ k, compile 1000 p ≠ .error (.tooDeep k)) ∧
      ∃ p, Estree.read strictDocument = .ok p ∧
        p = ⟨[.expressionStatement (.stringLiteral "use strict")]⟩ ∧
        ∀ k, compile 128 p ≠ .error (.tooDeep k) := by
  constructor
  · have h : Script.read "(\x7ba\x7d)" = .ok ⟨[.expressionStatement (.objectExpression
        [.objectProperty (.identifier "a") (.identifier "a") false true false])]⟩ := by
      rfl
    exact ⟨_, h, rfl, (compile_ne_tooDeep_of_read _ _ 1000).1 h (by decide)⟩
  · have hparse : Document.parse strictDocument =
        .ok (.object [("body", .array []), ("directives", .array [.object
          [("value", .object [("value", .string "use strict")])]]), ("type", .string "Program")]) :=
      rfl
    have h : Estree.read strictDocument =
        .ok ⟨[.expressionStatement (.stringLiteral "use strict")]⟩ := by
      rw [Estree.read, hparse]
      rfl
    exact ⟨_, h, rfl, (compile_ne_tooDeep_of_read _ _ 128).2 h (by decide)⟩

end ScriptWire
