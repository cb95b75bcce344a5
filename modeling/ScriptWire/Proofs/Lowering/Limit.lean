import ScriptWire.Proofs.Lowering.Compile

/-!
# The limit on levels

What a walk meets does not depend on its limit. Walks with different limits go over the same events,
and only a level among them asks for the limit, so two walks over one program go side by side until
the one with the smaller limit is stopped for its depth.

## Main results

- `Lowering.Event.error?_of_le` — what one event means under two limits
- `Lowering.outcome_of_le` — how two walks over the same events end
- `Tree.Program.eq_limit_of_stops` — a walk that is stopped for its depth tells its limit
- `compile_of_le` — a smaller limit changes nothing but refusals for depth
-/

namespace ScriptWire

namespace Lowering

variable {lower upper : Nat}

/-- An event stops a walk for its depth under the smaller limit, or means the same under both. -/
theorem Event.error?_of_le (h : lower ≤ upper) (event : Event) :
    event.error? lower = some (.tooDeep lower) ∨ event.error? lower = event.error? upper := by
  cases event with
  | level number =>
    by_cases hlower : number ≤ lower
    · have hupper : number ≤ upper := by omega
      right
      rw [error?, error?, if_pos hlower, if_pos hupper]
    · left
      rw [error?, if_neg hlower]
  | fault error =>
    right
    rfl

/-- Of two walks over the same events the one with the smaller limit is stopped for its depth, or
both end alike. -/
theorem outcome_of_le {α : Type} (h : lower ≤ upper) (events : List Event) (value : α) :
    outcome lower events value = .error (.tooDeep lower) ∨
      outcome lower events value = outcome upper events value := by
  induction events with
  | nil => exact .inr rfl
  | cons event rest ih =>
    unfold outcome at ih ⊢
    rw [List.findSome?_cons, List.findSome?_cons]
    rcases event.error?_of_le h with hstop | hsame
    · left
      rw [hstop]
    · rw [hsame]
      -- Both walks are stopped here with one error, or both go on.
      cases event.error? upper with
      | some error => exact .inr rfl
      | none => exact ih

end Lowering

namespace Tree

open Lowering

variable {n : Node} {depth limit k : Nat}

theorem Expression.not_stops_after_tooDeep {e : Expression} :
    ¬ Stops limit e.after (.tooDeep k) := by
  cases e with
  | memberExpression object property computed =>
    have hname : ¬ Stops limit property.nameFaults (.tooDeep k) := fun h =>
      nomatch property.refusals_nameFaults.refuses_of_stops h
    cases computed <;> simp [Expression.after, hname]
  | updateExpression operator isPrefix argument => simp [Expression.after, stops_demand_iff]
  | sequenceExpression expressions => simp [Expression.after, stops_demand_iff]
  | _ => simp [Expression.after]

theorem Node.not_stops_after_tooDeep : ¬ Stops limit n.after (.tooDeep k) := by
  cases n with
  | expression e => exact Expression.not_stops_after_tooDeep
  | _ => exact not_stops_nil

/-- A walk is stopped for its depth at a node only by the level of the node. -/
theorem Node.stops_self_tooDeep (h : Stops limit (n.entry depth ++ n.before) (.tooDeep k)) :
    k = limit ∧ limit < depth + n.levels := by
  rcases stops_append_iff.mp h with hentry | ⟨_, hbefore⟩
  · obtain ⟨herror, hlevel⟩ := stops_entry hentry
    cases herror
    exact ⟨rfl, hlevel⟩
  · exact nomatch n.refusals_before.refuses_of_stops hbefore

/-- A walk that is stopped for its depth is stopped with its own limit. -/
theorem Program.eq_limit_of_stops {p : Program} (h : Stops limit p.trace (.tooDeep k)) :
    k = limit := by
  obtain ⟨_, _, inner, depth, _, _, _, _, _, hat⟩ := Program.stops_trace_iff.mp h
  rcases hat with hself | ⟨_, _, hafter⟩
  · exact (Node.stops_self_tooDeep hself).1
  · exact absurd hafter Node.not_stops_after_tooDeep

end Tree

open ScriptWire.Tree Lowering

/-- Under a smaller limit a program is refused for its depth, or compiled with the same result or
the same error; and it is refused for its depth if it is so under the larger limit. -/
theorem compile_of_le (p : Program) {lower upper : Nat} (h : lower ≤ upper) :
    (compile lower p = .error (.tooDeep lower) ∨ compile lower p = compile upper p) ∧
      (compile upper p = .error (.tooDeep upper) →
        compile lower p = .error (.tooDeep lower)) := by
  have hcases : compile lower p = .error (.tooDeep lower) ∨ compile lower p = compile upper p := by
    rw [compile_eq, compile_eq]
    exact outcome_of_le h p.trace (Image.program p)
  refine ⟨hcases, fun hupper => ?_⟩
  rcases hcases with hlower | hsame
  · exact hlower
  · -- The walk with the smaller limit has the error of the other one, which tells a limit.
    have hstop : compile lower p = .error (.tooDeep upper) := hsame.trans hupper
    have hlimit : upper = lower := by
      rw [compile_eq, outcome_eq_error_iff] at hstop
      exact Program.eq_limit_of_stops hstop
    rw [hstop, hlimit]

/-- A block around a construct without a message: one level is too few, and from two on the
construct is what is refused. -/
theorem compile_of_le_block :
    compile 1 ⟨[.blockStatement [.unsupported "ClassDeclaration"]]⟩ = .error (.tooDeep 1) ∧
      compile 0 ⟨[.blockStatement [.unsupported "ClassDeclaration"]]⟩ = .error (.tooDeep 0) ∧
      compile 2 ⟨[.blockStatement [.unsupported "ClassDeclaration"]]⟩ =
        compile defaultDepth ⟨[.blockStatement [.unsupported "ClassDeclaration"]]⟩ := by
  refine ⟨rfl, (compile_of_le _ (Nat.zero_le 1)).2 rfl, ?_⟩
  have hle : 2 ≤ defaultDepth := by decide
  refine (compile_of_le _ hle).1.resolve_left ?_
  intro h
  cases h

end ScriptWire
