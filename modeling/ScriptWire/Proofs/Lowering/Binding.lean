import ScriptWire.Proofs.Lowering.Soundness
import ScriptWire.Proofs.Lowering.Trace

/-!
# Names, words, flags and lists as walks

What is looked up at a node before its children, and how walks over the elements of a list make one
walk.

## Main results

- `Lowering.requiredText_eq`, `Lowering.bindingName_eq`, `Lowering.methodName_eq`, … — each check is
  a walk over its faults
- `Lowering.mapM_eq_outcome` — a walk over the elements of a list
-/

namespace ScriptWire

namespace Lowering

open ScriptWire.Tree

variable {limit depth : Nat}

theorem requiredText_eq (kind field text : String) :
    requiredText kind field text = outcome limit (textFaults kind field text) text := by
  by_cases h : text = "" <;> simp [requiredText, textFaults, demand, h]

theorem declarationKind_eq (word : String) :
    declarationKind word = outcome limit (keywordFaults word) (Image.keyword word) := by
  unfold declarationKind Image.keyword keywordFaults demand IsKeyword
  by_cases hvar : word = "var"
  · simp [hvar]
  · by_cases hlet : word = "let"
    · simp [hlet]
    · by_cases hconst : word = "const" <;> simp [hvar, hlet, hconst]

theorem indexKey_eq (value : Binary64) :
    indexKey value =
      outcome limit (Expression.numericLiteral value).keyFaults (Image.index value) := by
  have hfaults : (Expression.numericLiteral value).keyFaults =
      demand (isIndex value = true) (.unsupported "ObjectProperty" (.keyNotInteger value)) := rfl
  rw [hfaults, isIndex, indexKey, Image.index]
  cases value.toInt? with
  | none => rfl
  | some n =>
    by_cases h : -(Nat.pow 2 63 : Int) ≤ n ∧ n ≤ Nat.pow 2 63 <;>
      simp only [demand, h, decide_false, if_false] <;> rfl

theorem methodName_eq (key : Expression) (computed shorthand : Bool) :
    methodName key computed shorthand =
      outcome limit
        (demand (computed = false ∧ shorthand = false)
            (.unsupported "ObjectMethod" .computedMethod) ++
          demand (key.isMethodName = true) (.unsupported "ObjectMethod" (.methodKind key.kind)))
        (Image.text key) := by
  refine outcome_demand_append (fun h => ?_) fun h => ?_
  · obtain ⟨rfl, rfl⟩ := h
    cases key <;> rfl
  · cases computed <;> cases shorthand <;> simp [methodName] at h ⊢

theorem plainAccessor_eq (accessor : String) (generator isAsync : Bool) :
    plainAccessor accessor generator isAsync =
      outcome limit (accessorFaults accessor generator isAsync) () := by
  cases generator <;> cases isAsync <;> rfl

theorem noParameters_eq (params : List Pattern) :
    noParameters params =
      outcome limit
        (demand (params.isEmpty = true) (.unsupported "ObjectMethod" .getterParameters)) () := by
  cases params <;> rfl

theorem oneParameter_eq (params : List Pattern) :
    oneParameter params =
      outcome limit
        (demand (params.length = 1)
          (.unsupported "ObjectMethod" (.setterParameters params.length)))
        (params.headD .objectPattern) := by
  match params with
  | [] => rfl
  | [p] => rfl
  | p :: q :: rest => simp [oneParameter, demand]

theorem bindingName_eq (p : Pattern) :
    bindingName p = outcome limit ((Node.pattern p).trace depth) (Image.name p) := by
  rw [Node.trace_eq]
  cases p with
  | identifier name =>
    by_cases h : name = "" <;>
      simp [bindingName, Pattern.kind, Node.entry, Node.before, Pattern.before, Node.children,
        Node.after, Image.name, demand, h]
  | _ => rfl

theorem checked_of_sound {k : Message.Kind} {m : Message k} (h : Message.Sound m.any) :
    checked m = .ok m := by
  have hvalid : m.violation? = none := h.valid
  rw [checked, Message.make, hvalid]
  rfl

theorem checked_of_violation {k : Message.Kind} {m : Message k} {v : Message.Violation}
    (h : m.violation? = some v) : checked m = .error (.shape v) := by
  rw [checked, Message.make, h]
  rfl

/-- The message of a node is well-formed once the walk has gone past all events of the node. -/
theorem sound_of_passes {n : Node} (hd : depth ≤ limit) (h : Passes limit (n.trace depth)) :
    Message.Sound n.image :=
  Node.sound_image ((n.passes_trace_iff hd).mp h).1

theorem sound_of_passes_map {α : Type} {f : α → Node} {l : List α} (hd : depth ≤ limit)
    (h : Passes limit ((l.map f).flatMap (Node.trace depth))) :
    ∀ a ∈ l, Message.Sound (f a).image := by
  rw [passes_flatMap, List.forall_mem_map] at h
  exact fun a ha => sound_of_passes hd (h a ha)

theorem parameter_eq (h : depth ≤ limit) (p : Pattern) :
    parameter p = outcome limit ((Node.pattern p).trace depth) (Image.parameter p) :=
  bind_outcome_ok (bindingName_eq p) fun hp => checked_of_sound (sound_of_passes h hp)

section Lists

variable {α β : Type} {f : α → Except CompileError β} {events : α → List Event} {value : α → β}

/-- Walks over the elements of a list are a walk over the events of all of them. -/
theorem mapM_eq_outcome {l : List α} (h : ∀ a ∈ l, f a = outcome limit (events a) (value a)) :
    l.mapM f = outcome limit (l.flatMap events) (l.map value) := by
  induction l with
  | nil => rfl
  | cons a rest ih =>
    rw [List.forall_mem_cons] at h
    rw [List.mapM_cons, List.flatMap_cons]
    exact bind_outcome h.1 fun _ => bind_outcome_ok (ih h.2) fun _ => rfl

theorem option_mapM_eq_outcome {o : Option α}
    (h : ∀ a ∈ o, f a = outcome limit (events a) (value a)) :
    o.mapM f = outcome limit (o.toList.flatMap events) (o.map value) := by
  cases o with
  | none => rfl
  | some a =>
    rw [Option.toList_some, List.flatMap_singleton]
    exact bind_outcome_ok (h a rfl) fun _ => rfl

end Lists

theorem parameters_eq_mapM (ps : List Pattern) : parameters ps = ps.mapM parameter := by
  induction ps with
  | nil => rfl
  | cons p rest ih => rw [parameters, ih, List.mapM_cons]

theorem parameters_eq (h : depth ≤ limit) (ps : List Pattern) :
    parameters ps =
      outcome limit ((ps.map Node.pattern).flatMap (Node.trace depth))
        (ps.map Image.parameter) := by
  rw [parameters_eq_mapM, List.flatMap_map]
  exact mapM_eq_outcome fun p _ => parameter_eq h p

end Lowering

end ScriptWire
