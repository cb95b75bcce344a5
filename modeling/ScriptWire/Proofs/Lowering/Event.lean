import ScriptWire.Lowering.Binding
import Mathlib.Data.List.Basic

/-!
# What ends a walk

A walk over a program is a list of events: it enters levels and finds faults. The first event that
it cannot go past ends it with an error; without one it has a result.

## Main definitions

- `Lowering.Event` — what a walk meets
- `Lowering.Passes` — a walk goes past all events of a list
- `Lowering.Stops` — an event of a list ends the walk with an error
- `Lowering.outcome` — how a walk over a list of events ends

## Main results

- `Lowering.bind_outcome` — walks one after the other are a walk over both lists
- `Lowering.outcome_eq_ok_iff`, `Lowering.outcome_eq_error_iff` — the two ends of a walk
-/

namespace ScriptWire

namespace Lowering

/-- What a walk over a program meets. -/
inductive Event
  /-- The walk enters the level with this number. -/
  | level (number : Nat)
  /-- The walk finds a fault. -/
  | fault (error : CompileError)

/-- The error with which an event ends a walk that may enter `limit` levels. -/
def Event.error? (limit : Nat) : Event → Option CompileError
  | .level number => if number ≤ limit then none else some (.tooDeep limit)
  | .fault error => some error

/-- A walk that may enter `limit` levels goes past all the events. -/
def Passes (limit : Nat) (events : List Event) : Prop :=
  ∀ event ∈ events, event.error? limit = none

/-- The first event that a walk cannot go past ends it with the error. -/
def Stops (limit : Nat) (events : List Event) (error : CompileError) : Prop :=
  events.findSome? (Event.error? limit) = some error

/-- The end of a walk over the events that has `value` as its result. -/
def outcome {α : Type} (limit : Nat) (events : List Event) (value : α) : Except CompileError α :=
  match events.findSome? (Event.error? limit) with
  | some error => .error error
  | none => .ok value

/-- The fault `error`, unless the condition holds. -/
def demand (condition : Prop) [Decidable condition] (error : CompileError) : List Event :=
  if condition then [] else [.fault error]

variable {limit : Nat}

section Passes

variable {events rest : List Event}

@[simp]
theorem passes_nil : Passes limit [] := by
  simp [Passes]

@[simp]
theorem passes_append : Passes limit (events ++ rest) ↔ Passes limit events ∧ Passes limit rest :=
  List.forall_mem_append

@[simp]
theorem passes_level_cons {number : Nat} :
    Passes limit (.level number :: rest) ↔ number ≤ limit ∧ Passes limit rest := by
  simp [Passes, Event.error?]

@[simp]
theorem not_passes_fault_cons {error : CompileError} :
    ¬ Passes limit (.fault error :: rest) := by
  simp [Passes, Event.error?]

theorem passes_flatMap {α : Type} {f : α → List Event} {l : List α} :
    Passes limit (l.flatMap f) ↔ ∀ a ∈ l, Passes limit (f a) := by
  simp only [Passes, List.mem_flatMap]
  constructor
  · intro h a ha event he
    exact h event ⟨a, ha, he⟩
  · rintro h event ⟨a, ha, he⟩
    exact h a ha event he

@[simp]
theorem passes_demand {condition : Prop} [Decidable condition] {error : CompileError} :
    Passes limit (demand condition error) ↔ condition := by
  by_cases h : condition <;> simp [demand, h]

theorem passes_iff_findSome? :
    Passes limit events ↔ events.findSome? (Event.error? limit) = none :=
  List.findSome?_eq_none_iff.symm

end Passes

section Stops

variable {events rest : List Event} {error : CompileError}

@[simp]
theorem not_stops_nil : ¬ Stops limit [] error := by
  simp [Stops]

/-- A walk over two lists is stopped by the first, or goes past it and is stopped by the second. -/
theorem stops_append_iff :
    Stops limit (events ++ rest) error ↔
      Stops limit events error ∨ Passes limit events ∧ Stops limit rest error := by
  rw [Stops, Stops, Stops, passes_iff_findSome?, List.findSome?_append]
  cases events.findSome? (Event.error? limit) <;> simp

theorem stops_of_split {earlier later : List Event} (hearlier : Passes limit earlier)
    (h : Stops limit events error) : Stops limit (earlier ++ (events ++ later)) error :=
  stops_append_iff.mpr (.inr ⟨hearlier, stops_append_iff.mpr (.inl h)⟩)

theorem stops_flatMap_iff {α : Type} {f : α → List Event} {l : List α} :
    Stops limit (l.flatMap f) error ↔
      ∃ earlier a later, l = earlier ++ a :: later ∧ Passes limit (earlier.flatMap f) ∧
        Stops limit (f a) error := by
  induction l with
  | nil => simp
  | cons a rest ih =>
    rw [List.flatMap_cons, stops_append_iff, ih]
    constructor
    · rintro (h | ⟨hp, earlier, b, later, rfl, hearlier, hb⟩)
      · exact ⟨[], a, rest, rfl, passes_nil, h⟩
      · exact ⟨a :: earlier, b, later, rfl, passes_append.mpr ⟨hp, hearlier⟩, hb⟩
    · rintro ⟨earlier, b, later, heq, hearlier, hb⟩
      cases earlier with
      | nil =>
        obtain ⟨rfl, rfl⟩ := List.cons_eq_cons.mp heq
        exact .inl hb
      | cons c earlier =>
        obtain ⟨rfl, rfl⟩ := List.cons_eq_cons.mp heq
        obtain ⟨hp, hearlier⟩ := passes_append.mp hearlier
        exact .inr ⟨hp, earlier, b, later, rfl, hearlier, hb⟩

theorem stops_demand_iff {condition : Prop} [Decidable condition] {other : CompileError} :
    Stops limit (demand condition other) error ↔ ¬ condition ∧ other = error := by
  by_cases h : condition <;> simp [Stops, demand, Event.error?, h]

theorem not_passes_of_stops (h : Stops limit events error) : ¬ Passes limit events := by
  rw [passes_iff_findSome?, h]
  exact Option.some_ne_none error

/-- A walk is stopped by a fault among the events, or because a level is too deep. -/
theorem fault_mem_of_stops (h : Stops limit events error) (hdepth : error ≠ .tooDeep limit) :
    .fault error ∈ events := by
  obtain ⟨event, hmem, herror⟩ := List.exists_of_findSome?_eq_some h
  cases event with
  | level number =>
    by_cases hlevel : number ≤ limit
    · rw [Event.error?, if_pos hlevel] at herror
      cases herror
    · rw [Event.error?, if_neg hlevel] at herror
      cases herror
      exact absurd rfl hdepth
  | fault other =>
    cases herror
    exact hmem

end Stops

section Outcome

variable {α β : Type} {events rest : List Event} {value : α} {result : β}

@[simp]
theorem outcome_nil : outcome limit [] value = .ok value :=
  rfl

@[simp]
theorem outcome_fault_cons {error : CompileError} :
    outcome limit (.fault error :: rest) value = .error error :=
  rfl

theorem outcome_level_cons_of_le {number : Nat} (h : number ≤ limit) :
    outcome limit (.level number :: rest) value = outcome limit rest value := by
  simp [outcome, Event.error?, h]

theorem outcome_level_cons_of_lt {number : Nat} (h : limit < number) :
    outcome limit (.level number :: rest) value = .error (.tooDeep limit) := by
  simp [outcome, Event.error?, Nat.not_le.mpr h]

/-- A walk has a result when it goes past all events. -/
theorem outcome_eq_ok_iff {other : α} :
    outcome limit events value = .ok other ↔ Passes limit events ∧ value = other := by
  rw [passes_iff_findSome?, outcome]
  cases events.findSome? (Event.error? limit) <;> simp

/-- A walk ends with the error of the first event that it does not go past. -/
theorem outcome_eq_error_iff {error : CompileError} :
    outcome limit events value = .error error ↔ Stops limit events error := by
  rw [outcome, Stops]
  cases events.findSome? (Event.error? limit) <;> simp

/-- A walk that goes on after another one is a walk over the events of both. The second walk may
rely on the first one having come to its end. -/
theorem bind_outcome {x : Except CompileError α} {f : α → Except CompileError β}
    (hx : x = outcome limit events value)
    (hf : Passes limit events → f value = outcome limit rest result) :
    (x >>= f) = outcome limit (events ++ rest) result := by
  rw [hx]
  unfold outcome at hf ⊢
  rw [List.findSome?_append]
  cases h : events.findSome? (Event.error? limit) with
  | some error => rfl
  | none => exact hf (passes_iff_findSome?.mpr h)

/-- A walk that meets nothing more after another one. -/
theorem bind_outcome_ok {x : Except CompileError α} {f : α → Except CompileError β}
    (hx : x = outcome limit events value) (hf : Passes limit events → f value = .ok result) :
    (x >>= f) = outcome limit events result := by
  rw [← List.append_nil events]
  exact bind_outcome hx hf

/-- A walk that goes on when a condition holds. -/
theorem outcome_demand_append {condition : Prop} [Decidable condition] {error : CompileError}
    {x : Except CompileError α} (hx : condition → x = outcome limit rest value)
    (hn : ¬ condition → x = .error error) :
    x = outcome limit (demand condition error ++ rest) value := by
  by_cases h : condition
  · rw [demand, if_pos h]
    exact hx h
  · rw [demand, if_neg h]
    exact hn h

end Outcome

end Lowering

end ScriptWire
