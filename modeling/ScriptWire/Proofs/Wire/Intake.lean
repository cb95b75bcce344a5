import ScriptWire.Proofs.Wire.Scalar

/-!
# Taking in fields

A reader of messages takes in one field after the other, each put into the fields that it has so
far. What becomes of a run of fields is said here once, for a single field of a message, for several
of them and for the message, and is carried from one to the other.

## Main definitions

- `Wire.Settles` — a reader gives a result and leaves the bytes after it, or meets messages that
  stand too deep
- `Wire.Intake` — what a state becomes when a run of fields is put into it

## Main results

- `Wire.Intake.append_ite` — one run of fields after another
- `Wire.Intake.map` — a run of fields seen from a larger state
- `Wire.mergeFields_of_intake` — the loop over the fields of a message
-/

namespace ScriptWire

namespace Wire

open Message

/-- The numbers under which a field is written. -/
def numbers : Shape → List Nat
  | .plain number _ => [number]
  | .optional number _ => [number]
  | .repeated number _ => [number]
  | .union vs => vs.map Variant.number

/-- The numbers under which fields are written. -/
def allNumbers (fs : List Field) : List Nat :=
  fs.flatMap fun f => numbers f.shape

/-- A reader gives the result and leaves the bytes after it; without a result, it meets a message
that stands too deep. -/
def Settles {α : Type} (result : Option α) (rest : Bytes)
    (reading : Except DecodeError (α × Bytes)) : Prop :=
  match result with
  | some a => reading = .ok (a, rest)
  | none => ∃ path, reading = .error ⟨path, .tooNested⟩

theorem Settles.map {α β : Type} (f : α → β) {result : Option α} {rest : Bytes}
    {reading : Except DecodeError (α × Bytes)} (h : Settles result rest reading) :
    Settles (result.map f) rest (reading.map fun (a, rest) => (f a, rest)) := by
  cases result with
  | some a =>
    rw [Settles] at h
    subst h
    rfl
  | none =>
    obtain ⟨path, rfl⟩ := h
    exact ⟨path, rfl⟩

/-- How the field of a key is put into a state, if the state has a place for it. -/
abbrev FieldStep (σ : Type) :=
  Key → σ → Bytes → Option (Except DecodeError (σ × Bytes))

/-- What a state becomes when a run of fields is put into it, all of them with one of the given
numbers; nothing when one of the fields stands too deep. -/
inductive Intake {σ : Type} (step : FieldStep σ) (allowed : List Nat) : σ → Bytes → Option σ → Prop
  | done (s : σ) : Intake step allowed s [] (some s)
  | field {s next : σ} {result : Option σ} {number : Nat} {type : WireType} {body bytes : Bytes}
      (mem : number ∈ allowed)
      (read : ∀ rest, step ⟨number, type⟩ s (body ++ rest) = some (.ok (next, rest)))
      (more : Intake step allowed next bytes result) :
      Intake step allowed s (key number type ++ (body ++ bytes)) result
  | tooNested {s : σ} {number : Nat} {type : WireType} {body bytes : Bytes}
      (mem : number ∈ allowed)
      (refused : ∀ rest, ∃ path,
        step ⟨number, type⟩ s (body ++ rest) = some (.error ⟨path, .tooNested⟩)) :
      Intake step allowed s (key number type ++ (body ++ bytes)) none

namespace Intake

variable {σ τ : Type} {step : FieldStep σ} {allowed : List Nat} {s : σ} {result : Option σ}

theorem single {number : Nat} {type : WireType} {body : Bytes} (mem : number ∈ allowed)
    (h : ∀ rest, ∃ reading,
      step ⟨number, type⟩ s (body ++ rest) = some reading ∧ Settles result rest reading) :
    Intake step allowed s (key number type ++ body) result := by
  rw [← List.append_nil body]
  cases result with
  | some next =>
    refine .field mem (fun rest => ?_) (.done next)
    obtain ⟨reading, hstep, hsettles⟩ := h rest
    rw [hstep, hsettles]
  | none =>
    refine .tooNested mem fun rest => ?_
    obtain ⟨reading, hstep, path, rfl⟩ := h rest
    exact ⟨path, hstep⟩

/-- After a run of fields the next run is taken in. -/
theorem append {next : σ} {bytes more : Bytes} (h : Intake step allowed s bytes (some next))
    (hmore : Intake step allowed next more result) :
    Intake step allowed s (bytes ++ more) result := by
  -- The result becomes a variable, which the induction needs, and rules out runs that stopped.
  generalize hlast : some next = last at h
  induction h with
  | done s =>
    cases hlast
    exact hmore
  | field mem read _ ih =>
    rw [List.append_assoc, List.append_assoc]
    exact .field mem read (ih hlast)
  | tooNested => cases hlast

/-- A run of fields that stopped has stopped whatever comes after it. -/
theorem append_of_none {bytes : Bytes} (h : Intake step allowed s bytes none) (more : Bytes) :
    Intake step allowed s (bytes ++ more) none := by
  generalize hlast : none = last at h
  induction h with
  | done s => cases hlast
  | field mem read _ ih =>
    rw [List.append_assoc, List.append_assoc]
    exact .field mem read (ih hlast)
  | tooNested mem refused =>
    rw [List.append_assoc, List.append_assoc]
    exact .tooNested mem refused

/-- Two runs of fields are taken in when each of them is. -/
theorem append_ite {p q : Prop} [Decidable p] [Decidable q] {next last : σ} {bytes more : Bytes}
    (h : Intake step allowed s bytes (if p then some next else none))
    (hmore : Intake step allowed next more (if q then some last else none)) :
    Intake step allowed s (bytes ++ more) (if p ∧ q then some last else none) := by
  by_cases hp : p
  · simp only [hp, if_true, true_and] at h ⊢
    exact h.append hmore
  · simp only [hp, if_false, false_and] at h ⊢
    exact h.append_of_none more

/-- A run of fields is seen the same from a larger state, in which the state is a part. -/
theorem map {step' : FieldStep τ} {allowed' : List Nat} {bytes : Bytes} (f : σ → τ)
    (h : Intake step allowed s bytes result) (hsub : allowed ⊆ allowed')
    (read : ∀ key s bytes next rest, key.number ∈ allowed →
      step key s bytes = some (.ok (next, rest)) →
      step' key (f s) bytes = some (.ok (f next, rest)))
    (refused : ∀ key s bytes path, key.number ∈ allowed →
      step key s bytes = some (.error ⟨path, .tooNested⟩) →
      ∃ path, step' key (f s) bytes = some (.error ⟨path, .tooNested⟩)) :
    Intake step' allowed' (f s) bytes (result.map f) := by
  induction h with
  | done s => exact .done (f s)
  | field mem hread _ ih =>
    exact .field (hsub mem) (fun rest => read _ _ _ _ _ mem (hread rest)) ih
  | tooNested mem hrefused =>
    refine .tooNested (hsub mem) fun rest => ?_
    obtain ⟨path, h⟩ := hrefused rest
    exact refused _ _ _ path mem h

end Intake

theorem mergeField_key {merge : Merge} (budget : Nat) {k : Kind} {slots : Slots (fields k)}
    {number : Nat} {type : WireType} {rest : Bytes}
    {reading : Except DecodeError (Slots (fields k) × Bytes)}
    (hnumber : 0 < number ∧ number < Nat.pow 2 29)
    (h : mergeSlots? merge k ⟨number, type⟩ slots rest = some reading) :
    mergeField merge budget (.mk k slots) (key number type ++ rest) =
      reading.map fun (slots, rest) => (.mk k slots, rest) := by
  rw [mergeField, readKey_key type rest hnumber.1 hnumber.2]
  simp only [bind, Except.bind, h]

/-- The loop over the fields of a message takes in a run of fields, and ends where the run ends. -/
theorem mergeFields_of_intake {merge : Merge} (budget : Nat) {k : Kind} {allowed : List Nat}
    {slots : Slots (fields k)} {bytes : Bytes} {result : Option (Slots (fields k))}
    (h : Intake (fun key => mergeSlots? merge k key) allowed slots bytes result)
    (hallowed : ∀ n ∈ allowed, 0 < n ∧ n < Nat.pow 2 29) (rest : Bytes) {fuel : Nat}
    (hfuel : bytes.length ≤ fuel) :
    Settles (result.map (Message.mk k)) rest
      (mergeFields merge budget rest.length fuel (.mk k slots) (bytes ++ rest)) := by
  induction h generalizing fuel with
  | done slots =>
    cases fuel <;> simp [Settles, mergeFields]
  | @field slots next result number type body bytes mem read _ ih =>
    -- The key of a field is not empty, so a step is left for each field.
    have hkey := List.length_pos_iff.mpr (key_ne_nil number type)
    simp only [List.length_append] at hfuel
    obtain ⟨fuel, rfl⟩ : ∃ n, fuel = n + 1 := ⟨fuel - 1, by omega⟩
    have hfield := mergeField_key budget (hallowed number mem) (read (bytes ++ rest))
    simp only [List.append_assoc]
    rw [mergeFields, if_pos (by simp only [List.length_append]; omega), hfield]
    exact ih (by omega)
  | @tooNested slots number type body bytes mem refused =>
    have hkey := List.length_pos_iff.mpr (key_ne_nil number type)
    simp only [List.length_append] at hfuel
    obtain ⟨fuel, rfl⟩ : ∃ n, fuel = n + 1 := ⟨fuel - 1, by omega⟩
    obtain ⟨path, hrefused⟩ := refused (bytes ++ rest)
    have hfield := mergeField_key budget (hallowed number mem) hrefused
    simp only [List.append_assoc]
    rw [mergeFields, if_pos (by simp only [List.length_append]; omega), hfield]
    exact ⟨path, rfl⟩

end Wire

end ScriptWire
