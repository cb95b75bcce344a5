import Mathlib.Logic.Basic

/-!
# What results satisfy

A computation that may fail ensures a condition if every result that it can have satisfies it. The
rules follow the ways in which computations are put together.

## Main definitions

- `Ensures` — every result of a computation satisfies a condition
-/

namespace ScriptWire

variable {ε δ α β : Type}

theorem mapError_eq_ok {x : Except ε α} {f : ε → δ} {a : α} :
    x.mapError f = .ok a ↔ x = .ok a := by
  cases x with
  | error e => constructor <;> intro h <;> cases h
  | ok b => constructor <;> intro h <;> cases h <;> rfl

theorem map_eq_ok {x : Except ε α} {f : α → β} {b : β} :
    x.map f = .ok b ↔ ∃ a, x = .ok a ∧ f a = b := by
  cases x <;> simp [Except.map]

theorem bind_eq_ok {x : Except ε α} {f : α → Except ε β} {b : β} :
    (x >>= f) = .ok b ↔ ∃ a, x = .ok a ∧ f a = .ok b := by
  cases x <;> simp [bind, Except.bind]

/-- Every result of a computation satisfies a condition. -/
def Ensures (x : Except ε α) (post : α → Prop) : Prop :=
  ∀ a, x = .ok a → post a

namespace Ensures

variable {x : Except ε α} {f : α → Except ε β} {P : α → Prop} {R : β → Prop}

theorem error {e : ε} : Ensures (.error e) P :=
  fun _ h => nomatch h

theorem ok {a : α} (h : P a) : Ensures (.ok a : Except ε α) P := by
  rintro _ ⟨⟩
  exact h

theorem pure {a : α} (h : P a) : Ensures (Pure.pure a : Except ε α) P :=
  ok h

theorem trivial : Ensures x fun _ => True :=
  fun _ _ => True.intro

theorem bind (hx : Ensures x P) (hf : ∀ a, P a → Ensures (f a) R) : Ensures (x >>= f) R := by
  intro b hb
  cases x with
  | error e => cases hb
  | ok a => exact hf a (hx a rfl) b hb

theorem map {g : α → β} (hx : Ensures x P) (hg : ∀ a, P a → R (g a)) : Ensures (x.map g) R := by
  intro b hb
  cases x with
  | error e => cases hb
  | ok a =>
    cases hb
    exact hg a (hx a rfl)

theorem mapError {g : ε → δ} (hx : Ensures x P) : Ensures (x.mapError g) P := by
  intro a ha
  cases x with
  | error e => cases ha
  | ok b =>
    cases ha
    exact hx _ rfl

theorem ite {c : Prop} [Decidable c] {y : Except ε α} (hx : c → Ensures x P)
    (hy : ¬ c → Ensures y P) : Ensures (if c then x else y) P := by
  split
  · exact hx ‹_›
  · exact hy ‹_›

/-- A list that is computed element by element ensures what each of its elements ensures. -/
theorem each {f : α → Except ε β} (g : List α → Except ε (List β)) (hnil : g [] = Pure.pure [])
    (hcons : ∀ a as, g (a :: as) = do let b ← f a; return b :: (← g as))
    (hf : ∀ a, Ensures (f a) R) (as : List α) : Ensures (g as) fun bs => ∀ b ∈ bs, R b := by
  induction as with
  | nil =>
    rw [hnil]
    exact .pure (List.forall_mem_nil _)
  | cons a as ih =>
    rw [hcons]
    refine (hf a).bind fun b hb => ih.bind fun bs hbs => ?_
    exact .pure (List.forall_mem_cons.mpr ⟨hb, hbs⟩)

end Ensures

end ScriptWire
