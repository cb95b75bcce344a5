import ScriptWire.Script.Grammar.Basic
import Mathlib.Data.List.Basic

/-!
# What parsers keep

A parser that has a result leaves an end of the text that it was given. Together with a property of
its result this is kept by every way to put parsers together, so that it can be shown of the grammar
rule by rule.

## Main definitions

- `Script.Keeps` — a parser leaves an end of a text, and its result has a property
-/

namespace ScriptWire

namespace Script

variable {α β : Type} {p q : Parser α} {f : α → Parser β} {a : α} {b : β}
  {s t top : List Char}

theorem run_bind_of_eq (h : p.run s = some (a, t)) : (p >>= f).run s = (f a).run t := by
  rw [StateT.run_bind, h]
  rfl

theorem run_get_bind (f : List Char → Parser β) (s : List Char) :
    (get >>= f).run s = (f s).run s :=
  rfl

theorem run_set_bind (f : PUnit → Parser β) (s t : List Char) :
    (set t >>= f).run s = (f ⟨⟩).run t :=
  rfl

/-- A parser and one that goes on with its result have a result if both have one. -/
theorem run_bind_eq_some (h : (p >>= f).run s = some (b, t)) :
    ∃ a between, p.run s = some (a, between) ∧ (f a).run between = some (b, t) := by
  rw [StateT.run_bind] at h
  obtain ⟨⟨a, between⟩, hp, hf⟩ := Option.bind_eq_some_iff.mp h
  exact ⟨a, between, hp, hf⟩

/-- From an end of the text `top` the parser goes to an end of it, with a result that has the
property. -/
def Keeps (top : List Char) (p : Parser α) (Q : α → Prop) : Prop :=
  ∀ s a t, s <:+ top → p.run s = some (a, t) → t <:+ top ∧ Q a

namespace Keeps

variable {Q : α → Prop} {R : β → Prop}

protected theorem pure (h : Q a) : Keeps top (pure a) Q := by
  rintro s _ t hs ⟨⟩
  exact ⟨hs, h⟩

protected theorem failure : Keeps top (failure : Parser α) Q := by
  rintro s a t hs ⟨⟩

protected theorem bind (hp : Keeps top p Q) (hf : ∀ a, Q a → Keeps top (f a) R) :
    Keeps top (p >>= f) R := by
  intro s b t hs hrun
  obtain ⟨a, between, hfirst, hsecond⟩ := run_bind_eq_some hrun
  obtain ⟨hbetween, ha⟩ := hp s a between hs hfirst
  exact hf a ha between b t hbetween hsecond

/-- Nothing follows a failure. -/
theorem failure_bind : Keeps top ((failure : Parser α) >>= f) R := by
  rintro s b t hs ⟨⟩

theorem imp (hp : Keeps top p Q) {Q' : α → Prop} (h : ∀ a, Q a → Q' a) : Keeps top p Q' :=
  fun s a t hs hrun => (hp s a t hs hrun).imp_right (h a)

protected theorem map {g : α → β} (hp : Keeps top p Q) (h : ∀ a, Q a → R (g a)) :
    Keeps top (g <$> p) R := by
  rw [map_eq_pure_bind]
  exact hp.bind fun a ha => .pure (h a ha)

protected theorem get : Keeps top get (· <:+ top) := by
  rintro s _ t hs ⟨⟩
  exact ⟨hs, hs⟩

protected theorem set (h : t <:+ top) : Keeps top (set t) fun _ => True := by
  rintro s _ _ hs ⟨⟩
  exact ⟨h, trivial⟩

/-- What follows the first character of an end of the text is an end of it too. -/
theorem setTail {c : Char} (hs : s <:+ top) (h : s = c :: t) : Keeps top (set t) fun _ => True :=
  .set ((List.suffix_cons c t).trans (h ▸ hs))

/-- A scan that the parser does has a result. -/
theorem scan (o : Option α) : Keeps top (liftM o) fun a => o = some a := by
  intro s a t hs hrun
  cases o with
  | none => cases hrun
  | some b =>
    cases hrun
    exact ⟨hs, rfl⟩

protected theorem orElse (hp : Keeps top p Q) (hq : Keeps top q Q) : Keeps top (p <|> q) Q := by
  intro s a t hs hrun
  change (p.run s <|> q.run s) = some (a, t) at hrun
  cases hfirst : p.run s with
  | none =>
    rw [hfirst] at hrun
    exact hq s a t hs hrun
  | some result =>
    rw [hfirst] at hrun
    exact hp s a t hs (hfirst.trans hrun)

protected theorem ite {c : Prop} [Decidable c] (hp : c → Keeps top p Q)
    (hq : ¬ c → Keeps top q Q) : Keeps top (if c then p else q) Q := by
  split
  · exact hp ‹_›
  · exact hq ‹_›

/-- Two branches that go on in the same way. -/
theorem ite_bind {c : Prop} [Decidable c] (hp : c → Keeps top p Q) (hq : ¬ c → Keeps top q Q)
    (hf : ∀ a, Q a → Keeps top (f a) R) : Keeps top (if c then p >>= f else q >>= f) R :=
  .ite (fun h => (hp h).bind hf) fun h => (hq h).bind hf

/-- A branch that only leaves a shorter text, before what comes in any case. -/
theorem when {c : Prop} [Decidable c] {q : Parser β} (hp : c → Keeps top p Q)
    (hq : Keeps top q R) : Keeps top (if c then p >>= fun _ => q else q) R :=
  .ite (fun h => (hp h).bind fun _ _ => hq) fun _ => hq

/-- What each of several parsers keeps, all of them keep one after the other. -/
protected theorem mapM {f : α → Parser β} {as : List α} (h : ∀ a ∈ as, Keeps top (f a) R) :
    Keeps top (as.mapM f) fun bs => ∀ b ∈ bs, R b := by
  induction as with
  | nil => exact .pure (List.forall_mem_nil _)
  | cons a as ih =>
    rw [List.mapM_cons]
    obtain ⟨hfirst, hrest⟩ := List.forall_mem_cons.mp h
    refine hfirst.bind fun b hb => (ih hrest).bind fun bs hbs => ?_
    exact .pure (List.forall_mem_cons.mpr ⟨hb, hbs⟩)

end Keeps

/-- The parser leaves an end of the text, whatever its result is. -/
abbrev Advances (top : List Char) (p : Parser α) : Prop :=
  Keeps top p fun _ => True

protected theorem Advances.pure : Advances top (pure a) :=
  Keeps.pure trivial

theorem Keeps.advances {Q : α → Prop} (hp : Keeps top p Q) : Advances top p :=
  hp.imp fun _ _ => trivial

theorem Keeps.advancesMap {Q : α → Prop} {g : α → β} (hp : Keeps top p Q) :
    Advances top (g <$> p) :=
  hp.map fun _ _ => trivial

end Script

end ScriptWire
