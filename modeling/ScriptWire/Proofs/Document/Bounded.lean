import ScriptWire.Document.Parser
import ScriptWire.Proofs.Binary64.Finite
import ScriptWire.Proofs.Document.Members
import ScriptWire.Proofs.Ensures

/-!
# The bounds on documents

Every number in the text of a document is read as a finite one: what would be infinite is refused.
So is a text in which too many arrays and objects stand inside each other.

## Main definitions

- `Document.Value.Bounded` — the numbers in a value are finite, and it is not nested too deeply

## Main results

- `Document.ensures_number` — a number that is read is finite
- `Document.ensures_parse` — a document that is read keeps to both bounds
-/

namespace ScriptWire

namespace Document

/-- All numbers in a value are finite, integers being taken as the numbers nearest to them, and at
most `levels` arrays and objects stand inside each other. -/
inductive Value.Bounded : (levels : Nat) → Value → Prop
  | null {levels : Nat} : Bounded levels .null
  | boolean {levels : Nat} (value : Bool) : Bounded levels (.boolean value)
  | integer {levels : Nat} {value : Int} (h : (Binary64.ofInt value).isFinite = true) :
    Bounded levels (.integer value)
  | float {levels : Nat} {value : Binary64} (h : value.isFinite = true) :
    Bounded levels (.float value)
  | string {levels : Nat} (text : String) : Bounded levels (.string text)
  | array {levels : Nat} {items : List Value} (h : ∀ v ∈ items, Bounded levels v) :
    Bounded (levels + 1) (.array items)
  | object {levels : Nat} {members : List (String × Value)}
    (h : ∀ m ∈ members, Bounded levels m.2) : Bounded (levels + 1) (.object members)

theorem Value.Bounded.more {levels : Nat} {v : Value} (h : v.Bounded levels) :
    v.Bounded (levels + 1) := by
  induction h with
  | null => exact .null
  | boolean value => exact .boolean value
  | integer h => exact .integer h
  | float h => exact .float h
  | string text => exact .string text
  | array _ ih => exact .array ih
  | object _ ih => exact .object ih

theorem bounded_of_lookup? {key : String} {members : List (String × Value)} {v : Value}
    {levels : Nat} (hmembers : ∀ m ∈ members, m.2.Bounded levels)
    (h : lookup? key members = some v) : v.Bounded levels := by
  induction members with
  | nil => cases h
  | cons member rest ih =>
    obtain ⟨hmember, hrest⟩ := List.forall_mem_cons.mp hmembers
    rw [lookup?] at h
    split at h
    · cases h
      exact hmember
    · exact ih hrest h

section Numbers

variable {levels : Nat} {negative : Bool} {digits : Nat} {e : Int} {s : List Char}

theorem isFinite_div_powerOfTen {x : Binary64} {n : Nat} (hx : x.isFinite = true) (hn : n ≠ 0) :
    (x.div (powerOfTen n)).isFinite = true := by
  refine Binary64.isFinite_div hx (Binary64.le_magnitude_ofNat ?_)
  have hten : Nat.pow 10 1 ≤ Nat.pow 10 n := Nat.pow_le_pow_right (by decide) (by omega)
  exact Nat.le_trans (by decide) hten

/-- Scaling by a power of ten keeps a number finite: growing is checked, and shrinking cannot make
it infinite. -/
theorem ensures_scaleByTen (fuel : Nat) {x : Binary64} (hx : x.isFinite = true) (e : Int) :
    Ensures (scaleByTen fuel x e) fun y => y.isFinite = true := by
  induction fuel generalizing x e with
  | zero => exact .ok hx
  | succ fuel ih =>
    rw [scaleByTen]
    refine .ite (fun _ => .ite (fun _ => ?_) fun hneg => ?_) fun _ => .ite (fun _ => .ok hx)
      fun _ => .ite (fun _ => .error) fun _ => ?_
    · exact .ite (fun hfinite => .ok hfinite) fun _ => .error
    · exact .ok (isFinite_div_powerOfTen hx (by omega))
    · exact ih (isFinite_div_powerOfTen hx (by decide)) _

theorem ensures_floatOf (hdigits : digits ≤ mostDigits) :
    Ensures (floatOf negative digits e) (Value.Bounded levels) := by
  have hfinite : (Binary64.ofNat digits).isFinite = true :=
    Binary64.isFinite_ofNat (Nat.lt_of_le_of_lt hdigits (by decide))
  refine (ensures_scaleByTen 8 hfinite e).map fun x hx => .float ?_
  rw [Binary64.isFinite_withSign]
  exact hx

/-- Digits are collected only as long as their number fits. -/
theorem collect_le (hdigits : digits ≤ mostDigits) (count : Nat) (s : List Char) :
    (collect digits count s).1 ≤ mostDigits := by
  induction s generalizing digits count with
  | nil => exact hdigits
  | cons c cs ih =>
    rw [collect]
    split
    · dsimp only
      split
      · exact hdigits
      · exact ih (Nat.le_of_not_lt ‹_›) _
    · exact hdigits

theorem ensures_exponentTail (hdigits : digits ≤ mostDigits) :
    Ensures (exponentTail negative digits e s) fun r => r.1.Bounded levels := by
  rw [exponentTail]
  generalize Binary64.splitSign s = split
  obtain ⟨down, s⟩ := split
  cases s with
  | nil => exact .error
  | cons c cs =>
    dsimp only
    refine .ite (fun _ => .ite (fun _ => .ite (fun _ => .error) fun _ => .ok ?_) fun _ => ?_)
      fun _ => .error
    · exact .float (by rw [Binary64.isFinite_withSign]; decide)
    · exact (ensures_floatOf hdigits).map fun v hv => hv

theorem ensures_floatTail (hdigits : digits ≤ mostDigits) :
    Ensures (floatTail negative digits e s) fun r => r.1.Bounded levels := by
  rw [floatTail.eq_def]
  split
  · exact ensures_exponentTail hdigits
  · exact ensures_exponentTail hdigits
  · exact (ensures_floatOf hdigits).map fun v hv => hv

theorem ensures_fractionTail (hdigits : digits ≤ mostDigits) :
    Ensures (fractionTail negative digits e s) fun r => r.1.Bounded levels := by
  cases s with
  | nil => exact .error
  | cons c cs =>
    have hcollect := collect_le hdigits 0 (c :: cs)
    rw [fractionTail]
    generalize collect digits 0 (c :: cs) = collected at hcollect
    exact .ite (fun _ => ensures_floatTail hcollect) fun _ => .error

theorem bounded_integerValue (hdigits : digits ≤ mostDigits) :
    (integerValue negative digits).Bounded levels := by
  have hfinite : (Binary64.ofNat digits).isFinite = true :=
    Binary64.isFinite_ofNat (Nat.lt_of_le_of_lt hdigits (by decide))
  have hsigned (n : Int) (hn : n.natAbs = digits) : (Binary64.ofInt n).isFinite = true := by
    rw [Binary64.ofInt, Binary64.isFinite_withSign, hn]
    exact hfinite
  rw [integerValue]
  split
  · exact .integer (hsigned _ (Int.natAbs_natCast digits))
  · split
    · exact .float (by rw [Binary64.isFinite_negate]; exact hfinite)
    · exact .integer (hsigned _ (by rw [Int.natAbs_neg, Int.natAbs_natCast]))

theorem ensures_wholeTail (hdigits : digits ≤ mostDigits) :
    Ensures (wholeTail negative digits s) fun r => r.1.Bounded levels := by
  rw [wholeTail.eq_def]
  split
  · exact ensures_fractionTail hdigits
  · exact ensures_exponentTail hdigits
  · exact ensures_exponentTail hdigits
  · exact .ok (bounded_integerValue hdigits)

theorem ensures_longTail (hdigits : digits ≤ mostDigits) :
    Ensures (longTail negative digits s) fun r => r.1.Bounded levels := by
  rw [longTail.eq_def]
  dsimp only
  split
  · exact ensures_fractionTail hdigits
  · exact ensures_floatTail hdigits

theorem ensures_number (s : List Char) : Ensures (number s) fun r => r.1.Bounded levels := by
  have hunsigned (negative : Bool) (s : List Char) :
      Ensures (unsignedNumber negative s) fun r => r.1.Bounded levels := by
    cases s with
    | nil => exact .error
    | cons c cs =>
      have hcollect := collect_le (Nat.zero_le _) 0 (c :: cs)
      rw [unsignedNumber]
      generalize collect 0 0 (c :: cs) = collected at hcollect
      refine .ite (fun _ => .ite (fun _ => .error) fun _ => ?_) fun _ => .ite (fun _ => ?_)
        fun _ => .error
      · exact ensures_wholeTail (Nat.zero_le _)
      · exact .ite (fun _ => ensures_longTail hcollect) fun _ => ensures_wholeTail hcollect
  rw [number.eq_def]
  split
  · exact hunsigned true _
  · exact hunsigned false s

end Numbers

theorem mem_insert {key : String} {v : Value} {m : String × Value} {members : List (String × Value)}
    (h : m ∈ insert key v members) : m = (key, v) ∨ m ∈ members := by
  induction members with
  | nil => exact .inl (List.mem_singleton.mp h)
  | cons member rest ih =>
    obtain ⟨k, w⟩ := member
    rw [insert] at h
    split at h
    · exact List.mem_cons.mp h
    · split at h
      · rcases List.mem_cons.mp h with rfl | hrest
        · exact .inl rfl
        · exact .inr (List.mem_cons_of_mem _ hrest)
      · rcases List.mem_cons.mp h with rfl | hrest
        · exact .inr List.mem_cons_self
        · exact (ih hrest).imp_right (List.mem_cons_of_mem _)

section Values

variable {item : List Char → Except TextError (Parsed Value)} {levels : Nat}

theorem ensures_itemsTail (hitem : ∀ s, Ensures (item s) fun r => r.1.Bounded levels) (fuel : Nat)
    (first : Bool) {done : List Value} (hdone : ∀ v ∈ done, v.Bounded levels) (s : List Char) :
    Ensures (itemsTail item fuel first done s) fun r => r.1.Bounded (levels + 1) := by
  induction fuel generalizing first done s with
  | zero => exact .error
  | succ fuel ih =>
    rw [itemsTail]
    refine Ensures.trivial.bind fun turn _ => ?_
    cases turn with
    | close rest => exact .ok (.array fun v hv => hdone v (List.mem_reverse.mp hv))
    | item s => exact (hitem s).bind fun r hr => ih false (List.forall_mem_cons.mpr ⟨hr, hdone⟩) r.2

theorem ensures_membersTail (hitem : ∀ s, Ensures (item s) fun r => r.1.Bounded levels)
    (fuel : Nat) (first : Bool) {done : List (String × Value)}
    (hdone : ∀ m ∈ done, m.2.Bounded levels) (s : List Char) :
    Ensures (membersTail item fuel first done s) fun r => r.1.Bounded (levels + 1) := by
  induction fuel generalizing first done s with
  | zero => exact .error
  | succ fuel ih =>
    rw [membersTail]
    refine Ensures.trivial.bind fun turn _ => ?_
    cases turn with
    | close rest => exact .ok (.object hdone)
    | item s =>
      have hmember : Ensures (member item s) fun r => r.1.2.Bounded levels := by
        refine Ensures.trivial.bind fun key _ => Ensures.trivial.bind fun rest _ => ?_
        exact (hitem _).bind fun r hr => .ok hr
      refine hmember.bind fun r hr => ih false (fun m hm => ?_) r.2
      rcases mem_insert hm with rfl | hold
      · exact hr
      · exact hdone m hold

theorem ensures_wordTail {v : Value} (hv : v.Bounded levels) (word s : List Char) :
    Ensures (wordTail v word s) fun r => r.1.Bounded levels := by
  induction word generalizing s with
  | nil => exact .ok hv
  | cons w ws ih =>
    cases s with
    | nil => exact .error
    | cons c cs => exact .ite (fun _ => ih cs) fun _ => .error

theorem ensures_valueWith {array object : List Char → Except TextError (Parsed Value)}
    (harray : ∀ s, Ensures (array s) fun r => r.1.Bounded levels)
    (hobject : ∀ s, Ensures (object s) fun r => r.1.Bounded levels) (s : List Char) :
    Ensures (valueWith array object s) fun r => r.1.Bounded levels := by
  rw [valueWith.eq_def]
  split
  · exact .error
  · exact ensures_wordTail .null _ _
  · exact ensures_wordTail (.boolean true) _ _
  · exact ensures_wordTail (.boolean false) _ _
  · exact Ensures.trivial.map fun r _ => .string r.1
  · exact harray _
  · exact hobject _
  · exact .ite (fun _ => ensures_number _) fun _ => .error

theorem ensures_value (levels : Nat) (s : List Char) :
    Ensures (value levels s) fun r => r.1.Bounded levels := by
  induction levels generalizing s with
  | zero => exact ensures_valueWith (fun _ => .error) (fun _ => .error) s
  | succ levels ih =>
    exact ensures_valueWith (fun s => ensures_itemsTail ih _ true (List.forall_mem_nil _) s)
      (fun s => ensures_membersTail ih _ true (List.forall_mem_nil _) s) s

end Values

/-- All numbers in a document that is read are finite, and it is not nested too deeply. -/
theorem ensures_parse (text : String) : Ensures (parse text) (Value.Bounded nestingLimit) :=
  (ensures_value _ _).bind fun _ hv => .ite (fun _ => .ok hv) fun _ => .error

end Document

end ScriptWire
