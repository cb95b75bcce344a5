import ScriptWire.Proofs.Message.Part
import ScriptWire.Proofs.Message.Zero
import ScriptWire.Proofs.Wire.Intake

/-!
# Messages read back

A message that is written is read back up to the sign of zeros, as long as the messages in it stand
inside each other on no more levels than the reader allows. Beyond that it is always refused.

## Main definitions

- `Wire.Restores` — a reader of messages gives every written message back, up to a depth

## Main results

- `Wire.restores_mergeMessage` — the reader of messages restores them up to its budget
- `Wire.decodeAs_encode` — what is read from the bytes of a message of any kind
- `Wire.decode_encode` — what is read from the bytes of the message of a program

The lengths in the format are words of sixty-four bits, so the results are about messages of fewer
than `2 ^ 64` bytes.
-/

namespace ScriptWire

namespace Wire

open Message

/-- The numbers of the fields of a kind are positive, small and different. -/
theorem allNumbers_fields (k : Kind) :
    (allNumbers (fields k)).Nodup ∧ ∀ n ∈ allNumbers (fields k), 0 < n ∧ n < Nat.pow 2 29 := by
  cases k <;> decide

/-- A reader of messages gives every written message back, up to the sign of zeros, if fewer than
`budget` messages stand inside each other below it. -/
def Restores (merge : Merge) (budget : Nat) : Prop :=
  ∀ (k : Kind) (m : Message k) (rest : Bytes), (encode m).length < Nat.pow 2 64 →
    Settles (if m.depth < budget then some m.plainZeros else none) rest
      (merge k (Message.empty k) (delimited (encode m) ++ rest))

section Fields

variable {merge : Merge} {budget : Nat}

theorem Restores.mergeChild (h : Restores merge budget) {k : Kind} (m : Message k) (rest : Bytes)
    (hsize : (encode m).length < Nat.pow 2 64) :
    Settles (if m.depth + 1 ≤ budget then some m.plainZeros else none) rest
      (mergeChild merge .delimited k (Message.empty k) (delimited (encode m) ++ rest)) := by
  rw [Wire.mergeChild, expectWire, if_pos rfl]
  exact h k m rest hsize

theorem length_lt_of_messageField {number bound : Nat} {bytes : Bytes}
    (h : (messageField number bytes).length < bound) : bytes.length < bound := by
  simp only [messageField, delimited, List.length_append] at h
  omega

theorem length_lt_of_scalarField {number bound : Nat} {type : Scalar} {value : type.Carrier}
    (h : (scalarField number type value).length < bound) :
    (scalarBytes type value).length < bound := by
  simp only [scalarField, List.length_append] at h
  omega

/-- A plain field is restored from nothing or from a single value. -/
theorem intake_plain {number : Nat} {type : Scalar} (value : type.Carrier)
    (hsize : (encodeSlot (Slot.plain value : Slot (.plain number type))).length < Nat.pow 2 64) :
    Intake (fun key => mergeSlot? merge key) [number] (Slot.empty (.plain number type))
      (encodeSlot (Slot.plain value : Slot (.plain number type)))
      (some (Slot.plain (type.plainZero value))) := by
  by_cases hdefault : isDefault type value = true
  · rw [encodeSlot, if_pos hdefault, Scalar.plainZero_of_isDefault hdefault]
    exact .done _
  · rw [encodeSlot, if_neg hdefault] at hsize ⊢
    rw [Scalar.plainZero_of_not_isDefault hdefault]
    refine .single (List.mem_singleton_self number) fun rest => ?_
    have hread := readField_scalarBytes type value rest (length_lt_of_scalarField hsize)
    exact ⟨_, if_pos rfl, by rw [hread]; rfl⟩

/-- An optional message is restored from nothing or from a single message. -/
theorem intake_present (h : Restores merge budget) {number : Nat} {k : Kind} (m : Message k)
    (hsize : (encode m).length < Nat.pow 2 64) :
    Intake (fun key => mergeSlot? merge key) [number] (Slot.empty (.optional number k))
      (messageField number (encode m))
      (if m.depth + 1 ≤ budget then some (Slot.present m.plainZeros) else none) := by
  refine .single (List.mem_singleton_self number) fun rest => ?_
  have hchild := (h.mergeChild m rest hsize).map (@Slot.present number k)
  rw [apply_ite (Option.map _)] at hchild
  exact ⟨_, if_pos rfl, hchild⟩

theorem push_ofList {k : Kind} (ms : List (Message k)) (m : Message k) :
    (Sequence.ofList ms).push m = Sequence.ofList (ms ++ [m]) := by
  induction ms with
  | nil => rfl
  | cons n rest ih => rw [Sequence.ofList, Sequence.push, ih, List.cons_append, Sequence.ofList]

/-- A list of messages is restored message by message, after those that are there. -/
theorem intake_sequence (h : Restores merge budget) (number : Nat) {k : Kind} :
    (ms : Sequence k) → (done : List (Message k)) →
    (encodeSequence number ms).length < Nat.pow 2 64 →
    Intake (fun key => mergeSlot? merge key) [number]
      (Slot.repeated (Sequence.ofList done) : Slot (.repeated number k))
      (encodeSequence number ms)
      (if ms.depth ≤ budget then
        some (.repeated (Sequence.ofList (done ++ ms.plainZeros.toList)))
      else none)
  | .nil, done, _ => by
    simp only [encodeSequence, Sequence.depth, Sequence.plainZeros, Sequence.toList, Nat.zero_le,
      if_true, List.append_nil]
    exact .done _
  | .cons m rest, done, hsize => by
    rw [encodeSequence, List.length_append] at hsize
    have hm := length_lt_of_messageField (Nat.lt_of_le_of_lt (Nat.le_add_right _ _) hsize)
    have hfirst : Intake (fun key => mergeSlot? merge key) [number]
        (Slot.repeated (Sequence.ofList done) : Slot (.repeated number k))
        (messageField number (encode m))
        (if m.depth + 1 ≤ budget then
          some (.repeated (Sequence.ofList (done ++ [m.plainZeros])))
        else none) := by
      refine .single (List.mem_singleton_self number) fun bytes => ?_
      have hchild := (h.mergeChild m bytes hm).map fun m =>
        (Slot.repeated ((Sequence.ofList done).push m) : Slot (.repeated number k))
      rw [apply_ite (Option.map _), Option.map_some, push_ofList] at hchild
      exact ⟨_, if_pos rfl, hchild⟩
    have hrest := intake_sequence h number rest (done ++ [m.plainZeros]) (by omega)
    rw [List.append_assoc, List.singleton_append] at hrest
    simp only [encodeSequence, Sequence.depth, Sequence.plainZeros, Sequence.toList, Nat.max_le]
    exact hfirst.append_ite hrest

theorem mergePayload_restores (h : Restores merge budget) {c : Content} (payload : Payload c)
    (number : Nat) (hsize : (encodePayload number payload).length < Nat.pow 2 64) :
    ∃ type body, encodePayload number payload = key number type ++ body ∧ ∀ rest,
      Settles (if payload.depth ≤ budget then some payload.plainZeros else none) rest
        (mergePayload merge type c none (body ++ rest)) := by
  cases payload with
  | @scalar type value =>
    refine ⟨scalarWire type, scalarBytes type value, rfl, fun rest => ?_⟩
    have hread := readField_scalarBytes type value rest (length_lt_of_scalarField hsize)
    rw [Payload.depth, if_pos (Nat.zero_le budget), mergePayload, hread]
    rfl
  | @message k m =>
    refine ⟨.delimited, delimited (encode m), rfl, fun rest => ?_⟩
    have hchild := (h.mergeChild m rest (length_lt_of_messageField hsize)).map Payload.message
    rw [apply_ite (Option.map _)] at hchild
    exact hchild

theorem mergeChoice?_restores (h : Restores merge budget) :
    {vs : List Variant} → (choice : Choice vs) → (vs.map Variant.number).Nodup →
    (encodeChoice choice).length < Nat.pow 2 64 →
    ∃ number ∈ vs.map Variant.number, ∃ type body, encodeChoice choice = key number type ++ body ∧
      ∀ rest, ∃ reading,
        mergeChoice? merge ⟨number, type⟩ vs none (body ++ rest) = some reading ∧
        Settles (if choice.depth ≤ budget then some choice.plainZeros else none) rest reading
  | v :: vs, .here payload, _, hsize => by
    obtain ⟨type, body, hbytes, hsettles⟩ := mergePayload_restores h payload v.number hsize
    refine ⟨v.number, List.mem_cons_self, type, body, hbytes, fun rest => ?_⟩
    have hhere := (hsettles rest).map (@Choice.here v vs)
    rw [apply_ite (Option.map _)] at hhere
    exact ⟨_, if_pos rfl, hhere⟩
  | v :: vs, .later choice, hnodup, hsize => by
    rw [List.map_cons, List.nodup_cons] at hnodup
    obtain ⟨number, hmem, type, body, hbytes, hreads⟩ :=
      mergeChoice?_restores h choice hnodup.2 hsize
    have hne : v.number ≠ number := fun heq => hnodup.1 (heq ▸ hmem)
    refine ⟨number, List.mem_cons_of_mem _ hmem, type, body, hbytes, fun rest => ?_⟩
    obtain ⟨reading, hmerge, hsettles⟩ := hreads rest
    have hlater := hsettles.map (@Choice.later v vs)
    rw [apply_ite (Option.map _)] at hlater
    refine ⟨_, ?_, hlater⟩
    rw [mergeChoice?, if_neg hne]
    exact congrArg (Option.map _) hmerge

theorem intake_slot (h : Restores merge budget) {shape : Shape} (slot : Slot shape)
    (hnodup : (numbers shape).Nodup) (hsize : (encodeSlot slot).length < Nat.pow 2 64) :
    Intake (fun key => mergeSlot? merge key) (numbers shape) (Slot.empty shape) (encodeSlot slot)
      (if slot.depth ≤ budget then some slot.plainZeros else none) := by
  cases slot with
  | plain value =>
    rw [Slot.depth, if_pos (Nat.zero_le budget)]
    exact intake_plain value hsize
  | absent =>
    rw [Slot.depth, if_pos (Nat.zero_le budget)]
    exact .done _
  | present m => exact intake_present h m (length_lt_of_messageField hsize)
  | @repeated number k ms =>
    have hmany := intake_sequence h number ms [] hsize
    rw [List.nil_append, Sequence.ofList_toList] at hmany
    exact hmany
  | unset =>
    rw [Slot.depth, if_pos (Nat.zero_le budget)]
    exact .done _
  | @set vs choice =>
    obtain ⟨number, hmem, type, body, hbytes, hreads⟩ := mergeChoice?_restores h choice hnodup hsize
    rw [encodeSlot, hbytes]
    refine .single hmem fun rest => ?_
    obtain ⟨reading, hmerge, hsettles⟩ := hreads rest
    have hset := hsettles.map Slot.set
    rw [apply_ite (Option.map _)] at hset
    exact ⟨_, congrArg (Option.map _) hmerge, hset⟩

/-- A field has no place for other numbers than its own. -/
theorem mergeChoice?_eq_none {key : Key} :
    {vs : List Variant} → (current : Option (Choice vs)) → (bytes : Bytes) →
    key.number ∉ vs.map Variant.number → mergeChoice? merge key vs current bytes = none
  | [], _, _, _ => rfl
  | v :: vs, current, bytes, h => by
    rw [List.map_cons, List.mem_cons, not_or] at h
    rw [mergeChoice?, if_neg (Ne.symm h.1), mergeChoice?_eq_none (laterChoice? current) bytes h.2]
    rfl

theorem mergeSlot?_eq_none {key : Key} {shape : Shape} (slot : Slot shape) (bytes : Bytes)
    (h : key.number ∉ numbers shape) : mergeSlot? merge key slot bytes = none := by
  cases slot with
  | unset => exact congrArg (Option.map _) (mergeChoice?_eq_none none bytes h)
  | set choice => exact congrArg (Option.map _) (mergeChoice?_eq_none (some choice) bytes h)
  | _ => exact if_neg fun heq => h (List.mem_singleton.mpr heq.symm)

theorem Intake.first (owner : Kind) {f : Field} {fs : List Field} {slot : Slot f.shape}
    {bytes : Bytes} {result : Option (Slot f.shape)} (tail : Slots fs)
    (h : Intake (fun key => mergeSlot? merge key) (numbers f.shape) slot bytes result) :
    Intake (fun key => mergeSlots? merge owner key) (allNumbers (f :: fs))
      (Slots.cons slot tail) bytes (result.map fun slot => Slots.cons slot tail) := by
  refine h.map (fun slot => Slots.cons slot tail) (List.subset_append_left _ _) ?_ ?_
  · intro key slot bytes next rest _ hread
    simp only [mergeSlots?, hread]
  · intro key slot bytes path _ hrefused
    simp only [mergeSlots?, hrefused]
    exact ⟨_, rfl⟩

/-- A run of fields for the fields after the first, which has none of their numbers. -/
theorem Intake.later {owner : Kind} {f : Field} {fs : List Field} {slots : Slots fs}
    {bytes : Bytes} {result : Option (Slots fs)} (head : Slot f.shape)
    (hdisjoint : ∀ n ∈ allNumbers fs, n ∉ numbers f.shape)
    (h : Intake (fun key => mergeSlots? merge owner key) (allNumbers fs) slots bytes result) :
    Intake (fun key => mergeSlots? merge owner key) (allNumbers (f :: fs))
      (Slots.cons head slots) bytes (result.map fun slots => Slots.cons head slots) := by
  refine h.map (fun slots => Slots.cons head slots) (List.subset_append_right _ _) ?_ ?_
  · intro key slots bytes next rest hmem hread
    simp only [mergeSlots?, mergeSlot?_eq_none head bytes (hdisjoint _ hmem), hread]
    rfl
  · intro key slots bytes path hmem hrefused
    simp only [mergeSlots?, mergeSlot?_eq_none head bytes (hdisjoint _ hmem), hrefused]
    exact ⟨_, rfl⟩

/-- The fields of a message are restored from their bytes, one after the other. -/
theorem intake_slots (h : Restores merge budget) (owner : Kind) :
    {fs : List Field} → (slots : Slots fs) → (allNumbers fs).Nodup →
    (encodeSlots slots).length < Nat.pow 2 64 →
    Intake (fun key => mergeSlots? merge owner key) (allNumbers fs) (Slots.empty fs)
      (encodeSlots slots) (if slots.depth ≤ budget then some slots.plainZeros else none)
  | [], .nil, _, _ => by
    rw [Slots.depth, if_pos (Nat.zero_le budget)]
    exact .done _
  | f :: fs, .cons head tail, hnodup, hsize => by
    rw [allNumbers, List.flatMap_cons, List.nodup_append] at hnodup
    obtain ⟨hhead, htail, hdisjoint⟩ := hnodup
    -- The fields differ in their numbers, so none takes in what is meant for another.
    rw [encodeSlots, List.length_append] at hsize
    have hfirst := (intake_slot h head hhead (by omega)).first owner (Slots.empty fs)
    have hlater := (intake_slots h owner tail htail (by omega)).later head.plainZeros
      fun n hn hmem => hdisjoint n hmem n hn rfl
    rw [apply_ite (Option.map _), Option.map_some, Option.map_none] at hfirst hlater
    simp only [encodeSlots, Slots.depth, Slots.plainZeros, Nat.max_le]
    exact hfirst.append_ite hlater

end Fields

theorem mergeFields_encode {merge : Merge} {budget : Nat} (h : Restores merge budget) {k : Kind}
    (m : Message k) (rest : Bytes) (hsize : (encode m).length < Nat.pow 2 64) {fuel : Nat}
    (hfuel : (encode m).length ≤ fuel) :
    Settles (if m.depth ≤ budget then some m.plainZeros else none) rest
      (mergeFields merge budget rest.length fuel (Message.empty k) (encode m ++ rest)) := by
  cases m with
  | mk k slots =>
    obtain ⟨hnodup, hallowed⟩ := allNumbers_fields k
    have hloop := mergeFields_of_intake budget (intake_slots h k slots hnodup hsize) hallowed
      rest hfuel
    rw [apply_ite (Option.map _)] at hloop
    exact hloop

/-- The reader of messages restores them: each level of messages takes one from its budget. -/
theorem restores_mergeMessage (budget : Nat) : Restores (mergeMessage budget) budget := by
  -- The induction is on the budget and not on the message: what is read inside a message is read
  -- with a smaller budget, whichever message it is.
  induction budget with
  | zero =>
    intro k m rest _
    exact ⟨[], rfl⟩
  | succ budget ih =>
    intro k m rest hsize
    have hlength : (encode m ++ rest).length = (encode m).length + rest.length :=
      List.length_append
    have hfuel : (encode m).length ≤ (encode m ++ rest).length := by omega
    have hloop := mergeFields_encode ih m rest hsize hfuel
    have hrest : (encode m ++ rest).length - (encode m).length = rest.length := by omega
    have henough : ¬ (encode m ++ rest).length < (encode m).length := by omega
    rw [delimited, List.append_assoc, mergeMessage, takeVarint_varint hsize]
    simp only [bind, Except.bind]
    rw [if_neg henough, hrest]
    simpa only [Nat.lt_succ_iff] using hloop

/-- What is read from the bytes of a message: the message up to the sign of zeros, if at most
`nestingBudget` messages stand inside each other below it, and otherwise a fault of nesting. -/
theorem decodeAs_encode {k : Kind} (m : Message k) (hsize : (encode m).length < Nat.pow 2 64) :
    (m.depth ≤ nestingBudget → decodeAs k (encode m) = .ok m.plainZeros) ∧
      (nestingBudget < m.depth → ∃ path, decodeAs k (encode m) = .error ⟨path, .tooNested⟩) := by
  have hloop := mergeFields_encode (restores_mergeMessage nestingBudget) m [] hsize (Nat.le_refl _)
  rw [List.append_nil] at hloop
  constructor
  · intro hdepth
    rw [if_pos hdepth] at hloop
    rw [decodeAs, show mergeFields _ _ 0 _ _ _ = _ from hloop]
    rfl
  · intro hdeep
    rw [if_neg (Nat.not_le.mpr hdeep)] at hloop
    obtain ⟨path, hfault⟩ := hloop
    rw [decodeAs, show mergeFields _ _ 0 _ _ _ = _ from hfault]
    exact ⟨path, rfl⟩

/-- A message of a program, well-formed or not, is read back up to the sign of zeros if at most
one hundred messages stand inside each other below it, and is refused otherwise. Lengths are words
of 64 bits, so that longer messages have no bytes. -/
theorem decode_encode (ast : Message .ast) (hsize : (encode ast).length < Nat.pow 2 64) :
    (ast.depth ≤ 100 → decode (encode ast) = .ok ast.plainZeros) ∧
      (100 < ast.depth → ∃ path, decode (encode ast) = .error ⟨path, .tooNested⟩) :=
  decodeAs_encode ast hsize

/-- A hole, a function without a name and of no known type, and a negative zero. -/
theorem decode_encode_sparse :
    decode (encode (Message.ast
      [statement (expressionStatement (expression (arrayExpression
        [hole, expression (numberLiteral Binary64.zero.negate)]))),
        statement (functionDeclaration "" (-1) [] [])])) =
      .ok (Message.ast
        [statement (expressionStatement (expression (arrayExpression
          [hole, expression (numberLiteral Binary64.zero)]))),
          statement (functionDeclaration "" (-1) [] [])]) :=
  (decode_encode _ (by decide +kernel)).1 (by decide)

end Wire

end ScriptWire
