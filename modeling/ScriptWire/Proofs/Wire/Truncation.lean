import ScriptWire.Message.Dump
import ScriptWire.Proofs.Wire.RoundTrip

/-!
# Truncated encodings

The encoding of a program is one field after the other, a statement in each. A file that was cut
short ends between two of these fields or inside of one. In the first case it is the encoding of the
statements in front of the cut; in the second the key, the length or the bytes that the length
announces are not all there, which is noticed whatever the statement is.

## Main definitions

- `Wire.Fits` — a statement that the reader takes

## Main results

- `Wire.mergeMessage_of_cut` — a message that is cut short is refused
- `Wire.decode_of_initial` — what is read from a part of an encoding
-/

namespace ScriptWire

namespace Wire

open Message

/-! ### Numbers that are cut short or too long -/

theorem readGroups_of_initial {limit n : Nat} {bytes : Bytes} (hinitial : bytes <+: varint n)
    (hcut : bytes ≠ varint n) : readGroups limit bytes = none := by
  induction limit generalizing n bytes with
  | zero => rfl
  | succ limit ih =>
    cases bytes with
    | nil => rfl
    | cons b rest =>
      by_cases hn : n < 128
      · rw [varint_of_lt hn] at hinitial hcut
        obtain ⟨rfl, hrest⟩ := List.cons_prefix_cons.mp hinitial
        exact absurd (congrArg _ (List.prefix_nil.mp hrest)) hcut
      · rw [varint_of_le (Nat.le_of_not_lt hn)] at hinitial hcut
        obtain ⟨rfl, hrest⟩ := List.cons_prefix_cons.mp hinitial
        have hmore := ih hrest fun heq => hcut (congrArg _ heq)
        rw [readGroups, toNat_toUInt8 (by omega), if_neg (by omega), hmore]

/-- A number of more than sixty-four bits is refused, whatever follows it. -/
theorem readGroups_varint_of_le {limit n : Nat} (h : 2 * Nat.pow 128 limit ≤ n) (rest : Bytes) :
    readGroups (limit + 1) (varint n ++ rest) = none := by
  induction limit generalizing n with
  | zero =>
    have htwo : 2 ≤ n := h
    by_cases hn : n < 128
    · rw [varint_of_lt hn, List.cons_append, readGroups, toNat_toUInt8 (by omega), if_pos hn,
        if_pos (by simp; omega)]
    · rw [varint_of_le (Nat.le_of_not_lt hn), List.cons_append, readGroups,
        toNat_toUInt8 (by omega), if_neg (by omega), readGroups]
  | succ limit ih =>
    have hpow : Nat.pow 128 (limit + 1) = Nat.pow 128 limit * 128 := rfl
    have hbase : 0 < Nat.pow 128 limit := Nat.pow_pos (by decide)
    have hmore := ih (n := n / 128) (by omega)
    rw [varint_of_le (by omega), List.cons_append, readGroups, toNat_toUInt8 (by omega),
      if_neg (by omega), hmore]

theorem takeVarint_of_initial {n : Nat} {bytes : Bytes} (hinitial : bytes <+: varint n)
    (hcut : bytes ≠ varint n) : takeVarint bytes = .error (.of .invalidVarint) := by
  rw [takeVarint, readVarint, readGroups_of_initial hinitial hcut]

theorem takeVarint_varint_of_le {n : Nat} (h : Nat.pow 2 64 ≤ n) (rest : Bytes) :
    takeVarint (varint n ++ rest) = .error (.of .invalidVarint) := by
  rw [takeVarint, readVarint, readGroups_varint_of_le h]

/-! ### Messages that are cut short or too long -/

theorem mergeMessage_of_takeVarint {budget : Nat} {k : Kind} {m : Message k} {bytes : Bytes}
    {e : DecodeError} (h : takeVarint bytes = .error e) :
    ∃ e, mergeMessage budget k m bytes = .error e := by
  cases budget with
  | zero => exact ⟨_, rfl⟩
  | succ budget =>
    rw [mergeMessage, h]
    exact ⟨e, rfl⟩

theorem mergeMessage_of_length_le {budget : Nat} {k : Kind} {m : Message k} {bytes : Bytes}
    (h : Nat.pow 2 64 ≤ bytes.length) (rest : Bytes) :
    ∃ e, mergeMessage budget k m (delimited bytes ++ rest) = .error e := by
  rw [delimited, List.append_assoc]
  exact mergeMessage_of_takeVarint (takeVarint_varint_of_le h (bytes ++ rest))

/-- A proper part of a list in two pieces ends inside of the first piece, or has it whole. -/
theorem prefix_append_cases {α : Type} {x a b : List α} (hinitial : x <+: a ++ b)
    (hcut : x ≠ a ++ b) : (x <+: a ∧ x ≠ a) ∨ ∃ y, x = a ++ y ∧ y <+: b ∧ y ≠ b := by
  by_cases hlength : x.length < a.length
  · have hshort := List.prefix_of_prefix_length_le hinitial (List.prefix_append a b)
      (Nat.le_of_lt hlength)
    exact .inl ⟨hshort, fun heq => Nat.lt_irrefl _ (heq ▸ hlength)⟩
  · have hlong := List.prefix_of_prefix_length_le (List.prefix_append a b) hinitial
      (Nat.le_of_not_lt hlength)
    obtain ⟨y, rfl⟩ := hlong
    refine .inr ⟨y, rfl, (List.prefix_append_right_inj a).mp hinitial, ?_⟩
    rintro rfl
    exact hcut rfl

/-- A message that is cut short is refused, in its length or for want of the bytes that the length
announces. -/
theorem mergeMessage_of_cut (budget : Nat) {k : Kind} (m : Message k) {bytes cut : Bytes}
    (hinitial : cut <+: delimited bytes) (hcut : cut ≠ delimited bytes) :
    ∃ e, mergeMessage budget k m cut = .error e := by
  rcases prefix_append_cases hinitial hcut with ⟨hlength, hne⟩ | ⟨part, rfl, hpart, hne⟩
  · exact mergeMessage_of_takeVarint (takeVarint_of_initial hlength hne)
  · by_cases hsize : bytes.length < Nat.pow 2 64
    · cases budget with
      | zero => exact ⟨_, rfl⟩
      | succ budget =>
        have hshort : part.length < bytes.length := by
          refine Nat.lt_of_le_of_ne hpart.length_le fun heq => hne (hpart.eq_of_length heq)
        rw [mergeMessage, takeVarint_varint hsize]
        exact ⟨_, if_pos hshort⟩
    · exact mergeMessage_of_takeVarint (takeVarint_varint_of_le (Nat.le_of_not_lt hsize) part)

/-! ### Statements one after the other -/

/-- The field of a statement in a program. -/
def statementField (s : Message .statement) : Bytes :=
  messageField 1 (encode s)

/-- The reader takes a statement: it is not too deep, and the number of its bytes is a word. -/
def Fits (s : Message .statement) : Prop :=
  s.depth < nestingBudget ∧ (encode s).length < Nat.pow 2 64

theorem encode_ast : (ss : List (Message .statement)) →
    encode (Message.ast ss) = ss.flatMap statementField
  | [] => rfl
  | s :: ss => by
    have hrest := encode_ast ss
    simp only [Message.ast, Slot.ofList, encode, encodeSlots, encodeSlot,
      List.append_nil] at hrest ⊢
    rw [Sequence.ofList, encodeSequence, hrest, List.flatMap_cons]
    rfl

theorem ast_statements (ast : Message .ast) : Message.ast ast.statements = ast := by
  obtain ⟨_, slots⟩ := ast
  obtain _ | ⟨head, tail⟩ := slots
  cases tail
  cases head with
  | repeated ms => rw [Message.statements, Message.ast, Slot.ofList, Sequence.ofList_toList]

/-- The first field takes in what has one of its numbers. -/
theorem mergeSlots?_cons_of_some {merge : Merge} (owner : Kind) {key : Key} {f : Field}
    {fs : List Field} {head : Slot f.shape} (tail : Slots fs) {bytes : Bytes}
    {reading : Except DecodeError (Slot f.shape × Bytes)}
    (h : mergeSlot? merge key head bytes = some reading) :
    mergeSlots? merge owner key (.cons head tail) bytes =
      some ((reading.map fun (head, rest) => (.cons head tail, rest)).mapError
        fun e => e.within ⟨owner, f.label⟩) := by
  rw [mergeSlots?, h]
  cases reading <;> rfl

/-- The reader of a program after the key of a statement. -/
theorem mergeField_ast (merge : Merge) (budget : Nat) (done : List (Message .statement))
    (bytes : Bytes) :
    mergeField merge budget (Message.ast done) (key 1 .delimited ++ bytes) =
      ((merge .statement (Message.empty .statement) bytes).map fun (s, rest) =>
        (Message.ast (done ++ [s]), rest)).mapError fun e => e.within ⟨.ast, "statements"⟩ := by
  have hslot : mergeSlot? merge ⟨1, .delimited⟩ (.ofList done : Slot (.repeated 1 .statement))
      bytes = some ((merge .statement (Message.empty .statement) bytes).map fun (s, rest) =>
        (.ofList (done ++ [s]), rest)) := by
    simp only [Slot.ofList, ← push_ofList]
    rfl
  rw [Message.ast, mergeField_key budget (by decide) (mergeSlots?_cons_of_some .ast .nil hslot)]
  cases merge .statement (Message.empty .statement) bytes <;> rfl

section Statements

variable {s : Message .statement} {ss : List (Message .statement)} {fuel : Nat}
variable (done : List (Message .statement))

/-- A statement that fits is read, and added to those before it. -/
theorem mergeField_of_fits (h : Fits s) (rest : Bytes) :
    mergeField (mergeMessage nestingBudget) nestingBudget (Message.ast done)
        (statementField s ++ rest) =
      .ok (Message.ast (done ++ [s.plainZeros]), rest) := by
  have hread := restores_mergeMessage nestingBudget .statement s rest h.2
  rw [if_pos h.1] at hread
  have hmerge : mergeMessage nestingBudget .statement (Message.empty .statement)
      (delimited (encode s) ++ rest) = .ok (s.plainZeros, rest) := hread
  rw [statementField, messageField, List.append_assoc, mergeField_ast, hmerge]
  rfl

theorem mergeField_of_not_fits (h : ¬ Fits s) (rest : Bytes) :
    ∃ e, mergeField (mergeMessage nestingBudget) nestingBudget (Message.ast done)
      (statementField s ++ rest) = .error e := by
  have hmerge : ∃ e, mergeMessage nestingBudget .statement (Message.empty .statement)
      (delimited (encode s) ++ rest) = .error e := by
    by_cases hsize : (encode s).length < Nat.pow 2 64
    · have hread := restores_mergeMessage nestingBudget .statement s rest hsize
      rw [if_neg fun hdepth => h ⟨hdepth, hsize⟩] at hread
      obtain ⟨path, hpath⟩ := hread
      exact ⟨_, hpath⟩
    · exact mergeMessage_of_length_le (Nat.le_of_not_lt hsize) rest
  obtain ⟨e, he⟩ := hmerge
  rw [statementField, messageField, List.append_assoc, mergeField_ast, he]
  exact ⟨_, rfl⟩

/-- A field that is cut short is refused. -/
theorem mergeField_of_cut {cut : Bytes} (hinitial : cut <+: statementField s)
    (hcut : cut ≠ statementField s) (hne : cut ≠ []) :
    ∃ e, mergeField (mergeMessage nestingBudget) nestingBudget (Message.ast done) cut =
      .error e := by
  -- The key of a statement is a single byte, so it is there as soon as there is anything.
  have hkey : key 1 .delimited = [10] := varint_of_lt (by decide)
  rw [statementField, messageField] at hinitial hcut
  rcases prefix_append_cases hinitial hcut with ⟨hshort, hpart⟩ | ⟨part, rfl, hpart, hrest⟩
  · rw [hkey] at hshort hpart
    obtain ⟨b, tail, rfl⟩ := List.exists_cons_of_ne_nil hne
    obtain ⟨rfl, htail⟩ := List.cons_prefix_cons.mp hshort
    exact absurd (congrArg _ (List.prefix_nil.mp htail)) hpart
  · obtain ⟨e, he⟩ := mergeMessage_of_cut nestingBudget (Message.empty .statement) hpart hrest
    rw [mergeField_ast, he]
    exact ⟨_, rfl⟩

theorem statementField_ne_nil (s : Message .statement) : statementField s ≠ [] := by
  rw [statementField, messageField]
  exact List.append_ne_nil_of_left_ne_nil (key_ne_nil 1 .delimited) _

/-- A field that is there is read in one step of the loop. -/
theorem mergeFields_succ {merge : Merge} {budget : Nat} {k : Kind} {m : Message k} {bytes : Bytes}
    (h : bytes ≠ []) :
    mergeFields merge budget 0 (fuel + 1) m bytes =
      (mergeField merge budget m bytes >>= fun (m, rest) =>
        mergeFields merge budget 0 fuel m rest) := by
  rw [mergeFields, if_pos (List.length_pos_iff.mpr h)]

/-- After statements that fit, the loop goes on with the bytes that follow. -/
theorem mergeFields_of_fits (h : ∀ s ∈ ss, Fits s) (rest : Bytes)
    (hfuel : (ss.flatMap statementField ++ rest).length ≤ fuel) :
    ∃ left, rest.length ≤ left ∧
      mergeFields (mergeMessage nestingBudget) nestingBudget 0 fuel (Message.ast done)
          (ss.flatMap statementField ++ rest) =
        mergeFields (mergeMessage nestingBudget) nestingBudget 0 left
          (Message.ast (done ++ ss.map plainZeros)) rest := by
  induction ss generalizing done fuel with
  | nil => exact ⟨fuel, hfuel, by rw [List.map_nil, List.append_nil]; rfl⟩
  | cons s ss ih =>
    obtain ⟨hs, hss⟩ := List.forall_mem_cons.mp h
    have hpos := List.length_pos_iff.mpr (statementField_ne_nil s)
    rw [List.flatMap_cons, List.append_assoc, List.length_append] at hfuel
    obtain ⟨fuel, rfl⟩ : ∃ n, fuel = n + 1 := ⟨fuel - 1, by omega⟩
    have hrest : (ss.flatMap statementField ++ rest).length ≤ fuel := by omega
    obtain ⟨left, hleft, hmore⟩ := ih (done ++ [s.plainZeros]) hss hrest
    refine ⟨left, hleft, ?_⟩
    rw [List.flatMap_cons, List.append_assoc, mergeFields_succ
      (List.append_ne_nil_of_left_ne_nil (statementField_ne_nil s) _), mergeField_of_fits done hs]
    rw [List.append_assoc, List.singleton_append] at hmore
    exact hmore

/-- The loop stops at the first statement that does not fit. -/
theorem mergeFields_of_not_fits (h : ¬ ∀ s ∈ ss, Fits s) (rest : Bytes)
    (hfuel : (ss.flatMap statementField ++ rest).length ≤ fuel) :
    ∃ e, mergeFields (mergeMessage nestingBudget) nestingBudget 0 fuel (Message.ast done)
      (ss.flatMap statementField ++ rest) = .error e := by
  induction ss generalizing done fuel with
  | nil => exact absurd (List.forall_mem_nil _) h
  | cons s ss ih =>
    have hpos := List.length_pos_iff.mpr (statementField_ne_nil s)
    rw [List.flatMap_cons, List.append_assoc, List.length_append] at hfuel
    obtain ⟨fuel, rfl⟩ : ∃ n, fuel = n + 1 := ⟨fuel - 1, by omega⟩
    rw [List.flatMap_cons, List.append_assoc, mergeFields_succ
      (List.append_ne_nil_of_left_ne_nil (statementField_ne_nil s) _)]
    by_cases hs : Fits s
    · rw [mergeField_of_fits done hs]
      refine ih (done ++ [s.plainZeros]) (fun hss => h ?_) (by omega)
      exact List.forall_mem_cons.mpr ⟨hs, hss⟩
    · obtain ⟨e, he⟩ := mergeField_of_not_fits done hs (ss.flatMap statementField ++ rest)
      rw [he]
      exact ⟨e, rfl⟩

/-- A program that ends after some statements or inside of the next one is read exactly if it ends
after them and all of them fit. -/
theorem decode_eq_ok_iff_of_cut {cut : Bytes} (hinitial : cut <+: statementField s)
    (hcut : cut ≠ statementField s) (b : Message .ast) :
    decode (ss.flatMap statementField ++ cut) = .ok b ↔
      cut = [] ∧ (∀ s ∈ ss, Fits s) ∧ b = Message.ast (ss.map plainZeros) := by
  have hdecode (reading : Except DecodeError (Message .ast × Bytes))
      (h : mergeFields (mergeMessage nestingBudget) nestingBudget 0
        (ss.flatMap statementField ++ cut).length (Message.ast [])
        (ss.flatMap statementField ++ cut) = reading) :
      decode (ss.flatMap statementField ++ cut) = reading.map Prod.fst := by
    subst h
    rfl
  by_cases hfits : ∀ s ∈ ss, Fits s
  · obtain ⟨left, hleft, hloop⟩ := mergeFields_of_fits [] hfits cut (Nat.le_refl _)
    by_cases hend : cut = []
    · subst hend
      have hdone : mergeFields (mergeMessage nestingBudget) nestingBudget 0 left
          (Message.ast ([] ++ ss.map plainZeros)) [] =
            .ok (Message.ast (ss.map plainZeros), []) := by
        cases left <;> rfl
      rw [hdecode _ (hloop.trans hdone)]
      constructor
      · rintro ⟨⟩
        exact ⟨rfl, hfits, rfl⟩
      · rintro ⟨_, _, rfl⟩
        rfl
    · have hpos := List.length_pos_iff.mpr hend
      obtain ⟨left, rfl⟩ : ∃ n, left = n + 1 := ⟨left - 1, by omega⟩
      obtain ⟨e, he⟩ := mergeField_of_cut ([] ++ ss.map plainZeros) hinitial hcut hend
      rw [mergeFields_succ hend, he] at hloop
      rw [hdecode _ hloop]
      constructor
      · rintro ⟨⟩
      · rintro ⟨hnil, _⟩
        exact absurd hnil hend
  · obtain ⟨e, he⟩ := mergeFields_of_not_fits [] hfits cut (Nat.le_refl _)
    rw [hdecode _ he]
    constructor
    · rintro ⟨⟩
    · rintro ⟨_, hss, _⟩
      exact absurd hss hfits

end Statements

/-- A proper part of fields one after the other has some of them whole, and a proper part of the
next. -/
theorem exists_take_of_initial {α β : Type} {f : α → List β} {l : List α} {x : List β}
    (hinitial : x <+: l.flatMap f) (hcut : x ≠ l.flatMap f) :
    ∃ k, ∃ h : k < l.length, ∃ part, x = (l.take k).flatMap f ++ part ∧
      part <+: f (l.get ⟨k, h⟩) ∧ part ≠ f (l.get ⟨k, h⟩) := by
  induction l generalizing x with
  | nil => exact absurd (List.prefix_nil.mp hinitial) hcut
  | cons a l ih =>
    rw [List.flatMap_cons] at hinitial hcut
    rcases prefix_append_cases hinitial hcut with ⟨hpart, hne⟩ | ⟨rest, rfl, hrest, hne⟩
    · exact ⟨0, Nat.zero_lt_succ _, x, rfl, hpart, hne⟩
    · obtain ⟨k, hk, part, rfl, hpart⟩ := ih hrest hne
      refine ⟨k + 1, Nat.succ_lt_succ hk, part, ?_, hpart⟩
      rw [List.take_succ_cons, List.flatMap_cons, List.append_assoc]

/-- A program is never misread from a proper part of its encoding. Either the part is refused, or it
is the encoding of the first statements, fewer than all, and these are read, up to the sign of
zeros. Such a part is refused only if one of its statements is too deep or too long. -/
theorem decode_of_initial (ast : Message .ast) (bytes : Bytes) (hinitial : bytes <+: encode ast)
    (hcut : bytes ≠ encode ast) :
    ((∃ e, decode bytes = .error e) ∨
      ∃ k < ast.statements.length, bytes = encode (Message.ast (ast.statements.take k)) ∧
        decode bytes = .ok (Message.ast ((ast.statements.take k).map plainZeros))) ∧
    ∀ k < ast.statements.length, bytes = encode (Message.ast (ast.statements.take k)) →
      (∀ s ∈ ast.statements.take k, Fits s) →
      decode bytes = .ok (Message.ast ((ast.statements.take k).map plainZeros)) := by
  rw [← ast_statements ast, encode_ast] at hinitial hcut
  constructor
  · obtain ⟨k, hk, part, rfl, hpart, hne⟩ := exists_take_of_initial hinitial hcut
    cases hread : decode ((ast.statements.take k).flatMap statementField ++ part) with
    | error e => exact .inl ⟨e, rfl⟩
    | ok b =>
      obtain ⟨rfl, -, rfl⟩ := (decode_eq_ok_iff_of_cut hpart hne b).mp hread
      refine .inr ⟨k, hk, ?_, rfl⟩
      rw [encode_ast, List.append_nil]
  · intro k hk hbytes hfits
    have hnext := statementField_ne_nil (ast.statements.get ⟨k, hk⟩)
    have hread := (decode_eq_ok_iff_of_cut List.nil_prefix (Ne.symm hnext) _).mpr ⟨rfl, hfits, rfl⟩
    rwa [List.append_nil, ← encode_ast, ← hbytes] at hread

/-- Three statements, the second of them with a negative zero. -/
def threeStatements : List (Message .statement) :=
  [statement emptyStatement,
    statement (expressionStatement (expression (numberLiteral Binary64.zero.negate))),
    statement (expressionStatement hole)]

/-- The file of three statements ends in front of the last one. -/
theorem decode_of_initial_three :
    encode (Message.ast (threeStatements.take 2)) <+: encode (Message.ast threeStatements) ∧
      encode (Message.ast (threeStatements.take 2)) ≠ encode (Message.ast threeStatements) ∧
      decode (encode (Message.ast (threeStatements.take 2))) =
        .ok (Message.ast [statement emptyStatement,
          statement (expressionStatement (expression (numberLiteral Binary64.zero)))]) := by
  have hinitial : encode (Message.ast (threeStatements.take 2)) <+:
      encode (Message.ast threeStatements) := by decide +kernel
  have hcut : encode (Message.ast (threeStatements.take 2)) ≠
      encode (Message.ast threeStatements) := by decide +kernel
  have hfits : ∀ s ∈ threeStatements.take 2, Fits s := by
    refine List.forall_mem_cons.mpr ⟨⟨by decide, by decide +kernel⟩, ?_⟩
    exact List.forall_mem_singleton.mpr ⟨by decide, by decide +kernel⟩
  exact ⟨hinitial, hcut,
    (decode_of_initial (Message.ast threeStatements) _ hinitial hcut).2 2 (by decide) rfl hfits⟩

end Wire

end ScriptWire
