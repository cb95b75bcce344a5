import ScriptWire.Proofs.Lowering.Compile
import ScriptWire.Proofs.Lowering.Inner
import ScriptWire.Proofs.Script.Grammar.Statement
import ScriptWire.Proofs.Script.Inner

/-!
# The elements of array literals

Every array literal of a script that is compiled has a message, in which each element stands at the
index that is the number of commas in front of it. The other indices hold empty messages.

## Main definitions

- `Script.HasArray` — an array literal stands somewhere in a script
- `Script.Expression.HasMessage` — the message of an expression as it is written
- `Script.Aligned` — messages at the indices that the tokens of an array literal give them

## Main results

- `compile_arrayLiteral` — what the message of an array literal holds
-/

namespace ScriptWire

open ScriptWire.Tree (Node)

/-! ### Nodes of a program that is compiled -/

namespace Tree

theorem Node.depth_le_of_inside {inner outer : Node} (h : inner.Inside outer) :
    inner.depth ≤ outer.depth := by
  induction h with
  | refl => exact Nat.le_refl _
  | tail _ hc ih =>
    have hchild := (Node.depth_le_iff.mp (Nat.le_refl _)).2 _ hc
    omega

/-- A node inside an accepted node is accepted. -/
theorem Node.Accepted.of_inside {inner outer : Node} (h : outer.Accepted)
    (hinside : inner.Inside outer) : inner.Accepted :=
  fun n hn => h n (Relation.ReflTransGen.trans hinside hn)

/-- An expression inside an accepted node has its message, if the node is not nested too deeply. -/
theorem Node.lower_of_inside {n : Node} {e : Expression} {limit : Nat} (h : n.Accepted)
    (hdepth : n.depth ≤ limit) (hinside : (Node.expression e).Inside n) :
    Lowering.expression limit limit e = .ok (Image.expression e) := by
  have hwalk : Lowering.expression limit limit e =
      Lowering.outcome limit ((Node.expression e).trace 0) (Image.expression e) :=
    (Node.expression e).walks (Nat.zero_add limit)
  have hinner : (Node.expression e).depth ≤ limit :=
    Nat.le_trans (depth_le_of_inside hinside) hdepth
  rw [hwalk, Lowering.outcome_eq_ok_iff, Node.passes_trace_iff _ (Nat.zero_le limit), Nat.zero_add]
  exact ⟨⟨h.of_inside hinside, hinner⟩, rfl⟩

end Tree

namespace Script

/-- An array literal with these tokens stands somewhere in a script. -/
def HasArray (source : String) (tokens : List ArrayItem) : Prop :=
  ∃ statements, parse? source.toList = some statements ∧
    ∃ s ∈ statements, (Piece.expression (.array tokens)).Within (.statement s)

/-- The expression is read into a tree that has the message. -/
def Expression.HasMessage (limit : Nat) (e : Expression) (m : Message .expression) : Prop :=
  ∃ levels t, e.read levels = .ok t ∧ Lowering.expression limit limit t = .ok m

/-- The messages hold the elements of an array literal, each at the index that is the number of
commas in front of it, and are empty at the other indices. -/
structure Aligned (limit : Nat) (tokens : List ArrayItem) (ms : List (Message .expression)) :
    Prop where
  length : ms.length = commas tokens + if endsWithElement tokens then 1 else 0
  element {before later : List ArrayItem} {e : Expression}
    (h : tokens = before ++ .element e :: later) :
    ∃ m, ms[commas before]? = some m ∧ e.HasMessage limit m
  hole {k : Nat} (hk : k < ms.length)
    (h : ∀ before e later, tokens = before ++ .element e :: later → commas before ≠ k) :
    ms[k]? = some Message.hole

variable {limit levels : Nat} {tokens : List ArrayItem} {slots : List (Option Tree.Expression)}

/-- Slots with the elements of an array literal become aligned messages, if each element has its
message. -/
theorem Places.aligned (h : Places levels true tokens slots)
    (hslots : ∀ t, some t ∈ slots → Lowering.expression limit limit t = .ok (Image.expression t)) :
    Aligned limit tokens (Image.elements slots) := by
  rw [Image.elements_eq_map]
  refine ⟨?_, fun hsplit => ?_, fun {k} hk hnone => ?_⟩
  · have hlength := h.length
    rw [List.length_map, endsWithElement]
    cases hlast : tokens.getLast? with
    | none => simpa [hlast] using hlength
    | some token => cases token <;> simpa [hlast, ArrayItem.isElement] using hlength
  · obtain ⟨k, t, hk, hslot, ht⟩ := h.element hsplit
    have hindex : commas _ = k := hk
    refine ⟨Image.expression t, ?_, levels, t, ht, hslots t (List.mem_of_getElem? hslot)⟩
    rw [hindex, List.getElem?_map, hslot]
    rfl
  · rw [List.length_map] at hk
    rw [List.getElem?_map]
    cases hslot : slots[k]? with
    | none => exact absurd hk (by simpa using hslot)
    | some slot =>
      cases slot with
      | none => rfl
      | some t =>
        obtain ⟨before, e, later, hsplit, hindex⟩ := h.only hslot
        exact absurd hindex (hnone before e later hsplit)

/-- What is read into the statements of a program. -/
theorem exists_reads_of_read {source : String} {p : Tree.Program} {statements : List Statement}
    (hread : read source = .ok p) (hparse : parse? source.toList = some statements)
    {s : Statement} (hs : s ∈ statements) :
    ∃ t ∈ p.body, (Piece.statement s).Reads nestingLimit (.statement t) := by
  rw [read, hparse] at hread
  obtain ⟨body, hbody, heq⟩ := bind_eq_ok.mp hread
  cases heq
  have hall := ReadsAll.statements statements body hbody
  obtain ⟨node, hnode, hreads⟩ := hall.exists_of_mem (List.mem_map_of_mem hs)
  obtain ⟨t, ht, rfl⟩ := List.mem_map.mp hnode
  exact ⟨t, ht, hreads⟩

/-- An array literal is read into the slots of an array. -/
theorem read_array_eq_ok {t : Tree.Expression} (h : (Expression.array tokens).read levels = .ok t) :
    ∃ k slots, t = .arrayExpression slots ∧ readItems k true tokens = .ok slots := by
  cases levels with
  | zero => cases h
  | succ k =>
    obtain ⟨slots, hslots, heq⟩ := bind_eq_ok.mp h
    cases heq
    exact ⟨k, slots, rfl, hslots⟩

end Script

open Script in
/-- In the message of a script that is compiled, every array literal of the script has a message
with its elements at the indices that the commas give them. -/
theorem compile_arrayLiteral (limit : Nat) (source : String) (p : Tree.Program)
    (ast : Message .ast) (tokens : List ArrayItem) (hread : Script.read source = .ok p)
    (hcompile : compile limit p = .ok ast) (htokens : HasArray source tokens) :
    Written source.toList tokens ∧
      ∃ ms, (Message.arrayExpression ms).any.Inside ast.any ∧
        (Expression.array tokens).HasMessage limit
          (Message.expression (Message.arrayExpression ms)) ∧
        Aligned limit tokens ms := by
  obtain ⟨statements, hparse, s, hs, hwithin⟩ := htokens
  have hwritten : Written source.toList tokens := written_of_parse? hparse hs hwithin
  obtain ⟨⟨haccepted, hdepth⟩, rfl⟩ := compile_eq_ok_iff.mp hcompile
  -- The literal is read into an array inside a statement of the program.
  obtain ⟨statement, hstatement, hreads⟩ := exists_reads_of_read hread hparse hs
  have hnode := haccepted statement hstatement
  obtain ⟨levels, node, harray, hinside⟩ := hreads.inside hwithin hnode
  cases harray with
  | expression hread =>
    obtain ⟨k, slots, rfl, hslots⟩ := read_array_eq_ok hread
    have hlower {e : Tree.Expression} (he : (Node.expression e).Inside (.statement statement)) :
        Lowering.expression limit limit e = .ok (Image.expression e) :=
      Node.lower_of_inside hnode (Tree.Program.depth_le_iff.mp hdepth statement hstatement) he
    refine ⟨hwritten, Image.elements slots, ?_, ?_, ?_⟩
    · have hprogram := Tree.Program.inside_image haccepted hstatement hinside
      exact Relation.ReflTransGen.trans hprogram (Message.Any.Inside.expression .refl)
    · exact ⟨_, _, hread, hlower hinside⟩
    · have hplaces : Places k true tokens slots := places_of_readItems hwritten.alternates hslots
      refine hplaces.aligned fun t ht => hlower (.tail hinside ?_)
      exact List.mem_flatMap.mpr ⟨some t, ht, .head _⟩

open Script in
/-- An element behind a leading comma and in front of two, of which the first only separates. -/
theorem compile_arrayLiteral_sparse :
    ∃ p ast, Script.read "[,a,,]" = .ok p ∧ compile 3 p = .ok ast ∧
      HasArray "[,a,,]" [.comma, .element (.identifier "a"), .comma, .comma] ∧
      ∃ ms, (Message.arrayExpression ms).any.Inside ast.any ∧
        Aligned 3 [.comma, .element (.identifier "a"), .comma, .comma] ms := by
  have hparse : parse? "[,a,,]".toList =
      some [.expression (.array [.comma, .element (.identifier "a"), .comma, .comma])] := rfl
  have htokens : HasArray "[,a,,]" [.comma, .element (.identifier "a"), .comma, .comma] :=
    ⟨_, hparse, _, .head _, .single (.head _)⟩
  have hread : Script.read "[,a,,]" =
      .ok ⟨[.expressionStatement (.arrayExpression [none, some (.identifier "a"), none])]⟩ := by
    rw [Script.read, hparse]
    rfl
  obtain ⟨_, ms, hinside, _, haligned⟩ := compile_arrayLiteral 3 _ _ _ _ hread rfl htokens
  exact ⟨_, _, hread, rfl, htokens, ms, hinside, haligned⟩

end ScriptWire
