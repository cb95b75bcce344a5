import ScriptWire.Proofs.Binary64.Integer
import ScriptWire.Proofs.Lowering.Compile
import ScriptWire.Proofs.Message.Reading
import ScriptWire.Proofs.Tree.Erase

/-!
# What a message keeps of a program

The message of an accepted program is read back as the program without what messages do not keep,
and what they do not keep has no influence on the message.

## Main results

- `Tree.Node.read_image` — reading the message of an accepted node
- `Tree.Node.image_erase` — what messages do not keep does not show in them
- `compile_eq_compile_iff` — when two programs have the same message
-/

namespace ScriptWire

open ScriptWire.Tree

section Words

theorem keyword_keyword {word : String} (h : IsKeyword word) :
    Message.keyword (Image.keyword word) = word := by
  obtain rfl | rfl | rfl := h <;> decide

theorem isGenerator_functionType (generator isAsync : Bool) :
    Message.isGenerator (Lowering.functionType generator isAsync) = generator := by
  cases generator <;> cases isAsync <;> decide

theorem isAsync_functionType (generator isAsync : Bool) :
    Message.isAsync (Lowering.functionType generator isAsync) = isAsync := by
  cases generator <;> cases isAsync <;> decide

theorem toInt?_zeroSign (x : Binary64) : (Erase.zeroSign x).toInt? = x.toInt? := by
  unfold Erase.zeroSign
  split
  next hzero =>
    rw [Binary64.toInt?_of_isZero hzero]
    exact Binary64.toInt?_of_isZero (by decide)
  next => rfl

theorem index_zeroSign (x : Binary64) : Image.index (Erase.zeroSign x) = Image.index x := by
  rw [Image.index, toInt?_zeroSign, Image.index]

theorem toInt_ofInt_min {n : Int} (hlow : -(Nat.pow 2 63 : Int) ≤ n) :
    (Int64.ofInt (min n (Nat.pow 2 63 - 1))).toInt = min n (Nat.pow 2 63 - 1) := by
  simp only [Nat.pow_eq, Nat.reducePow] at hlow ⊢
  refine Int64.toInt_ofInt_of_le ?_ ?_
  · simp only [Int.reducePow]
    omega
  · simp only [Int.reducePow]
    omega

/-- The index of a key gives the key again. The number right above the range of indices has the
largest one, which is no number itself. -/
theorem ofInt_index {x : Binary64} (h : isIndex x = true) :
    Binary64.ofInt (Image.index x).toInt = Erase.zeroSign x := by
  rw [← index_zeroSign, Image.index]
  rw [isIndex, ← toInt?_zeroSign] at h
  have hzero : (Erase.zeroSign x).isZero = true → Erase.zeroSign x = .zero := by
    unfold Erase.zeroSign
    split
    next => exact fun _ => rfl
    next hne => exact fun h => absurd h hne
  cases hx : (Erase.zeroSign x).toInt? with
  | none =>
    rw [hx] at h
    cases h
  | some n =>
    rw [hx] at h
    obtain ⟨hlow, hhigh⟩ : -(Nat.pow 2 63 : Int) ≤ n ∧ n ≤ Nat.pow 2 63 := of_decide_eq_true h
    have hofInt := Binary64.ofInt_of_toInt? hx hzero
    dsimp only
    rw [toInt_ofInt_min hlow]
    -- The index stops below the top of the range, but is rounded to the top again.
    by_cases htop : n = Nat.pow 2 63
    · have hround : Binary64.ofInt (Nat.pow 2 63 - 1) = Binary64.ofInt (Nat.pow 2 63) := by
        decide +kernel
      rw [htop] at hofInt ⊢
      rw [Int.min_eq_right (by decide), hround, hofInt]
    · rw [Int.min_eq_left, hofInt]
      exact Int.le_sub_one_of_lt (Int.lt_iff_le_and_ne.mpr ⟨hhigh, htop⟩)

end Words

namespace Tree

/-- What is read of the message of an accepted node. -/
def Node.remains : Node → Message.Piece
  | .statement s => .statement (Erase.statement s)
  | .expression e => .expression (Erase.expression e)
  | .pattern p => .pattern p
  | .member m => .member (Erase.member m)
  | .declarator d => .declarator (Erase.declarator d)
  | .countingHead (.variableDeclaration _ [d]) => .declarator (Erase.declarator d)
  | .iterationHead _ (.variableDeclaration _ [d]) => .declarator (Erase.declarator d)
  | .countingHead _ => .hole
  | .iterationHead _ _ => .hole
  | .catchClause clause => .catchClause (Erase.catchClause clause)

/-- The message of a node is read as what remains of the node. -/
def Node.Reads (n : Node) : Prop :=
  n.image.2.read = n.remains

theorem map_toPattern_read {params : List Pattern}
    (h : ∀ p ∈ params, (Image.parameter p).read = .pattern p) :
    params.map (Message.Piece.toPattern ∘ Message.read ∘ Image.parameter) = params := by
  refine (List.map_congr_left fun p hp => ?_).trans (List.map_id params)
  simp [h p hp]

/-- The message of a statement that follows its rule is read as what remains of the statement, if
the messages of its children are. -/
theorem Statement.Regular.reads {s : Statement} (hs : s.Regular)
    (hc : ∀ c ∈ s.children, c.Regular) (ih : ∀ c ∈ s.children, c.Reads) :
    (Node.statement s).Reads := by
  -- The rules of the statement and of its children fix what the message has no place for: the flag
  -- of a loop over elements, the shape of the head of a loop.
  cases s with
  | variableDeclaration kind declarations =>
    simp only [Statement.children, List.forall_mem_map, Node.Reads, Node.image, Node.remains,
      Message.any] at ih ⊢
    simp +contextual [Image.statement, Erase.statement, keyword_keyword hs.1, ih]
  | functionDeclaration id params body generator isAsync =>
    obtain ⟨name, rfl, _⟩ := hs
    simp only [Statement.children, List.forall_mem_append, List.forall_mem_map, Node.Reads,
      Node.image, Node.remains, Message.any] at ih ⊢
    simp +contextual [Image.statement, Erase.statement, isGenerator_functionType,
      isAsync_functionType, map_toPattern_read ih.1, ih]
  | returnStatement argument =>
    simp only [Statement.children, List.forall_mem_map, Option.mem_toList, Node.Reads, Node.image,
      Node.remains, Message.any] at ih ⊢
    cases argument <;> simp [Image.statement, Erase.statement, ih]
  | ifStatement test consequent alternate =>
    simp only [Statement.children, List.forall_mem_cons, List.forall_mem_map, Option.mem_toList,
      Node.Reads, Node.image, Node.remains, Message.any] at ih ⊢
    cases alternate <;> simp [Image.statement, Erase.statement, ih]
  | forStatement init test update body =>
    obtain ⟨hinit, htest, hupdate⟩ := hs
    obtain ⟨init, rfl⟩ := Option.isSome_iff_exists.mp hinit
    obtain ⟨test, rfl⟩ := Option.isSome_iff_exists.mp htest
    obtain ⟨update, rfl⟩ := Option.isSome_iff_exists.mp hupdate
    simp only [Statement.children, Option.toList_some, List.map_singleton, List.cons_append,
      List.nil_append, List.forall_mem_cons] at hc ih
    obtain ⟨kind, d, rfl, _⟩ := hc.1
    simp only [Node.Reads, Node.image, Node.remains, Message.any] at ih ⊢
    simp [Image.statement, Erase.statement, Erase.head, ih]
  | forInStatement left right body =>
    simp only [Statement.children, List.forall_mem_cons] at hc ih
    obtain ⟨kind, id, rfl, _⟩ := hc.1
    simp only [Node.Reads, Node.image, Node.remains, Message.any] at ih ⊢
    simp [Image.statement, Erase.statement, Erase.head, ih]
  | forOfStatement left right body isAwait =>
    obtain rfl : isAwait = false := hs
    simp only [Statement.children, List.forall_mem_cons] at hc ih
    obtain ⟨kind, id, rfl, _⟩ := hc.1
    simp only [Node.Reads, Node.image, Node.remains, Message.any] at ih ⊢
    simp [Image.statement, Erase.statement, Erase.head, ih]
  | tryStatement block handler finalizer =>
    simp only [Statement.children, List.forall_mem_append, List.forall_mem_map, Option.mem_toList,
      Node.Reads, Node.image, Node.remains, Message.any] at ih ⊢
    cases handler <;> cases finalizer <;>
      simp +contextual [Image.statement, Erase.statement, ih]
  | unsupported kind => exact hs.elim
  | _ =>
    simp only [Statement.children, List.forall_mem_cons, List.forall_mem_map, Node.Reads,
      Node.image, Node.remains, Message.any] at ih ⊢
    simp +contextual [Image.statement, Erase.statement, ih]

/-- The message of an expression that follows its rule is read as what remains of the expression, if
the messages of its children are. -/
theorem Expression.Regular.reads {e : Expression} (he : e.Regular)
    (ih : ∀ c ∈ e.children, c.Reads) : (Node.expression e).Reads := by
  cases e with
  | arrayExpression elements =>
    have helements : ∀ e, some e ∈ elements →
        (Image.expression e).read = .expression (Erase.expression e) := fun e hmem =>
      ih (.expression e) (List.mem_flatMap.mpr ⟨some e, hmem, by simp⟩)
    simp only [Node.Reads, Node.image, Node.remains, Message.any, Image.expression,
      Image.elements_eq_map, Message.read_expression, Message.read_arrayExpression,
      Erase.expression, Erase.elements_eq_map, List.map_map]
    congr 2
    refine List.map_congr_left fun element hmem => ?_
    cases element with
    | none => simp
    | some e => simp [helements e hmem]
  | functionExpression id params body generator isAsync =>
    simp only [Expression.children, List.forall_mem_append, List.forall_mem_map, Node.Reads,
      Node.image, Node.remains, Message.any] at ih ⊢
    simp +contextual [Image.expression, Erase.expression, isGenerator_functionType,
      isAsync_functionType, map_toPattern_read ih.1, ih]
  | arrowFunctionExpression id params body generator isAsync =>
    obtain ⟨rfl, rfl⟩ := he
    simp only [Expression.children, List.forall_mem_append, List.forall_mem_map] at ih
    cases body with
    | blockStatement body =>
      simp only [ArrowBody.children, List.forall_mem_map, Node.Reads, Node.image, Node.remains,
        Message.any] at ih ⊢
      simp +contextual [Image.expression, Image.arrow, Erase.expression, Erase.arrowBody,
        isAsync_functionType, map_toPattern_read ih.1, ih]
    | expression e =>
      simp only [ArrowBody.children, List.forall_mem_singleton, Node.Reads, Node.image,
        Node.remains, Message.any] at ih ⊢
      simp [Image.expression, Image.arrow, Erase.expression, Erase.arrowBody, isAsync_functionType,
        map_toPattern_read ih.1, ih]
  | memberExpression object property computed =>
    cases computed with
    | true =>
      simp only [Expression.children, if_true, List.forall_mem_cons, Node.Reads, Node.image,
        Node.remains, Message.any] at ih ⊢
      simp [Image.expression, Erase.expression, ih]
    | false =>
      simp only [Expression.children, List.forall_mem_cons, Node.Reads, Node.image, Node.remains,
        Message.any] at ih ⊢
      obtain h | ⟨name, rfl, _⟩ := he
      · cases h
      · simp [Image.expression, Erase.expression, Image.text, ih]
  | unaryExpression operator isPrefix argument =>
    obtain ⟨rfl, _⟩ := he
    simp only [Expression.children, List.forall_mem_cons, Node.Reads, Node.image, Node.remains,
      Message.any] at ih ⊢
    simp [Image.expression, Erase.expression, ih]
  | yieldExpression argument delegate =>
    obtain rfl : delegate = false := he
    simp only [Expression.children, List.forall_mem_map, Option.mem_toList, Node.Reads, Node.image,
      Node.remains, Message.any] at ih ⊢
    cases argument <;> simp [Image.expression, Erase.expression, ih]
  | unsupported kind => exact he.elim
  | _ =>
    simp only [Expression.children, List.forall_mem_cons, List.forall_mem_map, Node.Reads,
      Node.image, Node.remains, Message.any] at ih ⊢
    simp +contextual [Image.expression, Erase.expression, ih]

/-- The message of a member that follows its rule is read as what remains of the member, if the
messages of its children are. -/
theorem Member.Regular.reads {m : Member} (hm : m.Regular) (ih : ∀ c ∈ m.children, c.Reads) :
    (Node.member m).Reads := by
  cases m with
  | objectProperty key value computed shorthand method =>
    obtain ⟨rfl, rfl, hkey⟩ := hm
    cases computed with
    | true =>
      simp only [Member.children, if_true, List.forall_mem_append, List.forall_mem_singleton,
        Node.Reads, Node.image, Node.remains, Message.any] at ih ⊢
      simp [Image.member, Erase.member, ih]
    | false =>
      have hvalue : (Image.expression value).read = .expression (Erase.expression value) :=
        ih (.expression value) (by simp [Member.children])
      have hkey : key.isPropertyKey = true := hkey.resolve_left Bool.false_ne_true
      simp only [Node.Reads, Node.image, Node.remains, Message.any]
      cases key with
      | identifier name => simp [Image.member, Image.text, Erase.member, Erase.key, hvalue]
      | stringLiteral name => simp [Image.member, Image.text, Erase.member, Erase.key, hvalue]
      | numericLiteral number =>
        simp [Image.member, Erase.member, Erase.key, ofInt_index hkey, hvalue]
      | _ => cases hkey
  | objectMethod kind key params body computed shorthand generator isAsync =>
    obtain ⟨rfl, rfl, hkey, hkind⟩ := hm
    have hname : Erase.methodName key = .stringLiteral (Image.text key) := by
      cases key <;> first | rfl | cases hkey
    simp only [Member.children, List.forall_mem_append, List.forall_mem_map, Node.Reads, Node.image,
      Node.remains, Message.any] at ih ⊢
    cases kind with
    | method =>
      simp +contextual [Image.member, Erase.member, hname, isGenerator_functionType,
        isAsync_functionType, map_toPattern_read ih.1, ih]
    | getter =>
      obtain ⟨rfl, rfl, rfl⟩ := hkind
      simp +contextual [Image.member, Erase.member, hname, ih]
    | setter =>
      obtain ⟨rfl, rfl, hlength⟩ := hkind
      obtain ⟨p, rfl⟩ := List.length_eq_one_iff.mp hlength
      simp +contextual [Image.member, Erase.member, hname, ih]
  | spreadElement argument => exact hm.elim
  | unsupported kind => exact hm.elim

/-- The message of an accepted node is read as what remains of the node. -/
theorem Node.read_image {n : Node} (h : n.Accepted) : n.Reads := by
  induction n using Node.induction_on_children with
  | step n ih =>
    obtain ⟨hn, haccepted⟩ := Node.accepted_iff.mp h
    have hc : ∀ c ∈ n.children, c.Regular := fun c hmem =>
      (Node.accepted_iff.mp (haccepted c hmem)).1
    have hr : ∀ c ∈ n.children, c.Reads := fun c hmem => ih c hmem (haccepted c hmem)
    cases n with
    | statement s => exact Statement.Regular.reads hn hc hr
    | expression e => exact Expression.Regular.reads hn hr
    | pattern p =>
      obtain ⟨name, rfl, _⟩ := hn
      rfl
    | member m => exact Member.Regular.reads hn hr
    | declarator d =>
      obtain ⟨id, init⟩ := d
      simp only [Node.children, Declarator.id, Declarator.init, List.forall_mem_cons,
        List.forall_mem_map, Option.mem_toList] at hc hr
      obtain ⟨name, rfl, _⟩ := hc.1
      simp only [Node.Reads, Node.image, Node.remains, Message.any] at hr ⊢
      cases init <;> simp [Image.declarator, Image.name, Erase.declarator, hr]
    | countingHead head =>
      obtain ⟨kind, d, rfl, _⟩ := hn
      exact hr (.declarator d) (by simp [Node.children, ForInit.children])
    | iterationHead loop head =>
      obtain ⟨kind, id, rfl, _⟩ := hn
      exact hr (.declarator (.mk id none)) (by simp [Node.children, ForInit.children])
    | catchClause clause =>
      obtain ⟨param, body⟩ := clause
      simp only [Node.children, List.forall_mem_append, List.forall_mem_map, Option.mem_toList,
        Node.Reads, Node.image, Node.remains, Message.any] at hr ⊢
      cases param <;> simp +contextual [Image.catchClause, Erase.catchClause, hr]

/-- What messages do not keep of a node does not show in its message. -/
def Node.Kept : Node → Prop
  | .statement s => Image.statement (Erase.statement s) = Image.statement s
  | .expression e => Image.expression (Erase.expression e) = Image.expression e
  | .pattern _ => True
  | .member m => Image.member (Erase.member m) = Image.member m
  | .declarator d => Image.declarator (Erase.declarator d) = Image.declarator d
  | .countingHead head => Image.head (Erase.head head) = Image.head head
  | .iterationHead _ head => Image.head (Erase.head head) = Image.head head
  | .catchClause clause => Image.catchClause (Erase.catchClause clause) = Image.catchClause clause

theorem map_comp_of_mem {α β : Type} {f : α → β} {g : α → α} {l : List α}
    (h : ∀ a ∈ l, f (g a) = f a) : l.map (f ∘ g) = l.map f :=
  List.map_congr_left h

theorem Statement.kept {s : Statement} (ih : ∀ c ∈ s.children, c.Kept) :
    Image.statement (Erase.statement s) = Image.statement s := by
  cases s with
  | returnStatement argument =>
    simp only [Statement.children, List.forall_mem_map, Option.mem_toList, Node.Kept] at ih
    cases argument <;> simp [Image.statement, Erase.statement, ih]
  | ifStatement test consequent alternate =>
    simp only [Statement.children, List.forall_mem_cons, List.forall_mem_map, Option.mem_toList,
      Node.Kept] at ih
    cases alternate <;> simp [Image.statement, Erase.statement, ih]
  | forStatement init test update body =>
    simp only [Statement.children, List.forall_mem_append, List.forall_mem_map, Option.mem_toList,
      List.forall_mem_singleton, Node.Kept] at ih
    cases init <;> cases test <;> cases update <;> simp [Image.statement, Erase.statement, ih]
  | tryStatement block handler finalizer =>
    simp only [Statement.children, List.forall_mem_append, List.forall_mem_map, Option.mem_toList,
      Node.Kept] at ih
    cases handler <;> cases finalizer <;>
      simp +contextual [map_comp_of_mem, Image.statement, Erase.statement, ih]
  | _ =>
    simp only [Statement.children, List.forall_mem_cons, List.forall_mem_append,
      List.forall_mem_map, Node.Kept] at ih
    simp +contextual [map_comp_of_mem, Image.statement, Erase.statement, ih]

theorem Expression.kept {e : Expression} (ih : ∀ c ∈ e.children, c.Kept) :
    Image.expression (Erase.expression e) = Image.expression e := by
  cases e with
  | arrayExpression elements =>
    have helements : ∀ e, some e ∈ elements →
        Image.expression (Erase.expression e) = Image.expression e := fun e hmem =>
      ih (.expression e) (List.mem_flatMap.mpr ⟨some e, hmem, by simp⟩)
    rw [Erase.expression, Image.expression, Image.expression, Erase.elements_eq_map,
      Image.elements_eq_map, Image.elements_eq_map, List.map_map]
    congr 2
    refine List.map_congr_left fun element hmem => ?_
    cases element with
    | none => rfl
    | some e => simp [helements e hmem]
  | arrowFunctionExpression id params body generator isAsync =>
    simp only [Expression.children, List.forall_mem_append] at ih
    cases body with
    | blockStatement body =>
      simp only [ArrowBody.children, List.forall_mem_map, Node.Kept] at ih
      simp +contextual [map_comp_of_mem, Image.expression, Image.arrow, Erase.expression,
        Erase.arrowBody, ih]
    | expression e =>
      simp only [ArrowBody.children, List.forall_mem_singleton, Node.Kept] at ih
      simp [Image.expression, Image.arrow, Erase.expression, Erase.arrowBody, ih]
  | memberExpression object property computed =>
    cases computed with
    | true =>
      simp only [Expression.children, if_true, List.forall_mem_cons, Node.Kept] at ih
      simp [Image.expression, Erase.expression, ih]
    | false =>
      simp only [Expression.children, List.forall_mem_cons, Node.Kept] at ih
      simp [Image.expression, Erase.expression, ih]
  | yieldExpression argument delegate =>
    simp only [Expression.children, List.forall_mem_map, Option.mem_toList, Node.Kept] at ih
    cases argument <;> simp [Image.expression, Erase.expression, ih]
  | _ =>
    simp only [Expression.children, List.forall_mem_cons, List.forall_mem_append,
      List.forall_mem_map, Node.Kept] at ih
    simp +contextual [map_comp_of_mem, Image.expression, Erase.expression, ih]

theorem Member.kept {m : Member} (ih : ∀ c ∈ m.children, c.Kept) :
    Image.member (Erase.member m) = Image.member m := by
  cases m with
  | objectProperty key value computed shorthand method =>
    cases computed with
    | true =>
      simp only [Member.children, if_true, List.forall_mem_append, List.forall_mem_singleton,
        Node.Kept] at ih
      simp [Image.member, Erase.member, ih]
    | false =>
      have hvalue : Image.expression (Erase.expression value) = Image.expression value :=
        ih (.expression value) (by simp [Member.children])
      cases key <;> simp [Image.member, Image.text, Erase.member, Erase.key, index_zeroSign, hvalue]
  | objectMethod kind key params body computed shorthand generator isAsync =>
    have hname : Image.text (Erase.methodName key) = Image.text key := by
      cases key <;> rfl
    simp only [Member.children, List.forall_mem_append, List.forall_mem_map, Node.Kept] at ih
    cases kind <;> simp +contextual [map_comp_of_mem, Image.member, Erase.member, hname, ih]
  | spreadElement argument => rfl
  | unsupported kind => rfl

theorem ForInit.kept {head : ForInit} (ih : ∀ c ∈ head.children, c.Kept) :
    Image.head (Erase.head head) = Image.head head := by
  cases head with
  | expression e => rfl
  | variableDeclaration kind declarations =>
    cases declarations with
    | nil => rfl
    | cons d rest => exact ih (.declarator d) (by simp [ForInit.children])

/-- What messages do not keep does not show in them. -/
theorem Node.image_erase (n : Node) : n.Kept := by
  induction n using Node.induction_on_children with
  | step n ih =>
    cases n with
    | statement s => exact Statement.kept ih
    | expression e => exact Expression.kept ih
    | pattern p => trivial
    | member m => exact Member.kept ih
    | declarator d =>
      obtain ⟨id, init⟩ := d
      simp only [Node.children, Declarator.init, List.forall_mem_cons, List.forall_mem_map,
        Option.mem_toList, Node.Kept] at ih ⊢
      cases init <;> simp [Image.declarator, Erase.declarator, ih]
    | countingHead head => exact ForInit.kept ih
    | iterationHead loop head => exact ForInit.kept ih
    | catchClause clause =>
      obtain ⟨param, body⟩ := clause
      simp only [Node.children, List.forall_mem_append, List.forall_mem_map, Node.Kept] at ih ⊢
      simp +contextual [map_comp_of_mem, Image.catchClause, Erase.catchClause, ih]

/-- The message of an accepted program is read as the program without what messages do not keep. -/
theorem Program.read_image {p : Program} (h : p.Accepted) :
    (Image.program p).read.toProgram = Erase.program p := by
  have hbody : ∀ s ∈ p.body, (Image.statement s).read = .statement (Erase.statement s) :=
    fun s hs => Node.read_image (h s hs)
  simp +contextual [Image.program, Erase.program, hbody]

theorem Program.image_erase (p : Program) : Image.program (Erase.program p) = Image.program p := by
  have hbody : ∀ s ∈ p.body, Image.statement (Erase.statement s) = Image.statement s :=
    fun s _ => (Node.statement s).image_erase
  simp [Image.program, Erase.program, map_comp_of_mem hbody]

end Tree

/-- Two programs have the same message exactly when they are equal but for the names of function
expressions, the difference between logical and binary expressions, that between names and strings
as keys and method names, the words that declare loop variables, and the signs of zeros that are
keys. -/
theorem compile_eq_compile_iff (limit other : Nat) (p q : Program) (a b : Message .ast)
    (hp : compile limit p = .ok a) (hq : compile other q = .ok b) :
    a = b ↔ Erase.program p = Erase.program q := by
  obtain ⟨⟨hpaccepted, _⟩, rfl⟩ := compile_eq_ok_iff.mp hp
  obtain ⟨⟨hqaccepted, _⟩, rfl⟩ := compile_eq_ok_iff.mp hq
  constructor
  · intro h
    rw [← Program.read_image hpaccepted, ← Program.read_image hqaccepted, h]
  · intro h
    rw [← Program.image_erase p, ← Program.image_erase q, h]

/-- A function expression has the same message with and without a name, and another one with a
parameter. -/
theorem compile_eq_compile_iff_function :
    Image.program ⟨[.expressionStatement (.functionExpression (some "f") [] [] false false)]⟩ =
        Image.program ⟨[.expressionStatement (.functionExpression none [] [] false false)]⟩ ∧
      Image.program ⟨[.expressionStatement (.functionExpression (some "f") [] [] false false)]⟩ ≠
        Image.program
          ⟨[.expressionStatement (.functionExpression none [.identifier "x"] [] false false)]⟩ := by
  refine ⟨?_, fun h => ?_⟩
  · exact (compile_eq_compile_iff 2 2
      ⟨[.expressionStatement (.functionExpression (some "f") [] [] false false)]⟩
      ⟨[.expressionStatement (.functionExpression none [] [] false false)]⟩ _ _ rfl rfl).mpr rfl
  · have herase := (compile_eq_compile_iff 2 2
      ⟨[.expressionStatement (.functionExpression (some "f") [] [] false false)]⟩
      ⟨[.expressionStatement (.functionExpression none [.identifier "x"] [] false false)]⟩
      _ _ rfl rfl).mp h
    cases herase

end ScriptWire
