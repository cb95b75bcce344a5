import ScriptWire.Proofs.Ensures
import ScriptWire.Proofs.Script.Parser
import ScriptWire.Proofs.Script.Remaining
import ScriptWire.Script.Reader

/-!
# Array literals

Between its brackets an array literal has elements and commas, with blanks and comments anywhere
between them. An element stands at the index that is the number of commas in front of it; where no
element stands there is a hole, except behind the last comma.

## Main definitions

- `Script.Bracketed` — the text of an array literal after its opening bracket, with its tokens
- `Script.commas`, `Script.endsWithElement` — what the tokens say about indices
- `Script.Places` — the slots of a tree that the elements of an array literal are read into

## Main results

- `Script.bracketed_of_run_items` — what is taken for an array literal is the text of one
- `Script.places_of_readItems` — the elements are read into the slots that the commas give them
-/

namespace ScriptWire

namespace Script

variable {rules : Rules} {parse : Parser Operand} {after : Bool} {text rest : List Char}
  {tokens : List ArrayItem}

/-- An operand or comma as a token of an array literal. -/
def Item.token : Item → ArrayItem
  | .comma => .comma
  | .element o => .element o.expr

/-- The text of an array literal after its opening bracket, its tokens, and the text after its
closing bracket. With `after`, an element stands right in front, so that no other can follow. -/
inductive Bracketed (parse : Parser Operand) :
    (after : Bool) → (text : List Char) → List ArrayItem → (rest : List Char) → Prop
  | close {after : Bool} {gap rest : List Char} (hgap : Trivia (!after) gap) :
    Bracketed parse after (gap ++ ']' :: rest) [] rest
  | comma {after : Bool} {gap text rest : List Char} {tokens : List ArrayItem}
    (hgap : Trivia (!after) gap) (h : Bracketed parse false text tokens rest) :
    Bracketed parse after (gap ++ ',' :: text) (.comma :: tokens) rest
  | element {gap written text rest : List Char} {o : Operand} {tokens : List ArrayItem}
    (hgap : Trivia true gap) (hparse : parse.run (written ++ text) = some (o, text))
    (h : Bracketed parse true text tokens rest) :
    Bracketed parse false (gap ++ (written ++ text)) (.element o.expr :: tokens) rest

/-- What is taken for an array literal is the text of one, if parsing an element leaves an end of
the text. -/
theorem bracketed_of_run_items {top : List Char}
    (helement : ∀ s o t, s <:+ top → (element rules).run s = some (o, t) → t <:+ s) {fuel : Nat}
    {list : List Item} (htext : text <:+ top)
    (h : (items rules ']' fuel after).run text = some (list, rest)) :
    Bracketed (element rules) after text (list.map Item.token) rest := by
  induction fuel generalizing after text list with
  | zero => cases h
  | succ fuel ih =>
    obtain ⟨gap, hgap, htrivia⟩ := follows_skipTrivia (!after) text
    have hskip : (if after then skip text else skipOperand text) = skipTrivia (!after) text := by
      cases after <;> rfl
    rw [items, run_get_bind, hskip] at h
    dsimp only at h
    split at h
    · cases h
    · rename_i c cs hs
      have hnext : Trivia (!after) gap := htrivia (by simp [hs])
      rw [hs] at hgap
      subst hgap
      have htop : c :: cs <:+ top := (List.suffix_append gap (c :: cs)).trans htext
      have hcs : cs <:+ top := (List.suffix_cons c cs).trans htop
      split_ifs at h with hclose hcomma hafter
      · cases h
        rw [hclose]
        exact .close hnext
      · rw [run_set_bind] at h
        obtain ⟨list, between, hlist, hresult⟩ := run_bind_eq_some h
        cases hresult
        rw [hcomma]
        exact .comma hnext (ih hcs hlist)
      · cases h
      · rw [run_set_bind, hs] at h
        obtain ⟨o, next, ho, h⟩ := run_bind_eq_some h
        obtain ⟨list, between, hlist, hresult⟩ := run_bind_eq_some h
        cases hresult
        have hleft : next <:+ c :: cs := helement _ o next htop ho
        have hrest : next <:+ top := hleft.trans htop
        obtain ⟨written, hwritten⟩ := hleft
        have hoff : after = false := by simpa using hafter
        subst hoff
        rw [← hwritten] at ho ⊢
        exact .element hnext ho (ih hrest hlist)

/-! ### Places of the elements -/

/-- The number of commas among the tokens. -/
def commas : List ArrayItem → Nat
  | [] => 0
  | .comma :: rest => commas rest + 1
  | .element _ :: rest => commas rest

/-- The token is an element. -/
def ArrayItem.isElement : ArrayItem → Bool
  | .comma => false
  | .element _ => true

/-- The last token is an element. -/
def endsWithElement (tokens : List ArrayItem) : Bool :=
  tokens.getLast?.any ArrayItem.isElement

/-- No element follows another without a comma between them; with `after`, an element stands in
front of the tokens. -/
def Alternates : (after : Bool) → List ArrayItem → Prop
  | _, [] => True
  | _, .comma :: rest => Alternates false rest
  | after, .element _ :: rest => after = false ∧ Alternates true rest

theorem Bracketed.alternates (h : Bracketed parse after text tokens rest) :
    Alternates after tokens := by
  induction h with
  | close hgap => exact trivial
  | comma hgap h ih => exact ih
  | element hgap hparse h ih => exact ⟨rfl, ih⟩

/-- The slots hold the elements of an array literal, read with a number of levels left, and are
empty elsewhere. Without `vacant`, the first token stands behind an element, whose slot is not
counted. -/
structure Places (levels : Nat) (vacant : Bool) (tokens : List ArrayItem)
    (slots : List (Option Tree.Expression)) : Prop where
  length : slots.length + (!vacant).toNat =
    commas tokens + (tokens.getLast?.elim (!vacant) ArrayItem.isElement).toNat
  element {before later : List ArrayItem} {e : Expression}
    (h : tokens = before ++ .element e :: later) :
    ∃ k t, commas before = k + (!vacant).toNat ∧ slots[k]? = some (some t) ∧ e.read levels = .ok t
  only {k : Nat} {t : Tree.Expression} (h : slots[k]? = some (some t)) :
    ∃ before e later, tokens = before ++ .element e :: later ∧ commas before = k + (!vacant).toNat

variable {levels : Nat} {vacant : Bool} {slots : List (Option Tree.Expression)}

theorem Places.nil : Places levels vacant [] [] where
  length := rfl
  element h := by simp at h
  only h := by simp at h

theorem getLast?_cons_elim (token : ArrayItem) (tokens : List ArrayItem) (filled : Bool) :
    (token :: tokens).getLast?.elim filled ArrayItem.isElement =
      tokens.getLast?.elim token.isElement ArrayItem.isElement := by
  rw [List.getLast?_cons]
  cases tokens.getLast? <;> rfl

/-- An element among the tokens behind a comma stands behind one comma fewer there. -/
theorem split_comma {before later : List ArrayItem} {e : Expression}
    (h : .comma :: tokens = before ++ .element e :: later) :
    ∃ front, tokens = front ++ .element e :: later ∧ commas before = commas front + 1 := by
  cases before with
  | nil => cases h
  | cons token front =>
    cases h
    exact ⟨front, rfl, rfl⟩

/-- A comma behind an element only separates, any other closes an empty slot. -/
theorem Places.comma (h : Places levels true tokens slots) :
    Places levels vacant (.comma :: tokens) (if vacant then none :: slots else slots) := by
  have hlength : slots.length =
      commas tokens + (tokens.getLast?.elim false ArrayItem.isElement).toNat := h.length
  cases vacant with
  | true =>
    refine ⟨?_, fun hsplit => ?_, fun {k} t hslot => ?_⟩
    · rw [getLast?_cons_elim]
      simp only [commas, ArrayItem.isElement, if_true, List.length_cons, Bool.not_true,
        Bool.toNat_false]
      omega
    · obtain ⟨front, hfront, hcommas⟩ := split_comma hsplit
      obtain ⟨k, t, hk, hslot, ht⟩ := h.element hfront
      exact ⟨k + 1, t, by rw [hcommas, hk]; rfl, hslot, ht⟩
    · cases k with
      | zero => cases hslot
      | succ k =>
        obtain ⟨before, e, later, rfl, hk⟩ := h.only hslot
        exact ⟨.comma :: before, e, later, rfl, by rw [commas, hk]; rfl⟩
  | false =>
    refine ⟨?_, fun hsplit => ?_, fun hslot => ?_⟩
    · rw [getLast?_cons_elim]
      simp only [commas, ArrayItem.isElement, Bool.false_eq_true, if_false, Bool.not_false,
        Bool.toNat_true]
      omega
    · obtain ⟨front, hfront, hcommas⟩ := split_comma hsplit
      obtain ⟨k, t, hk, hslot, ht⟩ := h.element hfront
      exact ⟨k, t, by rw [hcommas, hk]; rfl, hslot, ht⟩
    · obtain ⟨before, e, later, rfl, hk⟩ := h.only hslot
      exact ⟨.comma :: before, e, later, rfl, by rw [commas, hk]; rfl⟩

/-- An element fills the slot in front of those that follow. -/
theorem Places.ofElement {e : Expression} {t : Tree.Expression} (ht : e.read levels = .ok t)
    (h : Places levels false tokens slots) :
    Places levels true (.element e :: tokens) (some t :: slots) := by
  have hlength : slots.length + 1 =
      commas tokens + (tokens.getLast?.elim true ArrayItem.isElement).toNat := h.length
  refine ⟨?_, fun {before later e'} hsplit => ?_, fun {k} t' hslot => ?_⟩
  · rw [getLast?_cons_elim]
    exact hlength
  · cases before with
    | nil =>
      cases hsplit
      exact ⟨0, t, rfl, rfl, ht⟩
    | cons token front =>
      cases hsplit
      obtain ⟨k, t', hk, hslot, ht'⟩ := h.element rfl
      exact ⟨k + 1, t', hk, hslot, ht'⟩
  · cases k with
    | zero => exact ⟨[], e, tokens, rfl, rfl⟩
    | succ k =>
      obtain ⟨before, e', later, rfl, hk⟩ := h.only hslot
      exact ⟨.element e :: before, e', later, rfl, hk⟩

/-- The elements of an array literal are read into the slots that the commas give them. -/
theorem places_of_readItems (halternates : Alternates (!vacant) tokens)
    (h : readItems levels vacant tokens = .ok slots) : Places levels vacant tokens slots := by
  induction tokens generalizing vacant slots with
  | nil =>
    cases h
    exact .nil
  | cons token rest ih =>
    cases token with
    | comma =>
      obtain ⟨others, hothers, hslots⟩ := bind_eq_ok.mp h
      cases hslots
      exact (ih halternates hothers).comma
    | element e =>
      obtain ⟨t, ht, h⟩ := bind_eq_ok.mp h
      obtain ⟨others, hothers, hslots⟩ := bind_eq_ok.mp h
      cases hslots
      obtain ⟨hvacant, hrest⟩ := halternates
      have hplaces : Places levels false rest others := ih hrest hothers
      have htrue : vacant = true := by simpa using hvacant
      subst htrue
      exact .ofElement ht hplaces

end Script

end ScriptWire
