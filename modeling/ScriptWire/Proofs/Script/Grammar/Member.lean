import ScriptWire.Proofs.Script.Grammar.Basic
import ScriptWire.Script.Grammar.Markup
import ScriptWire.Script.Grammar.Member

/-!
# What the rules of literals and classes keep

Markup elements and classes leave no pieces, so that their rules only leave an end of the text.
The rule of array literals is where the text between the brackets comes from.
-/

namespace ScriptWire

namespace Script

variable {top : List Char}

/-! ### Markup elements -/

namespace Keeps

protected theorem markupName : Advances top markupName :=
  .lexeme leaves_markupWord? fun _ => .pure

protected theorem markupPath (fuel : Nat) : Advances top (markupPath fuel) := by
  induction fuel with
  | zero => exact .failure
  | succ fuel ih =>
    refine .bind (.mark? ".") fun _ _ => .ite (fun _ => ?_) fun _ => .pure trivial
    exact .bind .anyWord fun _ _ => ih

protected theorem elementName (fuel : Nat) : Advances top (elementName fuel) := by
  refine .bind .markupName fun _ _ => .ite (fun _ => .failure) fun _ => ?_
  refine .bind (.mark? ":") fun _ _ => .ite (fun _ => ?_) fun _ => .markupPath fuel
  exact .bind .markupName fun _ _ => .pure trivial

protected theorem elementTail {rules : Rules} {fuel : Nat}
    (hattributes : Advances top (attributes rules fuel))
    (hchildren : Advances top (children rules fuel)) :
    Advances top (elementTail rules (fuel + 1)) := by
  refine .bind (.mark? ">") fun _ _ => .ite (fun _ => hchildren) fun _ => ?_
  exact .bind (.elementName fuel) fun _ _ => hattributes

end Keeps

namespace Rules.Sound

variable {P : List ArrayItem → Prop} {rules : Rules} (h : rules.Sound P top)

include h

protected theorem embedded : Advances top (embedded rules) := by
  refine .bind (.mark? "\x7d") fun _ _ => .ite (fun _ => .pure trivial) fun _ => ?_
  refine .bind (.mark? "...") fun _ _ => .ite (fun _ => ?_) fun _ => ?_
  · exact (h.singleExpression _).bind fun _ _ => .mark "\x7d"
  · exact (h.expressions _).bind fun _ _ => .mark "\x7d"

/-! Each rule of an element is taken under the rules that it calls with less fuel. -/

variable {fuel : Nat}

protected theorem attributes (hattributes : Advances top (attributes rules fuel))
    (hvalue : Advances top (attributeValue rules fuel))
    (hchildren : Advances top (children rules fuel)) :
    Advances top (attributes rules (fuel + 1)) := by
  refine .bind (.mark? "/>") fun _ _ => .ite (fun _ => .pure trivial) fun _ => ?_
  refine .bind (.mark? ">") fun _ _ => .ite (fun _ => hchildren) fun _ => ?_
  refine .bind (.mark? "\x7b") fun _ _ => .ite (fun _ => ?_) fun _ => ?_
  · exact h.embedded.bind fun _ _ => hattributes
  · exact .bind .markupName fun _ _ => .bind (.mark? ":") fun _ _ => .when (fun _ => .markupName) <|
      .bind (.mark? "=") fun _ _ => .when (fun _ => hvalue) hattributes

protected theorem attributeValue (htail : Advances top (elementTail rules fuel)) :
    Advances top (attributeValue rules (fuel + 1)) := by
  refine .bind .skipped fun s hs => ?_
  split
  · exact .bind (.setTail hs ‹_›) fun _ _ => h.embedded
  · exact .bind (.setTail hs ‹_›) fun _ _ => htail
  · rename_i c cs _ _ heq
    refine .ite (fun _ => ?_) fun _ => .failure
    refine .bind (.scan _) fun rest hrest => .set ?_
    rw [heq] at hs
    exact ((suffix_attributeTail hrest).trans (List.suffix_cons _ _)).trans hs
  · exact .failure

protected theorem children (htail : Advances top (elementTail rules fuel))
    (hchildren : Advances top (children rules fuel)) :
    Advances top (children rules (fuel + 1)) := by
  have htext : Keeps top get fun s => s.dropWhile isMarkupText <:+ top :=
    Keeps.get.imp fun s hs => (List.dropWhile_suffix _).trans hs
  refine .bind htext fun s hs => ?_
  split
  · rename_i cs heq
    rw [heq] at hs
    refine .bind (.setTail ((List.suffix_cons _ _).trans hs) rfl) fun _ _ => ?_
    refine .bind (.mark? ">") fun _ _ => .ite (fun _ => .pure trivial) fun _ => ?_
    exact .bind (.elementName fuel) fun _ _ => .mark ">"
  · exact .bind (.setTail hs ‹_›) fun _ _ => htail.bind fun _ _ => hchildren
  · exact .bind (.setTail hs ‹_›) fun _ _ => h.embedded.bind fun _ _ => hchildren
  · refine .bind (.scan _) fun rest hrest => ?_
    exact .bind (.set ((suffix_characterReference? hrest).trans hs)) fun _ _ => hchildren

protected theorem elementRules (fuel : Nat) :
    Advances top (elementTail rules fuel) ∧ Advances top (attributes rules fuel) ∧
      Advances top (attributeValue rules fuel) ∧ Advances top (children rules fuel) := by
  induction fuel with
  | zero => exact ⟨.failure, .failure, .failure, .failure⟩
  | succ fuel ih =>
    obtain ⟨htail, hattributes, hvalue, hchildren⟩ := ih
    exact ⟨Keeps.elementTail hattributes hchildren, h.attributes hattributes hvalue hchildren,
      h.attributeValue htail, h.children htail hchildren⟩

protected theorem markupElement : Advances top (markupElement rules) :=
  .bind (.mark "<") fun _ _ => (h.elementRules _).1

end Rules.Sound

/-! ### Members of objects, and elements of arrays -/

/-- The pieces of an array literal are the operands among its items. -/
theorem contents_map_token (list : List Item) :
    (list.map Item.token).flatMap ArrayItem.contents =
      (operandsOf list).map fun o => .expression o.expr := by
  induction list with
  | nil => rfl
  | cons item list ih => cases item <;> simp [Item.token, ArrayItem.contents, operandsOf, ih]

namespace Keeps

protected theorem keyFollows : Advances top keyFollows := by
  refine .bind .get fun s _ => ?_
  split
  · exact .pure trivial
  · exact .pure trivial

protected theorem modifier? (inClass star : Bool) (w : String) :
    Advances top (modifier? inClass star w) := by
  refine .bind .get fun start hstart => .bind (.word w) fun _ _ =>
    .ite (fun _ => ?_) fun _ => .pure trivial
  refine .ite_bind (fun _ => .mayEndHere false) (fun _ => .pure trivial) fun _ _ =>
    .bind .keyFollows fun _ _ => ?_
  refine .ite_bind (fun _ => .looking "*") (fun _ => .pure trivial) fun _ _ =>
    .ite (fun _ => .pure trivial) fun _ => ?_
  exact .bind (.set hstart) fun _ _ => .pure trivial

protected theorem modifiers (inClass : Bool) : Advances top (modifiers inClass) := by
  refine .bind .skipped fun s hs => ?_
  extract_lets next
  have hnext (u : Unit) : Advances top (next u) := by
    refine .bind (.modifier? _ _ _) fun _ _ => .bind (.mark? "*") fun _ _ =>
      .ite (fun _ => .pure trivial) fun _ => ?_
    refine .bind (.modifier? _ _ _) fun _ _ => .ite (fun _ => .pure trivial) fun _ => ?_
    refine .bind (.modifier? _ _ _) fun _ _ => .ite (fun _ => .pure trivial) fun _ => ?_
    exact .pure trivial
  split
  · rename_i rest hrest
    exact .bind (.set ((suffix_staticGet? hrest).trans hs)) fun u _ => hnext u
  · exact .bind (.modifier? _ _ _) fun _ _ => hnext ()

end Keeps

namespace Rules.Sound

variable {P : List ArrayItem → Prop} {rules : Rules} (h : rules.Sound P top)

include h

protected theorem memberKey :
    Keeps top (memberKey rules) fun key => ∀ c ∈ key.contents, c.EachArray P := by
  refine .bind .skipped fun s hs => ?_
  dsimp only
  split
  · refine .bind (.setTail hs ‹_›) fun _ _ => (h.singleExpression _).bind fun e he =>
      .bind (.mark "]") fun _ _ => .pure ?_
    exact List.forall_mem_singleton.mpr he
  · exact .bind .privateName fun _ _ => .pure (List.forall_mem_nil _)
  · split
    · rename_i text rest hquoted
      refine .bind (.set ((leaves_quoted? _ text rest hquoted).trans hs)) fun _ _ => ?_
      exact .pure (List.forall_mem_nil _)
    · rename_i text rest _ hnumber
      refine .bind (.set ((leaves_number? _ text rest hnumber).trans hs)) fun _ _ => ?_
      exact .pure (List.forall_mem_nil _)
    · exact .bind .anyWord fun _ _ => .pure (List.forall_mem_nil _)

protected theorem decoratorPath (fuel : Nat) : Advances top (decoratorPath rules fuel) := by
  induction fuel with
  | zero => exact .failure
  | succ fuel ih =>
    refine .bind (.mark? ".") fun _ _ => .ite (fun _ => ?_) fun _ => ?_
    · exact .bind .anyWord fun _ _ => ih
    · refine .bind (.mark? "(") fun _ _ => .ite (fun _ => ?_) fun _ => .pure trivial
      exact h.argumentsTail.bind fun _ _ => .pure trivial

protected theorem decorators (fuel : Nat) : Advances top (decorators rules fuel) := by
  induction fuel with
  | zero => exact .failure
  | succ fuel ih =>
    refine .bind (.mark? "@") fun _ _ => .ite (fun _ => ?_) fun _ => .pure trivial
    exact .bind .name fun _ _ => (h.decoratorPath _).bind fun _ _ => ih

protected theorem objectMember :
    Keeps top (objectMember rules) fun found =>
      ∀ m ∈ found.1, (Piece.member m).EachArray P := by
  refine .bind (.mark? "...") fun _ _ => .ite (fun _ => ?_) fun _ => ?_
  · refine (h.expression 0 Mode.inner).bind fun o ho => .pure ?_
    rintro _ ⟨⟩
    exact .single rfl rfl ho
  · refine .bind .peek? fun _ _ => (h.decorators _).bind fun _ _ => .bind (.modifiers false)
      fun marks _ => h.memberKey.bind fun key hkey => .bind .peek? fun _ _ => ?_
    refine .ite (fun _ => ?_) fun _ => ?_
    · refine h.parameters.bind fun params hparams => h.block.bind fun body hbody => .pure ?_
      rintro _ ⟨⟩
      refine .node rfl (List.forall_mem_append.mpr ⟨hkey, List.forall_mem_append.mpr ⟨?_, ?_⟩⟩)
      · exact List.forall_mem_map.mpr hparams
      · exact List.forall_mem_map.mpr hbody
    · refine .ite (fun _ => .failure_bind) fun _ => ?_
      refine .bind (.mark? ":") fun _ _ => .ite (fun _ => ?_) fun _ => ?_
      · refine (h.expression 0 Mode.inner).bind fun o ho => .pure ?_
        rintro _ ⟨⟩
        exact .node rfl (List.forall_mem_append.mpr ⟨hkey, List.forall_mem_singleton.mpr ho⟩)
      · split
        · refine .bind .equals? fun _ _ => .ite (fun _ => ?_) fun _ => .pure ?_
          · exact (h.singleExpression _).bind fun _ _ => .pure fun _ hnone => nomatch hnone
          · rintro _ ⟨⟩
            exact .leaf rfl rfl
        · exact .failure

protected theorem objectParts (fuel : Nat) (after : Bool) :
    Keeps top (objectParts rules fuel after) fun parts =>
      ∀ m ∈ parts.members, (Piece.member m).EachArray P := by
  induction fuel generalizing after with
  | zero => exact .failure
  | succ fuel ih =>
    refine .bind .skipped fun s hs => ?_
    dsimp only
    split
    · exact .failure
    · refine .ite (fun _ => ?_) fun _ => .ite (fun _ => ?_) fun _ =>
        .ite (fun _ => .failure) fun _ => ?_
      · exact .bind (.setTail hs ‹_›) fun _ _ => .pure (List.forall_mem_nil _)
      · exact .bind (.setTail hs ‹_›) fun _ _ => ih false
      · refine h.objectMember.bind fun found hfound => (ih true).bind fun parts hparts => .pure ?_
        refine List.forall_mem_append.mpr ⟨fun m hm => hfound m ?_, hparts⟩
        exact Option.mem_toList.mp hm

protected theorem objectTail : KeepsOperand P top (objectTail rules) := by
  refine (h.objectParts _ _).bind fun parts hparts => .pure ?_
  exact .node rfl (List.forall_mem_map.mpr hparts)

/-- The tokens of an array literal have a text between brackets, which is what the property of
array literals is taken from. -/
protected theorem arrayTail {text : List Char} (htext : '[' :: text <:+ top) :
    KeepsOperand P top (set text >>= fun _ => arrayTail rules) := by
  intro s o t _ hrun
  rw [run_set_bind, arrayTail] at hrun
  obtain ⟨list, between, hitems, hpure⟩ := run_bind_eq_some hrun
  cases hpure
  have hinner : text <:+ top := (List.suffix_cons _ _).trans htext
  obtain ⟨hrest, hoperands⟩ := h.items ']' _ _ text list t hinner hitems
  have helement : ∀ s o t, s <:+ top → (element rules).run s = some (o, t) → t <:+ s :=
    fun s o t hs helement => ((h.of_suffix hs).element s o t (List.suffix_refl s) helement).1
  refine ⟨hrest, ?_⟩
  change (Piece.expression (.array (list.map Item.token))).EachArray P
  refine .array (h.literal htext (bracketed_of_run_items helement hinner hitems)) ?_
  rw [contents_map_token]
  exact List.forall_mem_map.mpr hoperands

protected theorem destructuring : Keeps top (destructuring rules) fun p => p.contents = [] := by
  refine .bind (.mark? "[") fun _ _ => .ite (fun _ => ?_) fun _ => ?_
  · refine .bind ((h.items _ _ _).advances.bind fun _ _ => Advances.pure) fun o _ => ?_
    exact .ite (fun _ => .pure rfl) fun _ => .failure
  · refine .bind (.mark "\x7b") fun _ _ => h.objectTail.bind fun o _ => ?_
    exact .ite (fun _ => .pure rfl) fun _ => .failure

/-- The target of a declaration has no pieces. -/
protected theorem bindingTarget : Keeps top (bindingTarget rules) fun p => p.contents = [] := by
  refine .bind .peek? fun _ _ => ?_
  split
  · exact h.destructuring
  · exact h.destructuring
  · exact .bind .name fun _ _ => .pure rfl

/-! ### Members of classes -/

protected theorem fieldTail : Advances top (fieldTail rules) := by
  refine .bind .equals? fun _ _ => .ite (fun _ => ?_) fun _ => .semicolon false
  exact (h.singleExpression _).bind fun _ _ => .semicolon true

protected theorem classMember : Advances top (classMember rules) := by
  refine (h.decorators _).bind fun _ _ => .bind (.modifiers true) fun _ _ =>
    h.memberKey.bind fun _ _ => .bind .peek? fun _ _ => .ite (fun _ => ?_) fun _ => ?_
  · exact h.parameters.bind fun _ _ => h.block.bind fun _ _ => .pure trivial
  · exact .ite (fun _ => .failure) fun _ => h.fieldTail

protected theorem staticBlock : Advances top (staticBlock rules) :=
  .bind (.expectWord "static") fun _ _ => h.block.bind fun _ _ => .pure trivial

protected theorem classMembers (fuel : Nat) : Advances top (classMembers rules fuel) := by
  induction fuel with
  | zero => exact .failure
  | succ fuel ih =>
    refine .bind (.mark? "\x7d") fun _ _ => .ite (fun _ => .pure trivial) fun _ => ?_
    refine .bind (.mark? ";") fun _ _ => .ite (fun _ => ih) fun _ => ?_
    exact (h.staticBlock.orElse h.classMember).bind fun _ _ => ih

protected theorem classTail : Advances top (classTail rules) := by
  refine .bind .peekWord? fun _ _ => ?_
  extract_lets next
  have hnext (named : Bool) : Advances top (next named) := by
    refine .bind (.word "extends") fun _ _ => .when (fun _ => h.singleExpression _) ?_
    exact .bind (.mark "\x7b") fun _ _ => (h.classMembers _).bind fun _ _ => .pure trivial
  split
  · refine .ite (fun _ => ?_) fun _ => ?_
    · exact Advances.pure.bind fun named _ => hnext named
    · exact .bind .name fun _ _ => Advances.pure.bind fun named _ => hnext named
  · exact Advances.pure.bind fun named _ => hnext named

end Rules.Sound

end Script

end ScriptWire
