import ScriptWire.Document.Parser
import ScriptWire.Estree.Plan

/-!
# Reading trees from documents

The members of an object are visited in the order of their keys and the first fault is reported;
parts that are missing are noticed after that, in the order of the form. Members that no part has
the name of are ignored. A node may also be an array of its kind and its parts in order.

## Main definitions

- `Estree.readValue` — what stands at a place
- `Estree.readProgram` — the program in a document
- `Estree.read` — the program in the text of a document
-/

namespace ScriptWire

namespace Estree

open Document (Value)
open ScriptWire.Tree

mutual

/-- What is read from a value at a place. -/
def readValue (bare : Bool) (place : Place) : Value → Except Fault place.Result
  | .object members =>
    match place.objectPlan bare members with
    | .give result => result
    | .fill form bare => do
      let row ← readMembers bare form.entries (Row.empty form.entries) members
      let parts ← row.complete form.entries
      return form.build parts
  | .array items =>
    match place.arrayPlan bare items.head? with
    | .give result => result
    | .each item gather => do
      return gather (← readItems bare item items)
    | .fill form bare => do
      let (parts, extra) ← readParts bare form.title form.entries.length form.entries 0 items
      if extra then .error (excess bare items.length form.entries.length)
      else return form.build parts
    | .fillRest form =>
      match items with
      | [] => .error (.missing "type")
      | _ :: items => do
        let (parts, extra) ← readParts false form.title form.entries.length form.entries 0 items
        if extra then .error (excess false items.length form.entries.length)
        else return form.build parts
  | v => place.scalar v

/-- What is read from the items of a list. -/
def readItems (bare : Bool) (place : Place) : List Value → Except Fault (List place.Result)
  | [] => return []
  | v :: rest => do
    let x ← readValue bare place v
    return x :: (← readItems bare place rest)

/-- The parts that the elements of an array stand for, and whether more elements follow. -/
def readParts (bare : Bool) (title : String) (total : Nat) (es : List Entry) (index : Nat) :
    List Value → Except Fault (Full es × Bool)
  | [] => do
    return (← cut title total es index, false)
  | v :: rest =>
    match es with
    | [] => return ((), true)
    | e :: es => do
      let x ← readValue bare e.place v
      let (parts, extra) ← readParts bare title total es (index + 1) rest
      return ((x, parts), extra)

/-- The parts that the members of an object stand for, added to those that were read. -/
def readMembers (bare : Bool) (es : List Entry) (row : Row es) :
    List (String × Value) → Except Fault (Row es)
  | [] => return row
  | (key, v) :: rest =>
    match spot? es key with
    | none => readMembers bare es row rest
    | some spot => do
      let x ← readValue bare spot.place v
      readMembers bare es (spot.put x row) rest

end

/-- Why a text gives no tree. -/
inductive ReadError
  /-- The text is no document. -/
  | text (cause : Document.TextError)
  /-- The document is no tree. -/
  | fault (cause : Fault)
  /-- The document does not name the kind of its root. -/
  | untyped
  /-- The root is a file, but has no program. -/
  | noProgram
  /-- The root is of a kind that holds no program. -/
  | root (kind : String)
deriving DecidableEq

/-- The program that a value stands for. -/
def readProgram (v : Value) : Except Fault Program := do
  return ⟨← readValue true (.record .block) v⟩

/-- The value of the program in a document: its root, or a member of a file. -/
def programValue (root : Value) : Except ReadError Value :=
  match root with
  | .object members =>
    match Document.lookup? "type" members with
    | some (.string "File") =>
      match Document.lookup? "program" members with
      | some v => .ok v
      | none => .error .noProgram
    | some (.string "Program") => .ok root
    | some (.string kind) => .error (.root kind)
    | _ => .error .untyped
  | _ => .error .untyped

/-- The program in a document. -/
def readDocument (root : Value) : Except ReadError Program := do
  let v ← programValue root
  (readProgram v).mapError .fault

/-- The program in the text of a document. -/
def read (source : String) : Except ReadError Program := do
  let root ← (Document.parse source).mapError .text
  readDocument root

end Estree

end ScriptWire
