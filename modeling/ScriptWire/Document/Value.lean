import ScriptWire.Binary64.Basic

/-!
# Documents

A document is a value with objects and arrays inside each other. A document that is read has the
members of each object in ascending order of their keys, each key once.

## Main definitions

- `Document.Value` — a value
- `Document.insert` — a member put among others, in place of one with the same key
- `Document.Value.sameAs` — equality of values, numbers compared as numbers
-/

namespace ScriptWire

namespace Document

/-- A value. A number that is written without point and exponent is an integer. -/
inductive Value
  | null
  | boolean (value : Bool)
  | integer (value : Int)
  | float (value : Binary64)
  | string (text : String)
  | array (items : List Value)
  | object (members : List (String × Value))

instance : Inhabited Value :=
  ⟨.null⟩

/-- The members with one more, in ascending order of keys. A member with the same key is
replaced. -/
def insert (key : String) (value : Value) : List (String × Value) → List (String × Value)
  | [] => [(key, value)]
  | (k, v) :: rest =>
    if key < k then (key, value) :: (k, v) :: rest
    else if key = k then (key, value) :: rest
    else (k, v) :: insert key value rest

/-- The members in ascending order of keys, the last of several with one key. -/
def ofMembers (members : List (String × Value)) : List (String × Value) :=
  members.foldl (fun sorted (k, v) => insert k v sorted) []

/-- The value of a key. -/
def lookup? (key : String) : List (String × Value) → Option Value
  | [] => none
  | (k, v) :: rest => if k = key then some v else lookup? key rest

mutual

/-- Two values are the same, numbers being compared as numbers. -/
def Value.sameAs : Value → Value → Bool
  | .null, .null => true
  | .boolean a, .boolean b => a == b
  | .integer a, .integer b => a == b
  | .float a, .float b => a.sameNumber b
  | .string a, .string b => a == b
  | .array as, .array bs => sameItems as bs
  | .object as, .object bs => sameMembers as bs
  | _, _ => false

/-- The same for the items of arrays. -/
def sameItems : List Value → List Value → Bool
  | [], [] => true
  | a :: as, b :: bs => a.sameAs b && sameItems as bs
  | _, _ => false

/-- The same for the members of objects. -/
def sameMembers : List (String × Value) → List (String × Value) → Bool
  | [], [] => true
  | (k, a) :: as, (l, b) :: bs => k == l && a.sameAs b && sameMembers as bs
  | _, _ => false

end

end Document

end ScriptWire
