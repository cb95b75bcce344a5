/-!
# TOML values

The value of a TOML text is a table. A table remembers how it came to be, because that decides what
may still be added to it.

## Main definitions

- `Toml.Value`, `Toml.Table` — values, and keys with values
- `Toml.Table.define` — a value under a dotted key
- `Toml.Table.openTable`, `Toml.Table.openItem` — the headers of tables
- `Toml.Table.reach` — work on the table that a path leads to
-/

namespace ScriptWire

namespace Toml

/-- How a table came to be. -/
inductive Origin
  /-- It lies on the way to a table with a header. -/
  | implied
  /-- It lies on the way to the last part of a dotted key. -/
  | dotted
  /-- It has a header of its own. -/
  | header
  /-- It is written as a value. -/
  | inline
deriving DecidableEq

/-- A value. Numbers with a fraction and moments are kept without their value. -/
inductive Value
  | string (text : String)
  | integer (n : Int)
  | fraction
  | boolean (b : Bool)
  | moment
  | array (items : List Value)
  | table (origin : Origin) (members : List (String × Value))
  /-- Tables under one repeated header: those before the last, and the last. -/
  | tables (earlier : List (List (String × Value))) (last : List (String × Value))

/-- The value is an array or a table that holds nothing. -/
def Value.isEmpty : Value → Bool
  | .array items => items.isEmpty
  | .table _ members => members.isEmpty
  | _ => false

/-- Keys with values. -/
abbrev Table := List (String × Value)

namespace Table

/-- The value of a key. -/
def get? (t : Table) (key : String) : Option Value :=
  t.lookup key

/-- The table with a value for a key, in the place of one that is there. -/
def put (key : String) (v : Value) : Table → Table
  | [] => [(key, v)]
  | (k, w) :: rest => if k = key then (k, v) :: rest else (k, w) :: put key v rest

/-- The table with a value under a dotted key, given by the parts before the last and the last. The
last part must be new, and stand in a table that only dotted keys have made. -/
def define (key : String) (v : Value) : List String → Table → Option Table
  | [], t => if (t.get? key).isSome then none else some (t.put key v)
  | part :: parts, t =>
    match t.get? part with
    | none => do
      return t.put part (.table .dotted (← define key v parts []))
    | some (.table .dotted inner) => do
      return t.put part (.table .dotted (← define key v parts inner))
    | some (.table .implied inner) =>
      if parts.isEmpty then none
      else do
        return t.put part (.table .implied (← define key v parts inner))
    | some (.tables earlier last) =>
      if parts.isEmpty then none
      else do
        return t.put part (.tables earlier (← define key v parts last))
    | _ => none

/-- The table after `work` on the table that a path leads to. Tables that are missing on the way are
made, and of tables under one header the last is taken. -/
def reach (work : Table → Option Table) : List String → Table → Option Table
  | [], t => work t
  | part :: parts, t =>
    match t.get? part with
    | none => do
      return t.put part (.table .implied (← reach work parts []))
    | some (.table .inline _) => none
    | some (.table origin inner) => do
      return t.put part (.table origin (← reach work parts inner))
    | some (.tables earlier last) => do
      return t.put part (.tables earlier (← reach work parts last))
    | _ => none

/-- The table with a table under a header of its own. -/
def openTable (key : String) (t : Table) : Option Table :=
  match t.get? key with
  | none => some (t.put key (.table .header []))
  | some (.table .implied inner) => some (t.put key (.table .header inner))
  | _ => none

/-- The table with one more table under a repeated header. -/
def openItem (key : String) (t : Table) : Option Table :=
  match t.get? key with
  | none => some (t.put key (.tables [] []))
  | some (.tables earlier last) => some (t.put key (.tables (earlier ++ [last]) []))
  | _ => none

end Table

end Toml

end ScriptWire
