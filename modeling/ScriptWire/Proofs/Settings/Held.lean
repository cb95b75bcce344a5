import ScriptWire.Proofs.Toml.Plain
import ScriptWire.Settings.Basic

/-!
# The settings that a configuration holds

Three keys have a meaning, each in a section of its own. A table holds settings if each of the keys
is absent or has a value that makes sense; one key with a senseless value makes the whole table hold
nothing.

## Main definitions

- `Settings.Sets` — what a table sets a key to
- `Settings.HeldBy` — the settings that a table holds
- `Settings.TakenFrom` — the settings that count for a table, whether it holds any or not

## Main results

- `Settings.ofTable?_eq_some_iff` — the settings that are found are those that the table holds
- `Settings.getD_ofText?_eq_iff` — the settings that count for a text are those of its table
-/

namespace ScriptWire

theorem Format.ofName?_eq_some_iff {name : String} {f : Format} :
    ofName? name = some f ↔ name = f.name := by
  constructor
  · intro h
    have hname := List.find?_some h
    exact (of_decide_eq_true hname).symm
  · rintro rfl
    cases f <;> rfl

namespace Settings

/-- What a section has under its only key. -/
inductive SectionHas (key : String) : Toml.Value → Option Toml.Value → Prop
  | table (origin : Toml.Origin) (members : Toml.Table) :
      SectionHas key (.table origin members) (members.lookup key)
  /-- The value stands first in an array, if the array has any. -/
  | array (items : List Toml.Value) : SectionHas key (.array items) items.head?
  /-- The first of the tables under a repeated header is the value. -/
  | tables (first last : Toml.Table) (between : List Toml.Table) :
      SectionHas key (.tables (first :: between) last) (some (.table .header first))
  | onlyTable (last : Toml.Table) :
      SectionHas key (.tables [] last) (some (.table .header last))
  /-- A moment is a section without any key. -/
  | moment : SectionHas key .moment none

/-- What a table sets a key in a section to, where `Means` tells what a value means. -/
inductive Sets {α : Type} (t : Toml.Table) (sectionName key : String)
    (Means : Toml.Value → α → Prop) : Option α → Prop
  | noSection (h : t.lookup sectionName = none) : Sets t sectionName key Means none
  | noKey {inner : Toml.Value} (hinner : t.lookup sectionName = some inner)
      (h : SectionHas key inner none) : Sets t sectionName key Means none
  | value {inner v : Toml.Value} {a : α} (hinner : t.lookup sectionName = some inner)
      (hv : SectionHas key inner (some v)) (h : Means v a) : Sets t sectionName key Means (some a)

/-- How a value names a format: as a string, or as the only key of a table, with an empty array or
table under it. -/
inductive NamesFormat : Toml.Value → Format → Prop
  | string (f : Format) : NamesFormat (.string f.name) f
  | emptyArray (origin : Toml.Origin) (f : Format) :
      NamesFormat (.table origin [(f.name, .array [])]) f
  | emptyTable (origin inner : Toml.Origin) (f : Format) :
      NamesFormat (.table origin [(f.name, .table inner [])]) f

/-- The settings that a table holds. -/
structure HeldBy (s : Settings) (t : Toml.Table) : Prop where
  maxDepth : Sets t "compiler" "max_depth" (fun v (n : Nat) => v = .integer n) s.maxDepth
  format : Sets t "input" "format" NamesFormat s.format
  dump : Sets t "output" "dump" (fun v b => v = .boolean b) s.dump

/-- The settings that count for a table: those that it holds. One that holds none sets nothing. -/
def TakenFrom (s : Settings) (t : Toml.Table) : Prop :=
  s.HeldBy t ∨ s = .unset ∧ ∀ other : Settings, ¬ other.HeldBy t

variable {s : Settings} {t : Toml.Table} {v : Toml.Value}

theorem sectionValue?_eq_some_iff {key : String} {held : Option Toml.Value} :
    sectionValue? key v = some held ↔ SectionHas key v held := by
  constructor
  · intro h
    cases v with
    | table origin members =>
      obtain rfl := Option.some.inj h
      exact .table origin members
    | array items =>
      obtain rfl := Option.some.inj h
      exact .array items
    | tables earlier last =>
      obtain rfl := Option.some.inj h
      cases earlier with
      | nil => exact .onlyTable last
      | cons first between => exact .tables first last between
    | moment =>
      obtain rfl := Option.some.inj h
      exact .moment
    | _ => cases h
  · rintro (_ | _ | _ | _ | _) <;> rfl

theorem key?_eq_some_iff {α : Type} {sectionName key : String} {convert : Toml.Value → Option α}
    {Means : Toml.Value → α → Prop} (hconvert : ∀ v a, convert v = some a ↔ Means v a)
    {result : Option α} :
    key? t sectionName key convert = some result ↔ Sets t sectionName key Means result := by
  rw [key?, Toml.Table.get?]
  constructor
  · intro h
    split at h
    · rename_i hinner
      obtain rfl := Option.some.inj h
      exact .noSection hinner
    · rename_i inner hinner
      split at h
      · cases h
      · rename_i hheld
        obtain rfl := Option.some.inj h
        exact .noKey hinner (sectionValue?_eq_some_iff.mp hheld)
      · rename_i v hheld
        obtain ⟨a, ha, rfl⟩ := Option.map_eq_some_iff.mp h
        exact .value hinner (sectionValue?_eq_some_iff.mp hheld) ((hconvert v a).mp ha)
  · rintro (hinner | ⟨hinner, hheld⟩ | ⟨hinner, hheld, hmeans⟩)
    · rw [hinner]
    · simp only [hinner, sectionValue?_eq_some_iff.mpr hheld]
    · simp only [hinner, sectionValue?_eq_some_iff.mpr hheld, (hconvert _ _).mpr hmeans,
        Option.map_some]

theorem depthOf?_eq_some_iff (v : Toml.Value) (n : Nat) : depthOf? v = some n ↔ v = .integer n := by
  constructor
  · intro h
    rw [depthOf?.eq_def] at h
    split at h
    · obtain rfl := Option.some.inj h
      rfl
    · cases h
  · rintro rfl
    rfl

theorem formatOf?_eq_some_iff (v : Toml.Value) (f : Format) :
    formatOf? v = some f ↔ NamesFormat v f := by
  constructor
  · intro h
    rw [formatOf?.eq_def] at h
    split at h
    · obtain rfl := Format.ofName?_eq_some_iff.mp h
      exact .string f
    · rename_i origin name inner
      obtain ⟨hempty, hname⟩ := Option.ite_none_right_eq_some.mp h
      obtain rfl := Format.ofName?_eq_some_iff.mp hname
      cases inner with
      | array items =>
        obtain rfl := List.isEmpty_iff.mp hempty
        exact .emptyArray origin f
      | table innerOrigin members =>
        obtain rfl := List.isEmpty_iff.mp hempty
        exact .emptyTable origin innerOrigin f
      | _ => cases hempty
    · cases h
  · rintro (_ | _ | _) <;> exact Format.ofName?_eq_some_iff.mpr rfl

theorem booleanOf?_eq_some_iff (v : Toml.Value) (b : Bool) :
    booleanOf? v = some b ↔ v = .boolean b := by
  cases v <;> simp [booleanOf?]

/-- The settings that are found in a table are those that it holds. -/
theorem ofTable?_eq_some_iff : ofTable? t = some s ↔ s.HeldBy t := by
  have hkeys : ofTable? t = some s ↔
      key? t "compiler" "max_depth" depthOf? = some s.maxDepth ∧
        key? t "input" "format" formatOf? = some s.format ∧
        key? t "output" "dump" booleanOf? = some s.dump := by
    simp only [ofTable?, Option.bind_eq_bind, Option.bind_eq_some_iff, pure, Option.some.injEq]
    constructor
    · rintro ⟨maxDepth, hdepth, format, hformat, dump, hdump, rfl⟩
      exact ⟨hdepth, hformat, hdump⟩
    · rintro ⟨hdepth, hformat, hdump⟩
      exact ⟨_, hdepth, _, hformat, _, hdump, rfl⟩
  rw [hkeys, key?_eq_some_iff depthOf?_eq_some_iff, key?_eq_some_iff formatOf?_eq_some_iff,
    key?_eq_some_iff booleanOf?_eq_some_iff]
  exact ⟨fun ⟨hdepth, hformat, hdump⟩ => ⟨hdepth, hformat, hdump⟩,
    fun h => ⟨h.maxDepth, h.format, h.dump⟩⟩

/-- The settings that count for a text are those that count for its table. -/
theorem getD_ofText?_eq_iff {text : String} (h : Toml.parse? text = some t) :
    (ofText? text).getD .unset = s ↔ s.TakenFrom t := by
  have htable : ofText? text = ofTable? t := by
    rw [ofText?, h]
    rfl
  rw [htable]
  cases hheld : ofTable? t with
  | some found =>
    have hfound : found.HeldBy t := ofTable?_eq_some_iff.mp hheld
    constructor
    · rintro rfl
      exact .inl hfound
    · rintro (hs | ⟨-, hnone⟩)
      · exact Option.some.inj (hheld.symm.trans (ofTable?_eq_some_iff.mpr hs))
      · exact absurd hfound (hnone found)
  | none =>
    have hnone (other : Settings) : ¬ other.HeldBy t := by
      rw [← ofTable?_eq_some_iff, hheld]
      exact Option.some_ne_none other ∘ Eq.symm
    constructor
    · rintro rfl
      exact .inr ⟨rfl, hnone⟩
    · rintro (hs | ⟨rfl, -⟩)
      · exact absurd hs (hnone s)
      · rfl

end Settings

end ScriptWire
