import ScriptWire.Document.Value
import Mathlib.Data.List.Basic

/-!
# Members of objects

## Main definitions

- `Document.keys` — the keys of members
- `Document.Ascending` — members in ascending order of their keys

## Main results

- `Document.lookup?_ofMembers` — the value of a key among sorted members
- `Document.ascending_ofMembers` — sorted members are in ascending order, each key once
-/

namespace ScriptWire

namespace Document

variable {key k : String} {v : Value} {members : List (String × Value)}

/-- The keys of members. -/
def keys (members : List (String × Value)) : List String :=
  members.map Prod.fst

/-- The keys of members are in ascending order. -/
def Ascending (members : List (String × Value)) : Prop :=
  (keys members).Pairwise (· < ·)

theorem Ascending.nodup (h : Ascending members) : (keys members).Nodup := by
  refine List.Pairwise.imp ?_ h
  rintro a _ hlt rfl
  exact String.lt_irrefl a hlt

theorem lookup?_eq_none_iff : lookup? k members = none ↔ k ∉ keys members := by
  induction members with
  | nil => simp [lookup?, keys]
  | cons member rest ih =>
    obtain ⟨key, v⟩ := member
    by_cases h : key = k
    · simp [lookup?, keys, h]
    · rw [lookup?, if_neg h, ih]
      simp [keys, Ne.symm h]

theorem lookup?_cons_of_ne (h : key ≠ k) (v : Value) (members : List (String × Value)) :
    lookup? k ((key, v) :: members) = lookup? k members := by
  rw [lookup?, if_neg h]

theorem lookup?_append (k : String) (first second : List (String × Value)) :
    lookup? k (first ++ second) = (lookup? k first).or (lookup? k second) := by
  induction first with
  | nil => rfl
  | cons member rest ih =>
    rw [List.cons_append, lookup?, lookup?, ih]
    split <;> rfl

theorem lookup?_eq_some_of_mem (hkeys : (keys members).Nodup) (h : (k, v) ∈ members) :
    lookup? k members = some v := by
  induction members with
  | nil => cases h
  | cons member rest ih =>
    obtain ⟨hkey, hrest⟩ := List.nodup_cons.mp hkeys
    rcases List.mem_cons.mp h with rfl | hmem
    · rw [lookup?, if_pos rfl]
    · have hne : member.1 ≠ k := by
        rintro rfl
        exact hkey (List.mem_map.mpr ⟨_, hmem, rfl⟩)
      rw [lookup?_cons_of_ne hne member.2 rest]
      exact ih hrest hmem

theorem mem_of_lookup? (h : lookup? k members = some v) : (k, v) ∈ members := by
  induction members with
  | nil => cases h
  | cons member rest ih =>
    obtain ⟨key, value⟩ := member
    rw [lookup?] at h
    by_cases hkey : key = k
    · rw [if_pos hkey] at h
      cases h
      exact hkey ▸ List.mem_cons_self
    · rw [if_neg hkey] at h
      exact List.mem_cons_of_mem _ (ih h)

/-- A member that is put among others hides the one with the same key, and only that one. -/
theorem lookup?_insert :
    lookup? k (insert key v members) = if key = k then some v else lookup? k members := by
  induction members with
  | nil => rfl
  | cons member rest ih =>
    obtain ⟨other, value⟩ := member
    rw [insert]
    by_cases hlt : key < other
    · rw [if_pos hlt, lookup?]
    · rw [if_neg hlt]
      by_cases heq : key = other
      · rw [if_pos heq, lookup?, heq]
        by_cases hk : other = k <;> simp [lookup?, hk]
      · rw [if_neg heq, lookup?, ih]
        by_cases hother : other = k
        · rw [if_pos hother, if_neg (hother ▸ heq), lookup?, if_pos hother]
        · rw [if_neg hother, lookup?, if_neg hother]

theorem mem_keys_insert (h : k ∈ keys (insert key v members)) : k = key ∨ k ∈ keys members := by
  by_contra hnot
  obtain ⟨hkey, hmember⟩ := not_or.mp hnot
  have hnone : lookup? k (insert key v members) = none := by
    rw [lookup?_insert, if_neg (Ne.symm hkey), lookup?_eq_none_iff.mpr hmember]
  exact lookup?_eq_none_iff.mp hnone h

theorem Ascending.insert (h : Ascending members) (key : String) (v : Value) :
    Ascending (insert key v members) := by
  induction members with
  | nil => simp [Document.insert, Ascending, keys]
  | cons member rest ih =>
    obtain ⟨other, value⟩ := member
    obtain ⟨hother, hrest⟩ := List.pairwise_cons.mp h
    rw [Document.insert]
    by_cases hlt : key < other
    · rw [if_pos hlt]
      refine List.pairwise_cons.mpr ⟨fun k hk => ?_, h⟩
      rcases List.mem_cons.mp hk with rfl | hmem
      · exact hlt
      · exact String.lt_trans hlt (hother k hmem)
    · rw [if_neg hlt]
      by_cases heq : key = other
      · rw [if_pos heq, heq]
        exact h
      · rw [if_neg heq]
        have hgt : other < key := by
          by_contra hnot
          exact heq (String.le_antisymm (String.not_lt.mp hnot) (String.not_lt.mp hlt))
        refine List.pairwise_cons.mpr ⟨fun k hk => ?_, ih hrest⟩
        rcases mem_keys_insert hk with rfl | hmem
        · exact hgt
        · exact hother k hmem

theorem foldl_insert (members sorted : List (String × Value)) :
    (Ascending sorted →
      Ascending (members.foldl (fun sorted (k, v) => insert k v sorted) sorted)) ∧
      ∀ k, lookup? k (members.foldl (fun sorted (k, v) => insert k v sorted) sorted) =
        (lookup? k members.reverse).or (lookup? k sorted) := by
  induction members generalizing sorted with
  | nil => exact ⟨id, fun _ => rfl⟩
  | cons member rest ih =>
    obtain ⟨hascending, hlookup⟩ := ih (insert member.1 member.2 sorted)
    refine ⟨fun h => hascending (h.insert _ _), fun k => ?_⟩
    rw [List.foldl_cons, hlookup, List.reverse_cons, lookup?_append, lookup?_insert,
      Option.or_assoc]
    congr 1
    rw [lookup?]
    split <;> rfl

theorem ascending_ofMembers (members : List (String × Value)) : Ascending (ofMembers members) :=
  (foldl_insert members []).1 List.Pairwise.nil

/-- Among sorted members, a key has the last value that it was given. -/
theorem lookup?_ofMembers (k : String) (members : List (String × Value)) :
    lookup? k (ofMembers members) = lookup? k members.reverse := by
  rw [ofMembers, (foldl_insert members []).2 k, lookup?, Option.or_none]

end Document

end ScriptWire
