import ScriptWire.Files.Disk
import Mathlib.Data.List.Basic

/-!
# What is written is read

A file that is written under a path is found under the same path, since no directory on the way to
it is lost. All other files and all directories stay as they were.

## Main results

- `Disk.isDirectory_of_write` — the directories of a disk stay as they were when a file is written
- `Disk.read_of_write` — reading under the path of a file that was written
- `Disk.file?_of_write` — the one file that writing changes
-/

namespace ScriptWire

theorem Path.parts_ne_nil (path : String) : parts path ≠ [] := by
  have hpieces (cs : List Char) : pieces cs ≠ [] := by
    induction cs with
    | nil => exact List.cons_ne_nil _ _
    | cons c cs ih =>
      rw [pieces]
      split
      · exact List.cons_ne_nil _ _
      · split <;> exact List.cons_ne_nil _ _
  rw [parts, ne_eq, List.map_eq_nil_iff]
  exact hpieces path.toList

namespace Disk

variable {disk after : Disk} {place directory working : List String} {bytes : Wire.Bytes}

theorem isDirectory_iff :
    disk.isDirectory place = true ↔ place = [] ∨ ∃ listed ∈ disk.contents,
      place <+: listed.1 ∧ (place.length < listed.1.length ∨ listed.2 = .directory) := by
  simp only [isDirectory, Bool.or_eq_true, List.isEmpty_iff, List.any_eq_true, Bool.and_eq_true,
    List.isPrefixOf_iff_prefix, decide_eq_true_iff]

theorem isDirectory_of_isPrefix (h : disk.isDirectory place = true) (hway : directory <+: place) :
    disk.isDirectory directory = true := by
  rw [isDirectory_iff] at h ⊢
  rcases h with rfl | ⟨listed, hlisted, hplace, hentry⟩
  · exact .inl (List.prefix_nil.mp hway)
  · refine .inr ⟨listed, hlisted, hway.trans hplace, hentry.imp_left fun hlt => ?_⟩
    exact Nat.lt_of_le_of_lt hway.length_le hlt

/-- Every place on the way to a place is a directory. -/
def Reachable (disk : Disk) (place : List String) : Prop :=
  ∀ directory, directory <+: place → directory ≠ place → disk.isDirectory directory = true

theorem reachable_step (h : disk.isDirectory place = true) (name : String) :
    disk.Reachable (Path.step place name) := by
  intro directory hway hne
  refine isDirectory_of_isPrefix h ?_
  rw [Path.step] at hway hne
  split at hway
  · exact hway
  · rename_i hidle
    rw [if_neg hidle] at hne
    split at hway
    · exact hway.trans <| List.dropLast_prefix place
    · rename_i hup
      rw [if_neg hup] at hne
      exact (List.prefix_concat_iff.mp hway).resolve_left hne

theorem reachable_of_locate {names start : List String} (hstart : disk.Reachable start)
    (h : disk.locate names start = .ok place) : disk.Reachable place := by
  induction names generalizing start with
  | nil =>
    cases h
    exact hstart
  | cons name names ih =>
    rw [locate] at h
    split at h
    · rename_i hdirectory
      exact ih (reachable_step hdirectory name) h
    · split at h <;> cases h

theorem file?_put : (disk.put place bytes).file? place = some bytes := by
  rw [file?, put, List.lookup_cons_self]

theorem lookup_filter_ne {other : List String} (h : other ≠ place)
    (contents : List (List String × Entry)) :
    (contents.filter fun listed => listed.1 ≠ place).lookup other = contents.lookup other := by
  induction contents with
  | nil => rfl
  | cons listed rest ih =>
    by_cases hlisted : listed.1 = place
    · rw [List.filter_cons_of_neg (by simp [hlisted]), ih, List.lookup_cons,
        beq_false_of_ne (hlisted ▸ h)]
    · rw [List.filter_cons_of_pos (by simp [hlisted]), List.lookup_cons, List.lookup_cons, ih]

theorem file?_put_of_ne {other : List String} (h : other ≠ place) :
    (disk.put place bytes).file? other = disk.file? other := by
  rw [file?, put, List.lookup_cons, beq_false_of_ne h]
  simp only [lookup_filter_ne h disk.contents, file?]

/-- A file that is put where no directory is makes no directory and takes none away. -/
theorem isDirectory_put (hplace : disk.isDirectory place = false) (hway : disk.Reachable place)
    (directory : List String) :
    (disk.put place bytes).isDirectory directory = disk.isDirectory directory := by
  rw [Bool.eq_iff_iff]
  constructor
  · intro h
    rcases isDirectory_iff.mp h with rfl | ⟨listed, hlisted, hleads, hentry⟩
    · rfl
    · rcases List.mem_cons.mp hlisted with rfl | hlisted
      · have hlt : directory.length < place.length := hentry.resolve_right (by simp)
        exact hway directory hleads fun heq => Nat.ne_of_lt hlt (congrArg List.length heq)
      · exact isDirectory_iff.mpr
          (.inr ⟨listed, (List.mem_filter.mp hlisted).1, hleads, hentry⟩)
  · intro h
    rcases isDirectory_iff.mp h with rfl | ⟨listed, hlisted, hleads, hentry⟩
    · rfl
    · by_cases hlisted' : listed.1 = place
      · -- The entry is replaced; a directory on the way to its place is on the way to the new file.
        have hne : directory ≠ place := by
          rintro rfl
          exact absurd h (by simp [hplace])
        rw [hlisted'] at hleads
        refine isDirectory_iff.mpr (.inr ⟨_, List.mem_cons_self, hleads, .inl ?_⟩)
        exact Nat.lt_of_le_of_ne hleads.length_le fun hlen => hne (hleads.eq_of_length hlen)
      · refine isDirectory_iff.mpr (.inr ⟨listed, List.mem_cons_of_mem _ ?_, hleads, hentry⟩)
        exact List.mem_filter.mpr ⟨hlisted, decide_eq_true hlisted'⟩

/-- Names lead to the same place on a disk that has all the directories of another. -/
theorem locate_of_isDirectory {names : List String} {start : List String}
    (hdirectory : ∀ d, disk.isDirectory d = true → after.isDirectory d = true)
    (h : disk.locate names start = .ok place) : after.locate names start = .ok place := by
  induction names generalizing start with
  | nil => exact h
  | cons name names ih =>
    rw [locate] at h ⊢
    by_cases hstart : disk.isDirectory start = true
    · rw [if_pos hstart] at h
      rw [if_pos (hdirectory start hstart)]
      exact ih h
    · rw [if_neg hstart] at h
      split at h <;> cases h

/-- A path without a slash at its end has no empty name to drop. -/
theorem targetParts_eq {path : String}
    (h : (Path.parts path).getLast?.any (·.isEmpty) = false) :
    targetParts path = Path.parts path := by
  rw [List.getLast?_eq_head?_reverse] at h
  rw [targetParts]
  cases hparts : (Path.parts path).reverse with
  | nil => rw [List.dropWhile_nil, ← hparts, List.reverse_reverse]
  | cons name names =>
    rw [hparts] at h
    have hname : name.isEmpty = false := h
    rw [List.dropWhile_cons_of_neg (by simp [hname]), ← hparts, List.reverse_reverse]

/-- Where a file is written: at the end of its path, which is no directory. -/
theorem target_eq_ok {path : String} (h : disk.target path working = .ok place) :
    path.isEmpty = false ∧ disk.locate (Path.parts path) (Path.start working path) = .ok place ∧
      disk.isDirectory place = false ∧ disk.Reachable place := by
  rw [target] at h
  split at h
  · cases h
  · rename_i hpath
    cases hlocate : disk.locate (targetParts path) (Path.start working path) with
    | error e =>
      rw [hlocate] at h
      cases h
    | ok found =>
      rw [hlocate] at h
      simp only [bind, Except.bind] at h
      split at h
      · cases h
      · rename_i hends
        cases h
        rw [Bool.not_eq_true, Bool.or_eq_false_iff] at hends
        rw [targetParts_eq hends.2] at hlocate
        refine ⟨Bool.eq_false_iff.mpr hpath, hlocate, hends.1, ?_⟩
        -- There is a first name, and it needs a directory to start from.
        obtain ⟨name, names, hparts⟩ := List.exists_cons_of_ne_nil (Path.parts_ne_nil path)
        rw [hparts, locate] at hlocate
        split at hlocate
        · rename_i hstart
          exact reachable_of_locate (reachable_step hstart name) hlocate
        · split at hlocate <;> cases hlocate

theorem write_eq_ok {path : String} :
    disk.write path bytes working = .ok after ↔
      ∃ place, disk.target path working = .ok place ∧ disk.put place bytes = after := by
  rw [write]
  cases disk.target path working with
  | error e => simp [bind, Except.bind]
  | ok place => simp [bind, Except.bind, pure, Except.pure]

/-- Writing a file makes no directory and takes none away. -/
theorem isDirectory_of_write {path : String} (h : disk.write path bytes working = .ok after)
    (directory : List String) : after.isDirectory directory = disk.isDirectory directory := by
  obtain ⟨place, htarget, rfl⟩ := write_eq_ok.mp h
  obtain ⟨-, -, hplace, hway⟩ := target_eq_ok htarget
  exact isDirectory_put hplace hway directory

/-- A file that was written is read under the path that it was written under. -/
theorem read_of_write {path : String} (h : disk.write path bytes working = .ok after) :
    after.read path working = .ok bytes := by
  have hdirectories := isDirectory_of_write h
  obtain ⟨place, htarget, rfl⟩ := write_eq_ok.mp h
  obtain ⟨hpath, hlocate, hplace, -⟩ := target_eq_ok htarget
  have hafter : (disk.put place bytes).locate (Path.parts path) (Path.start working path) =
      .ok place :=
    locate_of_isDirectory (fun d hd => (hdirectories d).trans hd) hlocate
  rw [read, if_neg (by simp [hpath]), hafter]
  simp only [bind, Except.bind]
  rw [if_neg (by simp [hdirectories, hplace]), file?_put]
  rfl

/-- Writing changes the file at the end of the path and no other. -/
theorem file?_of_write {path : String} (h : disk.write path bytes working = .ok after) :
    ∃ place, disk.target path working = .ok place ∧ after.file? place = some bytes ∧
      ∀ other, other ≠ place → after.file? other = disk.file? other := by
  obtain ⟨place, htarget, rfl⟩ := write_eq_ok.mp h
  exact ⟨place, htarget, file?_put, fun other hother => file?_put_of_ne hother⟩

end Disk

end ScriptWire
