import ScriptWire.Proofs.Command.Grammar
import ScriptWire.Proofs.Settings.Held
import Mathlib.Data.List.Basic
import Mathlib.Data.List.Count

/-!
# Arguments are read as what they ask for

Arguments are read from left to right, and what was read so far is what their items gather. From one
item to the next nothing else is kept.

## Main definitions

- `Command.Given.Gathers` — what was read is what items say

## Main results

- `Command.Given.Gathers.read_cases`, `Command.Given.Gathers.read_of_line` — the arguments after the
  name of a command are read as items
- `Request.ofArguments_eq_iff` — arguments are read as what they ask for
-/

namespace ScriptWire

namespace Command

/-- How a word is written. -/
def Word.Spells : Word → String → Prop
  | .plain, argument => Plain argument
  | .pathsOnly, argument => argument = "--"
  | .option name none, argument => argument = "--" ++ name
  | .option name (some value), argument => argument = "--" ++ name ++ "=" ++ value
  | .letters cs, argument => cs ≠ [] ∧ argument = String.ofList ('-' :: cs)

theorem Word.spells_ofArgument (argument : String) :
    (Word.ofArgument argument).Spells argument := by
  have hargument : argument = String.ofList argument.toList := String.ofList_toList.symm
  rw [Word.ofArgument]
  split
  · rename_i hcs
    rw [hcs] at hargument
    exact hargument
  · rename_i cs _ hcs
    have hsplit : cs.takeWhile (· ≠ '=') ++ cs.dropWhile (· ≠ '=') = cs :=
      List.takeWhile_append_dropWhile
    dsimp only
    split
    · rename_i c value hvalue
      have hc : c = '=' := by
        have hfirst := List.head?_dropWhile_not (fun c => decide (c ≠ '=')) cs
        rw [hvalue] at hfirst
        simpa using hfirst
      rw [hvalue, hc] at hsplit
      rw [Spells, ← String.toList_inj, hcs]
      nth_rewrite 1 [← hsplit]
      simp
    · rename_i hvalue
      rw [hvalue, List.append_nil] at hsplit
      rw [Spells, ← String.toList_inj, hcs, hsplit]
      simp
  · rename_i c cs hcs
    rw [hcs] at hargument
    exact ⟨List.cons_ne_nil _ _, hargument⟩
  · rename_i hpathsOnly hoption hletters
    cases hcs : argument.toList with
    | nil => exact .inr (by simp [hcs])
    | cons c cs =>
      by_cases hc : c = '-'
      · subst hc
        cases cs with
        | nil => exact .inl (by rw [hargument, hcs])
        | cons d ds => exact absurd hcs (hletters d ds)
      · exact .inr (by simp [hcs, hc])

theorem Word.ofArgument_of_plain {argument : String} (h : Plain argument) :
    Word.ofArgument argument = .plain := by
  rcases h with rfl | h
  · rfl
  · rw [Word.ofArgument]
    split
    · rename_i hcs
      exact absurd (by rw [hcs]; rfl) h
    · rename_i hcs
      exact absurd (by rw [hcs]; rfl) h
    · rename_i hcs
      exact absurd (by rw [hcs]; rfl) h
    · rfl

theorem Word.ofArgument_letters (c : Char) (hc : c ≠ '-') (cs : List Char) :
    Word.ofArgument (String.ofList ('-' :: c :: cs)) = .letters (c :: cs) := by
  rw [Word.ofArgument, String.toList_ofList]
  split
  · rename_i h
    exact absurd (List.cons.inj (List.cons.inj h).2).1 hc
  · rename_i h
    exact absurd (List.cons.inj (List.cons.inj h).2).1 hc
  · rename_i h
    cases h
    rfl
  · rename_i h
    exact absurd rfl (h c cs)

theorem Levels.plain {text : String} {n : Nat} (h : Levels text n) : Plain text := by
  obtain ⟨digits, htext, hne, hnumeral, -⟩ := h
  right
  rcases htext with htext | htext
  · rw [htext]
    simp
  · rw [htext, ← List.append_nil digits]
    exact hnumeral.hexText.head?_append_ne hne (by decide) []

theorem Given.depth?_eq_some_iff {text : String} {n : Nat} :
    Given.depth? text = some n ↔ Levels text n :=
  unsigned?_eq_some_iff (by decide)

/-- Letters are all `v`, or there is a first one that is another. -/
theorem eq_replicate_or (cs : List Char) :
    (∃ n, cs = List.replicate n 'v') ∨
      ∃ n c rest, c ≠ 'v' ∧ cs = List.replicate n 'v' ++ c :: rest := by
  induction cs with
  | nil => exact .inl ⟨0, rfl⟩
  | cons c cs ih =>
    by_cases hc : c = 'v'
    · subst hc
      rcases ih with ⟨n, rfl⟩ | ⟨n, d, rest, hd, rfl⟩
      · exact .inl ⟨n + 1, rfl⟩
      · exact .inr ⟨n + 1, d, rest, hd, rfl⟩
    · exact .inr ⟨0, c, cs, hc, rfl⟩

theorem Word.ofArgument_replicate (n : Nat) {c : Char} (hc : c ≠ '-') (rest : List Char) :
    Word.ofArgument (String.ofList ('-' :: (List.replicate n 'v' ++ c :: rest))) =
      .letters (List.replicate n 'v' ++ c :: rest) := by
  cases n with
  | zero => exact Word.ofArgument_letters c hc rest
  | succ n => exact Word.ofArgument_letters 'v' (by decide) _

theorem Given.takeLetters_replicate (given : Given) (n : Nat) :
    given.takeLetters (List.replicate n 'v') = .ok given := by
  induction n with
  | zero => rfl
  | succ n ih => exact ih

theorem Given.takeLetters_replicate_append (given : Given) (n : Nat) {c : Char} (hc : c ≠ 'v')
    (rest : List Char) :
    given.takeLetters (List.replicate n 'v' ++ c :: rest) =
      .error (if c = 'h' then .help else .refused) := by
  induction n with
  | zero =>
    rw [List.replicate_zero, List.nil_append]
    by_cases hh : c = 'h'
    · subst hh
      rfl
    · rw [if_neg hh, takeLetters]
      · simp
      · simp [hc]
      · simp [hh]
  | succ n ih => exact ih

/-- What was read of the arguments is what their items say. -/
structure Given.Gathers (given : Given) (items : List Item) : Prop where
  paths : given.paths = items.filterMap Item.path?
  format : given.format.toList = items.filterMap Item.format?
  maxDepth : given.maxDepth.toList = items.filterMap Item.maxDepth?
  dump : given.dump.toNat = items.count .dump

/-- What was read, and one more item. -/
def Given.take (verb : Verb) (given : Given) : Item → Except Stop Given
  | .path text =>
    if given.paths.length = verb.paths then .error .refused
    else .ok { given with paths := given.paths ++ [text] }
  | .verbose => .ok given
  | .dump =>
    if verb = .compile ∧ given.dump = false then .ok { given with dump := true }
    else .error .refused
  | .format f =>
    if verb = .compile ∧ given.format = none then .ok { given with format := some f }
    else .error .refused
  | .maxDepth n =>
    if verb = .compile ∧ given.maxDepth = none then .ok { given with maxDepth := some n }
    else .error .refused

/-- What was read, and an option with a value. -/
def Given.takeOption (verb : Verb) (given : Given) (name value : String) : Except Stop Given :=
  if needsValue verb name then given.takeValue name value else .error .refused

theorem Given.takeOption_format (verb : Verb) (given : Given) (f : Format) :
    given.takeOption verb "format" f.name = given.take verb (.format f) := by
  have hname : Format.ofName? f.name = some f := Format.ofName?_eq_some_iff.mpr rfl
  cases verb with
  | inspect => rfl
  | compile =>
    cases hformat : given.format <;> simp [takeOption, takeValue, needsValue, take, *]

theorem Given.takeOption_maxDepth (verb : Verb) (given : Given) {text : String} {n : Nat}
    (h : Levels text n) :
    given.takeOption verb "max-depth" text = given.take verb (.maxDepth n) := by
  have hdepth : depth? text = some n := depth?_eq_some_iff.mpr h
  cases verb with
  | inspect => rfl
  | compile =>
    cases hmaxDepth : given.maxDepth <;> simp [takeOption, takeValue, needsValue, take, *]

/-- An option with its value after an equals sign. -/
theorem Given.read_joined {argument name value : String} (verb : Verb) (given : Given)
    (rest : List String) (hword : Word.ofArgument argument = .option name (some value)) :
    Given.read verb given (argument :: rest) =
      given.takeOption verb name value >>= fun next => Given.read verb next rest := by
  rw [read, hword, takeOption]
  dsimp only
  split <;> rfl

/-- An option with its value in the next argument. -/
theorem Given.read_separate {argument name value : String} (verb : Verb) (given : Given)
    (rest : List String) (hword : Word.ofArgument argument = .option name none)
    (hname : name = "format" ∨ name = "max-depth") (hvalue : Word.ofArgument value = .plain) :
    Given.read verb given (argument :: value :: rest) =
      given.takeOption verb name value >>= fun next => Given.read verb next rest := by
  have hflag : needsValue verb name = false → given.takeFlag verb name = .error .refused := by
    rcases hname with rfl | rfl <;> simp [takeFlag]
  rw [read, hword, takeOption]
  dsimp only
  split
  · rfl
  · rename_i hneeds
    rw [hflag (Bool.eq_false_iff.mpr hneeds)]
    rfl

/-- Reading an item is taking it. -/
theorem Given.read_written {item : Item} {words : List String} (h : item.Written words)
    (verb : Verb) (given : Given) (rest : List String) :
    Given.read verb given (words ++ rest) =
      given.take verb item >>= fun next => Given.read verb next rest := by
  cases h with
  | path hplain hne =>
    rw [List.singleton_append, read, Word.ofArgument_of_plain hplain]
    simp [takePath, take, hne]
  | verbose =>
    have hword : Word.ofArgument "--verbose" = .option "verbose" none := rfl
    rw [List.singleton_append, read, hword]
    simp [needsValue, takeFlag, take]
  | letters n =>
    rw [List.singleton_append, read, List.replicate_succ, Word.ofArgument_letters 'v' (by decide),
      ← List.replicate_succ]
    simp only [takeLetters_replicate, take]
  | dump =>
    have hword : Word.ofArgument "--dump" = .option "dump" none := rfl
    rw [List.singleton_append, read, hword]
    cases verb <;> cases hdump : given.dump <;> simp [needsValue, takeFlag, take, hdump]
  | format f =>
    have hvalue : Word.ofArgument f.name = .plain := by cases f <;> rfl
    rw [← takeOption_format]
    exact read_separate verb given rest rfl (.inl rfl) hvalue
  | formatJoined f =>
    have hword : Word.ofArgument ("--format=" ++ f.name) = .option "format" (some f.name) := by
      cases f <;> rfl
    rw [← takeOption_format]
    exact read_joined verb given rest hword
  | maxDepth h =>
    rw [← takeOption_maxDepth verb given h]
    exact read_separate verb given rest rfl (.inr rfl) (Word.ofArgument_of_plain h.plain)
  | @maxDepthJoined text _ h =>
    have hword : Word.ofArgument ("--max-depth=" ++ text) = .option "max-depth" (some text) := by
      simp [Word.ofArgument]
    rw [← takeOption_maxDepth verb given h]
    exact read_joined verb given rest hword

theorem Given.read_pathsOnly (verb : Verb) (given : Given) (paths : List String) :
    Given.read verb given ("--" :: paths) = paths.foldlM (takePath verb) given := by
  rw [read]
  rfl

theorem Given.read_helpWord {word : String} (h : HelpWord word) (verb : Verb) (given : Given)
    (rest : List String) : Given.read verb given (word :: rest) = .error .help := by
  cases h with
  | option =>
    have hword : Word.ofArgument "--help" = .option "help" none := rfl
    rw [read, hword]
    simp [needsValue, takeFlag]
    rfl
  | letters n letters =>
    rw [read, Word.ofArgument_replicate n (by decide)]
    simp only [given.takeLetters_replicate_append n (show 'h' ≠ 'v' by decide)]
    rfl

/-- A value that an option does not take is refused. -/
theorem Given.takeOption_cases (verb : Verb) (given : Given) (name value : String) :
    (∃ item, Item.Written item ["--" ++ name, value] ∧
      Item.Written item ["--" ++ name ++ "=" ++ value]) ∨
      given.takeOption verb name value = .error .refused := by
  by_cases hformat : name = "format"
  · subst hformat
    cases hvalue : Format.ofName? value with
    | none =>
      refine .inr ?_
      simp [takeOption, takeValue, hvalue]
    | some f =>
      obtain rfl := Format.ofName?_eq_some_iff.mp hvalue
      exact .inl ⟨.format f, .format f, .formatJoined f⟩
  · by_cases hmaxDepth : name = "max-depth"
    · subst hmaxDepth
      cases hvalue : depth? value with
      | none =>
        refine .inr ?_
        simp [takeOption, takeValue, hvalue]
      | some n =>
        have hlevels : Levels value n := depth?_eq_some_iff.mp hvalue
        exact .inl ⟨.maxDepth n, .maxDepth hlevels, .maxDepthJoined hlevels⟩
    · refine .inr ?_
      simp [takeOption, needsValue, hformat, hmaxDepth]

/-- What the first of some arguments begins: an item, the paths after two hyphens, or a request for
help. Otherwise the arguments are refused. -/
theorem Given.read_cons_cases (verb : Verb) (given : Given) (argument : String)
    (rest : List String) :
    (∃ item words tail, Item.Written item words ∧ argument :: rest = words ++ tail) ∨
      argument = "--" ∨ HelpWord argument ∨
      Given.read verb given (argument :: rest) = .error .refused := by
  have hspells := Word.spells_ofArgument argument
  cases hword : Word.ofArgument argument with
  | plain =>
    rw [hword] at hspells
    by_cases hempty : argument = ""
    · refine .inr (.inr (.inr ?_))
      rw [read, hword]
      simp [hempty, takePath]
      rfl
    · exact .inl ⟨.path argument, [argument], rest, .path hspells hempty, rfl⟩
  | pathsOnly =>
    rw [hword] at hspells
    exact .inr (.inl hspells)
  | letters cs =>
    rw [hword] at hspells
    obtain ⟨hne, rfl⟩ := hspells
    rcases eq_replicate_or cs with ⟨n, rfl⟩ | ⟨n, c, letters, hv, rfl⟩
    · cases n with
      | zero => exact absurd rfl hne
      | succ n => exact .inl ⟨.verbose, [_], rest, .letters n, rfl⟩
    · by_cases hh : c = 'h'
      · subst hh
        exact .inr (.inr (.inl (.letters n letters)))
      · refine .inr (.inr (.inr ?_))
        rw [read, hword]
        simp only [given.takeLetters_replicate_append n hv, if_neg hh]
        rfl
  | option name value? =>
    rw [hword] at hspells
    cases value? with
    | some value =>
      obtain rfl := hspells
      rcases given.takeOption_cases verb name value with ⟨item, -, hitem⟩ | hrefused
      · exact .inl ⟨item, [_], rest, hitem, rfl⟩
      · refine .inr (.inr (.inr ?_))
        rw [read_joined verb given rest hword, hrefused]
        rfl
    | none =>
      obtain rfl := hspells
      by_cases hhelp : name = "help"
      · subst hhelp
        exact .inr (.inr (.inl .option))
      by_cases hverbose : name = "verbose"
      · subst hverbose
        exact .inl ⟨.verbose, [_], rest, .verbose, rfl⟩
      by_cases hdump : name = "dump"
      · subst hdump
        exact .inl ⟨.dump, [_], rest, .dump, rfl⟩
      have hflag : given.takeFlag verb name = .error .refused := by
        simp [takeFlag, hhelp, hverbose, hdump]
      cases rest with
      | nil =>
        refine .inr (.inr (.inr ?_))
        rw [read, hword]
        dsimp only
        split
        · rfl
        · rw [hflag]
          rfl
      | cons value rest =>
        rcases given.takeOption_cases verb name value with ⟨item, hitem, -⟩ | hrefused
        · exact .inl ⟨item, [_, _], rest, hitem, rfl⟩
        · refine .inr (.inr (.inr ?_))
          rw [read, hword]
          dsimp only
          split
          · rename_i hneeds
            rw [takeOption, if_pos hneeds] at hrefused
            rw [hrefused]
            split <;> rfl
          · rw [hflag]
            rfl

section Gathering

variable {verb : Verb} {given : Given} {items more : List Item}

theorem Verb.Admits.of_append (h : verb.Admits (items ++ more)) : verb.Admits items := by
  obtain ⟨hpaths, hformat, hmaxDepth, hdump⟩ := h
  simp only [List.filterMap_append, List.length_append, List.count_append] at *
  exact ⟨by omega, by omega, by omega, by omega⟩

/-- One more item is admitted if there is room for it. -/
theorem Verb.admits_concat_iff (hadmits : verb.Admits items) {item : Item} :
    verb.Admits (items ++ [item]) ↔
      match item with
      | .path _ => (items.filterMap Item.path?).length < verb.paths
      | .verbose => True
      | .dump => items.count .dump < verb.options
      | .format _ => (items.filterMap Item.format?).length < verb.options
      | .maxDepth _ => (items.filterMap Item.maxDepth?).length < verb.options := by
  obtain ⟨hpaths, hformat, hmaxDepth, hdump⟩ := hadmits
  constructor
  · rintro ⟨hpaths', hformat', hmaxDepth', hdump'⟩
    rw [List.filterMap_append, List.length_append] at hpaths' hformat' hmaxDepth'
    rw [List.count_append] at hdump'
    cases item with
    | verbose => trivial
    | path text => exact hpaths'
    | dump => exact hdump'
    | format f => exact hformat'
    | maxDepth n => exact hmaxDepth'
  · intro hroom
    constructor <;> cases item <;> simp_all [List.filterMap_cons]

/-- There is room for an option of a compilation that was not given. -/
theorem Verb.length_toList_lt_options_iff {α : Type} {given : Option α} :
    given.toList.length < verb.options ↔ verb = .compile ∧ given = none := by
  cases verb <;> cases given <;> simp [Verb.options]

/-- An item is taken exactly if the command admits it after those that were read. -/
theorem Given.Gathers.take_cases (h : given.Gathers items) (hadmits : verb.Admits items)
    (item : Item) :
    (∃ next, given.take verb item = .ok next ∧ verb.Admits (items ++ [item]) ∧
      next.Gathers (items ++ [item])) ∨
      given.take verb item = .error .refused ∧ ¬ verb.Admits (items ++ [item]) := by
  obtain ⟨hpaths, hformat, hmaxDepth, hdump⟩ := h
  rw [Verb.admits_concat_iff hadmits]
  cases item with
  | path text =>
    have hle := hadmits.paths
    rw [← hpaths] at hle ⊢
    rw [take]
    split
    · exact .inr ⟨rfl, by omega⟩
    · refine .inl ⟨_, rfl, by omega, ?_⟩
      constructor <;> simp [List.filterMap_cons, hpaths, hformat, hmaxDepth, hdump]
  | verbose =>
    refine .inl ⟨given, rfl, trivial, ?_⟩
    constructor <;> simp [List.filterMap_cons, hpaths, hformat, hmaxDepth, hdump]
  | dump =>
    have hroom : items.count .dump < verb.options ↔ verb = .compile ∧ given.dump = false := by
      rw [← hdump]
      cases verb <;> cases given.dump <;> simp [Verb.options]
    simp only [hroom, take]
    split
    · rename_i hdumps
      rw [hdumps.2] at hdump
      refine .inl ⟨_, rfl, hdumps, ?_⟩
      constructor <;> simp [List.filterMap_cons, ← hdump, hpaths, hformat, hmaxDepth]
    · exact .inr ⟨rfl, ‹_›⟩
  | format f =>
    dsimp only
    rw [← hformat, Verb.length_toList_lt_options_iff, take]
    split
    · rename_i hformats
      rw [hformats.2] at hformat
      refine .inl ⟨_, rfl, hformats, ?_⟩
      constructor <;> simp [List.filterMap_cons, ← hformat, hpaths, hmaxDepth, hdump]
    · exact .inr ⟨rfl, ‹_›⟩
  | maxDepth n =>
    dsimp only
    rw [← hmaxDepth, Verb.length_toList_lt_options_iff, take]
    split
    · rename_i hdepths
      rw [hdepths.2] at hmaxDepth
      refine .inl ⟨_, rfl, hdepths, ?_⟩
      constructor <;> simp [List.filterMap_cons, ← hmaxDepth, hpaths, hformat, hdump]
    · exact .inr ⟨rfl, ‹_›⟩

/-- Reading an item that the command admits goes on with the arguments after it. -/
theorem Given.Gathers.read_written (h : given.Gathers items) (hadmits : verb.Admits items)
    {item : Item} {words : List String} (hitem : item.Written words) (rest : List String) :
    (∃ next : Given, Given.read verb given (words ++ rest) = Given.read verb next rest ∧
      verb.Admits (items ++ [item]) ∧ next.Gathers (items ++ [item])) ∨
      Given.read verb given (words ++ rest) = .error .refused ∧
        ¬ verb.Admits (items ++ [item]) := by
  rw [Given.read_written hitem]
  rcases h.take_cases hadmits item with ⟨next, htake, hmore, hnext⟩ | ⟨htake, hmore⟩
  · exact .inl ⟨next, by rw [htake]; rfl, hmore, hnext⟩
  · exact .inr ⟨by rw [htake]; rfl, hmore⟩

theorem Given.takePath_eq {path : String} (hne : path ≠ "") (verb : Verb) (given : Given) :
    given.takePath verb path = given.take verb (.path path) := by
  simp [takePath, take, hne]

/-- Paths after two hyphens are taken if none is empty and there are not too many. -/
theorem Given.Gathers.foldlM_takePath_cases (h : given.Gathers items)
    (hadmits : verb.Admits items) (paths : List String) :
    (∃ result, paths.foldlM (Given.takePath verb) given = .ok result ∧ "" ∉ paths ∧
      verb.Admits (items ++ paths.map .path) ∧ result.Gathers (items ++ paths.map .path)) ∨
      paths.foldlM (Given.takePath verb) given = .error .refused ∧
        ¬ ("" ∉ paths ∧ verb.Admits (items ++ paths.map .path)) := by
  induction paths generalizing given items with
  | nil =>
    rw [List.map_nil, List.append_nil]
    exact .inl ⟨given, rfl, List.not_mem_nil, hadmits, h⟩
  | cons path paths ih =>
    rw [List.foldlM_cons]
    by_cases hempty : path = ""
    · subst hempty
      exact .inr ⟨rfl, fun hpaths => hpaths.1 List.mem_cons_self⟩
    · rw [Given.takePath_eq hempty]
      rcases h.take_cases hadmits (.path path) with ⟨next, htake, hmore, hnext⟩ | ⟨htake, hmore⟩
      · have hrest := ih hnext hmore
        rw [List.append_assoc, List.singleton_append] at hrest
        rw [htake, List.mem_cons, not_or, List.map_cons]
        simp only [Ne.symm hempty, not_false_eq_true, true_and]
        exact hrest
      · refine .inr ⟨by rw [htake]; rfl, fun hpaths => hmore ?_⟩
        have hall := hpaths.2
        rw [List.map_cons, List.append_cons] at hall
        exact hall.of_append

/-- The arguments after the name of a command are read as items, as a request for help after
items, or not at all. -/
theorem Given.Gathers.read_cases (h : given.Gathers items) (hadmits : verb.Admits items)
    (arguments : List String) :
    (∃ result more, Given.read verb given arguments = .ok result ∧ Line more arguments ∧
      verb.Admits (items ++ more) ∧ result.Gathers (items ++ more)) ∨
    (∃ more, Given.read verb given arguments = .error .help ∧ HelpLine more arguments ∧
      verb.Admits (items ++ more)) ∨
    Given.read verb given arguments = .error .refused := by
  -- Items take one argument or two, so the induction is on the number of arguments.
  induction hlength : arguments.length using Nat.strong_induction_on
    generalizing arguments given items with
  | _ length ih =>
    subst hlength
    cases arguments with
    | nil =>
      refine .inl ⟨given, [], rfl, .nil, ?_⟩
      rw [List.append_nil]
      exact ⟨hadmits, h⟩
    | cons argument rest =>
      rcases Given.read_cons_cases verb given argument rest with
        ⟨item, words, tail, hitem, hwords⟩ | rfl | hhelp | hrefused
      · rw [hwords] at ih ⊢
        rcases h.read_written hadmits hitem tail with ⟨next, hread, hmore, hnext⟩ | ⟨hread, -⟩
        · have hshort : tail.length < (words ++ tail).length := by
            rw [List.length_append]
            exact Nat.lt_add_of_pos_left (List.length_pos_iff.mpr hitem.ne_nil)
          rw [hread]
          rcases ih _ hshort hnext hmore tail rfl with
            ⟨result, more, hresult, hline, hall, hgathers⟩ | ⟨more, hresult, hline, hall⟩ | hresult
          · rw [List.append_assoc, List.singleton_append] at hall hgathers
            exact .inl ⟨result, item :: more, hresult, .cons hitem hline, hall, hgathers⟩
          · rw [List.append_assoc, List.singleton_append] at hall
            exact .inr (.inl ⟨item :: more, hresult, .cons hitem hline, hall⟩)
          · exact .inr (.inr hresult)
        · exact .inr (.inr hread)
      · rw [Given.read_pathsOnly]
        rcases h.foldlM_takePath_cases hadmits rest with
          ⟨result, hresult, hpaths, hall, hgathers⟩ | ⟨hresult, -⟩
        · exact .inl ⟨result, _, hresult, .pathsOnly hpaths, hall, hgathers⟩
        · exact .inr (.inr hresult)
      · refine .inr (.inl ⟨[], Given.read_helpWord hhelp verb given rest, .word hhelp, ?_⟩)
        rwa [List.append_nil]
      · exact .inr (.inr hrefused)

/-- Items that the command admits are read. -/
theorem Given.Gathers.read_of_line {arguments : List String} (hline : Line more arguments)
    (h : given.Gathers items) (hadmits : verb.Admits (items ++ more)) :
    ∃ result, Given.read verb given arguments = .ok result ∧ result.Gathers (items ++ more) := by
  induction hline generalizing given items with
  | nil =>
    rw [List.append_nil]
    exact ⟨given, rfl, h⟩
  | @pathsOnly paths hpaths =>
    rw [Given.read_pathsOnly]
    rcases h.foldlM_takePath_cases hadmits.of_append paths with
      ⟨result, hresult, -, -, hgathers⟩ | ⟨-, hnot⟩
    · exact ⟨result, hresult, hgathers⟩
    · exact absurd ⟨hpaths, hadmits⟩ hnot
  | @cons item words rest tail hitem _ ih =>
    rw [List.append_cons] at hadmits ⊢
    rcases h.read_written hadmits.of_append.of_append hitem tail with
      ⟨next, hread, -, hnext⟩ | ⟨-, hnot⟩
    · rw [hread]
      exact ih hnext hadmits
    · exact absurd hadmits.of_append hnot

/-- A request for help after items that the command admits is granted. -/
theorem Given.Gathers.read_of_helpLine {arguments : List String} (hline : HelpLine more arguments)
    (h : given.Gathers items) (hadmits : verb.Admits (items ++ more)) :
    Given.read verb given arguments = .error .help := by
  induction hline generalizing given items with
  | word hword => exact Given.read_helpWord hword verb given _
  | @cons item words rest tail hitem _ ih =>
    rw [List.append_cons] at hadmits
    rcases h.read_written hadmits.of_append.of_append hitem tail with
      ⟨next, hread, -, hnext⟩ | ⟨-, hnot⟩
    · rw [hread]
      exact ih hnext hadmits
    · exact absurd hadmits.of_append hnot

theorem Names.admits {command : Command} (h : Names verb items command) : verb.Admits items := by
  cases h with
  | compile hpaths hformat hmaxDepth hdump =>
    refine ⟨?_, ?_, ?_, ?_⟩
    · rw [hpaths]
      exact Nat.le_refl 2
    · rw [hformat]
      exact Option.length_toList_le
    · rw [hmaxDepth]
      exact Option.length_toList_le
    · rw [hdump]
      exact Bool.toNat_le _
  | inspect hpaths hformat hmaxDepth hdump =>
    refine ⟨?_, ?_, ?_, ?_⟩
    · rw [hpaths]
      exact Nat.le_refl 1
    · rw [hformat]
      exact Nat.le_refl 0
    · rw [hmaxDepth]
      exact Nat.le_refl 0
    · rw [hdump]
      exact Nat.le_refl 0

/-- What was read is the command that the items name. -/
theorem Given.Gathers.command?_eq_some_iff (h : given.Gathers items)
    (hadmits : verb.Admits items) {command : Command} :
    given.command? verb = some command ↔ Names verb items command := by
  obtain ⟨hpaths, hformat, hmaxDepth, hdump⟩ := h
  rw [Given.command?.eq_def]
  constructor
  · intro hcommand
    split at hcommand
    · rename_i input output htwo
      cases hcommand
      exact .compile (hpaths.symm.trans htwo) hformat.symm hmaxDepth.symm hdump.symm
    · rename_i file hone
      cases hcommand
      refine .inspect (hpaths.symm.trans hone) ?_ ?_ ?_
      · exact List.length_eq_zero_iff.mp (Nat.le_zero.mp hadmits.format)
      · exact List.length_eq_zero_iff.mp (Nat.le_zero.mp hadmits.maxDepth)
      · exact Nat.le_zero.mp hadmits.dump
    · cases hcommand
  · intro hnames
    cases hnames with
    | @compile _ options hitems hformats hdepths hdumps =>
      have hoptions : options.format = given.format ∧ options.maxDepth = given.maxDepth ∧
          options.dump = given.dump := by
        refine ⟨?_, ?_, ?_⟩
        · rw [← Option.head?_toList (o := options.format), ← hformats, ← hformat,
            Option.head?_toList]
        · rw [← Option.head?_toList (o := options.maxDepth), ← hdepths, ← hmaxDepth,
            Option.head?_toList]
        · have htoNat := hdumps.symm.trans hdump.symm
          cases hdumped : options.dump <;> cases hgiven : given.dump <;> simp_all
      rw [hpaths.trans hitems]
      simp [← hoptions.1, ← hoptions.2.1, ← hoptions.2.2]
    | inspect hitems _ _ _ => rw [hpaths.trans hitems]

end Gathering

theorem Given.gathers_empty : Given.empty.Gathers [] :=
  ⟨rfl, rfl, rfl, rfl⟩

theorem Verb.admits_nil (verb : Verb) : verb.Admits [] :=
  ⟨Nat.zero_le _, Nat.zero_le _, Nat.zero_le _, Nat.zero_le _⟩

end Command

namespace Request

open Command

/-- What the arguments after the name of a command ask for. -/
theorem ofCommand_cases (verb : Verb) (arguments : List String) :
    (∃ items command, ofCommand verb arguments = .run command ∧ Line items arguments ∧
      Names verb items command) ∨
    (∃ items, ofCommand verb arguments = .help ∧ HelpLine items arguments ∧ verb.Admits items) ∨
    ofCommand verb arguments = .refused := by
  rw [ofCommand]
  rcases Given.gathers_empty.read_cases verb.admits_nil arguments with
    ⟨given, items, hread, hline, hadmits, hgathers⟩ | ⟨items, hread, hline, hadmits⟩ | hread
  · rw [List.nil_append] at hadmits hgathers
    rw [hread]
    cases hcommand : given.command? verb with
    | none => exact .inr (.inr (by simp [hcommand]))
    | some command =>
      refine .inl ⟨items, command, by simp [hcommand], hline, ?_⟩
      exact (hgathers.command?_eq_some_iff hadmits).mp hcommand
  · rw [hread]
    exact .inr (.inl ⟨items, rfl, hline, hadmits⟩)
  · rw [hread]
    exact .inr (.inr rfl)

theorem ofCommand_of_line {verb : Verb} {arguments : List String} {items : List Item}
    {command : Command} (hline : Line items arguments) (hcommand : Names verb items command) :
    ofCommand verb arguments = .run command := by
  have hadmits : verb.Admits ([] ++ items) := hcommand.admits
  obtain ⟨given, hread, hgathers⟩ := Given.gathers_empty.read_of_line hline hadmits
  rw [ofCommand, hread]
  simp [(hgathers.command?_eq_some_iff hcommand.admits).mpr hcommand]

theorem ofCommand_of_helpLine {verb : Verb} {arguments : List String} {items : List Item}
    (hline : HelpLine items arguments) (hadmits : verb.Admits items) :
    ofCommand verb arguments = .help := by
  rw [ofCommand, Given.gathers_empty.read_of_helpLine hline hadmits]

/-- An option is not the name of a command. -/
theorem ne_of_ofArgument {argument name : String} {word : Word}
    (h : Word.ofArgument argument = word) (hword : word ≠ .plain)
    (hname : Word.ofArgument name = .plain) : argument ≠ name := by
  rintro rfl
  exact hword (h.symm.trans hname)

theorem ofArguments_of_letters {argument : String} {cs : List Char}
    (h : Word.ofArgument argument = .letters cs) (rest : List String) :
    ofArguments (argument :: rest) = (ofLetters? cs).getD (ofArguments rest) := by
  have hne {name : String} (hname : Word.ofArgument name = .plain) : argument ≠ name :=
    ne_of_ofArgument h (by simp) hname
  rw [ofArguments, if_neg (hne rfl), if_neg (hne rfl), if_neg (hne rfl), h]

theorem ofArguments_of_option {argument name : String}
    (h : Word.ofArgument argument = .option name none) (rest : List String) :
    ofArguments (argument :: rest) =
      if name = "help" || name = "version" then .help
      else if name = "verbose" then ofArguments rest
      else .refused := by
  have hne {name : String} (hname : Word.ofArgument name = .plain) : argument ≠ name :=
    ne_of_ofArgument h (by simp) hname
  rw [ofArguments, if_neg (hne rfl), if_neg (hne rfl), if_neg (hne rfl), h]

theorem ofLetters?_replicate (n : Nat) : ofLetters? (List.replicate n 'v') = none := by
  induction n with
  | zero => rfl
  | succ n ih => exact ih

theorem ofLetters?_replicate_append (n : Nat) {c : Char} (hc : c ≠ 'v') (rest : List Char) :
    ofLetters? (List.replicate n 'v' ++ c :: rest) =
      some (if c = 'h' || c = 'V' then .help else .refused) := by
  induction n with
  | zero =>
    rw [List.replicate_zero, List.nil_append, ofLetters?]
    exact hc
  | succ n ih => exact ih

theorem ofArguments_verbose {word : String} (h : Item.verbose.Written [word])
    (rest : List String) : ofArguments (word :: rest) = ofArguments rest := by
  cases h with
  | verbose =>
    have hword : Word.ofArgument "--verbose" = .option "verbose" none := rfl
    rw [ofArguments_of_option hword]
    rfl
  | letters n =>
    have hword : Word.ofArgument (String.ofList ('-' :: List.replicate (n + 1) 'v')) =
        .letters (List.replicate (n + 1) 'v') :=
      Word.ofArgument_letters 'v' (by decide) (List.replicate n 'v')
    rw [ofArguments_of_letters hword, ofLetters?_replicate, Option.getD_none]

theorem ofArguments_lead {lead : List String} (h : ∀ word ∈ lead, Item.verbose.Written [word])
    (rest : List String) : ofArguments (lead ++ rest) = ofArguments rest := by
  induction lead with
  | nil => rfl
  | cons word lead ih =>
    rw [List.forall_mem_cons] at h
    rw [List.cons_append, ofArguments_verbose h.1, ih h.2]

theorem ofArguments_helpOption {word : String} (h : HelpOption word) (rest : List String) :
    ofArguments (word :: rest) = .help := by
  cases h with
  | help =>
    have hword : Word.ofArgument "--help" = .option "help" none := rfl
    rw [ofArguments_of_option hword]
    rfl
  | version =>
    have hword : Word.ofArgument "--version" = .option "version" none := rfl
    rw [ofArguments_of_option hword]
    rfl
  | @letters n c hc letters =>
    have hv : c ≠ 'v' ∧ c ≠ '-' ∧ (c = 'h' ∨ c = 'V') := by
      rcases List.mem_cons.mp hc with rfl | hc
      · decide
      · obtain rfl := List.mem_singleton.mp hc
        decide
    rw [ofArguments_of_letters (Word.ofArgument_replicate n hv.2.1 letters),
      ofLetters?_replicate_append n hv.1, Option.getD_some]
    exact if_pos (by simpa using hv.2.2)

theorem ofArguments_name (verb : Verb) (rest : List String) :
    ofArguments (verb.name :: rest) = ofCommand verb rest := by
  cases verb <;> rfl

/-- After the word for help stands nothing, or the name of one command. -/
theorem ofHelp_cases (names : List String) :
    ofHelp names = .help ∧
        (names = [] ∨ ∃ name ∈ ["compile", "inspect", "help"], names = [name]) ∨
      ofHelp names = .refused ∧
        ¬ (names = [] ∨ ∃ name ∈ ["compile", "inspect", "help"], names = [name]) := by
  match names with
  | [] => exact .inl ⟨rfl, .inl rfl⟩
  | [name] =>
    by_cases hname : name ∈ ["compile", "inspect", "help"]
    · refine .inl ⟨if_pos ?_, .inr ⟨name, hname, rfl⟩⟩
      simpa [or_assoc] using hname
    · refine .inr ⟨if_neg ?_, ?_⟩
      · simpa [and_assoc] using hname
      · simpa using hname
  | _ :: _ :: _ => exact .inr ⟨rfl, by simp⟩

theorem ofArguments_of_wants {arguments : List String} {request : Request}
    (h : Wants arguments request) : ofArguments arguments = request := by
  cases h with
  | run hlead hline hcommand =>
    rw [ofArguments_lead hlead, ofArguments_name, ofCommand_of_line hline hcommand]
  | helpOn hlead hline hadmits =>
    rw [ofArguments_lead hlead, ofArguments_name, ofCommand_of_helpLine hline hadmits]
  | help hlead hnames =>
    rw [ofArguments_lead hlead]
    exact (ofHelp_cases _).elim And.left fun h => absurd hnames h.2
  | helpOption hlead hword => rw [ofArguments_lead hlead, ofArguments_helpOption hword]

theorem Wants.verbose_cons {word : String} {arguments : List String} {request : Request}
    (hword : Item.verbose.Written [word]) (h : Wants arguments request) :
    Wants (word :: arguments) request := by
  cases h with
  | @run lead _ _ _ _ hlead hline hcommand =>
    exact .run (List.forall_mem_cons.mpr ⟨hword, hlead⟩) hline hcommand
  | helpOn hlead hline hadmits =>
    exact .helpOn (List.forall_mem_cons.mpr ⟨hword, hlead⟩) hline hadmits
  | help hlead hnames => exact .help (List.forall_mem_cons.mpr ⟨hword, hlead⟩) hnames
  | helpOption hlead hhelp => exact .helpOption (List.forall_mem_cons.mpr ⟨hword, hlead⟩) hhelp

/-- What arguments are read as, they ask for, unless they are refused. -/
theorem wants_ofArguments_or (arguments : List String) :
    Wants arguments (ofArguments arguments) ∨ ofArguments arguments = .refused := by
  have hlead : ∀ word ∈ ([] : List String), Item.verbose.Written [word] := by simp
  have hcommand (verb : Verb) (rest : List String) :
      Wants (verb.name :: rest) (ofCommand verb rest) ∨ ofCommand verb rest = .refused := by
    rcases ofCommand_cases verb rest with
      ⟨items, command, hread, hline, hnames⟩ | ⟨items, hread, hline, hadmits⟩ | hread
    · rw [hread]
      exact .inl (.run hlead hline hnames)
    · rw [hread]
      exact .inl (.helpOn hlead hline hadmits)
    · exact .inr hread
  induction arguments with
  | nil => exact .inr rfl
  | cons argument rest ih =>
    by_cases hcompile : argument = "compile"
    · subst hcompile
      exact hcommand .compile rest
    by_cases hinspect : argument = "inspect"
    · subst hinspect
      exact hcommand .inspect rest
    by_cases hhelp : argument = "help"
    · subst hhelp
      change Wants _ (ofHelp rest) ∨ ofHelp rest = .refused
      rcases ofHelp_cases rest with ⟨hread, hnames⟩ | ⟨hread, -⟩
      · rw [hread]
        exact .inl (.help hlead hnames)
      · exact .inr hread
    have hspells := Word.spells_ofArgument argument
    rw [ofArguments, if_neg hcompile, if_neg hinspect, if_neg hhelp]
    cases hword : Word.ofArgument argument with
    | plain => exact .inr rfl
    | pathsOnly => exact .inr rfl
    | letters cs =>
      rw [hword] at hspells
      obtain ⟨hne, rfl⟩ := hspells
      dsimp only
      rcases eq_replicate_or cs with ⟨n, rfl⟩ | ⟨n, c, letters, hv, rfl⟩
      · rw [ofLetters?_replicate, Option.getD_none]
        cases n with
        | zero => exact absurd rfl hne
        | succ n => exact ih.imp_left (.verbose_cons (.letters n))
      · rw [ofLetters?_replicate_append n hv, Option.getD_some]
        split
        · rename_i hc
          refine .inl (.helpOption hlead (.letters n ?_ letters))
          simpa using hc
        · exact .inr rfl
    | option name value? =>
      rw [hword] at hspells
      cases value? with
      | some value => exact .inr rfl
      | none =>
        obtain rfl := hspells
        dsimp only
        split
        · rename_i hname
          rw [Bool.or_eq_true, decide_eq_true_iff, decide_eq_true_iff] at hname
          rcases hname with rfl | rfl
          · exact .inl (.helpOption hlead .help)
          · exact .inl (.helpOption hlead .version)
        · split
          · rename_i hname
            subst hname
            exact ih.imp_left (.verbose_cons .verbose)
          · exact .inr rfl

/-- Arguments are read as what they ask for. -/
theorem ofArguments_eq_iff {arguments : List String} {request : Request} :
    ofArguments arguments = request ↔ Asks arguments request := by
  have hrefused : ¬ Wants arguments .refused := by
    intro h
    cases h
  constructor
  · rintro rfl
    rcases wants_ofArguments_or arguments with h | h
    · exact .inl h
    · refine .inr ⟨h, fun other hother => hrefused ?_⟩
      rw [← h, ofArguments_of_wants hother]
      exact hother
  · rintro (h | ⟨rfl, hnone⟩)
    · exact ofArguments_of_wants h
    · exact (wants_ofArguments_or arguments).resolve_left (hnone _)

/-- A compilation without a path for its output is refused. -/
example : Asks ["compile", "a.js"] .refused :=
  ofArguments_eq_iff.mp rfl

end Request

end ScriptWire
