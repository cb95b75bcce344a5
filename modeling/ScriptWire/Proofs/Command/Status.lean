import ScriptWire.Proofs.Command.Arguments
import ScriptWire.Proofs.Command.Inspect

/-!
# How runs end

A run from the arguments on is a row of steps: the arguments are read, a reader is found, the input
is read and turned into a message, and the message is written. The exit status tells the step that
failed, and the disk is touched by the last step only.

## Main definitions

- `Disk.Configures` — what a configuration file sets
- `Reader.Fits` — a reader is the one for a format and a path
- `Site` — a disk with its two configuration files, and what is in force there
- `Site.Opens`, `Site.Parses`, `Site.Builds` — how far a compilation gets
- `Site.Fails`, `Site.Succeeds` — the step at which a run fails, with its exit status, and what a
  run that succeeds prints and leaves

## Main results

- `Disk.configures_iff` — a configuration file is read as what it sets
- `Site.ends_perform` — a run fails at a step or succeeds
- `runArguments_status` — what a run leaves on the disk, and what its exit status tells
-/

namespace ScriptWire

theorem textOfBytes_textBytes (text : String) : textOfBytes (Wire.textBytes text) = .ok text := by
  rw [textOfBytes, Wire.fromUTF8?_textBytes]

namespace Disk

/-- The text of the file that a path leads to. -/
def text (disk : Disk) (path : String) (working : List String) : Except FileError String :=
  disk.read path working >>= textOfBytes

/-- What a configuration file sets. One that cannot be read, or is malformed, sets nothing.
Otherwise its table counts, which is told by the keys and sections of a text that is plain. -/
structure Configures (disk : Disk) (working : List String) (path : String) (s : Settings) :
    Prop where
  unreadable : ∀ e, disk.text path working = .error e → s = .unset
  malformed : ∀ text, disk.text path working = .ok text → Toml.parse? text = none → s = .unset
  table : ∀ text t, disk.text path working = .ok text → Toml.parse? text = some t → s.TakenFrom t
  plain : ∀ text entries sections, disk.text path working = .ok text →
    Toml.Plain entries sections text → s.TakenFrom (Toml.plainTable entries sections)

/-- The settings that are loaded from a configuration file. -/
def configuration (disk : Disk) (working : List String) (path : String) : Settings :=
  match disk.text path working with
  | .error _ => .unset
  | .ok text => (Settings.ofText? text).getD .unset

variable {disk : Disk} {working : List String} {path : String} {s : Settings}

theorem text_of_read {text : String} (h : disk.read path working = .ok (Wire.textBytes text)) :
    disk.text path working = .ok text := by
  rw [Disk.text, h]
  exact textOfBytes_textBytes text

theorem load_eq :
    Settings.load (files working) path disk = (disk.configuration working path, disk) := by
  change (match disk.text path working with
    | .error _ => _
    | .ok text => _ : StateM Disk Settings) disk = _
  rw [configuration]
  cases disk.text path working <;> rfl

theorem configures_configuration :
    disk.Configures working path (disk.configuration working path) := by
  have htable (text : String) (t : Toml.Table) (htext : disk.text path working = .ok text)
      (ht : Toml.parse? text = some t) : (disk.configuration working path).TakenFrom t := by
    rw [configuration, htext]
    exact (Settings.getD_ofText?_eq_iff ht).mp rfl
  constructor
  · intro e he
    rw [configuration, he]
  · intro text htext hnone
    rw [configuration, htext]
    simp only [Settings.ofText?, hnone]
    rfl
  · exact htable
  · intro text entries sections htext hplain
    exact htable text _ htext (Toml.parse?_of_plain hplain)

/-- A configuration file is read as what it sets. -/
theorem configures_iff : disk.Configures working path s ↔ s = disk.configuration working path := by
  constructor
  · intro h
    rw [configuration]
    cases htext : disk.text path working with
    | error e => exact h.unreadable e htext
    | ok text =>
      cases ht : Toml.parse? text with
      | none =>
        simp only [Settings.ofText?, ht]
        exact h.malformed text htext ht
      | some t => exact ((Settings.getD_ofText?_eq_iff ht).mpr (h.table text t htext ht)).symm
  · rintro rfl
    exact configures_configuration

/-- A plain configuration file sets what its keys and sections hold. -/
theorem configures_of_plain {text : String} {entries : List (String × Toml.Value)}
    {sections : List (String × List (String × Toml.Value))}
    (htext : disk.text path working = .ok text) (hplain : Toml.Plain entries sections text)
    (hs : s.HeldBy (Toml.plainTable entries sections)) : disk.Configures working path s := by
  rw [configures_iff, configuration, htext]
  exact ((Settings.getD_ofText?_eq_iff (Toml.parse?_of_plain hplain)).mpr (.inl hs)).symm

end Disk

/-- A reader fits a format: it has the name of the format or, where the format is to be found out,
it reads files with the extension of the path. -/
def Reader.Fits (reader : Reader) (format : Format) (path : String) : Prop :=
  reader ∈ Registry.builtin ∧
    match format with
    | .auto => ∃ extension, Path.extension? path = some extension ∧ extension ∈ reader.extensions
    | format => reader.language = format.name

/-- Of the two readers, the first with a property is the only one if they do not share it. -/
theorem find?_builtin_eq_some_iff {p : Reader → Bool} {reader : Reader}
    (h : p documentReader = true → p scriptReader = false) :
    Registry.builtin.find? p = some reader ↔ reader ∈ Registry.builtin ∧ p reader = true := by
  constructor
  · intro hfind
    exact ⟨List.mem_of_find?_eq_some hfind, List.find?_some hfind⟩
  · simp only [Registry.builtin, List.mem_cons, List.not_mem_nil, or_false]
    rintro ⟨rfl | rfl, hp⟩
    · rw [List.find?_cons_of_pos hp]
    · rw [List.find?_cons_of_neg (by simp [h hp]), List.find?_cons_of_pos hp]

/-- The reader that is found is the only one that fits. -/
theorem Format.reader?_eq_some_iff {format : Format} {path : String} {reader : Reader} :
    format.reader? path = some reader ↔ reader.Fits format path := by
  have hextension (extension : String) :
      Registry.builtin.forExtension? extension = some reader ↔
        reader ∈ Registry.builtin ∧ extension ∈ reader.extensions := by
    rw [Registry.forExtension?, find?_builtin_eq_some_iff, List.contains_iff_mem]
    intro hdocument
    obtain rfl := List.mem_singleton.mp (List.contains_iff_mem.mp hdocument)
    rfl
  have hlanguage (language : String) :
      Registry.builtin.forLanguage? language = some reader ↔
        reader ∈ Registry.builtin ∧ reader.language = language := by
    rw [Registry.forLanguage?, find?_builtin_eq_some_iff, decide_eq_true_iff]
    intro hdocument
    obtain rfl := of_decide_eq_true hdocument
    rfl
  cases format with
  | auto =>
    rw [reader?, Reader.Fits, Option.bind_eq_bind, Option.bind_eq_some_iff]
    constructor
    · rintro ⟨extension, hpath, hfound⟩
      obtain ⟨hreader, hmem⟩ := (hextension extension).mp hfound
      exact ⟨hreader, extension, hpath, hmem⟩
    · rintro ⟨hreader, extension, hpath, hmem⟩
      exact ⟨extension, hpath, (hextension extension).mpr ⟨hreader, hmem⟩⟩
  | javascript => exact hlanguage "javascript"
  | estree => exact hlanguage "estree"

theorem Format.reader?_eq_none_iff {format : Format} {path : String} :
    format.reader? path = none ↔ ∀ reader : Reader, ¬ reader.Fits format path := by
  rw [Option.eq_none_iff_forall_ne_some]
  exact forall_congr' fun reader => not_congr reader?_eq_some_iff

theorem Failure.status_ne_zero (failure : Failure) : failure.status ≠ 0 := by
  cases failure with
  | noMessage path cause =>
    rw [status]
    split <;> decide
  | _ => exact Nat.succ_ne_zero _

theorem CompileError.eq_shape {e : CompileError} (h : e.isInputFault = false) :
    ∃ violation, e = .shape violation := by
  cases e with
  | shape violation => exact ⟨violation, rfl⟩
  | _ => cases h

/-- Where a run takes place. -/
structure Site where
  disk : Disk
  /-- The working directory. -/
  working : List String
  /-- The user's directory for configuration files, if there is one. -/
  directory : Option String

namespace Site

/-- What the configuration file of the project sets. -/
def project (site : Site) : Settings :=
  site.disk.configuration site.working projectSettings

/-- What the configuration file of the user sets. -/
def user (site : Site) : Settings :=
  match site.directory with
  | none => .unset
  | some directory => site.disk.configuration site.working (userSettings directory)

/-- The settings of the user. Without a directory for them nothing is set. -/
def UserSets (site : Site) (s : Settings) : Prop :=
  match site.directory with
  | none => s = .unset
  | some directory => site.disk.Configures site.working (userSettings directory) s

theorem userSets_iff {site : Site} {s : Settings} : site.UserSets s ↔ s = site.user := by
  rw [UserSets, user]
  cases site.directory with
  | none => rfl
  | some directory => exact Disk.configures_iff

/-- The format in force: the one of the command line, else the project's, else the user's, else the
one that the extension tells. -/
def format (site : Site) (options : CompileOptions) : Format :=
  (options.format <|> site.project.format <|> site.user.format).getD .auto

/-- The limit on levels in force. -/
def limit (site : Site) (options : CompileOptions) : Nat :=
  (options.maxDepth <|> site.project.maxDepth <|> site.user.maxDepth).getD defaultDepth

/-- The compilation prints its message: an option or the configuration in force asks for that. -/
def prints (site : Site) (options : CompileOptions) : Bool :=
  options.dump || (site.project.dump <|> site.user.dump).getD false

/-- The text of the file that a path leads to. -/
def text (site : Site) (path : String) : Except FileError String :=
  site.disk.text path site.working

/-- The bytes of the file that a path leads to. -/
def read (site : Site) (path : String) : Except FileError Wire.Bytes :=
  site.disk.read path site.working

/-- The disk after a message is written under a path. -/
def write (site : Site) (path : String) (ast : Message .ast) : Except FileError Disk :=
  site.disk.write path (Wire.encode ast) site.working

/-- A reader fits, and the input of a compilation is a text. -/
def Opens (site : Site) (options : CompileOptions) (reader : Reader) (source : String) : Prop :=
  reader.Fits (site.format options) options.input ∧ site.text options.input = .ok source

/-- The input of a compilation is read as a program. -/
def Parses (site : Site) (options : CompileOptions) (program : Tree.Program) : Prop :=
  ∃ reader source, site.Opens options reader source ∧ reader.read source = .ok program

/-- The program of a compilation has a message. -/
def Builds (site : Site) (options : CompileOptions) (ast : Message .ast) : Prop :=
  ∃ program, site.Parses options program ∧ compile (site.limit options) program = .ok ast

/-- What was asked for fails, with the exit status that tells the step. -/
inductive Fails (site : Site) : Request → Nat → Prop
  | arguments : Fails site .refused 2
  | noReader (options : CompileOptions)
      (h : ∀ reader : Reader, ¬ reader.Fits (site.format options) options.input) :
      Fails site (.run (.compile options)) 2
  | unreadable (options : CompileOptions) (reader : Reader) (e : FileError)
      (hreader : reader.Fits (site.format options) options.input)
      (h : site.text options.input = .error e) :
      Fails site (.run (.compile options)) 1
  | unwritable (options : CompileOptions) (ast : Message .ast) (e : FileError)
      (hast : site.Builds options ast)
      (h : site.write options.output ast = .error e) :
      Fails site (.run (.compile options)) 1
  | noTree (options : CompileOptions) (reader : Reader) (source : String) (e : ReadError)
      (hsource : site.Opens options reader source) (h : reader.read source = .error e) :
      Fails site (.run (.compile options)) 3
  | noMessage (options : CompileOptions) (program : Tree.Program) (e : CompileError)
      (hprogram : site.Parses options program)
      (h : compile (site.limit options) program = .error e) (hinput : e.isInputFault = true) :
      Fails site (.run (.compile options)) 4
  | misshapen (options : CompileOptions) (program : Tree.Program) (violation : Message.Violation)
      (hprogram : site.Parses options program)
      (h : compile (site.limit options) program = .error (.shape violation)) :
      Fails site (.run (.compile options)) 5
  | uninspected (path : String) (e : FileError) (h : site.read path = .error e) :
      Fails site (.run (.inspect path)) 1
  | undecodable (path : String) (bytes : Wire.Bytes) (e : Wire.DecodeError)
      (hbytes : site.read path = .ok bytes) (h : Wire.decode bytes = .error e) :
      Fails site (.run (.inspect path)) 3

/-- What was asked for succeeds, with what it prints and the disk that it leaves. -/
inductive Succeeds (site : Site) : Request → Outcome → Disk → Prop
  | help : Succeeds site .help .help site.disk
  | inspect (path : String) (bytes : Wire.Bytes) (ast : Message .ast)
      (hbytes : site.read path = .ok bytes) (h : Wire.decode bytes = .ok ast) :
      Succeeds site (.run (.inspect path)) (.done ast.shown) site.disk
  | compile (options : CompileOptions) (ast : Message .ast) (after : Disk)
      (hast : site.Builds options ast) (h : site.write options.output ast = .ok after) :
      Succeeds site (.run (.compile options))
        (.done (if site.prints options then ast.shown else "")) after

/-- The settings of both files together. -/
def settings (site : Site) : Settings :=
  site.user.override site.project

theorem loadAll_eq (site : Site) :
    Settings.loadAll (Disk.files site.working) site.directory site.disk =
      (site.settings, site.disk) := by
  rw [settings, user, project]
  cases site.directory with
  | none =>
    rw [Settings.loadAll]
    simp only [bind, StateT.bind, Disk.load_eq]
    rfl
  | some directory =>
    rw [Settings.loadAll]
    simp only [bind, StateT.bind, Disk.load_eq]
    rfl

/-- What is asked for, done with the settings in force. -/
def perform (site : Site) : Request → Outcome × Disk
  | .help => (.help, site.disk)
  | .refused => (.refused, site.disk)
  | .run command => command.run (Disk.files site.working) site.settings site.disk

/-- A run reads the configuration files and changes nothing before the command itself. -/
theorem runArguments_eq (site : Site) (arguments : List String) :
    runArguments (Disk.files site.working) site.directory arguments site.disk =
      site.perform (Request.ofArguments arguments) := by
  rw [runArguments]
  cases Request.ofArguments arguments with
  | help => rfl
  | refused => rfl
  | run command =>
    simp only [bind, StateT.bind, loadAll_eq]
    rfl

/-- A compilation goes on with what is in force and what it finds. -/
theorem perform_compile (site : Site) (options : CompileOptions) :
    site.perform (.run (.compile options)) =
      match (site.format options).reader? options.input with
      | none => (.failed "" (.unknownFormat options.input), site.disk)
      | some reader =>
        match site.text options.input with
        | .error e => (.failed "" (.unreadable options.input e), site.disk)
        | .ok source =>
          match reader.messageOf (site.limit options) options.input source with
          | .error failure => (.failed "" failure, site.disk)
          | .ok ast =>
            let printed := if site.prints options then ast.shown else ""
            match site.write options.output ast with
            | .error e => (.failed printed (.unwritable options.output e), site.disk)
            | .ok after => (.done printed, after) :=
  Command.runCompile_eq options

theorem perform_inspect (site : Site) (path : String) :
    site.perform (.run (.inspect path)) =
      (match site.read path with
        | .error e => .failed "" (.unreadable path e)
        | .ok bytes =>
          match Wire.decode bytes with
          | .error e => .failed "" (.undecodable path e)
          | .ok ast => .done ast.shown, site.disk) :=
  Command.runInspect_eq path

/-- A compilation whose input is opened goes on with its text. -/
theorem perform_of_opens {site : Site} {options : CompileOptions} {reader : Reader}
    {source : String} (h : site.Opens options reader source) :
    site.perform (.run (.compile options)) =
      match reader.messageOf (site.limit options) options.input source with
      | .error failure => (.failed "" failure, site.disk)
      | .ok ast =>
        let printed := if site.prints options then ast.shown else ""
        match site.write options.output ast with
        | .error e => (.failed printed (.unwritable options.output e), site.disk)
        | .ok after => (.done printed, after) := by
  rw [perform_compile, Format.reader?_eq_some_iff.mpr h.1, h.2]

/-- A compilation whose program has a message goes on to write it. -/
theorem perform_of_builds {site : Site} {options : CompileOptions} {ast : Message .ast}
    (h : site.Builds options ast) :
    site.perform (.run (.compile options)) =
      let printed := if site.prints options then ast.shown else ""
      match site.write options.output ast with
      | .error e => (.failed printed (.unwritable options.output e), site.disk)
      | .ok after => (.done printed, after) := by
  obtain ⟨program, ⟨reader, source, hopens, hprogram⟩, hcompile⟩ := h
  rw [perform_of_opens hopens, Reader.messageOf_eq_ok.mpr ⟨program, hprogram, hcompile⟩]

/-- The ways in which a run ends: at a step that fails, and then the disk is as it was, or after the
last step. -/
inductive Ends (site : Site) (request : Request) : Outcome × Disk → Prop
  | failed {printed : String} {failure : Failure} (h : site.Fails request failure.status) :
      Ends site request (.failed printed failure, site.disk)
  | refused (h : site.Fails request 2) : Ends site request (.refused, site.disk)
  | succeeded {outcome : Outcome} {after : Disk} (h : site.Succeeds request outcome after) :
      Ends site request (outcome, after)

theorem ends_compile (site : Site) (options : CompileOptions) :
    site.Ends (.run (.compile options)) (site.perform (.run (.compile options))) := by
  cases hreader : (site.format options).reader? options.input with
  | none =>
    rw [perform_compile, hreader]
    exact .failed (.noReader options (Format.reader?_eq_none_iff.mp hreader))
  | some reader =>
    have hfits := Format.reader?_eq_some_iff.mp hreader
    cases hsource : site.text options.input with
    | error e =>
      rw [perform_compile, hreader, hsource]
      exact .failed (.unreadable options reader e hfits hsource)
    | ok source =>
      have hopens : site.Opens options reader source := ⟨hfits, hsource⟩
      cases hprogram : reader.read source with
      | error e =>
        rw [perform_of_opens hopens, Reader.messageOf, hprogram]
        exact .failed (.noTree options reader source e hopens hprogram)
      | ok program =>
        have hparses : site.Parses options program := ⟨reader, source, hopens, hprogram⟩
        cases hast : ScriptWire.compile (site.limit options) program with
        | error e =>
          rw [perform_of_opens hopens, Reader.messageOf, hprogram]
          dsimp only [Except.mapError, bind, Except.bind]
          rw [hast]
          refine .failed ?_
          rw [Failure.status]
          by_cases hinput : e.isInputFault = true
          · rw [if_pos hinput]
            exact .noMessage options program e hparses hast hinput
          · obtain ⟨violation, rfl⟩ := CompileError.eq_shape (Bool.eq_false_iff.mpr hinput)
            exact .misshapen options program violation hparses hast
        | ok ast =>
          have hbuilds : site.Builds options ast := ⟨program, hparses, hast⟩
          rw [perform_of_builds hbuilds]
          cases hwrite : site.write options.output ast with
          | error e => exact .failed (.unwritable options ast e hbuilds hwrite)
          | ok after => exact .succeeded (.compile options ast after hbuilds hwrite)

theorem ends_inspect (site : Site) (path : String) :
    site.Ends (.run (.inspect path)) (site.perform (.run (.inspect path))) := by
  rw [perform_inspect]
  cases hbytes : site.read path with
  | error e => exact .failed (.uninspected path e hbytes)
  | ok bytes =>
    dsimp only
    cases hast : Wire.decode bytes with
    | error e => exact .failed (.undecodable path bytes e hbytes hast)
    | ok ast => exact .succeeded (.inspect path bytes ast hbytes hast)

theorem ends_perform (site : Site) (request : Request) :
    site.Ends request (site.perform request) := by
  cases request with
  | help => exact .succeeded .help
  | refused => exact .refused .arguments
  | run command =>
    cases command with
    | compile options => exact site.ends_compile options
    | inspect path => exact site.ends_inspect path

variable {site : Site} {request : Request} {outcome : Outcome} {after : Disk}

/-- The exit status of a run that fails is the one of the step. -/
theorem Fails.status_eq {status : Nat} (h : site.Fails request status) :
    (site.perform request).1.status = status := by
  cases h with
  | arguments => rfl
  | noReader options h =>
    rw [perform_compile, Format.reader?_eq_none_iff.mpr h]
    rfl
  | unreadable options reader e hreader h =>
    rw [perform_compile, Format.reader?_eq_some_iff.mpr hreader, h]
    rfl
  | unwritable options ast e hast h =>
    rw [perform_of_builds hast, h]
    rfl
  | noTree options reader source e hsource h =>
    rw [perform_of_opens hsource, Reader.messageOf, h]
    rfl
  | noMessage options program e hprogram h hinput =>
    obtain ⟨reader, source, hopens, hprogram⟩ := hprogram
    rw [perform_of_opens hopens, Reader.messageOf, hprogram]
    simp only [Except.mapError, bind, Except.bind, h]
    exact if_pos hinput
  | misshapen options program violation hprogram h =>
    obtain ⟨reader, source, hopens, hprogram⟩ := hprogram
    rw [perform_of_opens hopens, Reader.messageOf, hprogram]
    simp only [Except.mapError, bind, Except.bind, h]
    rfl
  | uninspected path e h =>
    rw [perform_inspect, h]
    rfl
  | undecodable path bytes e hbytes h =>
    rw [perform_inspect, hbytes]
    simp only [h]
    rfl

theorem Succeeds.status_eq_zero (h : site.Succeeds request outcome after) : outcome.status = 0 := by
  cases h <;> rfl

/-- A run that succeeds has one result. -/
theorem Succeeds.perform_eq (h : site.Succeeds request outcome after) :
    site.perform request = (outcome, after) := by
  cases h with
  | help => rfl
  | inspect path bytes ast hbytes h =>
    rw [perform_inspect, hbytes]
    simp only [h]
  | compile options ast _ hast h => rw [perform_of_builds hast, h]

/-- Either the exit status tells the step that failed and the disk is as it was, or the run has
succeeded. -/
theorem Ends.cases (h : site.Ends request (outcome, after)) :
    outcome.status ≠ 0 ∧ after = site.disk ∧ site.Fails request outcome.status ∨
      site.Succeeds request outcome after := by
  cases h with
  | failed h => exact .inl ⟨Failure.status_ne_zero _, rfl, h⟩
  | refused h => exact .inl ⟨by decide, rfl, h⟩
  | succeeded h => exact .inr h

end Site

namespace Site

/-- A project that sets a limit, and a user that sets a format and another limit. -/
def configured : Site where
  disk := ⟨[
    (["work", ".jsir", "config.toml"], .file (Wire.textBytes "[compiler]\nmax_depth = 7\n")),
    (["home", "jsir", "config.toml"], .file (Wire.textBytes
      "[input]\nformat = \x22javascript\x22\n[compiler]\nmax_depth = 0\n")),
    (["work", "a.txt"], .file (Wire.textBytes ";")),
    (["out"], .directory)]⟩
  working := ["work"]
  directory := some "/home"

/-- A section that sets the limit on levels to a digit. -/
theorem sections_limit {c : Char} {d : Nat} (hd : StandsFor c d ∧ d < 10) :
    Toml.Sections [("compiler", [("max_depth", .integer d)])]
      ("[compiler]\nmax_depth = ".toList ++ [c, '\n']) := by
  have hnumber : Toml.Decimal [c] d := by
    refine ⟨[d], .digit hd, Nat.ofDigits_singleton, fun hzero => ?_⟩
    rw [Option.some.inj hzero]
  have hline := Toml.entries_line "max_depth".toList (by decide) (by decide)
    (.decimal hnumber (Nat.lt_trans hd.2 (by decide)))
  -- The text is taken apart only after its parts are known.
  have hsection := Toml.sections_header "compiler".toList (by decide) (by decide) hline .nil
  exact hsection

theorem projectSets_configured :
    configured.disk.Configures configured.working projectSettings ⟨some 7, none, none⟩ := by
  have hplain : Toml.Plain [] [("compiler", [("max_depth", .integer 7)])]
      "[compiler]\nmax_depth = 7\n" :=
    ⟨⟨[], _, by decide, .nil, @sections_limit '7' 7 ⟨.inl rfl, by decide⟩⟩, by decide, by simp⟩
  refine Disk.configures_of_plain (Disk.text_of_read rfl) hplain ?_
  exact ⟨.value rfl (.table _ _) rfl, .noSection rfl, .noSection rfl⟩

theorem userSets_configured : configured.UserSets ⟨some 0, some .javascript, none⟩ := by
  have hformat : (Toml.Value.string "javascript").Written "\x22javascript\x22".toList :=
    @Toml.Value.Written.string "javascript".toList (Toml.printable_iff.mpr (by decide)) (by decide)
      (by decide)
  have hline := Toml.entries_line "format".toList (by decide) (by decide) hformat
  have hplain : Toml.Plain []
      [("input", [("format", .string "javascript")]), ("compiler", [("max_depth", .integer 0)])]
      "[input]\nformat = \x22javascript\x22\n[compiler]\nmax_depth = 0\n" := by
    have hsections := Toml.sections_header "input".toList (by decide) (by decide) hline
      (@sections_limit '0' 0 ⟨.inl rfl, by decide⟩)
    exact ⟨⟨[], _, by decide, .nil, hsections⟩, by decide, by simp⟩
  refine Disk.configures_of_plain (Disk.text_of_read rfl) hplain ?_
  exact ⟨.value rfl (.table _ _) rfl, .value rfl (.table _ _) (.string .javascript),
    .noSection rfl⟩

end Site

end ScriptWire
