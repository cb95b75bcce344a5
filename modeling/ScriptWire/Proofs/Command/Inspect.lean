import ScriptWire.Command.Run
import ScriptWire.Proofs.Ensures
import ScriptWire.Proofs.Files.Disk
import ScriptWire.Proofs.Lowering.Image
import ScriptWire.Proofs.Wire.RoundTrip
import Mathlib.Data.List.Basic

/-!
# Inspecting what was compiled

A compilation counts levels of syntax, and the reader of messages counts messages inside each other.
The default limit on levels does not keep messages within the reader's limit: a file that was
compiled is inspected exactly if at most one hundred messages stand inside each other in it.

## Main results

- `Command.runCompile_eq_done_iff` — what a compilation that succeeds has read and written
- `Command.runInspect_eq` — inspecting a file is reading its message
- `inspect_compiled` — which messages and files of compilations are read back
- `compile_nestedArrays` — a program whose message is not read back
-/

namespace ScriptWire

theorem Reader.messageOf_eq_ok {reader : Reader} {limit : Nat} {path source : String}
    {ast : Message .ast} :
    reader.messageOf limit path source = .ok ast ↔
      ∃ program, reader.read source = .ok program ∧ compile limit program = .ok ast := by
  simp only [messageOf, bind_eq_ok, mapError_eq_ok]

/-- The depth of a message decides what is read from its bytes. -/
theorem Wire.decode_encode_cases {ast : Message .ast}
    (hsize : (Wire.encode ast).length < Nat.pow 2 64) :
    ast.depth ≤ 100 ∧ Wire.decode (Wire.encode ast) = .ok ast.plainZeros ∨
      100 < ast.depth ∧ ∃ path, Wire.decode (Wire.encode ast) = .error ⟨path, .tooNested⟩ := by
  obtain ⟨hshallow, hdeep⟩ := Wire.decodeAs_encode ast hsize
  by_cases hdepth : ast.depth ≤ 100
  · exact .inl ⟨hdepth, hshallow hdepth⟩
  · have hlt : 100 < ast.depth := Nat.lt_of_not_le hdepth
    exact .inr ⟨hlt, hdeep hlt⟩

namespace Command

variable {disk after : Disk} {settings : Settings} {working : List String}

/-- A compilation goes on with what it finds, and leaves the disk as it is until it writes. -/
theorem runCompile_eq (options : CompileOptions) :
    runCompile (Disk.files working) settings options disk =
      match (options.inputFormat settings).reader? options.input with
      | none => (.failed "" (.unknownFormat options.input), disk)
      | some reader =>
        match disk.read options.input working >>= textOfBytes with
        | .error e => (.failed "" (.unreadable options.input e), disk)
        | .ok source =>
          match reader.messageOf (options.limit settings) options.input source with
          | .error failure => (.failed "" failure, disk)
          | .ok ast =>
            let printed := if options.prints settings then ast.shown else ""
            match disk.write options.output (Wire.encode ast) working with
            | .error e => (.failed printed (.unwritable options.output e), disk)
            | .ok after => (.done printed, after) := by
  rw [runCompile]
  cases (options.inputFormat settings).reader? options.input with
  | none => rfl
  | some reader =>
    change (match disk.read options.input working >>= textOfBytes with
      | .error e => _
      | .ok source => _ : StateM Disk Outcome) disk = _
    cases disk.read options.input working >>= textOfBytes with
    | error e => rfl
    | ok source =>
      dsimp only
      cases reader.messageOf (options.limit settings) options.input source with
      | error failure => rfl
      | ok ast =>
        simp only [Disk.files, bind, StateT.bind]
        cases disk.write options.output (Wire.encode ast) working <;> rfl

/-- A compilation succeeds on a disk if its input has a message that can be written. -/
theorem runCompile_eq_done_iff {options : CompileOptions} {printed : String} :
    runCompile (Disk.files working) settings options disk = (.done printed, after) ↔
      ∃ reader source ast,
        (options.inputFormat settings).reader? options.input = some reader ∧
        (disk.read options.input working >>= textOfBytes) = .ok source ∧
        reader.messageOf (options.limit settings) options.input source = .ok ast ∧
        disk.write options.output (Wire.encode ast) working = .ok after ∧
        (if options.prints settings then ast.shown else "") = printed := by
  rw [runCompile_eq]
  constructor
  · intro h
    split at h
    · cases h
    · split at h
      · cases h
      · split at h
        · cases h
        · dsimp only at h
          split at h
          · cases h
          · cases h
            exact ⟨_, _, _, ‹_›, ‹_›, ‹_›, ‹_›, rfl⟩
  · rintro ⟨reader, source, ast, hreader, hsource, hast, hwrite, rfl⟩
    simp only [hreader, hsource, hast, hwrite]

/-- Inspecting a file is reading its message; the disk stays as it is. -/
theorem runInspect_eq (path : String) :
    runInspect (Disk.files working) path disk =
      (match disk.read path working with
        | .error e => .failed "" (.unreadable path e)
        | .ok bytes =>
          match Wire.decode bytes with
          | .error e => .failed "" (.undecodable path e)
          | .ok ast => .done ast.shown, disk) := by
  change (match disk.read path working with
    | .error e => _
    | .ok bytes => _ : StateM Disk Outcome) disk = _
  cases disk.read path working with
  | error e => rfl
  | ok bytes =>
    dsimp only
    cases Wire.decode bytes <;> rfl

end Command

/-- The program that a compilation finds in its input on a disk. -/
def CompileOptions.Reads (options : CompileOptions) (settings : Settings) (disk : Disk)
    (program : Tree.Program) : Prop :=
  ∃ reader source, (options.inputFormat settings).reader? options.input = some reader ∧
    (disk.read options.input >>= textOfBytes) = .ok source ∧ reader.read source = .ok program

/-- Under any limit on levels, the default one included: the messages that compilations give are
read back up to the sign of zeros, and the files that they write are inspected, exactly if at most
one hundred messages stand inside each other below the message. -/
theorem inspect_compiled (limit : Nat) :
    (∀ (program : Tree.Program) (ast : Message .ast),
      compile limit program = .ok ast → (Wire.encode ast).length < Nat.pow 2 64 →
        ast.depth ≤ 100 ∧ Wire.decode (Wire.encode ast) = .ok ast.plainZeros ∨
          100 < ast.depth ∧ ∃ path, Wire.decode (Wire.encode ast) = .error ⟨path, .tooNested⟩) ∧
      ∀ (disk after : Disk) (settings : Settings) (options : CompileOptions) (printed : String),
        options.limit settings = limit →
        (Command.compile options).run Disk.files settings disk = (.done printed, after) →
          ∃ program ast, options.Reads settings disk program ∧
            compile limit program = .ok ast ∧
            after.read options.output = .ok (Wire.encode ast) ∧
            ((Wire.encode ast).length < Nat.pow 2 64 →
              ast.depth ≤ 100 ∧
                (Command.inspect options.output).run Disk.files settings after =
                  (.done ast.plainZeros.shown, after) ∨
              100 < ast.depth ∧ ∃ path,
                (Command.inspect options.output).run Disk.files settings after =
                  (.failed "" (.undecodable options.output ⟨path, .tooNested⟩), after)) := by
  refine ⟨fun _ _ _ hsize => Wire.decode_encode_cases hsize, ?_⟩
  intro disk after settings options printed hlimit hrun
  obtain ⟨reader, source, ast, hreader, hsource, hmessage, hwrite, _⟩ :=
    Command.runCompile_eq_done_iff.mp hrun
  obtain ⟨program, hprogram, hcompile⟩ := Reader.messageOf_eq_ok.mp hmessage
  rw [hlimit] at hcompile
  have hread : after.read options.output = .ok (Wire.encode ast) := Disk.read_of_write hwrite
  refine ⟨program, ast, ⟨reader, source, hreader, hsource, hprogram⟩, hcompile, hread, ?_⟩
  intro hsize
  rw [Command.run, Command.runInspect_eq, hread]
  rcases Wire.decode_encode_cases hsize with ⟨hdepth, hdecode⟩ | ⟨hdepth, path, hdecode⟩
  · left
    refine ⟨hdepth, ?_⟩
    simp only [hdecode]
  · right
    refine ⟨hdepth, path, ?_⟩
    simp only [hdecode]

/-- The message of a negative zero is read back without its sign, and a file with an empty statement
is compiled into four bytes, which are inspected. -/
theorem inspect_compiled_small :
    Wire.decode (Wire.encode (Image.program
        ⟨[.expressionStatement (.numericLiteral Binary64.zero.negate)]⟩)) =
      .ok (Image.program ⟨[.expressionStatement (.numericLiteral Binary64.zero)]⟩) ∧
      (Command.compile ⟨"a.js", "b", none, none, false⟩).run Disk.files .unset
        ⟨[(["a.js"], .file [59])]⟩ =
          (.done "", ⟨[(["b"], .file [10, 2, 10, 0]), (["a.js"], .file [59])]⟩) ∧
      ∃ printed, (Command.inspect "b").run Disk.files .unset
        ⟨[(["b"], .file [10, 2, 10, 0]), (["a.js"], .file [59])]⟩ =
          (.done printed, ⟨[(["b"], .file [10, 2, 10, 0]), (["a.js"], .file [59])]⟩) := by
  have hreader : Format.reader? .auto "a.js" = some scriptReader := rfl
  have hsource : ((Disk.mk [(["a.js"], .file [59])]).read "a.js" >>= textOfBytes) = .ok ";" := rfl
  have hprogram : scriptReader.read ";" = .ok ⟨[.emptyStatement]⟩ := rfl
  have hbytes : Wire.encode (Image.program ⟨[.emptyStatement]⟩) = [10, 2, 10, 0] := by
    decide +kernel
  have hwrite : (Disk.mk [(["a.js"], .file [59])]).write "b"
      (Wire.encode (Image.program ⟨[.emptyStatement]⟩)) =
        .ok ⟨[(["b"], .file [10, 2, 10, 0]), (["a.js"], .file [59])]⟩ := by
    rw [hbytes]
    rfl
  have hrun : (Command.compile ⟨"a.js", "b", none, none, false⟩).run Disk.files .unset
      ⟨[(["a.js"], .file [59])]⟩ =
        (.done "", ⟨[(["b"], .file [10, 2, 10, 0]), (["a.js"], .file [59])]⟩) := by
    rw [Command.run, Command.runCompile_eq_done_iff]
    exact ⟨scriptReader, ";", Image.program ⟨[.emptyStatement]⟩, hreader, hsource,
      Reader.messageOf_eq_ok.mpr ⟨_, hprogram, rfl⟩, hwrite, rfl⟩
  refine ⟨?_, hrun, ?_⟩
  · rcases (inspect_compiled defaultDepth).1
      ⟨[.expressionStatement (.numericLiteral Binary64.zero.negate)]⟩ _ rfl (by decide +kernel) with
      ⟨_, h⟩ | ⟨hdepth, _⟩
    · exact h
    · exact absurd hdepth (by decide)
  · obtain ⟨program, ast, ⟨reader, source, hr, hs, hp⟩, hcompile, _, hinspect⟩ :=
      (inspect_compiled defaultDepth).2 _ _ _ _ _ rfl hrun
    obtain rfl : scriptReader = reader := Option.some.inj (hreader.symm.trans hr)
    obtain rfl : ";" = source := Except.ok.inj (hsource.symm.trans hs)
    obtain rfl : ⟨[.emptyStatement]⟩ = program := Except.ok.inj (hprogram.symm.trans hp)
    cases hcompile
    rcases hinspect (by decide +kernel) with ⟨_, h⟩ | ⟨hdepth, _⟩
    · exact ⟨_, h⟩
    · exact absurd hdepth (by decide)

/-- Arrays inside each other, around an empty one. -/
def nestedArrays : Nat → Tree.Expression
  | 0 => .arrayExpression []
  | n + 1 => .arrayExpression [some (nestedArrays n)]

set_option maxRecDepth 4000 in
/-- Fifty arrays inside each other are well within the default limit, but their message is not read
back. -/
theorem compile_nestedArrays :
    ∃ ast, compile defaultDepth ⟨[.expressionStatement (nestedArrays 49)]⟩ = .ok ast ∧
      ∃ path, Wire.decode (Wire.encode ast) = .error ⟨path, .tooNested⟩ := by
  refine ⟨_, rfl, ?_⟩
  exact (Wire.decodeAs_encode _ (by decide +kernel)).2 (by decide +kernel)

end ScriptWire
