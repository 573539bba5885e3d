import Brainfuck.Proofs.Ir.Hosts
import Brainfuck.Proofs.Native.Streams
import Brainfuck.Proofs.Placement
import Brainfuck.Stream.Scripted

/-! # Where instructions stand, in native runs

The code of two programs with the same operations is the same but for the name of the file, and so
are the runs of it: they leave the same tape, or an error of the instructions at the same index.

Main definitions: `Ending.AlikeIn`, `CallLog.silent`. Main statements: `compile_eq_of_alike`,
`run_alike` and, for all the way from the source on, `Program.runsAlike_of_sameOps`. -/

namespace Brainfuck

namespace Native

open Ir

/-! ## Code -/

section Code

variable {program program' : LinkedProgram}

theorem Build.instruction_eq_of_alike {entry entry' : Linked} (h : entry.Alike entry')
    (frame : Frame) (size : Int) (index : Nat) :
    instruction frame size index entry = instruction frame size index entry' := by
  cases h with
  | plain op => simp only [instruction, op]
  | opener op => rfl
  | closer op => rfl

theorem Build.instructions_eq_of_alike {entries entries' : List Linked}
    (h : ∀ index : Nat, Option.Rel Linked.Alike entries[index]? entries'[index]?) (frame : Frame)
    (size : Int) (index : Nat) :
    instructions frame size index entries = instructions frame size index entries' := by
  induction entries generalizing entries' index with
  | nil =>
    cases entries' with
    | nil => rfl
    | cons entry' rest' => cases h 0
  | cons entry rest ih =>
    cases entries' with
    | nil => cases h 0
    | cons entry' rest' =>
      have hfirst : entry.Alike entry' := by
        cases h 0 with
        | some alike => exact alike
      have hrest : ∀ index : Nat, Option.Rel Linked.Alike rest[index]? rest'[index]? := by
        intro index
        simpa using h (index + 1)
      rw [instructions, instructions, instruction_eq_of_alike hfirst, ih hrest]

/-- The code of alike programs is the same but for the name of the file. -/
theorem compile_eq_of_alike (h : program.Alike program') (size : Int) :
    compile program' size = { compile program size with file := program'.file } := by
  have hlist : ∀ index : Nat, Option.Rel Linked.Alike program.instructions.toList[index]?
      program'.instructions.toList[index]? := by
    intro index
    simpa using h index
  have hfunction : Build.function program' size = Build.function program size := by
    simp only [Build.function, Build.instructions_eq_of_alike hlist]
  unfold compile
  rw [hfunction]
  rfl

/-- Lines added one by one to a text leave its beginning alone. -/
theorem foldl_append_text {α : Type} (line : α → String) (items : List α) (first second : String) :
    items.foldl (fun text item => text ++ line item) (first ++ second) =
      first ++ items.foldl (fun text item => text ++ line item) second := by
  induction items generalizing second with
  | nil => rfl
  | cons item rest ih => rw [List.foldl_cons, List.foldl_cons, String.append_assoc, ih]

/-- The name of the file stands in the first line of the text of a unit, and nowhere else. -/
theorem exists_text_eq (unit : CodeUnit) :
    ∃ rest, ∀ file, ({ unit with file } : CodeUnit).text =
      "; ModuleID = \"" ++ file ++ "\"\n" ++ rest := by
  refine ⟨unit.declarations.foldl
    (fun text callee => text ++ ("\n" ++ callee.declaration ++ "\n"))
    ("target triple = \"x86_64-unknown-linux-gnu\"\n" ++ "target datalayout = \"\"\n\n" ++
      unit.function.text), ?_⟩
  intro file
  have hline : "\"\ntarget triple = \"x86_64-unknown-linux-gnu\"\n" =
      "\"\n" ++ "target triple = \"x86_64-unknown-linux-gnu\"\n" := by decide
  -- regrouped as variables: it is slow to match a literal against a sum
  have hregroup (first second third fourth rest : String) :
      first ++ (second ++ third) ++ fourth ++ rest =
        first ++ second ++ (third ++ fourth ++ rest) := by
    simp only [String.append_assoc]
  rw [← foldl_append_text, ← hregroup, ← hline]
  rfl

end Code

/-! ## Runs -/

section Runs

variable {ι ο : Type}

/-- The failures of a native run at a console without diagnostics. -/
def CallLog.silent (log : CallLog ι ο) : CallLog ι ο :=
  ⟨⟨log.console.input, log.console.output, false, ""⟩, log.failures⟩

theorem CallLog.streams_eq_of_silent_eq {log log' : CallLog ι ο} (h : log.silent = log'.silent) :
    log.console.streams = log'.console.streams ∧ log.failures = log'.failures := by
  have hconsole := congrArg (·.console.streams) h
  have hfailures := congrArg CallLog.failures h
  exact ⟨hconsole, hfailures⟩

/-- Native runs of two programs end alike; errors are those of the instructions at the same index.
-/
inductive Ending.AlikeIn (source source' : Program) : Ending → Ending → Prop where
  /-- Both programs ended, and left the same tape. -/
  | finished (tape : Array UInt8) : AlikeIn source source' (.finished tape) (.finished tape)
  /-- The instructions at an index were not executed. -/
  | raised {error error' : RunError} {index : Nat}
      (alike : error.AlikeAt source source' index error') :
      AlikeIn source source' (.raised error) (.raised error')
  /-- The tape could not be made. -/
  | refused (error : TapeSizeError) : AlikeIn source source' (.refused error) (.refused error)
  /-- The limit of instructions was reached by both. -/
  | unfinished : AlikeIn source source' .unfinished .unfinished
  /-- The code could not go on in both. -/
  | stuck (reason : Stuck) : AlikeIn source source' (.stuck reason) (.stuck reason)
  /-- The same word explains nothing in both. -/
  | unexplained (word : Int) : AlikeIn source source' (.unexplained word) (.unexplained word)

variable {source source' : Program} {program program' : LinkedProgram}

/-- A returned index stands for the same error in alike programs. -/
theorem explain_alike (h : program.Alike program') (hpaired : Paired source program)
    (hpaired' : Paired source' program') (failures : List Failure) (word : Int) :
    (explain program failures word).AlikeIn source source' (explain program' failures word) := by
  have hentries := h word.toNat
  unfold explain
  cases hentry : program.instructions[word.toNat]? with
  | none =>
    cases hentry' : program'.instructions[word.toNat]? with
    | none => exact .unexplained word
    | some entry' =>
      rw [hentry, hentry'] at hentries
      cases hentries
  | some entry =>
    cases hentry' : program'.instructions[word.toNat]? with
    | none =>
      rw [hentry, hentry'] at hentries
      cases hentries
    | some entry' =>
      rw [hentry, hentry'] at hentries
      have hop : entry.op = entry'.op := by
        cases hentries with
        | some alike => exact alike.op_eq
      -- whatever the cause, the instructions are those at the index
      have hfault (cause : FaultCause) :
          Ending.AlikeIn source source'
            (.raised (.fault ⟨program.file, entry.instruction, cause⟩))
            (.raised (.fault ⟨program'.file, entry'.instruction, cause⟩)) := by
        rw [hpaired.file, hpaired'.file]
        exact .raised (.fault cause (hpaired.getElem?_instruction hentry)
          (hpaired'.getElem?_instruction hentry'))
      have hpassed (failure : Failure) :
          Ending.AlikeIn source source' (.raised (.failure failure))
            (.raised (.failure failure)) := by
        have halike : RunError.AlikeAt source source' word.toNat (.failure failure)
          (.failure failure) := .failure failure
        exact .raised halike
      dsimp only
      rw [← hop]
      split
      · exact hfault _
      · exact hfault _
      · exact .unexplained word
      · split
        · exact hfault _
        · exact hpassed _

/-- Alike programs start alike at consoles with the same streams. -/
theorem start_silent_eq (h : program.Alike program') (size : Nat) {console console' : Console ι ο}
    (hstreams : console.streams = console'.streams) :
    (start program size console).mapHost CallLog.silent =
      (start program' size console').mapHost CallLog.silent := by
  have hsilent : CallLog.silent ⟨announced program size console, []⟩ =
      CallLog.silent ⟨announced program' size console', []⟩ := by
    have hannounced := (streams_announced program size console).trans
      (hstreams.trans (streams_announced program' size console').symm)
    simp only [Console.streams, Prod.mk.injEq] at hannounced
    simp only [CallLog.silent, hannounced.1, hannounced.2]
  simp only [start, compile_eq_of_alike h, Function.start, State.mapHost, hsilent]

/-- Runs that come to the same but for the diagnostics end alike. -/
theorem conclude_alike (h : program.Alike program') (hpaired : Paired source program)
    (hpaired' : Paired source' program') {step step' : Step (CallLog ι ο)}
    (hstep : step.mapHost CallLog.silent = step'.mapHost CallLog.silent) :
    (conclude program step).ending.AlikeIn source source' (conclude program' step').ending ∧
      (conclude program step).console.streams = (conclude program' step').console.streams := by
  cases step with
  | running state =>
    cases step' with
    | running state' =>
      have hlog := congrArg State.host (Step.running.inj hstep)
      exact ⟨.unfinished, (CallLog.streams_eq_of_silent_eq hlog).1⟩
    | _ => cases hstep
  | stuck reason log =>
    cases step' with
    | stuck reason' log' =>
      obtain ⟨rfl, hlog⟩ := Step.stuck.inj hstep
      exact ⟨.stuck reason, (CallLog.streams_eq_of_silent_eq hlog).1⟩
    | _ => cases hstep
  | returned word tape log =>
    cases step' with
    | returned word' tape' log' =>
      obtain ⟨rfl, rfl, hlog⟩ := Step.returned.inj hstep
      obtain ⟨hstreams, hfailures⟩ := CallLog.streams_eq_of_silent_eq hlog
      by_cases hword : word = Build.noFault
      · simp only [conclude, if_pos hword]
        exact ⟨.finished tape, hstreams⟩
      · simp only [conclude, if_neg hword, hfailures]
        exact ⟨explain_alike h hpaired hpaired' _ _, hstreams⟩
    | _ => cases hstep

variable [InputStream ι] [OutputStream ο]

/-- The diagnostics make no difference to the calls. -/
theorem CallLog.hom_silent : Host.Hom (silent : CallLog ι ο → CallLog ι ο) where
  putByte byte log := by
    rcases log.putByte_cases byte with ⟨after, hwrite, hput⟩ | ⟨failure, after, hwrite, hput⟩
    · obtain ⟨after', hwrite', hput'⟩ | ⟨failure', after', hwrite', hput'⟩ :=
        log.silent.putByte_cases byte
      · obtain rfl : after = after' := congrArg Prod.snd (hwrite.symm.trans hwrite')
        rw [hput, hput']
        rfl
      · cases hwrite.symm.trans hwrite'
    · obtain ⟨after', hwrite', hput'⟩ | ⟨failure', after', hwrite', hput'⟩ :=
        log.silent.putByte_cases byte
      · cases hwrite.symm.trans hwrite'
      · obtain ⟨rfl, rfl⟩ : failure = failure' ∧ after = after' := by
          simpa using hwrite.symm.trans hwrite'
        rw [hput, hput']
        rfl
  getByte log := by
    rcases log.getByte_cases with ⟨byte, after, hread, hget⟩ | ⟨failure, after, hread, hget⟩
    · obtain ⟨byte', after', hread', hget'⟩ | ⟨failure', after', hread', hget'⟩ :=
        log.silent.getByte_cases
      · obtain ⟨rfl, rfl⟩ : byte = byte' ∧ after = after' := by
          simpa using hread.symm.trans hread'
        rw [hget, hget']
        rfl
      · cases hread.symm.trans hread'
    · obtain ⟨byte', after', hread', hget'⟩ | ⟨failure', after', hread', hget'⟩ :=
        log.silent.getByte_cases
      · cases hread.symm.trans hread'
      · obtain ⟨rfl, rfl⟩ : failure = failure' ∧ after = after' := by
          simpa using hread.symm.trans hread'
        rw [hget, hget']
        rfl

/-- A tape that cannot be made is refused before the streams are touched. -/
theorem run_of_refused {size : Int} {error : TapeSizeError} (h : tapeSize size = .error error)
    (limit : Nat) (program : LinkedProgram) (console : Console ι ο) :
    (run limit program size console).ending = .refused error ∧
      (run limit program size console).console.streams = console.streams := by
  simp only [run]
  cases hrequested : requestedSize size with
  | error reason =>
    rw [tapeSize, hrequested] at h
    cases h
    exact ⟨rfl, rfl⟩
  | ok requested =>
    have hallocated : checkAllocation requested = .error error := by
      simpa [tapeSize, hrequested, bind, Except.bind] using h
    simp [hallocated, Console.streams]

/-- Native runs of alike programs end alike, and do the same to the streams. -/
theorem run_alike (h : program.Alike program') (hpaired : Paired source program)
    (hpaired' : Paired source' program') (limit : Nat) (size : Int) {console console' : Console ι ο}
    (hstreams : console.streams = console'.streams) :
    (run limit program size console).ending.AlikeIn source source'
        (run limit program' size console').ending ∧
      (run limit program size console).console.streams =
        (run limit program' size console').console.streams ∧
      calls limit program size console = calls limit program' size console' := by
  cases hsize : tapeSize size with
  | error error =>
    obtain ⟨hending, hsame⟩ := run_of_refused hsize limit program console
    obtain ⟨hending', hsame'⟩ := run_of_refused hsize limit program' console'
    rw [hending, hending', hsame, hsame', calls, calls, hsize]
    exact ⟨.refused error, hstreams, rfl⟩
  | ok count =>
    have hfunction : (compile program' count).function = (compile program count).function := by
      rw [compile_eq_of_alike h]
    have hstart := start_silent_eq h count hstreams
    -- the same code makes the same calls, on logs that differ at most in what they print
    have hrun : ((start program count console).run (compile program count).function
        limit).mapHost CallLog.silent = ((start program' count console').run
          (compile program count).function limit).mapHost CallLog.silent := by
      rw [← State.run_mapHost CallLog.hom_silent, ← State.run_mapHost CallLog.hom_silent, hstart]
    obtain ⟨hending, hsame⟩ := conclude_alike h hpaired hpaired' hrun
    rw [run_eq hsize, run_eq hsize, hfunction]
    refine ⟨hending, hsame, ?_⟩
    rw [calls, calls, hsize]
    dsimp only
    have hmade (program : LinkedProgram) (console : Console ι ο) (function : Function) :
        streamCalls (((start program count console).mapHost CallLog.silent).calls function limit) =
          streamCalls ((start program count console).calls function limit) := by
      rw [State.calls_mapHost CallLog.hom_silent, streamCalls, List.flatMap_map]
      rfl
    rw [hfunction, ← hmade, hstart, hmade]

end Runs

end Native

/-! ## From the source on -/

variable {ι ο : Type} [InputStream ι] [OutputStream ο]

/-- What becomes of two linked programs is alike, at all consoles with streams of two types. -/
structure LinkedProgram.RunsAlike (ι ο : Type) [InputStream ι] [OutputStream ο]
    (source source' : Program) (program program' : LinkedProgram) : Prop where
  /-- The instructions are alike; so brackets lead to the same indices. -/
  linked : program.Alike program'
  /-- The same settings make machines for both or for neither, and all steps of these are alike. -/
  machines : ∀ settings : MachineSettings,
    ResultsAlike Eq (fun first second => ∀ (console console' : Console ι ο) (count : Nat),
      console.streams = console'.streams →
      Machine.StepsAlike source source' first second console console' count)
      (settings.build program) (settings.build program')
  /-- The texts of the code differ in the name of the file only. -/
  code : ∀ size : Int, ∃ rest,
    (Native.compile program size).text = "; ModuleID = \"" ++ source.file ++ "\"\n" ++ rest ∧
    (Native.compile program' size).text = "; ModuleID = \"" ++ source'.file ++ "\"\n" ++ rest
  /-- Native runs end alike, and do the same to the streams. -/
  native : ∀ (limit : Nat) (size : Int) (console console' : Console ι ο),
    console.streams = console'.streams →
    (Native.run limit program size console).ending.AlikeIn source source'
        (Native.run limit program' size console').ending ∧
      (Native.run limit program size console).console.streams =
        (Native.run limit program' size console').console.streams ∧
      Native.calls limit program size console = Native.calls limit program' size console'

/-- Programs that are linked alike run alike. -/
theorem LinkedProgram.Alike.runsAlike {source source' : Program} {program program' : LinkedProgram}
    (h : program.Alike program') (hlink : source.link = .ok program)
    (hlink' : source'.link = .ok program') : RunsAlike ι ο source source' program program' := by
  have hpaired := Program.paired_of_link_eq_ok hlink
  have hpaired' := Program.paired_of_link_eq_ok hlink'
  refine ⟨h, ?_, ?_, ?_⟩
  · intro settings
    apply (settings.build_alike h).mono
    rintro first second - - ⟨htwins, rfl, rfl⟩ console console' count hstreams
    exact htwins.stepsAlike hpaired hpaired' hstreams count
  · intro size
    obtain ⟨rest, hrest⟩ := Native.exists_text_eq (Native.compile program size)
    refine ⟨rest, ?_, ?_⟩
    · rw [← hrest source.file, ← hpaired.file]
      rfl
    · rw [← hrest source'.file, ← hpaired'.file, Native.compile_eq_of_alike h]
  · intro limit size console console' hstreams
    exact Native.run_alike h hpaired hpaired' limit size hstreams

/-- Files, lines and columns cannot be told from what a program does. Two programs with the same
operations are refused for brackets at the same index, or all that becomes of them is alike. -/
theorem Program.runsAlike_of_sameOps {source source' : Program} (h : source.SameOps source') :
    ResultsAlike (LinkError.AlikeIn source source')
      (LinkedProgram.RunsAlike ι ο source source') source.link source'.link :=
  h.link.mono fun _ _ hlink hlink' halike => halike.runsAlike hlink hlink'

/-- A loop that reads, on one line. -/
def readLoop : Program := .ofSource "line.bf" [0x2b, 0x5b, 0x2c, 0x5d]

/-- The same loop, with comments and line ends. -/
def spacedReadLoop : Program :=
  .ofSource "spaced.bf" [0x2b, 0x20, 0x5b, 0x0a, 0x78, 0x2c, 0x0a, 0x0a, 0x5d]

/-- The two layouts of the loop run alike, though the third instructions stand at different places.
-/
theorem Program.runsAlike_readLoop :
    readLoop.SameOps spacedReadLoop ∧
      readLoop.instructions[2]? = some ⟨.input, 1, 3⟩ ∧
      spacedReadLoop.instructions[2]? = some ⟨.input, 2, 2⟩ ∧
      ResultsAlike (LinkError.AlikeIn readLoop spacedReadLoop)
        (LinkedProgram.RunsAlike ScriptedInput ScriptedOutput readLoop spacedReadLoop)
        readLoop.link spacedReadLoop.link := by
  have hops : readLoop.SameOps spacedReadLoop := rfl
  exact ⟨hops, rfl, rfl, runsAlike_of_sameOps hops⟩

end Brainfuck
