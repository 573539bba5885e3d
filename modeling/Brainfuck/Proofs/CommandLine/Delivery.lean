import Brainfuck.CommandLine.Run
import Brainfuck.Proofs.CommandLine.Accepted
import Brainfuck.Proofs.Files
import Brainfuck.Proofs.Fitting
import Brainfuck.Proofs.Native.Agreement
import Brainfuck.Proofs.Plain

/-! # What the tool delivers

The tool as a whole, for every command line that is accepted and every source that can be read. It
ends with an exit code and says why; what it writes and consumes is what a machine writes and
receives, whether the program is interpreted or compiled. Only a path that cannot be encoded, where
it is to be printed or compiled, and a number of bits that was taken away end it without a report.

Main definitions: `Report.Tells`, `Delivers`. Main statements: the tool tells the run of a machine
that it interprets (`tells_ofOutcome`) and that of the machine that compiled code stands for
(`exists_tells_ofNative`), and so delivers what its options ask for (`delivers_of_parse`). -/

namespace Brainfuck.CommandLine

/-! ## Reports that tell runs -/

theorem plain_toolConsole (input : List UInt8) : (toolConsole false input).Plain :=
  ⟨rfl, rfl, rfl, rfl⟩

/-- The steps of a machine on some input, made without a trace. -/
def eventsOn (input : List UInt8) (steps : Nat) (machine : Machine) : List StepEvent :=
  machine.runEvents steps (toolConsole false input)

/-- A report tells a run on some input that has ended: how it ended, the trace, if steps are traced,
and the line of the error, the bytes that it wrote, and how many it received. -/
structure Report.Tells (machine : Machine) (debug : Bool) (input : List UInt8) (steps : Nat)
    (report : Report) : Prop where
  /-- The exit code is zero if the program ended, and one if an instruction was at fault; there is
  no other way to end. -/
  ended :
    ((machine.run steps (toolConsole false input)).reply = .finished ∧ report.finish = .exit 0 ∧
        report.log = (toolConsole debug input).traceOf (eventsOn input steps machine)) ∨
      ∃ fault message,
        (machine.run steps (toolConsole false input)).reply = .raised (.fault fault) ∧
          fault.message? = some message ∧ report.finish = .exit 1 ∧
          report.log = (toolConsole debug input).traceOf (eventsOn input steps machine) ++
            ("bft: Error: " ++ message ++ "\n")
  /-- The output is what was written. -/
  output : report.output.toList = (eventsOn input steps machine).filterMap StepEvent.wrote?
  /-- The bytes consumed are those received. -/
  consumed : report.consumed = (eventsOn input steps machine).countP StepEvent.received

theorem errorLine_eq (message : String) :
    errorLine message = "bft: Error: " ++ message ++ "\n" := by
  rw [errorLine, toolName]
  rfl

/-- A fault with a diagnostic that can be written out is reported by it. -/
theorem Report.ofRunError_fault {fault : Fault} {message : String}
    (h : fault.message? = some message) (console : ToolConsole) :
    Report.ofRunError console (.fault fault) =
      .ofConsole console (.exit 1) (errorLine message) := by
  rw [ofRunError, h, faulted?]

section Runs

variable {machine : Machine} {debug : Bool} {input : List UInt8} {later : ToolConsole}
  {steps : Nat}

/-- A report of a console with the streams that a run leaves, and with its trace, tells the run. -/
theorem tells_ofConsole (hprogram : machine.program.FitsIn Numeral.digitLimit)
    (hended : (machine.run steps (toolConsole false input)).reply ≠ .advanced)
    (hstreams : later.streams = (machine.run steps (toolConsole false input)).console.streams)
    (hlog : later.log = (toolConsole debug input).traceOf (eventsOn input steps machine)) :
    ((machine.run steps (toolConsole false input)).reply = .finished ∧
        (Report.ofConsole later (.exit 0) "").Tells machine debug input steps) ∨
      ∃ fault message,
        (machine.run steps (toolConsole false input)).reply = .raised (.fault fault) ∧
          fault.message? = some message ∧
          (Report.ofConsole later (.exit 1) (errorLine message)).Tells machine debug input
            steps := by
  have hplain := plain_toolConsole input
  have hserved := Machine.served_run hplain steps machine
  have hinput : later.input = (machine.run steps (toolConsole false input)).console.input :=
    congrArg Prod.fst hstreams
  have houtput : later.output = (machine.run steps (toolConsole false input)).console.output :=
    congrArg Prod.snd hstreams
  have hwritten : later.output.stored.toList =
      (eventsOn input steps machine).filterMap StepEvent.wrote? := by
    rw [houtput, hserved.stored]
    rfl
  have hconsumed : later.input.consumed =
      (eventsOn input steps machine).countP StepEvent.received := by
    rw [hinput, hserved.consumed]
    exact Nat.zero_add _
  rcases Machine.reply_run_of_ended hplain hended with hreply | ⟨fault, hreply⟩
  · refine .inl ⟨hreply, .inl ⟨hreply, rfl, ?_⟩, hwritten, hconsumed⟩
    exact String.append_empty.trans hlog
  · -- the instruction at fault is one of the program, and so its place can be written out
    obtain ⟨entry, hentry, hinstruction⟩ := Machine.exists_entry_of_run hreply
    have hfits := hprogram.entries entry hentry
    rw [Linked.fits, Bool.and_eq_true, hinstruction] at hfits
    obtain ⟨message, hmessage⟩ := Fault.exists_message? hfits.1
    refine .inr ⟨fault, message, hreply, hmessage, .inr ⟨fault, message, hreply, hmessage, rfl, ?_⟩,
      hwritten, hconsumed⟩
    rw [Report.ofConsole, hlog, errorLine_eq]

/-- If all its steps can be shown, a traced run comes to what the run comes to, does the same to the
streams, and adds their trace. -/
theorem runTraced_toolConsole {kinds : List CellKind} (hbounds : machine.InBounds kinds)
    (hshowable : debug = true → ∀ event ∈ eventsOn input steps machine, event.Showable) :
    (machine.runTraced steps (toolConsole debug input)).reply =
        (machine.run steps (toolConsole false input)).reply ∧
      (machine.runTraced steps (toolConsole debug input)).console.streams =
        (machine.run steps (toolConsole false input)).console.streams ∧
      (machine.runTraced steps (toolConsole debug input)).console.log =
        (toolConsole debug input).traceOf (eventsOn input steps machine) := by
  have huntraced : machine.runTraced steps (toolConsole false input) =
      machine.run steps (toolConsole false input) :=
    Machine.runTraced_eq rfl steps
  obtain ⟨hevents, hstreams⟩ :
      machine.runEvents steps (toolConsole debug input) = eventsOn input steps machine ∧
        (machine.follow false steps (toolConsole debug input)).2.streams =
          (machine.follow false steps (toolConsole false input)).2.streams := by
    cases debug with
    | false => exact ⟨rfl, rfl⟩
    | true =>
      have hsame : Machine.SameStreams machine (toolConsole true input) (toolConsole false input) :=
        rfl
      exact Machine.indifferent_sameStreams.follow hsame false steps (hshowable rfl)
  have hlog := (hbounds.log_follow false steps (toolConsole debug input)).trans String.empty_append
  rw [← huntraced, Machine.runTraced_eq_follow, Machine.runTraced_eq_follow, hevents]
  exact ⟨rfl, hstreams, hlog.trans (congrArg _ hevents)⟩

/-- The report of an interpreted run tells it, if every step can be shown where steps are traced. -/
theorem tells_ofOutcome {kinds : List CellKind} (hbounds : machine.InBounds kinds)
    (hprogram : machine.program.FitsIn Numeral.digitLimit)
    (hshowable : debug = true → ∀ event ∈ eventsOn input steps machine, event.Showable)
    (hended : (machine.run steps (toolConsole false input)).reply ≠ .advanced) :
    (Report.ofOutcome (machine.runTraced steps (toolConsole debug input))).Tells machine debug
      input steps := by
  obtain ⟨hreply, hstreams, hlog⟩ := runTraced_toolConsole hbounds hshowable
  rcases tells_ofConsole hprogram hended hstreams hlog with
    ⟨hfinished, htells⟩ | ⟨fault, message, hraised, hmessage, htells⟩
  · rw [Report.ofOutcome, hreply, hfinished]
    exact htells
  · rw [Report.ofOutcome, hreply, hraised]
    simp only [Report.ofRunError_fault hmessage]
    exact htells

end Runs

/-! ## Compiled programs -/

section Compiled

open Native

variable {ι ο : Type} {program : LinkedProgram} {size word : Int} {outcome : Outcome ι ο}
  {result : Result ι ο}

/-- A native run leaves the streams as the machine does. -/
theorem streams_of_sameEnd (h : SameEnd program size outcome word result) :
    result.console.streams = outcome.console.streams := by
  cases h with
  | finished cells length streams => exact streams
  | raised regular streams => exact streams
  | blamed entry op kind streams => exact streams

/-- A native run finishes if the machine does. -/
theorem ending_of_finished (h : SameEnd program size outcome word result)
    (hreply : outcome.reply = .finished) : ∃ tape, result.ending = .finished tape := by
  cases h with
  | finished cells length streams => exact ⟨_, rfl⟩
  | raised regular streams => cases hreply
  | blamed entry op kind streams => cases hreply

/-- A native run is at fault as the machine is. -/
theorem ending_of_fault (h : SameEnd program size outcome word result) {fault : Fault}
    (hreply : outcome.reply = .raised (.fault fault)) :
    result.ending = .raised (.fault fault) := by
  cases h with
  | finished cells length streams => cases hreply
  | raised regular streams =>
    cases hreply
    rfl
  | blamed entry op kind streams => cases hreply

/-- The size of a tape that was asked for can be asked for. -/
theorem tapeSize_of_tapeSize {count : Nat} (h : tapeSize size = .ok count) :
    tapeSize count = .ok count := by
  obtain ⟨hpositive, hfits⟩ := tapeSize_eq_ok h
  exact tapeSize_natCast hpositive hfits

/-- From some limit on a native run does not depend on it, nor on how the size is asked for. -/
theorem run_of_le {count limit limit' : Nat} {console : ToolConsole}
    (htape : tapeSize size = .ok count) (hle : limit ≤ limit')
    (hended : (Native.run limit program count console).ending ≠ .unfinished) :
    Native.run limit' program size console = Native.run limit program count console := by
  have hcount := tapeSize_of_tapeSize htape
  have hcode := run_start_ne_running hcount hended
  obtain ⟨more, rfl⟩ := Nat.le.dest hle
  rw [run_eq htape, run_eq hcount, Ir.State.run_add_of_ended hcode]

/-- From some limit on, the report of a compiled run tells the run of a machine with as many fixed
bytes. -/
theorem exists_tells_ofNative {source : Program} (hlink : source.link = .ok program)
    (hprogram : program.FitsIn Numeral.digitLimit) {count : Nat}
    (htape : tapeSize size = .ok count) {input : List UInt8} {steps : Nat}
    (hended :
      ((fixedMachine program count).run steps (toolConsole false input)).reply ≠ .advanced) :
    ∃ bound, ∀ limit, bound ≤ limit →
      (Report.ofNative (Native.run limit program size (toolConsole false input))).Tells
        (fixedMachine program count) false input steps := by
  obtain ⟨hpositive, hfits⟩ := tapeSize_eq_ok htape
  have hcount := tapeSize_of_tapeSize htape
  have hbelow : count < Nat.pow 2 64 := Nat.lt_trans hfits (by decide)
  have hagrees := agrees_new hlink hpositive hbelow hcount (toolConsole false input)
  obtain ⟨bound, word, -, hsame⟩ := hagrees.machine_ends steps hended
  refine ⟨bound, fun limit hle => ?_⟩
  have hlog : (Native.run bound program count (toolConsole false input)).console.log =
      (toolConsole false input).traceOf (eventsOn input steps (fixedMachine program count)) :=
    log_run hcount bound program rfl
  have htells := tells_ofConsole hprogram hended (streams_of_sameEnd hsame) hlog
  rcases htells with ⟨hreply, htells⟩ | ⟨fault, message, hreply, hmessage, htells⟩
  · obtain ⟨tape, hending⟩ := ending_of_finished hsame hreply
    rw [run_of_le htape hle (by rw [hending]; simp), Report.ofNative, hending]
    exact htells
  · have hending := ending_of_fault hsame hreply
    rw [run_of_le htape hle (by rw [hending]; simp), Report.ofNative, hending]
    simp only [Report.ofRunError_fault hmessage]
    exact htells

end Compiled

/-! ## Machines asked for -/

section Machines

variable {program : LinkedProgram} {size : Int} {count : Nat}

/-- The choices are possible widths, and none is large. -/
theorem exists_ofBits {bits : Int} (h : bits ∈ cellBitsChoices) :
    ∃ kind, CellKind.ofBits bits = .ok kind ∧ kind.modulus ≤ Nat.pow 2 32 := by
  simp only [cellBitsChoices, List.mem_cons, List.not_mem_nil, or_false] at h
  rcases h with rfl | rfl | rfl
  all_goals exact ⟨_, rfl, by decide⟩

/-- The machine that is made with a possible width and size. -/
theorem build_of_ofBits {bits : Int} {kind : CellKind} (hkind : CellKind.ofBits bits = .ok kind)
    (htape : tapeSize size = .ok count) (mayGrow : Bool) (program : LinkedProgram) :
    MachineSettings.build ⟨size, mayGrow, { bits }⟩ program =
      .ok { program, cell := { kind with zero := 0 }, mayGrow, tape := .blank count 0 } := by
  have hcreate (kind : CellKind) : Machine.create program kind mayGrow size =
      .ok { program, cell := kind, mayGrow, tape := .blank count kind.zero } :=
    Machine.create_eq_ok_iff.mpr ⟨count, htape, rfl⟩
  have hcell : CellSettings.kind { bits } = .ok { kind with zero := 0 } := by
    rw [CellSettings.kind, hkind]
    rfl
  rw [MachineSettings.build, hcell]
  show (Machine.create program _ mayGrow size).mapError _ = _
  rw [hcreate]
  rfl

/-- Of eight bits and fixed, it is the machine that compiled code stands for. -/
theorem build_byte (htape : tapeSize size = .ok count) (program : LinkedProgram) :
    MachineSettings.build ⟨size, false, { bits := 8 }⟩ program =
      .ok (Native.fixedMachine program count) := by
  have hkind : CellKind.ofBits 8 = .ok .byte := rfl
  exact build_of_ofBits hkind htape false program

/-- Accepted options ask for a tape that can be made, whether they give its size or not. -/
theorem exists_tapeSize {dialect : Dialect} {options : Options} (h : options.Sound dialect)
    (hfits : ∀ cells, options.cells = some cells → cells < Nat.pow 2 60) :
    ∃ count, tapeSize (options.cells.getD 0) = .ok count ∧
      tapeSize (options.cells.getD 30000) = .ok count := by
  cases hcells : options.cells with
  | none => exact ⟨30000, rfl, rfl⟩
  | some cells =>
    have hpositive := h.cells cells hcells
    have hbound := hfits cells hcells
    obtain ⟨count, rfl⟩ : ∃ count : Nat, cells = count := ⟨cells.toNat, by omega⟩
    have htape := tapeSize_natCast (Int.ofNat_lt.mp hpositive) (Int.ofNat_lt.mp hbound)
    exact ⟨count, htape, htape⟩

end Machines

/-! ## Jobs -/

section Jobs

variable {options : Options} {program : LinkedProgram}

/-- A listing can be encoded if its path can, or if there are no rows for the path to stand in. -/
theorem listingError?_eq_none (path : OsText)
    (h : path.encodingError? 0 = none ∨ program.size = 0) : listingError? path program = none := by
  unfold listingError?
  split
  · rfl
  · rename_i hrows
    rcases h with hencodes | hsize
    · exact hencodes
    · exact absurd (Array.isEmpty_iff_size_eq_zero.mpr hsize) hrows

/-- What is wrong with the path is wrong with every row. -/
theorem listingError?_of_size_ne_zero (path : OsText) (h : program.size ≠ 0) :
    listingError? path program = path.encodingError? 0 :=
  if_neg (mt Array.isEmpty_iff_size_eq_zero.mp h)

/-- A listing is printed. -/
theorem prepareLinked_of_listing {listing : String} (hlist : options.list = true)
    (hlisting : program.listing? Numeral.standardLimit = some listing)
    (hencodes : listingError? options.program program = none) :
    prepareLinked options program = .ok (.print listing) := by
  simp only [prepareLinked, hlist, if_true, hlisting, hencodes]

/-- A listing that cannot be encoded is not. -/
theorem prepareLinked_of_listingError {listing : String} {error : EncodingError}
    (hlist : options.list = true)
    (hlisting : program.listing? Numeral.standardLimit = some listing)
    (hencodes : listingError? options.program program = some error) :
    prepareLinked options program = .error (.aborted (.encoding error)) := by
  simp only [prepareLinked, hlist, if_true, hlisting, hencodes]

/-- A program is compiled. -/
theorem prepareLinked_of_jit (hlist : options.list = false) (hjit : options.jit = true) :
    prepareLinked options program =
      .ok (.compile options.program program (options.cells.getD 0)) := by
  simp only [prepareLinked, hlist, hjit, Bool.false_eq_true, if_false, if_true]

/-- The machine that is asked for is run. -/
theorem prepareLinked_of_build {bits : Int} {machine : Machine} (hlist : options.list = false)
    (hjit : options.jit = false) (hbits : options.cellBits = some bits)
    (hbuild :
      MachineSettings.build ⟨options.cells.getD 0, options.extensible, { bits }⟩ program =
        .ok machine) :
    prepareLinked options program = .ok (.interpret machine) := by
  simp only [prepareLinked, hlist, hjit, hbits, hbuild, Bool.false_eq_true, if_false]

/-- Without a number of bits there is no machine. -/
theorem prepareLinked_of_widthless (hlist : options.list = false) (hjit : options.jit = false)
    (hbits : options.cellBits = none) :
    prepareLinked options program = .error (.aborted .cellWidth) := by
  simp only [prepareLinked, hlist, hjit, hbits, Bool.false_eq_true, if_false]

end Jobs

section Performed

variable {program : LinkedProgram} {input : List UInt8}

/-- Every step of the machine that is asked for can be shown, unless it may come too far on a tape
that may grow. -/
theorem showable_asked (hjumps : program.JumpsInside)
    (hprogram : program.FitsIn Numeral.digitLimit) {kind : CellKind}
    (hwide : kind.modulus ≤ Nat.pow 2 32) {size : Int} {mayGrow : Bool} {machine : Machine}
    (hcreate : Machine.create program { kind with zero := 0 } mayGrow size = .ok machine)
    {steps : Nat} (hsteps : mayGrow = true → steps < Nat.pow 10 Numeral.digitLimit) :
    ∀ event ∈ eventsOn input steps machine, event.Showable := by
  have hlimits : Nat.pow 2 32 ≤ Nat.pow 10 Numeral.digitLimit ∧
      Nat.pow 2 60 ≤ Nat.pow 10 Numeral.digitLimit := by
    decide +kernel
  have hbounds := Machine.inBounds_create hjumps hcreate
  obtain ⟨count, htape, rfl⟩ := Machine.create_eq_ok_iff.mp hcreate
  have hfits := (tapeSize_eq_ok htape).2
  have hvalues (value : Int) (hvalue : Attainable [{ kind with zero := 0 }] value) :
      Numeral.fits Numeral.standardLimit value = true :=
    hvalue.fits rfl (Nat.le_trans hwide hlimits.1)
  intro event hevent
  cases mayGrow with
  | true =>
    refine hbounds.showable_follow hprogram hvalues ?_ hevent
    show 0 + steps < _
    rw [Nat.zero_add]
    exact hsteps rfl
  | false =>
    refine hbounds.showable_follow_of_fixed hprogram hvalues rfl ?_ hevent
    show (Tape.blank count _).size ≤ _
    rw [Tape.size_blank]
    exact Nat.le_trans (Nat.le_of_lt hfits) hlimits.2

/-- What an interpreting tool reports of the machine that is asked for, from some limit on. -/
theorem tells_interpret (hjumps : program.JumpsInside)
    (hprogram : program.FitsIn Numeral.digitLimit) {kind : CellKind}
    (hwide : kind.modulus ≤ Nat.pow 2 32) {size : Int} {mayGrow debug : Bool} {machine : Machine}
    (hcreate : Machine.create program { kind with zero := 0 } mayGrow size = .ok machine)
    {steps limit : Nat}
    (hsteps : debug = true → mayGrow = true → steps < Nat.pow 10 Numeral.digitLimit)
    (hended : (machine.run steps (toolConsole false input)).reply ≠ .advanced)
    (hle : steps ≤ limit) :
    (Job.perform limit (.interpret machine) debug input).Tells machine debug input steps := by
  have hbounds := Machine.inBounds_create hjumps hcreate
  have hshowable (hdebug : debug = true) : ∀ event ∈ eventsOn input steps machine, event.Showable :=
    showable_asked hjumps hprogram hwide hcreate (hsteps hdebug)
  have hruns : machine.program.FitsIn Numeral.digitLimit := by
    obtain ⟨count, -, rfl⟩ := Machine.create_eq_ok_iff.mp hcreate
    exact hprogram
  have htells := tells_ofOutcome hbounds hruns hshowable hended
  have htraced : (machine.runTraced steps (toolConsole debug input)).reply ≠ .advanced := by
    rw [(runTraced_toolConsole hbounds hshowable).1]
    exact hended
  obtain ⟨more, rfl⟩ := Nat.le.dest hle
  show (Report.ofOutcome (machine.runTraced (steps + more) (toolConsole debug input))).Tells _ _ _ _
  rw [Machine.runTraced, Machine.runBy_add_of_ended htraced]
  exact htells

/-- A program at a path that cannot be encoded is not compiled. -/
theorem compileAndRun_of_encodingError {size : Int} {count : Nat} {path : OsText}
    {error : EncodingError} (htape : tapeSize size = .ok count)
    (hencodes : path.encodingError? pathOffset = some error) (limit : Nat) :
    compileAndRun limit path program size (toolConsole false input) =
      .aborted (.encoding error) := by
  rw [compileAndRun, hencodes]
  cases hrequested : requestedSize size with
  | error error => simp [tapeSize, hrequested, bind, Except.bind] at htape
  | ok requested => rfl

end Performed

/-! ## The tool -/

/-- What the tool delivers for a source, whatever else its options are; it may be run under any
limit of steps. -/
structure Delivers (dialect : Dialect) (options : Options) (source input : List UInt8)
    (report : Nat → Report) : Prop where
  /-- If the brackets do not match, the tool says so. Nothing is written or consumed. -/
  unbalanced : ∀ error, (Program.ofSource options.program.shown source).link = .error error →
    ∃ bracket message, error = .bracket bracket ∧ bracket.message? = some message ∧
      ∀ limit, report limit = ⟨.exit 1, #[], "bft: Error: " ++ message ++ "\n", 0⟩
  /-- If the program is to be printed, its listing is, as long as the path in it can be encoded, or
  there are no rows for it to stand in. Nothing is consumed. -/
  listed : ∀ program, (Program.ofSource options.program.shown source).link = .ok program →
    options.list = true → options.program.encodingError? 0 = none ∨ program.size = 0 →
      ∃ listing, program.listing? none = some listing ∧
        ∀ limit, report limit = ⟨.exit 0, listing.toUTF8.data, "", 0⟩
  /-- If the path cannot be encoded, the tool ends at once instead. -/
  unlisted : ∀ program error,
    (Program.ofSource options.program.shown source).link = .ok program → options.list = true →
      options.program.encodingError? 0 = some error → program.size ≠ 0 →
        ∀ limit, report limit = ⟨.aborted (.encoding error), #[], "", 0⟩
  /-- Otherwise there is the machine that the options ask for; and if it comes to an end with the
  input, the tool tells its run, from some limit on. What is to be compiled has a path that can be
  encoded, and what is to be traced on a tape that may grow does not come too far. -/
  ran : ∀ program bits, (Program.ofSource options.program.shown source).link = .ok program →
    options.list = false → options.cellBits = some bits →
      (options.jit = true → options.program.encodingError? pathOffset = none) →
        ∃ machine,
          MachineSettings.build ⟨options.cells.getD 30000, options.extensible, { bits }⟩ program =
            .ok machine ∧
          ∀ steps, (machine.run steps (toolConsole false input)).reply ≠ .advanced →
            (options.debug = true → options.extensible = true →
              steps < Nat.pow 10 Numeral.digitLimit) →
              ∃ bound, ∀ limit, bound ≤ limit →
                (report limit).Tells machine options.debug input steps
  /-- If the path of what is to be compiled cannot be encoded, the tool ends at once. -/
  uncompiled : ∀ program error,
    (Program.ofSource options.program.shown source).link = .ok program → options.list = false →
      options.jit = true → options.program.encodingError? pathOffset = some error →
        ∀ limit, report limit = ⟨.aborted (.encoding error), #[], "", 0⟩
  /-- If the command line has taken away the number of bits, as it can in one dialect only, there is
  no such machine, and the tool ends at once. -/
  widthless : ∀ program, (Program.ofSource options.program.shown source).link = .ok program →
    options.list = false → options.cellBits = none →
      dialect = .lenient ∧ ∀ limit, report limit = ⟨.aborted .cellWidth, #[], "", 0⟩

section Tool

variable {dialect : Dialect} {options : Options} {source : List UInt8}
  {arguments : List OsText} {load : OsText → Except FileError (List UInt8)}

/-- Whatever command line is accepted, and whatever source and input there are, the tool delivers
what its options ask for, as long as the tape fits into memory, the places of the source can be
written out, and no compiled program is to be traced. -/
theorem delivers_of_parse (hparse : parse dialect arguments = .ok (.run options))
    (hload : load options.program = .ok source)
    (hfits : ∀ cells, options.cells = some cells → cells < Nat.pow 2 60)
    (hsource : source.length < Nat.pow 10 Numeral.digitLimit)
    (hquiet : ¬ (options.jit = true ∧ options.debug = true)) (input : List UInt8) :
    Delivers dialect options source input fun limit =>
      run limit dialect load arguments input := by
  have haccepted := Options.accepted_of_parse hparse
  obtain ⟨count, htape, hdefault⟩ := exists_tapeSize haccepted.sound hfits
  have hruns (limit : Nat) : run limit dialect load arguments input =
      carryOut limit options.debug input (prepare options source) := by
    simp only [run, hparse, hload]
  have hprepared {program : LinkedProgram}
      (hlink : (Program.ofSource options.program.shown source).link = .ok program) (limit : Nat) :
      run limit dialect load arguments input =
        carryOut limit options.debug input (prepareLinked options program) := by
    rw [hruns, prepare, hlink]
  -- what is compiled is not traced
  have hcompiled (hjit : options.jit = true) : options.debug = false := by
    simpa [hjit] using hquiet
  constructor
  case unbalanced =>
    intro error hlink
    cases error with
    | unpatched => exact absurd hlink (Program.link_ne_unpatched _)
    | bracket error =>
      have hbracket := Program.fits_of_mem_ofSource (Program.bracket_mem_of_link hlink) hsource
      obtain ⟨message, hmessage⟩ := BracketError.exists_message? hbracket
      refine ⟨error, message, rfl, hmessage, fun limit => ?_⟩
      rw [hruns, prepare, hlink]
      simp only [carryOut, hmessage, Report.failed?, Report.failed, errorLine_eq]
  case listed =>
    intro program hlink hlist hencodes
    obtain ⟨listing, hlisting, hunlimited⟩ :=
      (Program.fitsIn_of_link hlink hsource).exists_listing?
    refine ⟨listing, hunlimited, fun limit => ?_⟩
    rw [hprepared hlink, prepareLinked_of_listing hlist hlisting (listingError?_eq_none _ hencodes)]
    rfl
  case unlisted =>
    intro program error hlink hlist hencodes hsize limit
    obtain ⟨listing, hlisting, -⟩ := (Program.fitsIn_of_link hlink hsource).exists_listing?
    have herror := (listingError?_of_size_ne_zero options.program hsize).trans hencodes
    rw [hprepared hlink, prepareLinked_of_listingError hlist hlisting herror]
    rfl
  case ran =>
    intro program bits hlink hlist hbits hencodes
    have hprogram := Program.fitsIn_of_link hlink hsource
    cases hjit : options.jit with
    | true =>
      obtain ⟨hfixed, height⟩ := haccepted.compiled hjit
      obtain rfl : bits = 8 := Option.some.inj (hbits.symm.trans height)
      rw [hfixed, hcompiled hjit]
      refine ⟨_, build_byte hdefault program, fun steps hended _ => ?_⟩
      obtain ⟨bound, htells⟩ := exists_tells_ofNative hlink hprogram htape hended
      refine ⟨bound, fun limit hle => ?_⟩
      rw [hprepared hlink, prepareLinked_of_jit hlist hjit, hcompiled hjit]
      show (compileAndRun limit options.program program _ (toolConsole false input)).Tells _ _ _ _
      rw [compileAndRun, hencodes hjit]
      exact htells limit hle
    | false =>
      have hjumps := (Program.paired_of_link_eq_ok hlink).jumpsInside
      obtain ⟨kind, hkind, hwide⟩ := exists_ofBits (haccepted.sound.cellBits bits hbits)
      have hbuild := build_of_ofBits hkind htape options.extensible program
      have hcreate : Machine.create program { kind with zero := 0 } options.extensible
          (options.cells.getD 30000) = .ok _ :=
        Machine.create_eq_ok_iff.mpr ⟨count, hdefault, rfl⟩
      refine ⟨_, build_of_ofBits hkind hdefault options.extensible program,
        fun steps hended hsteps => ⟨steps, fun limit hle => ?_⟩⟩
      rw [hprepared hlink, prepareLinked_of_build hlist hjit hbits hbuild]
      exact tells_interpret hjumps hprogram hwide hcreate hsteps hended hle
  case uncompiled =>
    intro program error hlink hlist hjit hencodes limit
    rw [hprepared hlink, prepareLinked_of_jit hlist hjit, hcompiled hjit]
    exact compileAndRun_of_encodingError htape hencodes limit
  case widthless =>
    intro program hlink hlist hbits
    obtain ⟨hlenient, hjit⟩ := haccepted.of_widthless hbits
    refine ⟨hlenient, fun limit => ?_⟩
    rw [hprepared hlink, prepareLinked_of_widthless hlist hjit hbits]
    rfl

end Tool

/-- The bytes at a path, where there is one file only. -/
def loadOnly (path : OsText) (content : List UInt8) : OsText → Except FileError (List UInt8) :=
  (FileTree.add {} path (.file content)).read

/-- What is at a path of one plain component can be read. -/
theorem loadOnly_eq {path : OsText} (hcomponents : FileTree.components path = [path])
    (hplain : FileTree.IsPlainName path) (hnull : .decoded '\x00' ∉ path) (content : List UInt8) :
    loadOnly path content path = .ok content := by
  apply FileTree.read_add_file
  · rw [hcomponents]
    intro name hname
    obtain rfl := List.mem_singleton.mp hname
    exact hplain
  · exact hnull
  · exact Nat.le_trans hplain.length (by decide)
  · exact FileTree.not_inTheWay_empty _

/-- The path of a program that passes on one byte. -/
def echoPath : OsText := .ofString "echo.bf"

theorem loadOnly_echoPath (content : List UInt8) :
    loadOnly echoPath content echoPath = .ok content :=
  loadOnly_eq (by decide) ⟨by decide, by decide, by decide, by decide⟩ (by decide) content

/-- A command line that asks for a compiled program on two cells. -/
def pairLine : List OsText := [echoPath, .ofString "--jit", .ofString "-c", .ofString "2"]

/-- Options that ask for a compiled program on two cells. -/
def compiledPair : Options := { program := echoPath, cells := some 2, jit := true }

/-- What the command line asks for, in either dialect. -/
theorem parse_pairLine (dialect : Dialect) : parse dialect pairLine = .ok (.run compiledPair) := by
  have hclassify : classify pairLine =
      .ok [.word echoPath, .switch .jit false none, .switch .cells true none,
        .word (.ofString "2")] := by
    decide
  have hcells : readCells dialect (.ofString "2") = .ok (some 2) := by
    cases dialect <;> decide
  have hread : read dialect {} [.word echoPath, .switch .jit false none, .switch .cells true none,
      .word (.ofString "2")] =
        .ok ⟨some echoPath, { compiledPair with program := [] }, #[]⟩ := by
    simp [read, settingsOf, Switch.takesValue, Draft.apply, Options.apply, hcells, compiledPair,
      bind, Except.bind, pure, Except.pure]
  simp only [parse, hclassify, hread]
  rfl

/-- A program that passes on one byte, compiled for two cells. -/
theorem delivers_compiledPair :
    parse .strict pairLine = .ok (.run compiledPair) ∧
      Delivers .strict compiledPair [0x2c, 0x2e] [72, 105]
        (fun limit => run limit .strict (loadOnly echoPath [0x2c, 0x2e]) pairLine [72, 105]) ∧
      ∃ bound, ∀ limit, bound ≤ limit →
        ∀ report, report = run limit .strict (loadOnly echoPath [0x2c, 0x2e]) pairLine [72, 105] →
          report.finish = .exit 0 ∧ report.output.toList = [72] ∧ report.consumed = 1 := by
  have hfits : ∀ cells, compiledPair.cells = some cells → cells < Nat.pow 2 60 := by
    rintro _ ⟨⟩
    decide
  have hdelivers := delivers_of_parse (parse_pairLine .strict) (loadOnly_echoPath [0x2c, 0x2e])
    hfits (by decide +kernel) (by decide) [72, 105]
  refine ⟨parse_pairLine .strict, hdelivers, ?_⟩
  obtain ⟨machine, hbuild, hran⟩ := hdelivers.ran _ 8 rfl rfl rfl (fun _ => rfl)
  cases hbuild
  obtain ⟨bound, htells⟩ := hran 3 nofun nofun
  refine ⟨bound, fun limit hle => ?_⟩
  rintro _ rfl
  have htold := htells limit hle
  refine ⟨?_, htold.output, htold.consumed⟩
  rcases htold.ended with ⟨-, hfinish, -⟩ | ⟨fault, message, hreply, -⟩
  · exact hfinish
  · cases hreply

/-- A command line that takes the number of bits away. -/
def widthlessLine : List OsText := [.ofString "--cell-bits=--", echoPath]

theorem parse_widthlessLine :
    parse .lenient widthlessLine = .ok (.run { program := echoPath, cellBits := none }) := by
  have hclassify : classify widthlessLine =
      .ok [.switch .cellBits false (some separatorText), .word echoPath] := by
    decide
  have hbits : readCellBits .lenient separatorText = .ok none := readCellBits_of_takesAway rfl
  have hread : read .lenient {} [.switch .cellBits false (some separatorText), .word echoPath] =
      .ok ⟨some echoPath, { program := [], cellBits := none }, #[]⟩ := by
    simp [read, settingsOf, Switch.takesValue, Draft.apply, Options.apply, hbits, bind, Except.bind,
      pure, Except.pure]
  simp only [parse, hclassify, hread]
  rfl

/-- A path with a byte that is no character. -/
def strayPath : OsText := [.undecoded 0xff, .decoded 'p']

theorem loadOnly_strayPath (content : List UInt8) :
    loadOnly strayPath content strayPath = .ok content :=
  loadOnly_eq (by decide) ⟨by decide, by decide, by decide, by decide⟩ (by decide) content

/-- A command line that asks for the listing of a program at such a path. -/
def strayLine : List OsText := [.ofString "--list", strayPath]

theorem parse_strayLine (dialect : Dialect) :
    parse dialect strayLine = .ok (.run { program := strayPath, list := true }) := by
  have hclassify : classify strayLine = .ok [.switch .list false none, .word strayPath] := by
    decide
  have hread : read dialect {} [.switch .list false none, .word strayPath] =
      .ok ⟨some strayPath, { program := [], list := true }, #[]⟩ := by
    simp [read, settingsOf, Switch.takesValue, Draft.apply, Options.apply, bind, Except.bind, pure,
      Except.pure]
  simp only [parse, hclassify, hread]
  rfl

/-- Two command lines are accepted and end the tool at once, although there is a program that could
be run, or printed: one leaves no number of bits, in one dialect; the other, in both, names a path
that cannot be encoded. -/
theorem exists_aborted_of_accepted :
    (∃ options program, parse .lenient widthlessLine = .ok (.run options) ∧
      (Program.ofSource options.program.shown [0x2c, 0x2e]).link = .ok program ∧
      ∀ limit, run limit .lenient (loadOnly echoPath [0x2c, 0x2e]) widthlessLine [72] =
        .aborted .cellWidth) ∧
    ∃ options program, (∀ dialect, parse dialect strayLine = .ok (.run options)) ∧
      (Program.ofSource options.program.shown [0x2b]).link = .ok program ∧
      ∀ dialect limit, run limit dialect (loadOnly strayPath [0x2b]) strayLine [] =
        .aborted (.encoding ⟨0, 0xff, 0⟩) := by
  have hecho : (Program.ofSource echoPath.shown [0x2c, 0x2e]).link = .ok _ := rfl
  have hstray : (Program.ofSource strayPath.shown [0x2b]).link = .ok _ := rfl
  constructor
  · refine ⟨_, _, parse_widthlessLine, hecho, fun limit => ?_⟩
    simp only [run, parse_widthlessLine, loadOnly_echoPath, prepare, hecho]
    rw [prepareLinked_of_widthless rfl rfl rfl]
    rfl
  · have hshort : [(0x2b : UInt8)].length < Nat.pow 10 Numeral.digitLimit := by decide +kernel
    obtain ⟨listing, hlisting, -⟩ := (Program.fitsIn_of_link hstray hshort).exists_listing?
    refine ⟨_, _, parse_strayLine, hstray, fun dialect limit => ?_⟩
    simp only [run, parse_strayLine, loadOnly_strayPath, prepare, hstray]
    rw [prepareLinked_of_listingError rfl hlisting rfl]
    rfl

end Brainfuck.CommandLine
