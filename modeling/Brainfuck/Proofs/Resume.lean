import Brainfuck.Proofs.Smooth
import Brainfuck.Session

/-! # Interrupted runs

A run at streams with hitches, driven on after every error, follows the run at streams without any.
A step that raises an error leaves the machine and the bytes as they were, so the next one tries the
same instruction again; every other step is one of the uninterrupted run, and so is one that raises
an error only because its trace cannot be printed. The input may come in pieces, each attached when
the one before it is exhausted.

Main definitions: `Tracks`, `Follows`, `Driven`, `Resumed`. Main statements: a step follows the
uninterrupted run (`Tracks.follows_step`), and so does any sequence of drives
(`Driven.tracks`). -/

namespace Brainfuck

/-! ## Following the uninterrupted run -/

/-- The hitches still to come, at the attached streams and in the pieces of input that are left. -/
def hitchesLeft (console : Console FlakyInput FlakyOutput) (later : List FlakyInput) : Nat :=
  pending console.input.hitches + pending console.output.writes + pending console.output.flushes +
    pending (later.flatMap (·.hitches))

/-- Counts an error. -/
def Outcome.raised (outcome : Outcome FlakyInput FlakyOutput) : Nat :=
  match outcome.reply with
  | .raised _ => 1
  | _ => 0

/-- Counts an error that came of a trace that cannot be printed. The instruction was executed. -/
def Outcome.untold (outcome : Outcome FlakyInput FlakyOutput) : Nat :=
  match outcome.reply with
  | .raised error => if error = .failure .overlong then 1 else 0
  | _ => 0

/-- Counts any other error that came of reading from an exhausted input. -/
def Outcome.starved (outcome : Outcome FlakyInput FlakyOutput) : Nat :=
  match outcome.reply with
  | .raised error =>
    if error ≠ .failure .overlong ∧ outcome.machine.nextOp? = some .input ∧
      outcome.console.input.remaining = [] then 1 else 0
  | _ => 0

section Counts

variable {outcome : Outcome FlakyInput FlakyOutput}

theorem Outcome.raised_eq_zero (h : ∀ error, outcome.reply ≠ .raised error) :
    outcome.raised = 0 := by
  cases hreply : outcome.reply with
  | raised error => exact absurd hreply (h error)
  | _ => simp only [raised, hreply]

theorem Outcome.starved_eq_zero (h : ∀ error, outcome.reply ≠ .raised error) :
    outcome.starved = 0 := by
  cases hreply : outcome.reply with
  | raised error => exact absurd hreply (h error)
  | _ => simp only [starved, hreply]

/-- An error is counted if it came of nothing but the exhausted input. -/
theorem Outcome.starved_eq_one (huntold : outcome.untold = 0) (error : RunError)
    (hreply : outcome.reply = .raised error) (hnext : outcome.machine.nextOp? = some .input)
    (hempty : outcome.console.input.remaining = []) : outcome.starved = 1 := by
  have herror : error ≠ .failure .overlong := by
    rintro rfl
    simp [untold, hreply] at huntold
  simp only [starved, hreply]
  exact if_pos ⟨herror, hnext, hempty⟩

theorem Outcome.untold_eq_zero (h : outcome.reply ≠ .raised (.failure .overlong)) :
    outcome.untold = 0 := by
  cases hreply : outcome.reply with
  | raised error =>
    rw [hreply, Ne, Reply.raised.injEq] at h
    simp only [untold, hreply, if_neg h]
  | _ => simp only [untold, hreply]

end Counts

section Following

variable (first : Machine) (data : List UInt8) (count : Nat) (script : List (Option Failure))
  (later : List FlakyInput)

/-- A machine and its console are as far as the uninterrupted run is after some steps. -/
structure Tracks (returned : Nat) (machine : Machine) (console : Console FlakyInput FlakyOutput) :
    Prop where
  /-- The machine is the same but for its status. -/
  alike : machine = { (first.smoothRun data returned).machine with status := machine.status }
  /-- It has halted if the uninterrupted run has. -/
  halted : machine.status = .halted ↔ count < returned
  /-- The same bytes are left to be read. -/
  input : console.input.remaining ++ later.flatMap (·.remaining) =
    (first.smoothRun data returned).console.input.remaining
  /-- With the bytes ahead, what is stored comes to the output of the uninterrupted run, in which a
  byte stands once more for each failure to flush it. -/
  output : console.output.stored ++
      echoed console.output.flushes (first.ahead data count returned) =
    echoed script (first.smoothRun data (count + 1)).console.output.stored
  /-- No more flushes fail than the script says. -/
  flushes : pending console.output.flushes ≤ pending script

/-- The trace of every step of the uninterrupted run can be printed. -/
def Machine.Tellable (first : Machine) (data : List UInt8) (count : Nat) : Prop :=
  ∀ done < count, (first.smoothRun data done).machine.stepText?
    (first.smoothRun data done).console ≠ none

/-- Some steps lead to where the uninterrupted run is after as many as returned, and one more if the
last one could not be traced; any other error took a hitch, or came of reading from an exhausted
input. -/
structure Reaches (before : Console FlakyInput FlakyOutput) (returned : Nat)
    (outcome : Outcome FlakyInput FlakyOutput) : Prop where
  /-- The uninterrupted run is there, too. -/
  tracks : Tracks first data count script later (returned + outcome.untold) outcome.machine
    outcome.console
  /-- The hitches that are left. -/
  hitches : outcome.raised + hitchesLeft outcome.console later ≤
    hitchesLeft before later + outcome.starved + outcome.untold
  /-- Where all traces can be printed, this one was. -/
  told : first.Tellable data count → outcome.untold = 0

/-- What a step can come to that starts where the uninterrupted run is. -/
inductive Follows (returned : Nat) (console : Console FlakyInput FlakyOutput)
    (outcome : Outcome FlakyInput FlakyOutput) : Prop where
  /-- The step is one of the uninterrupted run. -/
  | returned (reply : outcome.reply = (first.smoothRun data (returned + 1)).reply)
      (reaches : Reaches first data count script later console (returned + 1) outcome)
  /-- The step failed, and can be tried again, or only its trace could not be printed. -/
  | raised {error : RunError} (reply : outcome.reply = .raised error)
      (reaches : Reaches first data count script later console returned outcome)

end Following

variable {first : Machine} {data : List UInt8} {count : Nat} {script : List (Option Failure)}
  {later : List FlakyInput}

/-- Steps whose traces were printed, if they were to be. -/
theorem Reaches.of_untold_eq_zero {before : Console FlakyInput FlakyOutput} {returned : Nat}
    {outcome : Outcome FlakyInput FlakyOutput} (huntold : outcome.untold = 0)
    (htracks : Tracks first data count script later returned outcome.machine outcome.console)
    (hhitches : outcome.raised + hitchesLeft outcome.console later ≤
      hitchesLeft before later + outcome.starved) :
    Reaches first data count script later before returned outcome := by
  refine ⟨?_, ?_, fun _ => huntold⟩
  · rw [huntold]
    exact htracks
  · rw [huntold]
    exact hhitches

namespace Tracks

variable {returned : Nat} {machine : Machine} {console console' : Console FlakyInput FlakyOutput}
  {outcome : Outcome FlakyInput FlakyOutput}

/-- An error before the end of the run leaves everything as it was, if the bytes are still there. -/
theorem raised (h : Tracks first data count script later returned machine console)
    (hreturned : returned ≤ count) (error : RunError)
    (hinput : console'.input.remaining = console.input.remaining)
    (houtput : console'.output.stored ++
        echoed console'.output.flushes (first.ahead data count returned) =
      console.output.stored ++
        echoed console.output.flushes (first.ahead data count returned))
    (hflushes : pending console'.output.flushes ≤ pending console.output.flushes) :
    Tracks first data count script later returned
      { machine with status := Machine.statusAfter machine.status error } console' := by
  have hrunning : machine.status ≠ .halted := by
    rw [Ne, h.halted]
    omega
  refine ⟨by rw [h.alike], ?_, by rw [hinput, h.input], by rw [houtput, h.output],
    Nat.le_trans hflushes h.flushes⟩
  have hstill := Machine.statusAfter_ne_halted hrunning error
  simp only [hstill, false_iff]
  omega

theorem exists_status (h : Tracks first data count script later returned machine console) :
    ∃ status, machine = { (first.smoothRun data returned).machine with status } :=
  ⟨machine.status, h.alike⟩

/-- A step that reads, where the uninterrupted run does. -/
theorem follows_of_reads (h : Tracks first data count script later returned machine console)
    (hhalts : first.Halts data count) (hnext : machine.nextOp? = some .input)
    (hsmooth : (first.smoothRun data returned).machine.Reads
      (first.smoothRun data returned).console (first.smoothRun data (returned + 1)))
    (hreads : machine.Reads console outcome) (huntold : outcome.untold = 0) :
    Follows first data count script later returned console outcome := by
  have hstarved := Outcome.starved_eq_one huntold
  have hhalted := hhalts.statusAfter_eq_halted_iff h.halted
  have hreply := hhalts.reply_ne_raised (returned + 1)
  obtain ⟨status, rfl⟩ := h.exists_status
  generalize hrun : first.smoothRun data (returned + 1) = after at hsmooth hhalted hreply
  cases hsmooth with
  | failed => exact absurd rfl (hreply _)
  | read bytes input output =>
    have hreturned : returned + 1 ≤ count := hhalts.le_of_advanced (by rw [hrun])
    have hfall := pending_tail_le console.input.hitches
    cases hreads with
    | read bytes' input' output' =>
      -- both have the same byte before them
      have hinput := h.input
      rw [bytes', bytes, List.cons_append, List.cons.injEq] at hinput
      obtain ⟨rfl, hrest⟩ := hinput
      refine .returned (by rw [hrun])
        (.of_untold_eq_zero huntold ⟨by rw [hrun]; rfl, hhalted, ?_, ?_, ?_⟩ ?_)
      · rw [hrun, input, input', hrest]
      · rw [output', ← h.output, Machine.ahead_succ (by rw [hrun, output])]
      · rw [output']
        exact h.flushes
      · simp only [Outcome.raised, Outcome.starved, hitchesLeft, input', output']
        omega
    | failed reason input' output' =>
      refine .raised rfl (.of_untold_eq_zero huntold (h.raised (by omega) _ (by rw [input'])
        (by rw [output']) (Nat.le_of_eq (by rw [output']))) ?_)
      rcases reason with hempty | ⟨hitch, hhitch⟩
      · rw [hstarved _ rfl hnext (by rw [input', hempty])]
        simp only [Outcome.raised, hitchesLeft, input', output']
        omega
      · have hused := pending_tail_of_some hhitch
        simp only [Outcome.raised, hitchesLeft, input', output']
        omega

/-- A step that writes, where the uninterrupted run does. -/
theorem follows_of_writes (h : Tracks first data count script later returned machine console)
    (hhalts : first.Halts data count)
    (hsmooth : (first.smoothRun data returned).machine.Writes
      (first.smoothRun data returned).console (first.smoothRun data (returned + 1)))
    (hwrites : machine.Writes console outcome) (huntold : outcome.untold = 0) :
    Follows first data count script later returned console outcome := by
  have hhalted := hhalts.statusAfter_eq_halted_iff h.halted
  have hreply := hhalts.reply_ne_raised (returned + 1)
  obtain ⟨status, rfl⟩ := h.exists_status
  generalize hrun : first.smoothRun data (returned + 1) = after at hsmooth hhalted hreply
  -- the uninterrupted run completes its write, for none of its steps raises an error
  cases hsmooth with
  | unflushed => exact absurd rfl (hreply _)
  | failed => exact absurd rfl (hreply _)
  | written accepted flushed input output =>
    have hreturned : returned + 1 ≤ count := hhalts.le_of_advanced (by rw [hrun])
    have hahead : first.ahead data count returned =
        (first.smoothRun data returned).machine.outputByte ::
          first.ahead data count (returned + 1) :=
      hhalts.ahead_eq_cons (by rw [hrun, output])
    have hfall := pending_tail_le console.output.writes
    have hfall' := pending_tail_le console.output.flushes
    cases hwrites with
    | written accepted' flushed' input' output' =>
      refine .returned (by rw [hrun])
        (.of_untold_eq_zero huntold ⟨by rw [hrun]; rfl, hhalted, ?_, ?_, ?_⟩ ?_)
      · rw [hrun, input, input', h.input]
      · rw [output', ← h.output, hahead, echoed_cons_of_none flushed', List.append_assoc,
          List.singleton_append]
        rfl
      · rw [output']
        exact Nat.le_trans hfall' h.flushes
      · simp only [Outcome.raised, Outcome.starved, hitchesLeft, input', output']
        omega
    | unflushed accepted' hitch input' output' =>
      have hused := pending_tail_of_some hitch
      refine .raised rfl (.of_untold_eq_zero huntold
        (h.raised (by omega) _ (by rw [input']) ?_ (by rw [output']; exact hfall')) ?_)
      · -- the byte is stored and is still ahead
        rw [output', hahead, echoed_cons_of_some hitch, List.append_assoc, List.singleton_append]
        rfl
      · simp only [Outcome.raised, hitchesLeft, input', output']
        omega
    | failed hitch input' output' =>
      have hused := pending_tail_of_some hitch
      refine .raised rfl (.of_untold_eq_zero huntold (h.raised (by omega) _ (by rw [input'])
        (by rw [output']) (Nat.le_of_eq (by rw [output']))) ?_)
      simp only [Outcome.raised, hitchesLeft, input', output']
      omega

/-- A step of a machine that is where the uninterrupted run is. -/
theorem follows_step (h : Tracks first data count script later returned machine console)
    (hhalts : first.Halts data count) :
    Follows first data count script later returned console (machine.step console) := by
  have huntold : (machine.step console).untold = 0 :=
    Outcome.untold_eq_zero Machine.reply_step_ne_overlong
  have hpace := hhalts.pace_smoothRun returned
  have hreply := hhalts.reply_ne_raised (returned + 1)
  have hhalted := hhalts.statusAfter_eq_halted_iff h.halted
  obtain ⟨status, rfl⟩ := h.exists_status
  generalize hrun : first.smoothRun data (returned + 1) = after at hpace hhalted hreply
  -- the uninterrupted run tells whether the step leaves the streams alone, reads or writes
  cases hpace with
  | @quiet reply _ _ input output same =>
    obtain ⟨other, hstep, hinput, houtput⟩ := same status console
    rw [hstep] at huntold ⊢
    refine .returned (by rw [hrun])
      (.of_untold_eq_zero huntold ⟨by rw [hrun], hhalted, ?_, ?_, ?_⟩ ?_)
    · rw [hrun, hinput, h.input, input]
    · rw [houtput, ← h.output, Machine.ahead_succ (by rw [hrun, output])]
    · rw [houtput]
      exact h.flushes
    · cases reply with
      | raised error => exact absurd rfl (hreply error)
      | _ => simp [Outcome.raised, Outcome.starved, hitchesLeft, hinput, houtput]
  | @reads instruction _ next op reads =>
    have hnext : { (first.smoothRun data returned).machine with status }.next? =
        some (.plain instruction) := next
    refine h.follows_of_reads hhalts ?_ (hrun ▸ reads) (Machine.reads_step hnext op console) huntold
    rw [Machine.nextOp?, hnext]
    exact congrArg some op
  | @writes instruction _ next op writes =>
    have hnext : { (first.smoothRun data returned).machine with status }.next? =
        some (.plain instruction) := next
    exact h.follows_of_writes hhalts (hrun ▸ writes) (Machine.writes_step hnext op console)
      huntold

/-- Only the streams of the console matter. -/
theorem of_streams (h : Tracks first data count script later returned machine console)
    (hinput : console'.input = console.input) (houtput : console'.output = console.output) :
    Tracks first data count script later returned machine console' :=
  ⟨h.alike, h.halted, by rw [hinput, h.input], by rw [houtput, h.output],
    by rw [houtput]; exact h.flushes⟩

/-- A traced step of such a machine. One whose trace cannot be printed is a step of the
uninterrupted run all the same. -/
theorem follows_stepTraced (h : Tracks first data count script later returned machine console)
    (hhalts : first.Halts data count) :
    Follows first data count script later returned console (machine.stepTraced console) := by
  have hfollows := h.follows_step hhalts
  have htraced := machine.traced_stepTraced console
  generalize machine.stepTraced console = outcome at htraced
  cases htraced with
  | silent _ => exact hfollows
  | printed tracing fetched step written =>
    rw [step] at hfollows
    cases hfollows with
    | raised reply reaches => cases reply
    | returned reply reaches =>
      exact .returned reply
        (.of_untold_eq_zero rfl (reaches.tracks.of_streams rfl rfl) reaches.hitches)
  | @overlong linked next after tracing fetched step unwritten =>
    rw [step] at hfollows
    cases hfollows with
    | raised reply reaches => cases reply
    | returned reply reaches =>
      have huntold : (⟨.raised (.failure .overlong), next, after⟩ :
          Outcome FlakyInput FlakyOutput).untold = 1 := rfl
      refine .raised rfl ⟨reaches.tracks, ?_, fun htellable => ?_⟩
      · have hhitches := reaches.hitches
        rw [huntold]
        simp only [Outcome.raised, Outcome.starved, Outcome.untold] at hhitches ⊢
        omega
      · -- the same trace belongs to a step of the uninterrupted run
        refine absurd ?_ (htellable returned (hhalts.le_of_advanced reply.symm))
        have hmachine : machine.next? = (first.smoothRun data returned).machine.next? := by
          rw [h.alike]
          rfl
        have hafter : next.traceText? linked =
            (first.smoothRun data (returned + 1)).machine.traceText? linked := by
          have halike : next =
              { (first.smoothRun data (returned + 1)).machine with status := next.status } :=
            reaches.tracks.alike
          rw [halike]
          rfl
        rw [Machine.stepText?, hhalts.step_smoothRun, ← hmachine, fetched, Option.bind_some,
          ← hafter,
          unwritten]

/-- Once the run has ended, the machine is the same. -/
theorem machine_eq (h : Tracks first data count script later returned machine console)
    (hhalts : first.Halts data count) (hreturned : count < returned) :
    machine = (first.smoothRun data (count + 1)).machine := by
  rw [h.alike, h.halted.mpr hreturned, hhalts.smoothRun_of_lt hreturned,
    hhalts.smoothRun_succ_count.2]

/-- Once the run has ended, the output is complete. -/
theorem stored_eq_echoed (h : Tracks first data count script later returned machine console)
    (hhalts : first.Halts data count) (hreturned : count < returned) :
    console.output.stored =
      echoed script (first.smoothRun data (count + 1)).console.output.stored := by
  rw [← h.output, Machine.ahead, hhalts.smoothRun_of_lt hreturned, List.drop_length, echoed_nil,
    List.append_nil]

/-- Where no flush fails, the same bytes are stored. -/
theorem stored_eq (h : Tracks first data count script later returned machine console)
    (hhalts : first.Halts data count) (hscript : pending script = 0) :
    console.output.stored = (first.smoothRun data returned).console.output.stored := by
  have hflushes : pending console.output.flushes = 0 := by
    have := h.flushes
    omega
  have houtput := h.output
  rw [echoed_of_pending_eq_zero hflushes, echoed_of_pending_eq_zero hscript,
    ← hhalts.stored_append_ahead returned] at houtput
  exact List.append_cancel_right houtput

end Tracks

/-! ## Drives -/

section Drives

variable {returned : Nat} {machine : Machine} {console before : Console FlakyInput FlakyOutput}
  {outcome : Outcome FlakyInput FlakyOutput}

theorem Tracks.reaches (h : Tracks first data count script later returned machine console) :
    Reaches first data count script later console returned ⟨.advanced, machine, console⟩ :=
  .of_untold_eq_zero rfl h (by simp [Outcome.raised, Outcome.starved])

/-- Steps that raise no error are followed by more. -/
theorem Reaches.trans {middle : Outcome FlakyInput FlakyOutput} {further : Nat}
    (h : Reaches first data count script later before returned middle)
    (hreply : ∀ error, middle.reply ≠ .raised error)
    (h' : Reaches first data count script later middle.console further outcome) :
    Reaches first data count script later before further outcome := by
  refine ⟨h'.tracks, ?_, h'.told⟩
  have hmiddle := h.hitches
  rw [Outcome.raised_eq_zero hreply, Outcome.starved_eq_zero hreply,
    Outcome.untold_eq_zero (hreply _)] at hmiddle
  have hfurther := h'.hitches
  omega

/-- A step that executes an instruction, or finds none left, is one of the uninterrupted run. -/
theorem Follows.reaches_of_ne_raised
    (h : Follows first data count script later returned console outcome)
    (hreply : ∀ error, outcome.reply ≠ .raised error) :
    Reaches first data count script later console (returned + 1) outcome := by
  cases h with
  | returned reply reaches => exact reaches
  | raised reply reaches => exact absurd reply (hreply _)

/-- A step that raises an error is not, unless it could only not be traced. -/
theorem Follows.reaches_of_raised
    (h : Follows first data count script later returned console outcome)
    (hhalts : first.Halts data count) {error : RunError} (hreply : outcome.reply = .raised error) :
    Reaches first data count script later console returned outcome := by
  cases h with
  | returned reply reaches => exact absurd (reply ▸ hreply) (hhalts.reply_ne_raised _ error)
  | raised reply reaches => exact reaches

/-- Counted steps. -/
theorem Tracks.reaches_walk {walked : Nat}
    (h : Tracks first data count script later (returned + walked) machine console)
    (hhalts : first.Halts data count) (limit : Nat) :
    Reaches first data count script later console
      (returned + (machine.walk limit walked console).returned)
      (machine.walk limit walked console).outcome := by
  induction limit generalizing walked machine console with
  | zero => exact h.reaches
  | succ limit ih =>
    have hfollows := h.follows_stepTraced hhalts
    rw [Machine.walk]
    generalize machine.stepTraced console = outcome at hfollows
    obtain ⟨reply, next, after⟩ := outcome
    cases reply with
    | advanced =>
      have hreaches := hfollows.reaches_of_ne_raised (by simp)
      exact hreaches.trans (by simp) (ih hreaches.tracks)
    | finished => exact hfollows.reaches_of_ne_raised (by simp)
    | raised error => exact hfollows.reaches_of_raised hhalts rfl

/-- Watched steps, which may go on past the end of the program. -/
theorem Tracks.reaches_watch {seen : Array Sighting}
    (h : Tracks first data count script later (returned + seen.size) machine console)
    (hhalts : first.Halts data count) (limit : Nat) :
    Reaches first data count script later console
      (returned + (machine.watch limit seen console).1.size)
      (machine.watch limit seen console).2 := by
  induction limit generalizing seen machine console with
  | zero => exact h.reaches
  | succ limit ih =>
    have hfollows := h.follows_stepTraced hhalts
    rw [Machine.watch]
    generalize machine.stepTraced console = outcome at hfollows
    obtain ⟨reply, next, after⟩ := outcome
    cases reply with
    | advanced =>
      have hreaches := hfollows.reaches_of_ne_raised (by simp)
      exact hreaches.trans (by simp) (ih (by rw [Array.size_push]; exact hreaches.tracks))
    | finished =>
      have hreaches := hfollows.reaches_of_ne_raised (by simp)
      exact hreaches.trans (by simp) (ih (by rw [Array.size_push]; exact hreaches.tracks))
    | raised error => exact hfollows.reaches_of_raised hhalts rfl

/-- A run that its limit cuts short is within the uninterrupted run. -/
theorem Tracks.le_of_runTraced_advanced
    (h : Tracks first data count script later returned machine console)
    (hhalts : first.Halts data count) {limit : Nat}
    (hrun : (machine.runTraced (limit + 1) console).reply = .advanced) :
    returned + (limit + 1) ≤ count := by
  induction limit generalizing returned machine console with
  | zero =>
    rw [Machine.runTraced, Machine.runBy_one] at hrun
    cases h.follows_stepTraced hhalts with
    | returned reply reaches => exact hhalts.le_of_advanced (reply ▸ hrun)
    | raised reply reaches => rw [hrun] at reply; cases reply
  | succ limit ih =>
    have hfollows := h.follows_stepTraced hhalts
    cases hstep : machine.stepTraced console with
    | mk reply next after =>
      by_cases hreply : reply = .advanced
      · subst hreply
        rw [Machine.runTraced, Machine.runBy_succ_of_advanced hstep] at hrun
        rw [hstep] at hfollows
        have hfurther := ih (hfollows.reaches_of_ne_raised (by simp)).tracks hrun
        omega
      · rw [Machine.runTraced, Machine.runBy_succ_of_ended (by rw [hstep]; exact hreply),
          hstep] at hrun
        exact absurd hrun hreply

/-- Counting steps does not change what they come to. -/
theorem Machine.outcome_walk {ι ο : Type} [InputStream ι] [OutputStream ο] (machine : Machine)
    (limit walked : Nat) (console : Console ι ο) :
    (machine.walk limit walked console).outcome = machine.runTraced limit console := by
  induction limit generalizing machine walked console with
  | zero => rfl
  | succ limit ih =>
    rw [walk, runTraced, runBy]
    generalize machine.stepTraced console = outcome
    obtain ⟨reply, next, after⟩ := outcome
    cases reply with
    | advanced => exact ih next (walked + 1) after
    | _ => rfl

/-- The number of steps of a drive that return. -/
def Session.stepsReturned {ι ο : Type} [InputStream ι] [OutputStream ο] (bound : Nat)
    (machine : Machine) (console : Console ι ο) (drive : Drive) : Nat :=
  match drive with
  | .toEnd => (machine.walk bound 0 { console with log := "" }).returned
  | .atMost _ => (driveMachine bound machine console drive).1.returned
  | .watching _ => (driveMachine bound machine console drive).1.seen.size

/-- What the last step of a drive comes to. -/
def Session.driveOutcome {ι ο : Type} [InputStream ι] [OutputStream ο] (bound : Nat)
    (machine : Machine) (console : Console ι ο) (drive : Drive) : Outcome ι ο :=
  let (report, console) := driveMachine bound machine console drive
  ⟨report.reply, report.machine, console⟩

/-- Any drive. -/
theorem Tracks.reaches_drive (h : Tracks first data count script later returned machine console)
    (hhalts : first.Halts data count) (bound : Nat) (drive : Drive) :
    Reaches first data count script later console
      (returned + Session.stepsReturned bound machine console drive)
      (Session.driveOutcome bound machine console drive) := by
  -- the diagnostic text is cleared, and the streams stay
  have hcleared : Tracks first data count script later (returned + 0) machine
      { console with log := "" } := h.of_streams rfl rfl
  cases drive with
  | toEnd =>
    have hreaches := hcleared.reaches_walk hhalts bound
    rw [Machine.outcome_walk] at hreaches
    exact ⟨hreaches.tracks, hreaches.hitches, hreaches.told⟩
  | atMost limit =>
    have hreaches := hcleared.reaches_walk hhalts limit
    exact ⟨hreaches.tracks, hreaches.hitches, hreaches.told⟩
  | watching steps =>
    have hunseen : Tracks first data count script later (returned + (#[] : Array Sighting).size)
        machine { console with log := "" } := hcleared
    have hreaches := hunseen.reaches_watch hhalts steps
    exact ⟨hreaches.tracks, hreaches.hitches, hreaches.told⟩

/-- A drive to the end needs no more steps than the uninterrupted run. -/
theorem Tracks.driveOutcome_toEnd
    (h : Tracks first data count script later returned machine console)
    (hhalts : first.Halts data count) {bound : Nat} (hbound : count < bound) :
    (Session.driveOutcome bound machine console .toEnd).reply ≠ .advanced := by
  intro hrun
  obtain ⟨limit, rfl⟩ := Nat.exists_eq_add_one.mpr (Nat.zero_lt_of_lt hbound)
  have hcleared : Tracks first data count script later returned machine
      { console with log := "" } := h.of_streams rfl rfl
  have hwithin := hcleared.le_of_runTraced_advanced hhalts hrun
  omega

end Drives

/-! ## Driving on after every error -/

/-- How the steps of a driven machine ended. -/
structure Tally where
  /-- The number of steps that returned. -/
  returned : Nat := 0
  /-- The number of steps that raised an error. -/
  raised : Nat := 0
  /-- The number of those among them that read from an exhausted input. -/
  starved : Nat := 0
  /-- The number of those among them that executed their instruction, whose trace could not be
  printed. -/
  untold : Nat := 0
deriving DecidableEq, Repr

/-- The number of steps that were made or tried. -/
def Tally.calls (tally : Tally) : Nat := tally.returned + tally.raised

/-- The number of steps of the uninterrupted run that were made. -/
def Tally.done (tally : Tally) : Nat := tally.returned + tally.untold

/-- The number of steps that are to be tried again. -/
def Tally.failed (tally : Tally) : Nat := tally.raised - tally.untold

/-- Counts in the steps of a drive. -/
def Tally.add (tally : Tally) (returned : Nat) (outcome : Outcome FlakyInput FlakyOutput) : Tally :=
  ⟨tally.returned + returned, tally.raised + outcome.raised, tally.starved + outcome.starved,
    tally.untold + outcome.untold⟩

/-- A machine is driven in any way, also on after an error. The input comes in pieces; when one is
exhausted, the next may be attached. -/
inductive Driven (bound : Nat) (first : Machine) (start : Console FlakyInput FlakyOutput)
    (pieces : List FlakyInput) :
    Tally → Machine → Console FlakyInput FlakyOutput → List FlakyInput → Prop where
  /-- Nothing was done. -/
  | start : Driven bound first start pieces {} first start pieces
  /-- The machine was stepped. -/
  | drive {tally : Tally} {machine : Machine} {console : Console FlakyInput FlakyOutput}
      {later : List FlakyInput} (drive : Drive)
      (before : Driven bound first start pieces tally machine console later) :
      Driven bound first start pieces
        (tally.add (Session.stepsReturned bound machine console drive)
          (Session.driveOutcome bound machine console drive))
        (Session.driveOutcome bound machine console drive).machine
        (Session.driveOutcome bound machine console drive).console later
  /-- Tracing was begun or stopped. -/
  | setTracing {tally : Tally} {machine : Machine} {console : Console FlakyInput FlakyOutput}
      {later : List FlakyInput} (tracing : Bool)
      (before : Driven bound first start pieces tally machine console later) :
      Driven bound first start pieces tally machine { console with tracing } later
  /-- The next piece of input was attached. -/
  | attach {tally : Tally} {machine : Machine} {console : Console FlakyInput FlakyOutput}
      {piece : FlakyInput} {later : List FlakyInput} (exhausted : console.input.remaining = [])
      (before : Driven bound first start pieces tally machine console (piece :: later)) :
      Driven bound first start pieces tally machine { console with input := piece } later

/-- What has become of a machine that was driven on after every error, beside the uninterrupted
run. -/
structure Resumed (first : Machine) (data : List UInt8) (count : Nat)
    (start : Console FlakyInput FlakyOutput) (pieces : List FlakyInput) (tally : Tally)
    (machine : Machine) (console : Console FlakyInput FlakyOutput) (later : List FlakyInput) :
    Prop where
  /-- A step that raised an error took a hitch, or read from an exhausted input, or could not be
  traced. -/
  failures : tally.failed ≤ hitchesLeft start pieces + tally.starved
  /-- All could be traced if the steps of the uninterrupted run can be. -/
  told : first.Tellable data count → tally.untold = 0
  /-- All other steps are those of the uninterrupted run: but for its status, the machine is as it
  is there after the same number of them. -/
  alike : machine = { (first.smoothRun data tally.done).machine with status := machine.status }
  /-- The machine has halted after the steps of the uninterrupted run, and one for each that
  failed. -/
  halted : machine.status = .halted ↔ count + 1 + tally.failed ≤ tally.calls
  /-- That is so after a number of steps that can be told beforehand, but for the reads from an
  exhausted input. -/
  bounded : count + 1 + hitchesLeft start pieces + tally.starved ≤ tally.calls →
    machine.status = .halted
  /-- It is then the same machine. -/
  last : machine.status = .halted → machine = (first.smoothRun data (count + 1)).machine
  /-- The same bytes are left to be read. -/
  input : console.input.remaining ++ later.flatMap (·.remaining) =
    (first.smoothRun data tally.done).console.input.remaining
  /-- Where no flush fails, the same bytes have been written. -/
  output : pending start.output.flushes = 0 →
    console.output.stored = (first.smoothRun data tally.done).console.output.stored
  /-- In the end a byte stands once more for each failure to flush it. -/
  echoes : machine.status = .halted → console.output.stored =
    echoed start.output.flushes (first.smoothRun data (count + 1)).console.output.stored
  /-- A drive to the end comes to an error or to the end. -/
  ends : ∀ bound, count < bound →
    (Session.driveOutcome bound machine console .toEnd).reply ≠ .advanced

/-- What a driven machine has been through. -/
structure Tally.Fits (first : Machine) (data : List UInt8) (count : Nat) (hitches : Nat)
    (left : Nat) (tally : Tally) : Prop where
  /-- Each error took a hitch, or read from an exhausted input, or could not be traced. -/
  raised : tally.raised + left ≤ hitches + tally.starved + tally.untold
  /-- A step that could not be traced raised an error. -/
  untold : tally.untold ≤ tally.raised
  /-- There is none if the steps of the uninterrupted run can be traced. -/
  told : first.Tellable data count → tally.untold = 0

theorem Outcome.untold_le_raised (outcome : Outcome FlakyInput FlakyOutput) :
    outcome.untold ≤ outcome.raised := by
  unfold untold raised
  cases outcome.reply with
  | raised error =>
    dsimp only
    split <;> simp
  | _ => exact Nat.le_refl 0

theorem Driven.tracks {bound : Nat} {start : Console FlakyInput FlakyOutput}
    {pieces : List FlakyInput} {tally : Tally} {machine : Machine}
    {console : Console FlakyInput FlakyOutput}
    (h : Driven bound first start pieces tally machine console later)
    (hhalts : first.Halts data count)
    (hstart : Tracks first data count script pieces 0 first start) :
    Tracks first data count script later tally.done machine console ∧
      tally.Fits first data count (hitchesLeft start pieces) (hitchesLeft console later) := by
  induction h with
  | start => exact ⟨hstart, by simp, Nat.le_refl _, fun _ => rfl⟩
  | @drive tally machine console later drive _ ih =>
    obtain ⟨htracks, hfits⟩ := ih
    have hreaches := htracks.reaches_drive hhalts bound drive
    have hraised := hfits.raised
    have huntold := hfits.untold
    have hleft := hreaches.hitches
    have hmore := (Session.driveOutcome bound machine console drive).untold_le_raised
    refine ⟨?_, ?_, ?_, fun htellable => ?_⟩
    · have hlast := hreaches.tracks
      -- a step whose trace could not be printed has been made all the same
      have hdone : tally.done + Session.stepsReturned bound machine console drive +
          (Session.driveOutcome bound machine console drive).untold =
            (tally.add (Session.stepsReturned bound machine console drive)
              (Session.driveOutcome bound machine console drive)).done := by
        simp only [Tally.done, Tally.add]
        omega
      rwa [hdone] at hlast
    · simp only [Tally.add]
      omega
    · simp only [Tally.add]
      omega
    · rw [Tally.add, hfits.told htellable, hreaches.told htellable]
  | setTracing tracing _ ih => exact ⟨ih.1.of_streams rfl rfl, ih.2⟩
  | @attach tally machine console piece later exhausted _ ih =>
    obtain ⟨htracks, hfits⟩ := ih
    refine ⟨⟨htracks.alike, htracks.halted, ?_, htracks.output, htracks.flushes⟩, ?_, hfits.untold,
      hfits.told⟩
    · rw [← htracks.input, exhausted]
      simp
    · have hraised := hfits.raised
      simp only [hitchesLeft, List.flatMap_cons, pending_append] at hraised ⊢
      omega

/-- A machine that is driven on after every error does what it does without any. -/
theorem resumed_of_driven {settings : MachineSettings} {program : LinkedProgram} {bound : Nat}
    {start console : Console FlakyInput FlakyOutput} {pieces : List FlakyInput} {tally : Tally}
    {machine : Machine} (hbuild : settings.build program = .ok first)
    (hempty : start.output.stored = [])
    (hdata : start.input.remaining ++ pieces.flatMap (·.remaining) = data)
    (hhalts : first.Halts data count)
    (hdriven : Driven bound first start pieces tally machine console later) :
    Resumed first data count start pieces tally machine console later := by
  have hstatus : first.status = .running := by
    obtain ⟨kind, hcreate⟩ := MachineSettings.create_of_build hbuild
    obtain ⟨size, -, rfl⟩ := Machine.create_eq_ok_iff.mp hcreate
    rfl
  have hstart : Tracks first data count start.output.flushes pieces 0 first start :=
    ⟨rfl, by simp [hstatus], hdata, by rw [hempty]; rfl, Nat.le_refl _⟩
  obtain ⟨htracks, hfits⟩ := hdriven.tracks hhalts hstart
  have hraised := hfits.raised
  have huntold := hfits.untold
  -- the counts are linear in those of the tally, the rest is said of the machine that is tracked
  exact {
    failures := by
      rw [Tally.failed]
      omega
    told := hfits.told
    alike := htracks.alike
    halted := by
      rw [htracks.halted, Tally.calls, Tally.done, Tally.failed]
      omega
    bounded := by
      rw [htracks.halted, Tally.calls, Tally.done]
      omega
    last := fun hhalted => htracks.machine_eq hhalts (htracks.halted.mp hhalted)
    input := htracks.input
    output := htracks.stored_eq hhalts
    echoes := fun hhalted => htracks.stored_eq_echoed hhalts (htracks.halted.mp hhalted)
    ends := fun bound hbound => htracks.driveOutcome_toEnd hhalts hbound }

/-- A machine that copies two bytes. -/
def copier : Machine :=
  { program := ⟨"copy.bf", #[.plain ⟨.input, 1, 1⟩, .plain ⟨.output, 1, 2⟩, .plain ⟨.input, 1, 3⟩,
      .plain ⟨.output, 1, 4⟩]⟩
    cell := .byte, mayGrow := false, tape := .blank 1 0 }

/-- A console at which the first read gives nothing, the first write is refused, and the first flush
fails. -/
def hitchedConsole : Console FlakyInput FlakyOutput :=
  ⟨{ remaining := [65], hitches := [some .nothing] },
    { writes := [some .refused], flushes := [some ⟨.system .brokenPipe, "gone"⟩] }, false, ""⟩

/-- A second piece of input, whose first read fails. -/
def hitchedPiece : FlakyInput :=
  { remaining := [66], hitches := [some (.failed ⟨.other "Alarm", ""⟩)] }

/-- Two bytes are copied in spite of all that goes wrong; the first of them is written twice. -/
theorem resumed_copier :
    (Program.ofSource "copy.bf" [0x2c, 0x2e, 0x2c, 0x2e]).link = .ok copier.program ∧
      MachineSettings.build ⟨1, false, {}⟩ copier.program = .ok copier ∧
      copier.Halts [65, 66] 4 ∧
      ∃ machine console,
        Driven 9 copier hitchedConsole [hitchedPiece] ⟨5, 5, 1, 0⟩ machine console [] ∧
        Resumed copier [65, 66] 4 hitchedConsole [hitchedPiece] ⟨5, 5, 1, 0⟩ machine console [] ∧
        machine.status = .halted ∧ console.output.stored = [65, 65, 66] := by
  have hbuild : MachineSettings.build ⟨1, false, {}⟩ copier.program = .ok copier := rfl
  have hhalts : copier.Halts [65, 66] 4 := ⟨rfl, rfl⟩
  -- nothing is read, the byte is refused, the flush fails
  have hfirst : Driven 9 copier hitchedConsole [hitchedPiece] ⟨1, 3, 0, 0⟩ _ _ [hitchedPiece] :=
    ((Driven.start.drive .toEnd).drive .toEnd).drive (.watching 1)
  -- the byte is written again, the first piece is exhausted
  have hsecond : Driven 9 copier hitchedConsole [hitchedPiece] ⟨2, 4, 1, 0⟩ _ _ [hitchedPiece] :=
    (hfirst.drive (.atMost 1)).drive .toEnd
  -- a read fails while steps are traced, the rest goes well
  have hlast : Driven 9 copier hitchedConsole [hitchedPiece] ⟨5, 5, 1, 0⟩ _ _ [] :=
    ((((hsecond.attach rfl).setTracing true).drive (.watching 1)).setTracing false).drive .toEnd
  exact ⟨rfl, hbuild, hhalts, _, _, hlast, resumed_of_driven hbuild rfl rfl hhalts hlast, rfl,
    rfl⟩

end Brainfuck
