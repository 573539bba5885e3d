import Brainfuck.Proofs.Calls
import Brainfuck.Proofs.Resume

/-! # Steps as they can be observed

A drive makes steps, one after the other. What can be observed of each is an event: the machine that
the step found, what it came to, the machine that it left, and the calls that it made. All that a
drive reports follows from its events, and so does what it does to the streams.

Main definitions: `StepEvent`, `Machine.follow`, `Drive.follow`, `DriveReport.ofEvents`. Main
statements: a drive reports its events (`Session.driveMachine_eq`), does to the streams what their
calls do (`Machine.streams_follow`), and has the same events at consoles that no step tells apart
(`Machine.Indifferent.follow`). -/

namespace Brainfuck

/-! ## Events -/

/-- A step as it can be observed. -/
structure StepEvent where
  /-- The machine before the step. -/
  before : Machine
  /-- What the step came to. -/
  reply : Reply
  /-- The machine after the step. -/
  after : Machine
  /-- The calls that the step made on the streams. -/
  calls : List StreamCall
deriving DecidableEq

/-- Whether more steps are made after a reply: never after an error, and after the end of the
program only where steps are watched. -/
def Reply.goesOn (watched : Bool) : Reply → Bool
  | .advanced => true
  | .finished => watched
  | .raised _ => false

/-- The reply as a drive gives it: where steps are watched, the end of the program is nothing to
report. -/
def Reply.reported (watched : Bool) : Reply → Reply
  | .finished => if watched then .advanced else .finished
  | reply => reply

namespace StepEvent

/-- Whether the step returned. -/
def returned (event : StepEvent) : Bool :=
  match event.reply with
  | .raised _ => false
  | _ => true

/-- What the machine shows after the step. -/
def sighting (event : StepEvent) : Sighting :=
  event.after.sighting (decide (event.reply = .advanced))

/-- What a trace shows of a step: the instruction that the step found, and the program counter, the
data pointer and the cell under it afterwards. Nothing is shown if one of these numbers cannot be
written out. -/
def shown? (event : StepEvent) : Option String := do
  let linked ← event.before.next?
  let value ← event.after.tape.cells[event.after.tape.head]?
  let instruction ← linked.text? Numeral.standardLimit
  let pc ← Numeral.write? Numeral.standardLimit event.after.pc
  let head ← Numeral.write? Numeral.standardLimit event.after.tape.head
  let cell ← Numeral.write? Numeral.standardLimit value
  return "*op=" ++ instruction ++ "\n* pc=" ++ pc ++ "\n* dataptr=" ++ head ++ "\n* cell=" ++
    cell ++ "\n\n"

/-- Whether an instruction was executed, be it that its trace could not be printed. -/
def executed (event : StepEvent) : Bool :=
  match event.reply with
  | .advanced => true
  | .finished => false
  | .raised error => decide (error = .failure .overlong)

/-- A step that executed an instruction can be shown. -/
def Showable (event : StepEvent) : Prop := event.executed = true → event.shown?.isSome = true

/-- The machine that some steps leave. -/
def lastMachine (machine : Machine) (events : List StepEvent) : Machine :=
  events.foldl (fun _ event => event.after) machine

/-- What a drive says of some steps: what the last of them came to. -/
def lastReply (watched : Bool) (events : List StepEvent) : Reply :=
  events.foldl (fun _ event => event.reply.reported watched) .advanced

/-- What is seen of the steps that returned. -/
def sightings (events : List StepEvent) : Array Sighting :=
  ((events.filter returned).map sighting).toArray

end StepEvent

section Following

variable {ι ο : Type} [InputStream ι] [OutputStream ο]

namespace Machine

/-- The step of a machine at a console, as it can be observed. -/
def stepEvent (machine : Machine) (console : Console ι ο) : StepEvent :=
  ⟨machine, (machine.stepTraced console).reply, (machine.stepTraced console).machine,
    machine.stepCalls console⟩

/-- The events of at most `limit` steps, and the console after them. -/
def follow (watched : Bool) (limit : Nat) (machine : Machine) (console : Console ι ο) :
    List StepEvent × Console ι ο :=
  match limit with
  | 0 => ([], console)
  | limit + 1 =>
    if (machine.stepTraced console).reply.goesOn watched then
      let (events, last) :=
        (machine.stepTraced console).machine.follow watched limit
          (machine.stepTraced console).console
      (machine.stepEvent console :: events, last)
    else ([machine.stepEvent console], (machine.stepTraced console).console)

variable {watched : Bool} {machine : Machine} {console : Console ι ο}

theorem follow_zero : machine.follow watched 0 console = ([], console) := rfl

theorem follow_succ_of_goesOn (h : (machine.stepTraced console).reply.goesOn watched = true)
    (limit : Nat) :
    machine.follow watched (limit + 1) console =
      (machine.stepEvent console ::
          ((machine.stepTraced console).machine.follow watched limit
            (machine.stepTraced console).console).1,
        ((machine.stepTraced console).machine.follow watched limit
          (machine.stepTraced console).console).2) := by
  rw [follow, if_pos h]

theorem follow_succ_of_stops (h : (machine.stepTraced console).reply.goesOn watched = false)
    (limit : Nat) :
    machine.follow watched (limit + 1) console =
      ([machine.stepEvent console], (machine.stepTraced console).console) := by
  rw [follow, if_neg (by simp [h])]

/-- The first step is one of any number of them. -/
theorem stepEvent_mem_follow (watched : Bool) (limit : Nat) (machine : Machine)
    (console : Console ι ο) :
    machine.stepEvent console ∈ (machine.follow watched (limit + 1) console).1 := by
  unfold follow
  split <;> exact List.mem_cons_self

/-- Steps neither begin nor stop tracing. -/
theorem tracing_follow (watched : Bool) (limit : Nat) (machine : Machine)
    (console : Console ι ο) :
    (machine.follow watched limit console).2.tracing = console.tracing := by
  induction limit generalizing machine console with
  | zero => rfl
  | succ limit ih =>
    have hstep := machine.tracing_stepTraced console
    cases hgoes : (machine.stepTraced console).reply.goesOn watched with
    | true => rw [follow_succ_of_goesOn hgoes, ih, hstep]
    | false => rw [follow_succ_of_stops hgoes, hstep]

/-- Each of any number of steps is the step of a machine of which everything holds that steps keep,
at a console that is traced alike. -/
theorem exists_eq_stepEvent {kept : Machine → Prop}
    (hstep : ∀ (machine : Machine) (console : Console ι ο),
      kept machine → kept (machine.step console).machine)
    (h : kept machine) {limit : Nat} {event : StepEvent}
    (hevent : event ∈ (machine.follow watched limit console).1) :
    ∃ (before : Machine) (earlier : Console ι ο), kept before ∧
      earlier.tracing = console.tracing ∧ event = before.stepEvent earlier := by
  induction limit generalizing machine console with
  | zero => cases hevent
  | succ limit ih =>
    cases hgoes : (machine.stepTraced console).reply.goesOn watched with
    | true =>
      rw [follow_succ_of_goesOn hgoes] at hevent
      rcases List.mem_cons.mp hevent with rfl | hevent
      · exact ⟨machine, console, h, rfl, rfl⟩
      · have hnext : kept (machine.stepTraced console).machine := by
          rw [machine_stepTraced]
          exact hstep machine console h
        obtain ⟨before, earlier, hbefore, hearlier, rfl⟩ := ih hnext hevent
        exact ⟨before, earlier, hbefore, hearlier.trans (machine.tracing_stepTraced console), rfl⟩
    | false =>
      rw [follow_succ_of_stops hgoes] at hevent
      obtain rfl := List.mem_singleton.mp hevent
      exact ⟨machine, console, h, rfl, rfl⟩

/-- A step executes an instruction whether or not it is traced. -/
theorem executed_stepEvent (machine : Machine) (console : Console ι ο) :
    (machine.stepEvent console).executed = true ↔ (machine.step console).reply = .advanced := by
  have htraced := machine.traced_stepTraced console
  have hnever : (machine.step console).reply ≠ .raised (.failure .overlong) :=
    reply_step_ne_overlong
  unfold stepEvent
  generalize machine.stepTraced console = outcome at htraced
  cases htraced with
  | silent _ =>
    generalize (machine.step console).reply = reply at hnever
    cases reply with
    | raised error => simpa [StepEvent.executed] using hnever
    | _ => simp [StepEvent.executed]
  | printed tracing fetched step written => simp [StepEvent.executed, step]
  | overlong tracing fetched step unwritten => simp [StepEvent.executed, step]

/-- What can be shown of a step is its trace. -/
theorem shown?_stepEvent {text : String} (h : (machine.stepEvent console).shown? = some text) :
    machine.stepText? console = some text := by
  simp only [stepEvent, StepEvent.shown?, machine_stepTraced, Option.bind_eq_bind,
    Option.bind_eq_some_iff] at h
  obtain ⟨linked, hnext, value, hvalue, hrest⟩ := h
  have hcurrent : (machine.step console).machine.tape.current = value := by
    rw [Tape.current, Array.getD_eq_getD_getElem?, hvalue, Option.getD_some]
  simpa only [stepText?, hnext, Option.bind_some, traceText?, hcurrent, Option.bind_eq_bind,
    Option.bind_eq_some_iff] using hrest

/-- Within the tape, everything that can be traced is shown. -/
theorem shown?_stepEvent_eq (hcell : (machine.step console).machine.tape.cells[
      (machine.step console).machine.tape.head]? =
        some (machine.step console).machine.tape.current) :
    (machine.stepEvent console).shown? = machine.stepText? console := by
  simp only [stepEvent, StepEvent.shown?, machine_stepTraced, stepText?]
  refine congrArg machine.next?.bind (funext fun linked => ?_)
  rw [hcell, traceText?]
  exact Option.bind_some _ _

/-- A step that can be shown has a trace that can be printed. -/
theorem stepText?_ne_none_of_showable (h : (machine.stepEvent console).Showable)
    (hreply : (machine.step console).reply = .advanced) : machine.stepText? console ≠ none := by
  obtain ⟨text, htext⟩ := Option.isSome_iff_exists.mp
    (h ((machine.executed_stepEvent console).mpr hreply))
  rw [shown?_stepEvent htext]
  nofun

/-! ## What a drive reports -/

/-- Counted steps. -/
theorem walk_eq (limit walked : Nat) (machine : Machine) (console : Console ι ο) :
    machine.walk limit walked console =
      ⟨⟨StepEvent.lastReply false (machine.follow false limit console).1,
          StepEvent.lastMachine machine (machine.follow false limit console).1,
          (machine.follow false limit console).2⟩,
        walked + (machine.follow false limit console).1.countP StepEvent.returned⟩ := by
  induction limit generalizing machine console walked with
  | zero => rfl
  | succ limit ih =>
    rw [walk, follow, stepEvent]
    generalize machine.stepTraced console = outcome
    obtain ⟨reply, next, later⟩ := outcome
    cases reply with
    | advanced =>
      refine (ih (walked + 1) next later).trans ?_
      simp only [Reply.goesOn, if_true, StepEvent.lastReply, StepEvent.lastMachine,
        List.foldl_cons, Reply.reported, List.countP_cons, StepEvent.returned, Walk.mk.injEq,
        true_and]
      omega
    | finished => rfl
    | raised error => rfl

/-- The events of a run. -/
def runEvents (limit : Nat) (machine : Machine) (console : Console ι ο) : List StepEvent :=
  (machine.follow false limit console).1

/-- A run is told by its events. -/
theorem runTraced_eq_follow (limit : Nat) (machine : Machine) (console : Console ι ο) :
    machine.runTraced limit console =
      ⟨StepEvent.lastReply false (machine.runEvents limit console),
        StepEvent.lastMachine machine (machine.runEvents limit console),
        (machine.follow false limit console).2⟩ := by
  rw [← outcome_walk machine limit 0 console, walk_eq]
  rfl

/-- Watched steps. -/
theorem watch_eq (count : Nat) (seen : Array Sighting) (machine : Machine)
    (console : Console ι ο) :
    machine.watch count seen console =
      (seen ++ StepEvent.sightings (machine.follow true count console).1,
        ⟨StepEvent.lastReply true (machine.follow true count console).1,
          StepEvent.lastMachine machine (machine.follow true count console).1,
          (machine.follow true count console).2⟩) := by
  induction count generalizing machine console seen with
  | zero => simp [watch, follow_zero, StepEvent.sightings, StepEvent.lastReply,
      StepEvent.lastMachine]
  | succ count ih =>
    rw [watch, follow, stepEvent]
    generalize machine.stepTraced console = outcome
    obtain ⟨reply, next, later⟩ := outcome
    cases reply with
    | raised error =>
      simp [Reply.goesOn, StepEvent.sightings, StepEvent.returned, StepEvent.lastReply,
        StepEvent.lastMachine, Reply.reported]
    | _ =>
      refine (ih _ next later).trans ?_
      simp [Reply.goesOn, StepEvent.sightings, StepEvent.returned, StepEvent.lastReply,
        StepEvent.lastMachine, Reply.reported, StepEvent.sighting, List.filter_cons]

/-! ## What a drive does to the streams -/

/-- The calls of the events are all that is done to the streams. -/
theorem streams_follow (watched : Bool) (limit : Nat) (machine : Machine)
    (console : Console ι ο) :
    (machine.follow watched limit console).2.streams =
      replay ((machine.follow watched limit console).1.flatMap (·.calls)) console.streams := by
  induction limit generalizing machine console with
  | zero => rfl
  | succ limit ih =>
    have hstep := (machine.streams_stepTraced console).trans (machine.streams_step console)
    cases hgoes : (machine.stepTraced console).reply.goesOn watched with
    | true =>
      rw [follow_succ_of_goesOn hgoes, ih, hstep, List.flatMap_cons, replay_append]
      rfl
    | false =>
      rw [follow_succ_of_stops hgoes, hstep, List.flatMap_cons, List.flatMap_nil, List.append_nil]
      rfl

/-! ## Consoles that no step tells apart -/

/-- At related consoles a step is the same event, if it is of some sort at the second one, and
leaves related consoles behind. -/
def Indifferent (sort : StepEvent → Prop) (alike : Machine → Console ι ο → Console ι ο → Prop) :
    Prop :=
  ∀ {machine : Machine} {console other : Console ι ο}, alike machine console other →
    sort (machine.stepEvent other) → machine.stepEvent console = machine.stepEvent other ∧
      alike (machine.stepTraced console).machine (machine.stepTraced console).console
        (machine.stepTraced other).console

/-- At related consoles any number of steps are the same events, if all are of that sort. -/
theorem Indifferent.follow {sort : StepEvent → Prop}
    {alike : Machine → Console ι ο → Console ι ο → Prop} (hindifferent : Indifferent sort alike)
    {other : Console ι ο} (h : alike machine console other) (watched : Bool) (limit : Nat)
    (hsort : ∀ event ∈ (machine.follow watched limit other).1, sort event) :
    (machine.follow watched limit console).1 = (machine.follow watched limit other).1 ∧
      alike (StepEvent.lastMachine machine (machine.follow watched limit console).1)
        (machine.follow watched limit console).2 (machine.follow watched limit other).2 := by
  induction limit generalizing machine console other with
  | zero => exact ⟨rfl, h⟩
  | succ limit ih =>
    have hfirst : sort (machine.stepEvent other) := hsort _ (machine.stepEvent_mem_follow _ _ _)
    obtain ⟨hevent, hafter⟩ := hindifferent h hfirst
    have hreply : (machine.stepTraced other).reply = (machine.stepTraced console).reply :=
      congrArg StepEvent.reply hevent.symm
    have hnext : (machine.stepTraced other).machine = (machine.stepTraced console).machine :=
      congrArg StepEvent.after hevent.symm
    cases hgoes : (machine.stepTraced console).reply.goesOn watched with
    | true =>
      rw [follow_succ_of_goesOn (by rw [hreply, hgoes]), hnext, List.forall_mem_cons] at hsort
      obtain ⟨hevents, hlast⟩ := ih hafter hsort.2
      rw [follow_succ_of_goesOn hgoes, follow_succ_of_goesOn (by rw [hreply, hgoes]), hnext,
        ← hevents, ← hevent]
      exact ⟨rfl, hlast⟩
    | false =>
      rw [follow_succ_of_stops hgoes, follow_succ_of_stops (by rw [hreply, hgoes]), ← hevent]
      exact ⟨rfl, hafter⟩

end Machine

end Following

/-- Whether the steps of a drive are watched. -/
def Drive.isWatched : Drive → Bool
  | .watching _ => true
  | _ => false

/-- The number of steps of a drive, at most. -/
def Drive.limit (bound : Nat) : Drive → Nat
  | .toEnd => bound
  | .atMost limit => limit
  | .watching count => count

/-- The report of a drive, read off its events. -/
def DriveReport.ofEvents (drive : Drive) (machine : Machine) (events : List StepEvent)
    (log : String) : DriveReport where
  machine := StepEvent.lastMachine machine events
  reply := StepEvent.lastReply drive.isWatched events
  returned :=
    match drive with
    | .atMost _ => events.countP StepEvent.returned
    | _ => 0
  seen :=
    match drive with
    | .watching _ => StepEvent.sightings events
    | _ => #[]
  log

section Drives

variable {ι ο : Type} [InputStream ι] [OutputStream ο]

/-- The console with no diagnostic text. -/
def Console.cleared (console : Console ι ο) : Console ι ο := { console with log := "" }

/-- The events of a drive, and the console after it. -/
def Drive.follow (bound : Nat) (drive : Drive) (machine : Machine) (console : Console ι ο) :
    List StepEvent × Console ι ο :=
  machine.follow drive.isWatched (drive.limit bound) console.cleared

/-- A drive reports its events. -/
theorem Session.driveMachine_eq (bound : Nat) (machine : Machine) (console : Console ι ο)
    (drive : Drive) :
    driveMachine bound machine console drive =
      (.ofEvents drive machine (drive.follow bound machine console).1
          (drive.follow bound machine console).2.log,
        (drive.follow bound machine console).2) := by
  cases drive with
  | toEnd =>
    simp only [driveMachine]
    rw [show machine.runTraced bound { console with log := "" } = _ from
      machine.runTraced_eq_follow bound console.cleared]
    rfl
  | atMost limit =>
    simp only [driveMachine]
    rw [show machine.walk limit 0 { console with log := "" } = _ from
      machine.walk_eq limit 0 console.cleared, Nat.zero_add]
    rfl
  | watching count =>
    simp only [driveMachine]
    rw [show machine.watch count #[] { console with log := "" } = _ from
      machine.watch_eq count #[] console.cleared, Array.empty_append]
    rfl

end Drives

end Brainfuck
