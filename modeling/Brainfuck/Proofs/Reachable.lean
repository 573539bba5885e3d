import Brainfuck.Session

/-! # What can become of a machine

A machine changes by steps, each at any console, and by changes of its settings. Whatever a session
does, each of its machines was made and then changed in these ways only.

Main definitions: `Machine.Evolves`, `Machine.Reached`, `Session.kindsUsed`. Main statement: every
machine of a session is reached, with the kinds of cell that it had on the way
(`Session.reached_performAll`). -/

namespace Brainfuck

variable {ι ο : Type}

namespace Machine

/-- A machine becomes another one by steps and changes of its settings; the kinds of cell that it
was given on the way are listed, the last one first. -/
inductive Evolves (first : Machine) : List CellKind → Machine → Prop where
  /-- Nothing was done. -/
  | refl : Evolves first [] first
  /-- A step was made, at any console. -/
  | step {kinds : List CellKind} {machine : Machine} {ι ο : Type} [InputStream ι] [OutputStream ο]
      (console : Console ι ο) :
      Evolves first kinds machine → Evolves first kinds (machine.step console).machine
  /-- It was changed whether the tape may grow. -/
  | setGrowth {kinds : List CellKind} {machine : Machine} (mayGrow : Bool) :
      Evolves first kinds machine → Evolves first kinds { machine with mayGrow }
  /-- The kind of cell was changed. -/
  | setCell {kinds : List CellKind} {machine : Machine} (cell : CellKind) :
      Evolves first kinds machine → Evolves first (cell :: kinds) { machine with cell }

/-- A machine was made for a program and became what it is; all the kinds of cell that it had are
listed. -/
def Reached (program : LinkedProgram) (kinds : List CellKind) (machine : Machine) : Prop :=
  ∃ (settings : MachineSettings) (first : Machine) (changes : List CellKind),
    settings.build program = .ok first ∧ first.Evolves changes machine ∧
      kinds = changes ++ [first.cell]

theorem Evolves.trans {first middle last : Machine} {kinds kinds' : List CellKind}
    (h : first.Evolves kinds middle) (h' : middle.Evolves kinds' last) :
    first.Evolves (kinds' ++ kinds) last := by
  induction h' with
  | refl => exact h
  | step console _ ih => exact .step console ih
  | setGrowth mayGrow _ ih => exact .setGrowth mayGrow ih
  | setCell cell _ ih => exact .setCell cell ih

/-- What becomes of a reached machine is reached. -/
theorem Reached.of_evolves {program : LinkedProgram} {machine last : Machine}
    {kinds changes : List CellKind} (h : machine.Reached program kinds)
    (h' : machine.Evolves changes last) : last.Reached program (changes ++ kinds) := by
  obtain ⟨settings, first, earlier, hbuild, hevolves, rfl⟩ := h
  exact ⟨settings, first, changes ++ earlier, hbuild, hevolves.trans h',
    (List.append_assoc _ _ _).symm⟩

/-! ## Counted runs -/

section Runs

variable [InputStream ι] [OutputStream ο]

/-- One step is a step. -/
theorem evolves_step (machine : Machine) (console : Console ι ο) :
    machine.Evolves [] (machine.step console).machine :=
  .step console .refl

/-- A traced step is a step, as far as the machine goes. -/
theorem evolves_stepTraced (machine : Machine) (console : Console ι ο) :
    machine.Evolves [] (machine.stepTraced console).machine := by
  rw [machine_stepTraced]
  exact machine.evolves_step console

omit [InputStream ι] [OutputStream ο] in
/-- Runs evolve a machine if their steps do. -/
theorem evolves_runBy {step : Machine → Console ι ο → Outcome ι ο}
    (hstep : ∀ (machine : Machine) (console : Console ι ο),
      machine.Evolves [] (step machine console).machine) (limit : Nat)
    (machine : Machine) (console : Console ι ο) :
    machine.Evolves [] (runBy step limit machine console).machine := by
  induction limit generalizing machine console with
  | zero => exact .refl
  | succ limit ih =>
    have hfirst := hstep machine console
    rw [runBy]
    split
    next next later hadvanced =>
      rw [hadvanced] at hfirst
      exact hfirst.trans (ih next later)
    next => exact hfirst

theorem evolves_run (limit : Nat) (machine : Machine) (console : Console ι ο) :
    machine.Evolves [] (machine.run limit console).machine :=
  evolves_runBy evolves_step limit machine console

theorem evolves_runTraced (limit : Nat) (machine : Machine) (console : Console ι ο) :
    machine.Evolves [] (machine.runTraced limit console).machine :=
  evolves_runBy evolves_stepTraced limit machine console

theorem evolves_walk (limit returned : Nat) (machine : Machine) (console : Console ι ο) :
    machine.Evolves [] (machine.walk limit returned console).outcome.machine := by
  induction limit generalizing returned machine console with
  | zero => exact .refl
  | succ limit ih =>
    have hfirst := machine.evolves_stepTraced console
    rw [walk]
    split
    next next later hstep =>
      rw [hstep] at hfirst
      exact hfirst.trans (ih (returned + 1) next later)
    next next later hstep => rwa [hstep] at hfirst
    next error next later hstep => rwa [hstep] at hfirst

theorem evolves_watch (count : Nat) (seen : Array Sighting) (machine : Machine)
    (console : Console ι ο) :
    machine.Evolves [] (machine.watch count seen console).2.machine := by
  induction count generalizing seen machine console with
  | zero => exact .refl
  | succ count ih =>
    have hfirst := machine.evolves_stepTraced console
    rw [watch]
    split
    -- a watched machine is stepped on after the end of its program
    next next later hstep =>
      rw [hstep] at hfirst
      exact hfirst.trans (ih _ next later)
    next next later hstep =>
      rw [hstep] at hfirst
      exact hfirst.trans (ih _ next later)
    next error next later hstep => rwa [hstep] at hfirst

end Runs

end Machine

/-- Putting what became of a machine in its place keeps all machines; the only kind of cell that one
is given is the one that it has afterwards. -/
theorem Machine.evolves_setIfInBounds {machines : Array Machine} {target number : Nat}
    {old new machine : Machine} {kinds : List CellKind} (hold : machines[target]? = some old)
    (hkinds : kinds ⊆ [new.cell]) (hevolves : old.Evolves kinds new)
    (h : machines[number]? = some machine) :
    ∃ next kinds, (machines.setIfInBounds target new)[number]? = some next ∧
      kinds ⊆ [next.cell] ∧ machine.Evolves kinds next := by
  by_cases hnumber : target = number
  · subst hnumber
    rw [hold, Option.some.injEq] at h
    subst h
    obtain ⟨hbound, -⟩ := Array.getElem?_eq_some_iff.mp hold
    exact ⟨new, kinds, by simp [hbound], hkinds, hevolves⟩
  · exact ⟨machine, [], by simp [hnumber, h], by simp, .refl⟩

namespace Session

variable [InputStream ι] [OutputStream ο] {bound : Nat} {session : Session ι ο} {number : Nat}
  {machine : Machine}

/-! ## One command -/

/-- A drive is a number of steps. -/
theorem evolves_driveMachine (bound : Nat) (machine : Machine) (console : Console ι ο)
    (drive : Drive) :
    machine.Evolves [] (driveMachine bound machine console drive).1.machine := by
  cases drive with
  | toEnd => exact machine.evolves_runTraced bound _
  | atMost limit => exact machine.evolves_walk limit 0 _
  | watching count => exact machine.evolves_watch count #[] _

/-- An adjustment changes settings; the only kind of cell it gives is the one that the machine has
afterwards. -/
theorem evolves_adjustMachine (machine : Machine) (mayGrow : Option Bool)
    (cell : Option CellSettings) :
    ∃ kinds, kinds ⊆ [(adjustMachine machine mayGrow cell).1.cell] ∧
      machine.Evolves kinds (adjustMachine machine mayGrow cell).1 := by
  have hrefl : machine.Evolves [] machine := .refl
  have hgrowth := hrefl.setGrowth (mayGrow.getD machine.mayGrow)
  unfold adjustMachine
  split
  -- no cells asked for, possible ones, and impossible ones, which leave the old ones in place
  next => exact ⟨[], by simp, hgrowth⟩
  next settings =>
    split
    next kind _ => exact ⟨[kind], by simp, .setCell kind hgrowth⟩
    next error _ => exact ⟨[], by simp, hgrowth⟩

@[simp] theorem program_perform (command : Command ι ο) :
    (session.perform bound command).2.program = session.program := by
  cases command <;> simp only [perform] <;> grind

/-- A command keeps the machines that there are; the only kind of cell that one is given is the one
that it has afterwards. -/
theorem evolves_perform (command : Command ι ο) (h : session.machines[number]? = some machine) :
    ∃ next kinds, (session.perform bound command).2.machines[number]? = some next ∧
      kinds ⊆ [next.cell] ∧ machine.Evolves kinds next := by
  have unchanged : ∃ next kinds, session.machines[number]? = some next ∧
      kinds ⊆ [next.cell] ∧ machine.Evolves kinds next := ⟨machine, [], h, by simp, .refl⟩
  cases command with
  | create settings =>
    simp only [perform]
    split
    next made _ =>
      obtain ⟨hbound, -⟩ := Array.getElem?_eq_some_iff.mp h
      exact ⟨machine, [], by rw [Array.getElem?_push_lt hbound, ← Array.getElem?_eq_getElem, h],
        by simp, .refl⟩
    next error _ => exact unchanged
  | attachInput input => exact unchanged
  | attachOutput output => exact unchanged
  | setTracing on => exact unchanged
  | adjust target mayGrow cell =>
    simp only [perform]
    split
    next => exact unchanged
    next old hold =>
      obtain ⟨kinds, hkinds, hevolves⟩ := evolves_adjustMachine old mayGrow cell
      split <;> exact Machine.evolves_setIfInBounds hold hkinds hevolves h
  | drive target drive =>
    simp only [perform]
    split
    next => exact unchanged
    next old hold =>
      exact Machine.evolves_setIfInBounds hold (by simp)
        (evolves_driveMachine bound old session.console drive) h

/-- A machine that a command brings in was just made. -/
theorem build_of_perform (command : Command ι ο) (hbefore : session.machines[number]? = none)
    (h : (session.perform bound command).2.machines[number]? = some machine) :
    ∃ settings : MachineSettings, settings.build session.program = .ok machine := by
  have hsize : session.machines.size ≤ number := by simpa using hbefore
  -- to change a machine is not to bring one in
  have absent (target : Nat) (new : Machine) :
      (session.machines.setIfInBounds target new)[number]? = none := by simpa using hsize
  cases command with
  | create settings =>
    simp only [perform] at h
    split at h
    next made hmade =>
      rw [Array.getElem?_push] at h
      split at h
      · rw [Option.some.injEq] at h
        exact ⟨settings, h ▸ hmade⟩
      · simp [hbefore] at h
    next error _ => simp [hbefore] at h
  | attachInput input => simp [perform, hbefore] at h
  | attachOutput output => simp [perform, hbefore] at h
  | setTracing on => simp [perform, hbefore] at h
  | adjust target mayGrow cell =>
    simp only [perform] at h
    split at h
    next => simp [hbefore] at h
    next old _ => split at h <;> simp [absent] at h
  | drive target drive =>
    simp only [perform] at h
    split at h
    next => simp [hbefore] at h
    next old _ => simp [absent] at h

/-! ## Any number of commands -/

@[simp] theorem program_performAll (commands : List (Command ι ο)) :
    (session.performAll bound commands).2.program = session.program := by
  induction commands generalizing session with
  | nil => rfl
  | cons command rest ih => exact ih.trans (program_perform command)

/-- The kind of cell of a machine, if there is one of this number. -/
def kindOf (session : Session ι ο) (number : Nat) : List CellKind :=
  (session.machines[number]?.map (·.cell)).toList

/-- The kinds of cell that a machine has had, from a session on through some commands. -/
def kindsUsed (bound : Nat) (number : Nat) (session : Session ι ο) :
    List (Command ι ο) → List CellKind
  | [] => session.kindOf number
  | command :: rest =>
    session.kindOf number ++ kindsUsed bound number (session.perform bound command).2 rest

omit [InputStream ι] [OutputStream ο] in
theorem kindOf_eq (h : session.machines[number]? = some machine) :
    session.kindOf number = [machine.cell] := by
  simp [kindOf, h]

theorem kindOf_subset_kindsUsed (bound number : Nat) (session : Session ι ο)
    (commands : List (Command ι ο)) :
    session.kindOf number ⊆ kindsUsed bound number session commands := by
  cases commands with
  | nil => exact List.Subset.refl _
  | cons command rest => exact List.subset_append_left _ _

/-- Every machine of the session was reached with some of the given kinds of cell. -/
def AllReached (session : Session ι ο) (kinds : Nat → List CellKind) : Prop :=
  ∀ number machine, session.machines[number]? = some machine →
    ∃ held ⊆ kinds number, machine.Reached session.program held

/-- A command keeps all machines reached; what it adds are the kinds of cell they have afterwards.
-/
theorem AllReached.perform {kinds : Nat → List CellKind} (h : session.AllReached kinds)
    (command : Command ι ο) :
    (session.perform bound command).2.AllReached
      fun number => kinds number ++ (session.perform bound command).2.kindOf number := by
  intro number next hnext
  rw [program_perform]
  simp only [kindOf_eq hnext]
  cases hbefore : session.machines[number]? with
  | none =>
    obtain ⟨settings, hbuild⟩ := build_of_perform command hbefore hnext
    exact ⟨[next.cell], by simp, settings, next, [], hbuild, .refl, rfl⟩
  | some machine =>
    obtain ⟨earlier, hearlier, hreached⟩ := h number machine hbefore
    obtain ⟨after, changes, hafter, hchanges, hevolves⟩ := evolves_perform command hbefore
    rw [hnext, Option.some.injEq] at hafter
    subst hafter
    refine ⟨changes ++ earlier, ?_, hreached.of_evolves hevolves⟩
    intro kind hkind
    rcases List.mem_append.mp hkind with hkind | hkind
    · exact List.mem_append_right _ (hchanges hkind)
    · exact List.mem_append_left _ (hearlier hkind)

/-- Any commands keep all machines reached, with the kinds of cell used on the way. -/
theorem AllReached.performAll {kinds : Nat → List CellKind} (h : session.AllReached kinds)
    (commands : List (Command ι ο)) :
    (session.performAll bound commands).2.AllReached
      fun number => kinds number ++ kindsUsed bound number session commands := by
  induction commands generalizing session kinds with
  | nil =>
    intro number machine hmachine
    obtain ⟨held, hheld, hreached⟩ := h number machine hmachine
    exact ⟨held, fun kind hkind => List.mem_append_left _ (hheld hkind), hreached⟩
  | cons command rest ih =>
    intro number machine hmachine
    obtain ⟨held, hheld, hreached⟩ := ih (h.perform command) number machine hmachine
    refine ⟨held, fun kind hkind => ?_, hreached⟩
    have hkind := hheld hkind
    -- the kind of cell after the first command is among those used from there on
    have hsubset := kindOf_subset_kindsUsed bound number (session.perform bound command).2 rest
    simp only [kindsUsed, List.mem_append] at hkind ⊢
    grind

/-- Every machine of a session that began without any was reached, with the kinds of cell that it
has had. -/
theorem reached_performAll {program : LinkedProgram} {console : Console ι ο}
    {commands : List (Command ι ο)}
    (h : (performAll bound ⟨program, #[], console⟩ commands).2.machines[number]? = some machine) :
    ∃ held ⊆ kindsUsed bound number ⟨program, #[], console⟩ commands,
      machine.Reached program held := by
  have hempty : AllReached ⟨program, #[], console⟩ fun _ => [] := by
    intro number machine hmachine
    simp at hmachine
  obtain ⟨held, hheld, hreached⟩ := hempty.performAll commands number machine h
  rw [program_performAll] at hreached
  exact ⟨held, hheld, hreached⟩

end Session

end Brainfuck
