import Brainfuck.Ir.Semantics

/-! # Runs of code

Runs of single-assignment code in parts. The states in which instructions are executed are kept,
and the calls that the code makes on the way, each with the world in which it was made.

Main definitions: `HostCall`, `State.visited`, `State.calls`, `State.Leads`, `State.Returns`. -/

namespace Brainfuck

namespace Ir

/-- The function has a block with the given number and code. -/
def Function.HasBlock (function : Function) (block : Nat) (code : List Instr) : Prop :=
  ∃ label, function.blocks[block]? = some ⟨label, code⟩

/-! ## Calls -/

/-- A call that the code makes. -/
inductive HostCall where
  /-- To write a byte. -/
  | put (byte : UInt8)
  /-- To read a byte. -/
  | get
deriving DecidableEq, Repr

/-- The world after a call. -/
def HostCall.after {σ : Type} [Host σ] (call : HostCall) (host : σ) : σ :=
  match call with
  | put byte => (Host.putByte byte host).2
  | get => (Host.getByte host).2

/-- The reply of a call reports a failure: it is not zero where a byte was written, or negative
where one was read. -/
def HostCall.Fails {σ : Type} [Host σ] (call : HostCall) (host : σ) : Prop :=
  match call with
  | put byte => Width.reply.residue (Host.putByte byte host).1 ≠ 0
  | get => Width.reply.signed (Width.reply.residue (Host.getByte host).1) < 0

/-- The world that a step leaves behind. -/
def Step.host {σ : Type} : Step σ → σ
  | running state => state.host
  | returned _ _ host => host
  | stuck _ host => host

namespace State

variable {σ : Type}

theorem number?_eq_some {values : Std.HashMap Name Value} {name : Name} {value : Nat}
    (h : values[name]? = some (.number value)) (code : List Instr) (slot : Nat)
    (tape : Array UInt8) (host : σ) :
    (State.mk code values slot tape host).number? name = some value := by
  simp only [number?, h]

/-- The call that the next instruction makes, if it is one that calls. -/
def call? (state : State σ) : Option HostCall :=
  match state.code with
  | .put _ name :: _ => (state.number? name).map fun value => .put (UInt8.ofNat value)
  | .get _ :: _ => some .get
  | _ => none

/-- The next instruction makes a call that fails. -/
def Fails [Host σ] (state : State σ) : Prop :=
  ∃ call, state.call? = some call ∧ call.Fails state.host

/-- The states in which at most `limit` instructions are executed. -/
def visited [Host σ] (function : Function) (limit : Nat) (state : State σ) : List (State σ) :=
  match limit with
  | 0 => []
  | limit + 1 =>
    state ::
      match state.step function with
      | .running next => next.visited function limit
      | _ => []

/-- The calls of at most `limit` instructions, each with the world in which it is made. -/
def calls [Host σ] (function : Function) (limit : Nat) (state : State σ) : List (HostCall × σ) :=
  match limit with
  | 0 => []
  | limit + 1 =>
    (state.call?.map fun call => (call, state.host)).toList ++
      match state.step function with
      | .running next => next.calls function limit
      | _ => []

/-- The calls made in some states, each with the world in which it is made. -/
def made (states : List (State σ)) : List (HostCall × σ) :=
  states.filterMap fun state => state.call?.map fun call => (call, state.host)

/-! ## Runs in parts -/

variable [Host σ] {function : Function} {state middle next : State σ}

theorem run_succ_of_running (h : state.step function = .running next) (limit : Nat) :
    state.run function (limit + 1) = next.run function limit := by
  rw [run, h]

theorem visited_succ_of_running (h : state.step function = .running next) (limit : Nat) :
    state.visited function (limit + 1) = state :: next.visited function limit := by
  rw [visited, h]

/-- The calls of a run are made in the states that it visits. -/
theorem calls_eq_made (function : Function) (limit : Nat) (state : State σ) :
    state.calls function limit = made (state.visited function limit) := by
  induction limit generalizing state with
  | zero => rfl
  | succ limit ih =>
    rw [calls, visited, made, List.filterMap_cons]
    cases state.step function with
    | running next =>
      simp only [ih]
      cases state.call? <;> rfl
    | returned word tape host => cases state.call? <;> rfl
    | stuck reason host => cases state.call? <;> rfl

/-- A run is taken up where its limit cut it short. -/
theorem run_add {count : Nat} (h : state.run function count = .running next) (limit : Nat) :
    state.run function (count + limit) = next.run function limit := by
  induction count generalizing state with
  | zero =>
    rw [Nat.zero_add]
    rw [run, Step.running.injEq] at h
    rw [h]
  | succ count ih =>
    rw [Nat.succ_add]
    cases hstep : state.step function with
    | running following =>
      rw [run_succ_of_running hstep] at h ⊢
      exact ih h
    | returned value tape host => simp [run, hstep] at h
    | stuck reason host => simp [run, hstep] at h

/-- The states of a run that is taken up follow those of the run that was cut short. -/
theorem visited_add {count : Nat} (h : state.run function count = .running next) (limit : Nat) :
    state.visited function (count + limit) =
      state.visited function count ++ next.visited function limit := by
  induction count generalizing state with
  | zero =>
    rw [run, Step.running.injEq] at h
    rw [Nat.zero_add, h]
    rfl
  | succ count ih =>
    rw [Nat.succ_add]
    cases hstep : state.step function with
    | running following =>
      rw [run_succ_of_running hstep] at h
      rw [visited_succ_of_running hstep, visited_succ_of_running hstep, ih h, List.cons_append]
    | returned value tape host => simp [run, hstep] at h
    | stuck reason host => simp [run, hstep] at h

/-- The calls of a run that is taken up follow those of the run that was cut short. -/
theorem calls_add {count : Nat} (h : state.run function count = .running next) (limit : Nat) :
    state.calls function (count + limit) =
      state.calls function count ++ next.calls function limit := by
  rw [calls_eq_made, visited_add h, made, List.filterMap_append, calls_eq_made, calls_eq_made]
  rfl

/-- A larger limit changes nothing about a run that has ended. -/
theorem run_add_of_ended {count : Nat} (h : ∀ next, state.run function count ≠ .running next)
    (more : Nat) : state.run function (count + more) = state.run function count := by
  induction count generalizing state with
  | zero => exact absurd rfl (h state)
  | succ count ih =>
    rw [Nat.succ_add]
    cases hstep : state.step function with
    | running following =>
      rw [run_succ_of_running hstep] at h ⊢
      rw [run_succ_of_running hstep]
      exact ih h
    | returned word tape host => rw [run, run, hstep]
    | stuck reason host => rw [run, run, hstep]

/-- A larger limit adds no states to a run that has ended. -/
theorem visited_add_of_ended {count : Nat} (h : ∀ next, state.run function count ≠ .running next)
    (more : Nat) : state.visited function (count + more) = state.visited function count := by
  induction count generalizing state with
  | zero => exact absurd rfl (h state)
  | succ count ih =>
    rw [Nat.succ_add]
    cases hstep : state.step function with
    | running following =>
      rw [run_succ_of_running hstep] at h
      rw [visited_succ_of_running hstep, visited_succ_of_running hstep, ih h]
    | returned word tape host => rw [visited, visited, hstep]
    | stuck reason host => rw [visited, visited, hstep]

/-- A larger limit adds no calls to a run that has ended. -/
theorem calls_add_of_ended {count : Nat} (h : ∀ next, state.run function count ≠ .running next)
    (more : Nat) : state.calls function (count + more) = state.calls function count := by
  rw [calls_eq_made, visited_add_of_ended h, calls_eq_made]

/-- Two limits under which a run ends come to the same. -/
theorem run_eq_run_of_ended {first second : Nat}
    (hfirst : ∀ next, state.run function first ≠ .running next)
    (hsecond : ∀ next, state.run function second ≠ .running next) :
    state.run function first = state.run function second := by
  rw [← run_add_of_ended hfirst second, ← run_add_of_ended hsecond first, Nat.add_comm]

/-- Under a smaller limit a run has not ended either. -/
theorem exists_running_of_le {limit limit' : Nat} (hle : limit ≤ limit')
    (h : state.run function limit' = .running next) :
    ∃ earlier, state.run function limit = .running earlier := by
  refine Classical.byContradiction fun hnone => ?_
  have hended : ∀ earlier, state.run function limit ≠ .running earlier := fun earlier hearlier =>
    hnone ⟨earlier, hearlier⟩
  obtain ⟨more, rfl⟩ := Nat.le.dest hle
  rw [run_add_of_ended hended] at h
  exact hended next h

/-- A larger limit only adds states. -/
theorem visited_extends {limit limit' : Nat} (h : limit ≤ limit') (state : State σ) :
    state.visited function limit <+: state.visited function limit' := by
  induction limit generalizing limit' state with
  | zero => exact List.nil_prefix
  | succ limit ih =>
    obtain ⟨more, rfl⟩ : ∃ more, limit' = more + 1 := ⟨limit' - 1, by omega⟩
    rw [visited, visited, List.prefix_cons_inj]
    split
    · exact ih (by omega) _
    · exact List.prefix_rfl

/-- A larger limit only adds calls. -/
theorem calls_prefix {limit limit' : Nat} (h : limit ≤ limit') (state : State σ) :
    state.calls function limit <+: state.calls function limit' := by
  rw [calls_eq_made, calls_eq_made]
  exact (visited_extends h state).filterMap _

/-- A run that has ended has made all its calls. -/
theorem calls_prefix_of_ended {count : Nat}
    (h : ∀ next, state.run function count ≠ .running next) (limit : Nat) :
    state.calls function limit <+: state.calls function count := by
  rw [← calls_add_of_ended h limit]
  exact calls_prefix (Nat.le_add_left limit count) state

/-- The world changes only by calls. -/
theorem host_step (state : State σ) :
    (state.step function).host =
      match state.call? with
      | some call => call.after state.host
      | none => state.host := by
  -- in every branch of every other instruction the world is passed on, also where the code is stuck
  obtain ⟨code, values, slot, tape, host⟩ := state
  cases code with
  | nil => rfl
  | cons instr rest =>
    cases instr with
    | reserve result => rfl
    | load result width address =>
      simp only [step, execute, call?, loadFrom, define]
      split <;> try rfl
      split <;> rfl
    | store width value address =>
      cases value with
      | literal value =>
        simp only [step, execute, call?, storeTo]
        split <;> try rfl
        split <;> rfl
      | named name =>
        simp only [step, execute, call?, storeTo]
        split <;> try rfl
        split <;> try rfl
        split <;> rfl
    | element result base index =>
      simp only [step, execute, call?, addressOf, define]
      split <;> try rfl
      split <;> rfl
    | arithmetic result operation width left right =>
      simp only [step, execute, call?, define]
      split <;> rfl
    | compare result comparison width left right =>
      simp only [step, execute, call?, define]
      split <;> rfl
    | truncate result value =>
      simp only [step, execute, call?, define]
      split <;> rfl
    | put result byte =>
      simp only [step, execute, call?]
      split <;> simp_all [Step.host, HostCall.after]
    | get result => rfl
    | branch condition ifTrue ifFalse =>
      simp only [step, execute, call?, enter]
      split <;> try rfl
      split <;> rfl
    | ret value => rfl

/-! ## Where runs lead -/

/-- After one or more instructions and the given calls, the code is in another state. -/
def Leads (function : Function) (state : State σ) (made : List (HostCall × σ))
    (next : State σ) : Prop :=
  ∃ count, state.run function (count + 1) = .running next ∧
    state.calls function (count + 1) = made

/-- After some instructions and the given calls, the function returns. -/
def Returns (function : Function) (state : State σ) (made : List (HostCall × σ)) (word : Int)
    (tape : Array UInt8) (host : σ) : Prop :=
  ∃ count, state.run function count = .returned word tape host ∧
    state.calls function count = made

end State

end Ir

end Brainfuck
