import Brainfuck.Proofs.Ir.Run

/-! # Code in another world

The code sees the world only through the replies to its calls. If one world answers like another,
the code does the same in both.

Main definitions: `Host.Hom`, `HostCall.AnsweredAlike`, `State.mapHost`. Main statements: what one
instruction does in another world (`State.step_mapHost_of_silent`, `State.step_mapHost_of_call`),
`State.run_mapHost` and `State.calls_mapHost`. -/

namespace Brainfuck.Ir

variable {σ τ : Type}

/-- Worlds answer like the worlds that a map takes them to, and become those that it takes the
others to. -/
structure Host.Hom [Host σ] [Host τ] (map : σ → τ) : Prop where
  /-- Writing a byte is answered alike. -/
  putByte : ∀ byte host, Host.putByte byte (map host) =
    ((Host.putByte byte host).1, map (Host.putByte byte host).2)
  /-- Reading a byte is answered alike. -/
  getByte : ∀ host, Host.getByte (map host) = ((Host.getByte host).1, map (Host.getByte host).2)

/-- A call is answered in the world that a map takes a world to like in that world itself, and what
it leaves there is what another map takes the world that it leaves to. -/
def HostCall.AnsweredAlike [Host σ] [Host τ] (map map' : σ → τ) (call : HostCall) (host : σ) :
    Prop :=
  match call with
  | put byte => Host.putByte byte (map host) =
    ((Host.putByte byte host).1, map' (Host.putByte byte host).2)
  | get => Host.getByte (map host) = ((Host.getByte host).1, map' (Host.getByte host).2)

theorem Host.Hom.answeredAlike [Host σ] [Host τ] {map : σ → τ} (h : Host.Hom map)
    (call : HostCall) (host : σ) : call.AnsweredAlike map map host := by
  cases call with
  | put byte => exact h.putByte byte host
  | get => exact h.getByte host

/-- The state in another world. -/
def State.mapHost (map : σ → τ) (state : State σ) : State τ :=
  ⟨state.code, state.values, state.slot, state.tape, map state.host⟩

/-- What a step came to, in another world. -/
def Step.mapHost (map : σ → τ) : Step σ → Step τ
  | running state => running (state.mapHost map)
  | returned value tape host => returned value tape (map host)
  | stuck reason host => stuck reason (map host)

namespace State

@[simp] theorem values_mapHost (map : σ → τ) (state : State σ) :
    (state.mapHost map).values = state.values := rfl

@[simp] theorem number?_mapHost (map : σ → τ) (state : State σ) (name : Name) :
    (state.mapHost map).number? name = state.number? name := rfl

@[simp] theorem call?_mapHost (map : σ → τ) (state : State σ) :
    (state.mapHost map).call? = state.call? := rfl

/-! ## Instructions that make no call -/

section Memory

variable (map : σ → τ) (state : State σ) (rest : List Instr)

theorem loadFrom_mapHost (result : Name) (width : Width) (address : Name) :
    (state.mapHost map).loadFrom rest result width address =
      (state.loadFrom rest result width address).mapHost map := by
  obtain ⟨code, values, slot, tape, host⟩ := state
  simp only [loadFrom, mapHost]
  cases values[address]? with
  | none => rfl
  | some value =>
    cases value with
    | number residue => rfl
    | slotAddress => cases width <;> rfl
    | cellAddress index =>
      cases width with
      | byte => cases htape : tape[index]? <;> simp only [htape] <;> rfl
      | _ => rfl

theorem storeTo_mapHost (width : Width) (value : Nat) (address : Name) :
    (state.mapHost map).storeTo rest width value address =
      (state.storeTo rest width value address).mapHost map := by
  obtain ⟨code, values, slot, tape, host⟩ := state
  simp only [storeTo, mapHost]
  cases values[address]? with
  | none => rfl
  | some held =>
    cases held with
    | number residue => rfl
    | slotAddress => cases width <;> rfl
    | cellAddress index =>
      cases width with
      | byte =>
        by_cases hindex : index < tape.size
        · simp [hindex, Step.mapHost, mapHost]
        · simp [hindex, Step.mapHost]
      | _ => rfl

theorem addressOf_mapHost (result base index : Name) :
    (state.mapHost map).addressOf rest result base index =
      (state.addressOf rest result base index).mapHost map := by
  simp only [addressOf, number?_mapHost, values_mapHost]
  cases state.values[base]? with
  | none => rfl
  | some held =>
    cases held with
    | number residue => rfl
    | slotAddress => rfl
    | cellAddress start =>
      cases state.number? index with
      | none => rfl
      | some offset =>
        dsimp only
        by_cases hbound : start + offset < state.tape.size
        · have hbound' : start + offset < (state.mapHost map).tape.size := hbound
          rw [if_pos hbound, if_pos hbound']
          rfl
        · have hbound' : ¬ start + offset < (state.mapHost map).tape.size := hbound
          rw [if_neg hbound, if_neg hbound']
          rfl

theorem enter_mapHost (function : Function) (block : Nat) :
    (state.mapHost map).enter function block = (state.enter function block).mapHost map := by
  unfold enter
  cases function.blocks[block]? <;> rfl

end Memory

/-! ## Steps and runs -/

variable [Host σ] [Host τ] {map : σ → τ}

/-- An instruction that makes no call does the same in every world. -/
theorem step_mapHost_of_silent (map : σ → τ) (function : Function) {state : State σ}
    (h : state.call? = none) :
    (state.mapHost map).step function = (state.step function).mapHost map := by
  obtain ⟨code, values, slot, tape, host⟩ := state
  cases code with
  | nil => rfl
  | cons instr rest =>
    generalize hstate : State.mk (instr :: rest) values slot tape host = state at h
    have hcode : (state.mapHost map).code = instr :: rest ∧ state.code = instr :: rest := by
      rw [← hstate]
      exact ⟨rfl, rfl⟩
    simp only [step, hcode]
    cases instr with
    | reserve result => rfl
    | load result width address => exact loadFrom_mapHost map state rest result width address
    | store width value address =>
      cases value with
      | literal value => exact storeTo_mapHost map state rest width _ address
      | named name =>
        simp only [execute, number?_mapHost]
        cases state.number? name with
        | none => rfl
        | some value => exact storeTo_mapHost map state rest width value address
    | element result base index => exact addressOf_mapHost map state rest result base index
    | arithmetic result operation width left right =>
      simp only [execute, number?_mapHost]
      cases state.number? left <;> rfl
    | compare result comparison width left right =>
      simp only [execute, number?_mapHost]
      cases state.number? left <;> rfl
    | truncate result name =>
      simp only [execute, number?_mapHost]
      cases state.number? name <;> rfl
    | put result name =>
      -- nothing is put only if there is nothing to put
      have hnone : state.number? name = none := by simpa [call?, hcode] using h
      simp only [execute, number?_mapHost, hnone]
      rfl
    | get result => simp [call?, hcode] at h
    | branch condition ifTrue ifFalse =>
      simp only [execute, number?_mapHost]
      cases state.number? condition with
      | none => rfl
      | some value => exact enter_mapHost map state function _
    | ret value => rfl

/-- An instruction that makes a call does the same in another world if the call is answered alike
there. -/
theorem step_mapHost_of_call {map' : σ → τ} (function : Function) {state : State σ}
    {call : HostCall} (h : state.call? = some call)
    (hanswer : call.AnsweredAlike map map' state.host) :
    (state.mapHost map).step function = (state.step function).mapHost map' := by
  obtain ⟨code, values, slot, tape, host⟩ := state
  unfold call? at h
  split at h
  next result name rest hcode =>
    obtain ⟨value, hvalue, rfl⟩ := Option.map_eq_some_iff.mp h
    obtain rfl : code = _ := hcode
    have hvalue' : (State.mk (.put result name :: rest) values slot tape (map host)).number? name =
        some value := hvalue
    have hput : Host.putByte (UInt8.ofNat value) (map host) = _ := hanswer
    simp only [step, mapHost, execute, hvalue, hvalue', hput]
    rfl
  next result rest hcode =>
    obtain rfl := Option.some.inj h
    obtain rfl : code = _ := hcode
    have hget : Host.getByte (map host) = _ := hanswer
    simp only [step, mapHost, execute, hget]
    rfl
  next => cases h

/-- A step in another world is the same step. -/
theorem step_mapHost (h : Host.Hom map) (function : Function) (state : State σ) :
    (state.mapHost map).step function = (state.step function).mapHost map := by
  cases hcall : state.call? with
  | none => exact step_mapHost_of_silent map function hcall
  | some call => exact step_mapHost_of_call function hcall (h.answeredAlike call state.host)

/-- A run in another world is the same run. -/
theorem run_mapHost (h : Host.Hom map) (function : Function) (limit : Nat) (state : State σ) :
    (state.mapHost map).run function limit = (state.run function limit).mapHost map := by
  induction limit generalizing state with
  | zero => rfl
  | succ limit ih =>
    rw [run, run, step_mapHost h]
    cases state.step function with
    | running next => exact ih next
    | returned value tape host => rfl
    | stuck reason host => rfl

/-- The calls of a run in another world are the same, each made in the other world. -/
theorem calls_mapHost (h : Host.Hom map) (function : Function) (limit : Nat) (state : State σ) :
    (state.mapHost map).calls function limit =
      (state.calls function limit).map fun (call, host) => (call, map host) := by
  induction limit generalizing state with
  | zero => rfl
  | succ limit ih =>
    rw [calls, calls, step_mapHost h, call?_mapHost, List.map_append]
    congr 1
    · cases state.call? <;> rfl
    · cases state.step function with
      | running next => exact ih next
      | returned value tape host => rfl
      | stuck reason host => rfl

end State

end Brainfuck.Ir
