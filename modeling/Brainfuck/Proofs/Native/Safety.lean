import Brainfuck.Proofs.Native.Naming
import Brainfuck.Proofs.Native.Point
import Brainfuck.Proofs.Native.Streams
import Brainfuck.Stream.Scripted

/-! # Compiled code is safe

Whatever its calls reply, the compiled function stays inside the tape, computes exactly with the
data pointer, and never gets stuck. Where it returns, the word tells why: the program has ended, a
move would have left the tape, or the last call failed, which was the first to do so. So a native
run always finds the instruction and the failure that a returned word stands for.

Main definitions: `HostCall.Fails`, `Verdict`, `Guarded`, `Explained`. Main statement:
`guarded_compile`. -/

namespace Brainfuck.Native

open Ir Build

/-! ## The instruction that a result was emitted for -/

namespace Builder.Named

variable {reserved : List Name} {builder : Builder}

/-- The results of a block are distinct. -/
theorem nodup_results (h : builder.Named reserved) (block : Nat) :
    (results (builder.code block)).Nodup := by
  have hgiven := (List.nodup_append.mp h.distinct).2.1
  unfold Builder.code
  split
  next openBlock hblock =>
    have hmem : openBlock ∈ builder.blocks.toList :=
      Array.mem_toList_iff.mpr (Array.mem_of_getElem? hblock)
    exact (List.nodup_cons.mp ((List.pairwise_flatMap.mp hgiven).1 openBlock hmem)).2
  next => exact List.nodup_nil

/-- A name is a result of one block only. -/
theorem block_unique (h : builder.Named reserved) {first second : Nat} {name : Name}
    (hfirst : name ∈ results (builder.code first))
    (hsecond : name ∈ results (builder.code second)) : first = second := by
  have hgiven := (List.nodup_append.mp h.distinct).2.1
  have hpairwise := List.pairwise_iff_getElem.mp (List.pairwise_flatMap.mp hgiven).2
  -- a block that defines something is one of the blocks
  have hplace {block : Nat} (hname : name ∈ results (builder.code block)) :
      ∃ hlt : block < builder.blocks.toList.length,
        name ∈ (builder.blocks.toList[block]).names := by
    unfold Builder.code at hname
    split at hname
    next openBlock hblock =>
      obtain ⟨hlt, rfl⟩ := Array.getElem?_eq_some_iff.mp hblock
      exact ⟨by simpa using hlt, List.mem_cons_of_mem _ hname⟩
    next => cases hname
  obtain ⟨hlt, hname⟩ := hplace hfirst
  obtain ⟨hlt', hname'⟩ := hplace hsecond
  rcases Nat.lt_trichotomy first second with hless | heq | hless
  · exact absurd rfl (hpairwise first second hlt hlt' hless name hname name hname')
  · exact heq
  · exact absurd rfl (hpairwise second first hlt' hlt hless name hname' name hname)

end Builder.Named

section Emits

variable {program : LinkedProgram} {size : Int}

theorem named_stage (program : LinkedProgram) (size : Int) (count : Nat) :
    (stage program size count).Named [frame.tape] :=
  carries_instructions (Builder.stable_named [frame.tape]) (Builder.carries_named_declare _) frame
    size 0 _ _ named_entryBuilder

theorem extends_stage {first second : Nat} (h : first ≤ second) :
    (stage program size first).Extends (stage program size second) := by
  induction h with
  | refl => exact .refl _
  | @step second _ ih =>
    refine ih.trans ?_
    cases hentry : program.instructions[second]? with
    | none =>
      have hsize : program.size ≤ second := Array.getElem?_eq_none_iff.mp hentry
      rw [Nat.succ_eq_add_one, stage_of_size_le size hsize,
        stage_of_size_le size (Nat.le_succ_of_le hsize)]
      exact .refl _
    | some entry =>
      rw [Nat.succ_eq_add_one, stage_succ size hentry]
      exact (sound_instruction (sound_stage program size second) size second entry).2

/-- An instruction with a result is emitted for no later instruction of the program again. -/
theorem Emits.not_lt {first second : Nat} {instr : Instr} {name : Name}
    (h : Emits program size first instr) (h' : Emits program size second instr)
    (hresult : instr.result? = some name) : ¬ first < second := by
  intro hlt
  obtain ⟨block, hinstr⟩ := h
  obtain ⟨block', hinstr'⟩ := h'
  have hnamed := named_stage program size (second + 1)
  have hnext : (stage program size second).Extends (stage program size (second + 1)) :=
    extends_stage (Nat.le_succ second)
  have hresults (block : Nat) : results ((stage program size (second + 1)).code block) =
      results ((stage program size second).code block) ++
        results ((stage program size second).since (stage program size (second + 1)) block) := by
    rw [hnext.code_eq, results, List.filterMap_append]
    rfl
  -- the first emission came before the second instruction of the program
  have hearlier : name ∈ results ((stage program size second).code block) := by
    refine mem_results.mpr ⟨instr, ?_, hresult⟩
    exact ((extends_stage hlt).code block).subset (List.mem_of_mem_drop hinstr)
  have hlater : name ∈ results ((stage program size second).since
      (stage program size (second + 1)) block') :=
    mem_results.mpr ⟨instr, hinstr', hresult⟩
  have hsame : block = block' := by
    apply hnamed.block_unique
    · exact hresults block ▸ List.mem_append_left _ hearlier
    · exact hresults block' ▸ List.mem_append_right _ hlater
  subst hsame
  have hnodup := hnamed.nodup_results block
  rw [hresults] at hnodup
  exact (List.nodup_append.mp hnodup).2.2 name hearlier name hlater rfl

/-- A call is made by one instruction of the program only. -/
theorem MadeBy.unique {σ : Type} {first second : Nat} {caller : State σ}
    (h : MadeBy program size first caller) (h' : MadeBy program size second caller)
    (hcall : caller.call?.isSome) : first = second := by
  obtain ⟨instr, rest, hcode, hemits⟩ := h
  obtain ⟨instr', rest', hcode', hemits'⟩ := h'
  rw [hcode, List.cons.injEq] at hcode'
  obtain ⟨rfl, rfl⟩ := hcode'
  -- an instruction that calls has a result
  have hresult : ∃ name, instr.result? = some name := by
    unfold State.call? at hcall
    rw [hcode] at hcall
    cases instr <;> simp_all [Instr.result?]
  obtain ⟨name, hname⟩ := hresult
  have hle := hemits.not_lt hemits' hname
  have hge := hemits'.not_lt hemits hname
  omega

end Emits

/-! ## What a returned word tells -/

section Verdict

variable {σ : Type} [Host σ] {source : Program} {program : LinkedProgram} {size : Nat} {word : Int}
  {visited : List (State σ)}

/-- No call was made that failed. -/
def Quiet (visited : List (State σ)) : Prop := ∀ state ∈ visited, ¬ state.Fails

/-- Some calls failed exactly if some of the states in which calls were made did. -/
theorem quiet_iff : Quiet visited ↔ ∀ entry ∈ State.made visited, ¬ entry.1.Fails entry.2 := by
  constructor
  · intro h entry hentry
    obtain ⟨state, hstate, hmade⟩ := List.mem_filterMap.mp hentry
    obtain ⟨call, hcall, rfl⟩ := Option.map_eq_some_iff.mp hmade
    intro hfails
    exact h state hstate ⟨call, hcall, hfails⟩
  · rintro h state hstate ⟨call, hcall, hfails⟩
    refine h (call, state.host) (List.mem_filterMap.mpr ⟨state, hstate, ?_⟩) hfails
    rw [hcall]
    rfl

/-- The last call was made by the instruction at an index; it failed, and no earlier one did. -/
def LastFails (program : LinkedProgram) (size : Int) (index : Nat) (visited : List (State σ)) :
    Prop :=
  ∃ earlier caller, State.callers visited = earlier ++ [caller] ∧
    MadeBy program size index caller ∧ caller.Fails ∧ Quiet earlier

/-- Why a compiled function returns a word, after the states it has visited. -/
inductive Verdict (program : LinkedProgram) (size : Int) (visited : List (State σ)) : Int → Prop
    where
  /-- The last instruction was that behind the end of the program. -/
  | finished {last : State σ} (hlast : visited.getLast? = some last)
      (hcode : last.code = codeFrom program size program.size) (hquiet : Quiet visited) :
      Verdict program size visited noFault
  /-- A move would have left the tape. -/
  | moved {index : Nat} {entry : Linked} (hentry : program.instructions[index]? = some entry)
      (hop : entry.op = .right ∨ entry.op = .left) (hquiet : Quiet visited) :
      Verdict program size visited index
  /-- A call failed, and it was the last one. -/
  | called {index : Nat} {entry : Linked} (hentry : program.instructions[index]? = some entry)
      (hop : entry.op = .output ∨ entry.op = .input)
      (hfails : LastFails program size index visited) : Verdict program size visited index

/-- What comes before does not matter if no call failed there. -/
theorem Verdict.append {seen : List (State σ)} (h : Verdict program size visited word)
    (hseen : Quiet seen) : Verdict program size (seen ++ visited) word := by
  cases h with
  | finished hlast hcode hquiet =>
    refine .finished ?_ hcode (List.forall_mem_append.mpr ⟨hseen, hquiet⟩)
    rw [List.getLast?_append, hlast]
    rfl
  | moved hentry hop hquiet =>
    exact .moved hentry hop (List.forall_mem_append.mpr ⟨hseen, hquiet⟩)
  | called hentry hop hfails =>
    obtain ⟨earlier, caller, hcallers, hmade, hfailed, hquiet⟩ := hfails
    refine .called hentry hop ⟨State.callers seen ++ earlier, caller, ?_, hmade, hfailed, ?_⟩
    · rw [State.callers, List.filter_append, List.append_assoc]
      exact congrArg _ hcallers
    · refine List.forall_mem_append.mpr ⟨fun state hstate => ?_, hquiet⟩
      exact hseen state (List.mem_filter.mp hstate).1

/-! ## Runs from a point -/

variable {point : Point σ} {made : List (HostCall × σ)} {values : Std.HashMap Name Value}

/-- A point that leads to another one makes no call that fails. -/
theorem Point.Advances.not_fails {next : Point σ} (h : point.Advances program made (.point next)) :
    ∀ entry ∈ made, ¬ entry.1.Fails entry.2 := by
  cases h with
  | output _ _ _ accepted => simpa [HostCall.Fails] using accepted
  | input _ _ _ given => simpa [HostCall.Fails] using given
  | _ => simp

omit [Host σ] in
/-- Where one call was made, there is one state in which it was. -/
theorem exists_callers_eq_singleton {call : HostCall} {host : σ}
    (h : State.made (State.callers visited) = [(call, host)]) :
    ∃ caller, State.callers visited = [caller] ∧ caller.call? = some call ∧ caller.host = host := by
  have hsome : ∀ state ∈ State.callers visited, state.call?.isSome := fun state hstate =>
    (List.mem_filter.mp hstate).2
  generalize State.callers visited = calling at h hsome
  -- every caller makes a call, so there are as many of them as calls
  cases calling with
  | nil => cases h
  | cons caller others =>
    obtain ⟨made, hmade⟩ := Option.isSome_iff_exists.mp (hsome caller List.mem_cons_self)
    simp only [State.made, List.filterMap_cons, hmade, Option.map_some, List.cons.injEq,
      Prod.mk.injEq] at h
    obtain ⟨⟨rfl, rfl⟩, hothers⟩ := h
    cases others with
    | nil => exact ⟨caller, rfl, hmade, rfl⟩
    | cons other rest =>
      obtain ⟨made', hmade'⟩ := Option.isSome_iff_exists.mp
        (hsome other (List.mem_cons_of_mem _ List.mem_cons_self))
      simp [hmade'] at hothers

/-- Where a point leads to the end, the word tells why. -/
theorem Point.Advances.verdict {tape : Array UInt8} {host : σ} {size : Int}
    (h : point.Advances program made (.returned word tape host))
    (hmade : State.made (State.callers visited) = made)
    (hmadeBy : ∀ caller ∈ State.callers visited, MadeBy program size point.index caller)
    (hlast : program.instructions[point.index]? = none →
      ∃ last, visited.getLast? = some last ∧ last.code = codeFrom program size point.index) :
    Verdict program size visited word := by
  have hquiet (hnone : made = []) : Quiet visited := by
    rw [quiet_iff, ← State.made_callers, hmade, hnone]
    simp
  have hfails {call : HostCall} (hone : made = [(call, point.host)])
      (hcall : call.Fails point.host) : LastFails program size point.index visited := by
    obtain ⟨caller, hcaller, hasks, hhost⟩ := exists_callers_eq_singleton (hmade.trans hone)
    refine ⟨[], caller, hcaller, hmadeBy caller (by simp [hcaller]), ⟨call, hasks, ?_⟩, by
      simp [Quiet]⟩
    rw [hhost]
    exact hcall
  cases h with
  | finished ended =>
    obtain ⟨last, hgetLast, hcode⟩ := hlast ended
    refine .finished hgetLast ?_ (hquiet rfl)
    rw [hcode, codeFrom, codeFrom, stage_of_size_le size (Array.getElem?_eq_none_iff.mp ended)]
  | tooHigh entry op => exact .moved entry (.inl op) (hquiet rfl)
  | tooLow entry op => exact .moved entry (.inr op) (hquiet rfl)
  | outputFault entry op _ refused => exact .called entry (.inl op) (hfails rfl refused)
  | inputFault entry op missing =>
    exact .called entry (.inr op) (hfails rfl (Int.not_le.mp missing))

/-- From every point the compiled function goes on safely, and a word that it returns tells why. -/
theorem safe_and_verdict_of_point (hlink : source.link = .ok program)
    (hsize : size < Nat.pow 2 64) (limit : Nat) (hinside : point.Inside size)
    (hframed : Framed values) :
    let state := point.state (codeFrom program size) values
    (∀ visited ∈ state.visited (compile program size).function limit, visited.Safe size) ∧
      ((∃ next, state.run (compile program size).function limit = .running next) ∨
        ∃ word tape host,
          state.run (compile program size).function limit = .returned word tape host ∧
          Verdict program size (state.visited (compile program size).function limit) word) := by
  induction limit using Nat.strongRecOn generalizing point values with
  | ind limit ih =>
    -- one instruction of the program at a time: the rest of the run begins where its course ends
    obtain ⟨made, arrival, hadvances⟩ := hinside.exists_advances hlink
    obtain ⟨calling, last, hcourse, hcomes, hmade, hmadeBy⟩ :=
      exists_course_of_advances hlink hsize hinside hframed hadvances
    cases arrival with
    | point next =>
      obtain ⟨values', hframed', rfl⟩ := hcomes
      obtain ⟨hrunning, hsafe⟩ | ⟨seen, more, hmore, hrun, hvisited, hsafe, hcalling⟩ :=
        hcourse.running_or_after limit
      · exact ⟨hsafe, .inl hrunning⟩
      · obtain ⟨hsafe', hrest⟩ := ih more hmore (hinside.advances hadvances) hframed'
        have hquiet : Quiet seen := by
          rw [quiet_iff, ← State.made_callers, hcalling, hmade]
          exact hadvances.not_fails
        simp only [hrun, hvisited]
        refine ⟨List.forall_mem_append.mpr ⟨hsafe, hsafe'⟩, hrest.imp_right ?_⟩
        rintro ⟨word, tape, host, hreturned, hverdict⟩
        exact ⟨word, tape, host, hreturned, hverdict.append hquiet⟩
    | returned word tape host =>
      subst hcomes
      rcases hcourse.running_or_returned limit with ⟨hsafe, hrunning | ⟨hrun, hcalling⟩⟩
      · exact ⟨hsafe, .inl hrunning⟩
      · refine ⟨hsafe, .inr ⟨word, tape, host, hrun, hadvances.verdict ?_ ?_ ?_⟩⟩
        · rw [hcalling, hmade]
        · rw [hcalling]
          exact hmadeBy
        · -- behind the end of the program there is nothing but a return
          intro ended
          obtain ⟨others, hcode⟩ :
              ∃ others, codeFrom program size point.index = [.ret noFault] ++ others :=
            exists_codeFrom_of_size_le (Array.getElem?_eq_none_iff.mp ended)
          cases limit with
          | zero => cases hrun
          | succ limit =>
            refine ⟨point.state (codeFrom program size) values, ?_, rfl⟩
            simp only [State.visited, State.step, Point.state, hcode]
            rfl

/-- A compiled function goes on safely from its start, and a word that it returns tells why. -/
theorem safe_and_verdict_start (hlink : source.link = .ok program) (hpositive : 0 < size)
    (hsize : size < Nat.pow 2 64) {tape : Array UInt8} (htape : tape.size = size) (host : σ)
    (limit : Nat) :
    let start := (compile program size).function.start tape host
    (∀ visited ∈ start.visited (compile program size).function limit, visited.Safe size) ∧
      ((∃ next, start.run (compile program size).function limit = .running next) ∨
        ∃ word tape' host',
          start.run (compile program size).function limit = .returned word tape' host' ∧
          Verdict program size (start.visited (compile program size).function limit) word) := by
  obtain ⟨values, hframed, hcourse⟩ := exists_course_start program htape hpositive host
  obtain ⟨hrunning, hsafe⟩ | ⟨seen, more, -, hrun, hvisited, hsafe, hcalling⟩ :=
    hcourse.running_or_after limit
  · exact ⟨hsafe, .inl hrunning⟩
  · have hinside : (⟨0, 0, tape, host⟩ : Point σ).Inside size := ⟨htape, hpositive⟩
    obtain ⟨hsafe', hrest⟩ := safe_and_verdict_of_point hlink hsize more hinside hframed
    have hquiet : Quiet seen := by
      rw [quiet_iff, ← State.made_callers, hcalling]
      simp [State.made]
    simp only [hrun, hvisited]
    refine ⟨List.forall_mem_append.mpr ⟨hsafe, hsafe'⟩, hrest.imp_right ?_⟩
    rintro ⟨word, tape, host, hreturned, hverdict⟩
    exact ⟨word, tape, host, hreturned, hverdict.append hquiet⟩

/-! ## Any replies -/

/-- A returned word is accounted for by the program and by the calls that were made. -/
structure Accounted (program : LinkedProgram) (size : Int) (visited : List (State σ)) (word : Int) :
    Prop where
  /-- The last instruction was that behind the end of the program, or the word is the index of an
  instruction that can fault. -/
  reason : (word = noFault ∧ ∃ last, visited.getLast? = some last ∧
      last.code = codeFrom program size program.size) ∨
    ∃ (index : Nat) (entry : Linked), word = index ∧ program.instructions[index]? = some entry ∧
      (entry.op = .right ∨ entry.op = .left ∨ entry.op = .output ∨ entry.op = .input)
  /-- The word is the index of an instruction that calls exactly if its call was the last and the
  first to fail. -/
  call : ∀ (index : Nat) (entry : Linked), program.instructions[index]? = some entry →
    entry.op = .output ∨ entry.op = .input →
      (word = index ↔ LastFails program size index visited)

theorem Verdict.accounted {size : Int} (h : Verdict program size visited word) :
    Accounted program size visited word := by
  -- where a call failed, its state was visited
  have hloud {index : Nat} (hfails : LastFails program size index visited) : ¬ Quiet visited := by
    obtain ⟨earlier, caller, hcallers, -, hfailed, -⟩ := hfails
    have hmem : caller ∈ State.callers visited := by simp [hcallers]
    intro hquiet
    exact hquiet caller (List.mem_filter.mp hmem).1 hfailed
  cases h with
  | finished hlast hcode hquiet =>
    refine ⟨.inl ⟨rfl, _, hlast, hcode⟩, fun index entry hentry hop => ?_⟩
    refine ⟨fun hword => ?_, fun hfails => absurd hquiet (hloud hfails)⟩
    simp only [noFault] at hword
    omega
  | @moved index entry hentry hop hquiet =>
    refine ⟨.inr ⟨index, entry, rfl, hentry, ?_⟩, fun index' entry' hentry' hop' => ?_⟩
    · exact hop.elim .inl fun hleft => .inr (.inl hleft)
    · refine ⟨fun hword => ?_, fun hfails => absurd hquiet (hloud hfails)⟩
      rw [Int.ofNat_inj.mp hword, hentry', Option.some.injEq] at hentry
      subst hentry
      obtain hop | hop := hop <;> simp [hop] at hop'
  | @called index entry hentry hop hfails =>
    refine ⟨.inr ⟨index, entry, rfl, hentry, .inr (.inr hop)⟩, fun index' entry' hentry' hop' => ?_⟩
    refine ⟨fun hword => Int.ofNat_inj.mp hword ▸ hfails, fun hfails' => ?_⟩
    obtain ⟨earlier, caller, hcallers, hmade, ⟨call, hcall, -⟩, -⟩ := hfails
    obtain ⟨earlier', caller', hcallers', hmade', -⟩ := hfails'
    -- both are about the last call
    rw [hcallers] at hcallers'
    obtain rfl : caller = caller' := by
      have := (List.append_inj' hcallers' rfl).2
      simpa using this
    rw [hmade.unique hmade' (by simp [hcall])]

/-- A compiled function is safe in every state that it can come to, never gets stuck, and returns
nothing but a word that is accounted for. -/
structure Guarded (program : LinkedProgram) (size : Nat) (tape : Array UInt8) (host : σ) : Prop
    where
  /-- Every state that it can come to is safe. -/
  safe : ∀ limit state, ((compile program size).function.start tape host).run
    (compile program size).function limit = .running state → state.Safe size
  /-- It does not get stuck. -/
  ne_stuck : ∀ limit reason host', ((compile program size).function.start tape host).run
    (compile program size).function limit ≠ .stuck reason host'
  /-- A word that it returns is accounted for. -/
  returned : ∀ limit word tape' host', ((compile program size).function.start tape host).run
    (compile program size).function limit = .returned word tape' host' →
      Accounted program size (((compile program size).function.start tape host).visited
        (compile program size).function limit) word

theorem guarded_of_link (hlink : source.link = .ok program) (hpositive : 0 < size)
    (hsize : size < Nat.pow 2 64) {tape : Array UInt8} (htape : tape.size = size) (host : σ) :
    Guarded program size tape host where
  safe limit state hstate := by
    obtain ⟨hsafe, -⟩ := safe_and_verdict_start hlink hpositive hsize htape host (limit + 1)
    refine hsafe state ?_
    rw [State.visited_add hstate]
    refine List.mem_append_right _ ?_
    rw [State.visited]
    exact List.mem_cons_self
  ne_stuck limit reason host' hstuck := by
    obtain ⟨-, ⟨next, hrun⟩ | ⟨_, _, _, hrun, -⟩⟩ :=
      safe_and_verdict_start hlink hpositive hsize htape host limit
    · rw [hrun] at hstuck
      cases hstuck
    · rw [hrun] at hstuck
      cases hstuck
  returned limit word tape' host' hreturned := by
    obtain ⟨-, ⟨next, hrun⟩ | ⟨_, _, _, hrun, hverdict⟩⟩ :=
      safe_and_verdict_start hlink hpositive hsize htape host limit
    · rw [hrun] at hreturned
      cases hreturned
    · rw [hrun, Step.returned.injEq] at hreturned
      exact hreturned.1 ▸ hverdict.accounted

end Verdict

/-! ## Native runs -/

section Native

variable {ι ο : Type} [InputStream ι] [OutputStream ο] {source : Program} {program : LinkedProgram}
  {size : Nat}

/-- The failure that a call ends with. -/
def CallLog.failure? (call : HostCall) (log : CallLog ι ο) : Option Failure :=
  match call with
  | .put byte =>
    match (OutputStream.writeByte byte.toNat log.console.output).1 with
    | .ok _ => none
    | .error failure => some failure
  | .get =>
    match (InputStream.readByte log.console.input).1 with
    | .ok _ => none
    | .error failure => some failure

/-- A call that fails is kept, and its reply reports it. -/
theorem CallLog.failure?_cases (call : HostCall) (log : CallLog ι ο) :
    (log.failure? call = none ∧ ¬ call.Fails log ∧ (call.after log).failures = log.failures) ∨
      ∃ failure, log.failure? call = some failure ∧ call.Fails log ∧
        (call.after log).failures = failure :: log.failures := by
  cases call with
  | put byte =>
    rcases log.putByte_cases byte with ⟨after, hwrite, hput⟩ | ⟨failure, after, hwrite, hput⟩
    · refine .inl ⟨?_, ?_, ?_⟩
      · unfold CallLog.failure?
        dsimp only
        rw [hwrite]
      · simp only [HostCall.Fails, hput]
        decide
      · rw [HostCall.after, hput]
    · refine .inr ⟨failure, ?_, ?_, ?_⟩
      · unfold CallLog.failure?
        dsimp only
        rw [hwrite]
      · simp only [HostCall.Fails, hput]
        decide
      · rw [HostCall.after, hput]
  | get =>
    rcases log.getByte_cases with ⟨byte, after, hread, hget⟩ | ⟨failure, after, hread, hget⟩
    · refine .inl ⟨?_, ?_, ?_⟩
      · unfold CallLog.failure?
        dsimp only
        rw [hread]
      · rw [HostCall.Fails, hget]
        exact Int.not_lt.mpr (signed_residue_reply_nonneg byte)
      · rw [HostCall.after, hget]
    · refine .inr ⟨failure, ?_, ?_, ?_⟩
      · unfold CallLog.failure?
        dsimp only
        rw [hread]
      · simp only [HostCall.Fails, hget]
        decide
      · rw [HostCall.after, hget]

/-- The failures of some calls, the last one first. -/
def failures (made : List (HostCall × CallLog ι ο)) : List Failure :=
  (made.filterMap fun (call, log) => log.failure? call).reverse

theorem failures_append (first second : List (HostCall × CallLog ι ο)) :
    failures (first ++ second) = failures second ++ failures first := by
  rw [failures, List.filterMap_append, List.reverse_append]
  rfl

/-- The failures that a run keeps are those of its calls. -/
theorem failures_run (function : Function) (limit : Nat) (state : State (CallLog ι ο)) :
    (state.run function limit).host.failures =
      failures (State.made (state.visited function limit)) ++ state.host.failures := by
  induction limit generalizing state with
  | zero => rfl
  | succ limit ih =>
    have hstep : (state.step function).host.failures =
        failures (State.made [state]) ++ state.host.failures := by
      rw [State.host_step]
      cases hcall : state.call? with
      | none => simp [State.made, hcall, failures]
      | some call =>
        rcases state.host.failure?_cases call with ⟨hnone, -, hkept⟩ | ⟨failure, hsome, -, hkept⟩
        · simp [State.made, hcall, failures, hnone, hkept]
        · simp [State.made, hcall, failures, hsome, hkept]
    -- the step makes its call, and the rest of the run starts with what it keeps
    rw [State.run, State.visited]
    cases hnext : state.step function with
    | running next =>
      rw [hnext] at hstep
      have hmade : State.made (state :: next.visited function limit) =
          State.made [state] ++ State.made (next.visited function limit) := by
        rw [State.made, State.made, State.made, ← List.filterMap_append]
        rfl
      rw [hmade, failures_append, List.append_assoc, ← hstep]
      exact ih next
    | returned word tape log =>
      rw [hnext] at hstep
      exact hstep
    | stuck reason log =>
      rw [hnext] at hstep
      exact hstep

/-- No failure is kept where no call failed. -/
theorem failures_of_quiet {visited : List (State (CallLog ι ο))} (h : Quiet visited) :
    failures (State.made visited) = [] := by
  rw [failures, List.reverse_eq_nil_iff, List.filterMap_eq_nil_iff]
  rintro ⟨call, log⟩ hentry
  rcases log.failure?_cases call with ⟨hnone, -⟩ | ⟨failure, -, hfails, -⟩
  · exact hnone
  · exact absurd hfails (quiet_iff.mp h _ hentry)

/-- Where only the last call failed, its failure is kept and no other. -/
theorem exists_failures_eq_singleton {visited earlier : List (State (CallLog ι ο))}
    {caller : State (CallLog ι ο)} (hcallers : State.callers visited = earlier ++ [caller])
    (hquiet : Quiet earlier) (hfails : caller.Fails) :
    ∃ call failure, caller.call? = some call ∧ caller.host.failure? call = some failure ∧
      failures (State.made visited) = [failure] := by
  obtain ⟨call, hcall, hfailed⟩ := hfails
  rcases caller.host.failure?_cases call with ⟨-, hnot, -⟩ | ⟨failure, hfailure, -, -⟩
  · exact absurd hfailed hnot
  · refine ⟨call, failure, hcall, hfailure, ?_⟩
    have hmade : State.made visited = State.made earlier ++ [(call, caller.host)] := by
      rw [← State.made_callers, hcallers, State.made, List.filterMap_append]
      simp [State.made, hcall]
    rw [hmade, failures_append, failures_of_quiet hquiet]
    simp [failures, hfailure]

/-- A returned word is the index of an instruction. No failure was kept where that is a move; else
one was, which is that of the last call, made by the instruction. -/
def Found (program : LinkedProgram) (size : Int) (visited : List (State (CallLog ι ο)))
    (word : Int) (failures : List Failure) : Prop :=
  ∃ (index : Nat) (entry : Linked), word = index ∧ program.instructions[index]? = some entry ∧
    ((entry.op = .right ∨ entry.op = .left) ∧ failures = [] ∨
      (entry.op = .output ∨ entry.op = .input) ∧
        ∃ caller call failure, (State.callers visited).getLast? = some caller ∧
          MadeBy program size index caller ∧ caller.call? = some call ∧
          caller.host.failure? call = some failure ∧ failures = [failure])

/-- A word that is found to be the index of an instruction is explained by an error. -/
theorem Found.exists_explain_eq {size : Int} {visited : List (State (CallLog ι ο))} {word : Int}
    {failures : List Failure} (h : Found program size visited word failures) :
    ∃ error, explain program failures word = .raised error := by
  obtain ⟨index, entry, rfl, hentry, ⟨hop | hop, rfl⟩ |
    ⟨hop | hop, _, _, failure, -, -, -, -, rfl⟩⟩ := h
  · simp only [explain, Int.toNat_natCast, hentry, hop]
    exact ⟨_, rfl⟩
  · simp only [explain, Int.toNat_natCast, hentry, hop]
    exact ⟨_, rfl⟩
  · simp only [explain, Int.toNat_natCast, hentry, hop]
    split
    · exact ⟨_, rfl⟩
    · exact ⟨_, rfl⟩
  · simp only [explain, Int.toNat_natCast, hentry, hop]
    split
    · exact ⟨_, rfl⟩
    · exact ⟨_, rfl⟩

/-- A native run finds the instruction and the failure that a returned word stands for. -/
structure Explained (program : LinkedProgram) (size : Nat) (console : Console ι ο) : Prop where
  /-- A word that does not say that the program has ended is found to be the index of an
  instruction. -/
  found : ∀ limit word tape log, (start program size console).run
      (compile program size).function limit = .returned word tape log → word ≠ noFault →
    Found program size
      ((start program size console).visited (compile program size).function limit) word log.failures
  /-- The run does not get stuck. -/
  ne_stuck : ∀ limit reason, (run limit program size console).ending ≠ .stuck reason
  /-- The run does not end with a word that explains nothing. -/
  ne_unexplained : ∀ limit word, (run limit program size console).ending ≠ .unexplained word

section Explained

variable (hlink : source.link = .ok program) (hpositive : 0 < size) (hsize : size < Nat.pow 2 64)
  (console : Console ι ο)
include hlink hpositive hsize

/-- The failures kept when the function returns are those that the word tells of. -/
theorem found_of_returned {limit : Nat} {word : Int} {tape : Array UInt8} {log : CallLog ι ο}
    (h : (start program size console).run (compile program size).function limit =
      .returned word tape log) (hword : word ≠ noFault) :
    Found program size
      ((start program size console).visited (compile program size).function limit) word
      log.failures := by
  have hkept := failures_run (compile program size).function limit (start program size console)
  rw [h] at hkept
  -- no failure has been kept when the function starts
  have hfailures : log.failures = failures (State.made ((start program size console).visited
      (compile program size).function limit)) := hkept.trans (List.append_nil _)
  obtain ⟨-, ⟨next, hrun⟩ | ⟨_, _, _, hrun, hverdict⟩⟩ := safe_and_verdict_start hlink hpositive
    hsize (Array.size_replicate : (Array.replicate size (0 : UInt8)).size = size)
    (CallLog.mk (announced program size console) []) limit
  · rw [start, hrun] at h
    cases h
  · rw [start, hrun, Step.returned.injEq] at h
    obtain ⟨rfl, -, -⟩ := h
    cases hverdict with
    | finished => exact absurd rfl hword
    | @moved index entry hentry hop hquiet =>
      exact ⟨index, entry, rfl, hentry, .inl ⟨hop, hfailures.trans (failures_of_quiet hquiet)⟩⟩
    | @called index entry hentry hop hfails =>
      obtain ⟨earlier, caller, hcallers, hmade, hfailed, hquiet⟩ := hfails
      obtain ⟨call, failure, hcall, hfailure, hsingle⟩ :=
        exists_failures_eq_singleton hcallers hquiet hfailed
      refine ⟨index, entry, rfl, hentry, .inr ⟨hop, caller, call, failure, ?_, hmade, hcall,
        hfailure, hfailures.trans hsingle⟩⟩
      rw [start, hcallers, List.getLast?_concat]

/-- A native run of the code ends in one of the ways that a program can end. -/
theorem ending_conclude (limit : Nat) :
    let result := conclude program
      ((start program size console).run (compile program size).function limit)
    result.ending = .unfinished ∨ (∃ tape, result.ending = .finished tape) ∨
      ∃ error, result.ending = .raised error := by
  have hguarded : Guarded program size (Array.replicate size 0)
      (CallLog.mk (announced program size console) []) :=
    guarded_of_link hlink hpositive hsize Array.size_replicate _
  cases hrun : (start program size console).run (compile program size).function limit with
  | running next => exact .inl rfl
  | stuck reason log => exact absurd hrun (hguarded.ne_stuck limit reason log)
  | returned word tape log =>
    by_cases hword : word = noFault
    · exact .inr (.inl ⟨tape, by simp only [conclude, if_pos hword]⟩)
    · obtain ⟨error, herror⟩ :=
        (found_of_returned hlink hpositive hsize console hrun hword).exists_explain_eq
      exact .inr (.inr ⟨error, by simp only [conclude, if_neg hword, herror]⟩)

theorem explained_of_link : Explained program size console := by
  -- the tape is refused, or the run is that of the code
  have hending (limit : Nat) : (∃ error, (run limit program size console).ending = .refused error) ∨
      (run limit program size console).ending = (conclude program
        ((start program size console).run (compile program size).function limit)).ending := by
    have hrequested : requestedSize size = .ok size := by
      simp only [requestedSize]
      grind
    cases hallocated : checkAllocation size with
    | error error =>
      refine .inl ⟨error, ?_⟩
      simp only [run, hrequested, hallocated]
    | ok count =>
      have hcount : count = size := by
        unfold checkAllocation at hallocated
        grind
      subst hcount
      refine .inr (congrArg Result.ending (run_eq ?_ limit program console))
      rw [tapeSize, hrequested]
      exact hallocated
  refine ⟨fun limit word tape log => found_of_returned hlink hpositive hsize console, ?_, ?_⟩
  · intro limit reason hstuck
    have hconclude := ending_conclude hlink hpositive hsize console limit
    rcases hending limit with ⟨error, hrefused⟩ | heq
    · simp [hrefused] at hstuck
    · rw [heq] at hstuck
      simp [hstuck] at hconclude
  · intro limit word hunexplained
    have hconclude := ending_conclude hlink hpositive hsize console limit
    rcases hending limit with ⟨error, hrefused⟩ | heq
    · simp [hrefused] at hunexplained
    · rw [heq] at hunexplained
      simp [hunexplained] at hconclude

end Explained

/-- The code of a linked program is safe on every tape of the size it was compiled for, whatever its
calls reply; and a native run always finds what a returned word stands for. -/
theorem guarded_compile (hlink : source.link = .ok program) (hpositive : 1 ≤ size)
    (hsize : size < Nat.pow 2 63) :
    (∀ (σ : Type) [Host σ] (tape : Array UInt8) (host : σ), tape.size = size →
      Guarded program size tape host) ∧
    ∀ (ι ο : Type) [InputStream ι] [OutputStream ο] (console : Console ι ο),
      Explained program size console := by
  have hsize' : size < Nat.pow 2 64 := Nat.lt_trans hsize (by decide)
  refine ⟨?_, ?_⟩
  · intro σ _ tape host htape
    exact guarded_of_link hlink hpositive hsize' htape host
  · intro ι ο _ _ console
    exact explained_of_link hlink hpositive hsize' console

end Native

/-- A world that replies with the integers of a list, whatever it is asked. -/
structure Replies where
  /-- The replies still to come; after the last, the reply is zero. -/
  integers : List Int

instance : Host Replies where
  putByte _ replies := (replies.integers.headD 0, ⟨replies.integers.tail⟩)
  getByte replies := (replies.integers.headD 0, ⟨replies.integers.tail⟩)

/-- A program that reads, moves and writes, with replies that are no bytes. -/
theorem guarded_compile_replies :
    ∃ program, (Program.ofSource "shift.bf" [0x2c, 0x3e, 0x2e]).link = .ok program ∧
      Guarded program 2 #[7, 7] (Replies.mk [4294967297, -4294967295]) ∧
      Explained program 2 (⟨{ remaining := [72] }, {}, false, ""⟩ :
        Console ScriptedInput ScriptedOutput) := by
  have hlink : (Program.ofSource "shift.bf" [0x2c, 0x3e, 0x2e]).link = .ok _ := rfl
  obtain ⟨hguarded, hexplained⟩ := guarded_compile hlink (show 1 ≤ 2 by decide) (by decide)
  exact ⟨_, hlink, hguarded Replies #[7, 7] _ rfl, hexplained _ _ _⟩

end Brainfuck.Native
