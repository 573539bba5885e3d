import Brainfuck.Proofs.Pairing

/-! # Brackets without a partner

A program whose brackets are not balanced is refused for one bracket. If some beginning of it holds
more loop ends than loop starts, that is the loop end of the shortest such beginning, whatever else
is wrong. If none does, it is the last loop start that is never closed.

Both can be told from what stands around them, without any stack: what stands before the first
unopened loop end is balanced, and so is what stands after the last unclosed loop start. Balanced
groups that are put in or taken out elsewhere do not change that.

Main definitions: `Opened`, `Unclosed`, `Program.Names`, `Edited`, `Program.Blames`. Main statement:
`Program.exists_blames_of_not_balanced`. -/

namespace Brainfuck

/-! ## Beginnings that close no more than is open -/

/-- No beginning holds more loop ends than loop starts. -/
def Opened (instructions : List Instruction) : Prop :=
  ∀ count, ends (instructions.take count) ≤ starts (instructions.take count)

/-- No beginning closes more loops than it opens and the `depth` that were open before. -/
def OpenedFrom (depth : Nat) (instructions : List Instruction) : Prop :=
  ∀ count, ends (instructions.take count) ≤ depth + starts (instructions.take count)

theorem openedFrom_zero_iff {instructions : List Instruction} :
    OpenedFrom 0 instructions ↔ Opened instructions := by
  simp [OpenedFrom, Opened]

theorem OpenedFrom.mono {depth depth' : Nat} {instructions : List Instruction}
    (h : OpenedFrom depth instructions) (hle : depth ≤ depth') :
    OpenedFrom depth' instructions := by
  intro count
  have := h count
  omega

theorem starts_append (first second : List Instruction) :
    starts (first ++ second) = starts first + starts second :=
  List.countP_append

theorem ends_append (first second : List Instruction) :
    ends (first ++ second) = ends first + ends second :=
  List.countP_append

/-- The second of two lists is read from the depth that the first one leaves. -/
theorem openedFrom_append_iff {depth : Nat} {first second : List Instruction} :
    OpenedFrom depth (first ++ second) ↔
      OpenedFrom depth first ∧ OpenedFrom (depth + starts first - ends first) second := by
  constructor
  · intro h
    constructor
    · intro count
      have hfirst := h (min count first.length)
      rw [List.take_append_of_le_length (Nat.min_le_right _ _), ← List.take_take,
        List.take_length] at hfirst
      exact hfirst
    · intro count
      have hsecond := h (first.length + count)
      rw [List.take_length_add_append, starts_append, ends_append] at hsecond
      omega
  · rintro ⟨hfirst, hsecond⟩ count
    have hwhole := hfirst first.length
    rw [List.take_length] at hwhole
    rw [List.take_append, starts_append, ends_append]
    rcases Nat.le_total count first.length with hle | hle
    · have := hfirst count
      rw [Nat.sub_eq_zero_of_le hle, List.take_zero, starts_nil, ends_nil]
      omega
    · have := hsecond (count - first.length)
      rw [List.take_of_length_le hle]
      omega

theorem openedFrom_cons_iff {depth : Nat} {instruction : Instruction}
    {rest : List Instruction} :
    OpenedFrom depth (instruction :: rest) ↔
      ends [instruction] ≤ depth + starts [instruction] ∧
        OpenedFrom (depth + starts [instruction] - ends [instruction]) rest := by
  rw [← List.singleton_append, openedFrom_append_iff]
  constructor
  · rintro ⟨hfirst, hrest⟩
    exact ⟨hfirst 1, hrest⟩
  · rintro ⟨hfirst, hrest⟩
    refine ⟨?_, hrest⟩
    rintro (_ | count)
    · simp
    · simpa using hfirst

/-- A loop start between two lists adds nothing that would have to be opened. -/
theorem Opened.append_start {before after : List Instruction} {opener : Instruction}
    (hbefore : Opened before) (hs : opener.op = .loopStart) (hafter : Opened after) :
    Opened (before ++ opener :: after) := by
  rw [← openedFrom_zero_iff, openedFrom_append_iff, openedFrom_cons_iff]
  refine ⟨openedFrom_zero_iff.mpr hbefore, by simp [ends_cons, hs], ?_⟩
  exact (openedFrom_zero_iff.mpr hafter).mono (Nat.zero_le _)

/-- A search for the end of a loop fails exactly if no beginning of what follows closes it. -/
theorem distanceToEnd_eq_none_iff {depth : Nat} {instructions : List Instruction} :
    distanceToEnd depth instructions = none ↔ OpenedFrom depth instructions := by
  induction instructions generalizing depth with
  | nil => simp [distanceToEnd, OpenedFrom]
  | cons instruction rest ih =>
    rw [openedFrom_cons_iff, starts_cons, ends_cons]
    by_cases hs : instruction.op = .loopStart
    · simp [distanceToEnd_start hs, hs, ih]
    · by_cases he : instruction.op = .loopEnd
      · rw [distanceToEnd_end he]
        by_cases hdepth : depth = 0
        · simp [hdepth, he]
        · simp [hdepth, he, ih, Nat.one_le_iff_ne_zero]
      · obtain ⟨operation, hop⟩ := Primitive.exists_op_eq hs he
        obtain ⟨place, hplace⟩ := Cursor.exists_instruction_eq instruction
        rw [← hplace, ← hop, distanceToEnd_plain]
        simp [ih, operation.op_ne_loopStart, operation.op_ne_loopEnd]

/-! ## Balanced groups among other instructions -/

theorem balanced_iff {instructions : List Instruction} :
    Balanced instructions ↔ Opened instructions ∧ ends instructions = starts instructions :=
  Iff.rfl

/-- A balanced group among other instructions opens and closes no loop of theirs. -/
theorem openedFrom_insert_iff {group : List Instruction} (balanced : Balanced group) (depth : Nat)
    (before after : List Instruction) :
    OpenedFrom depth (before ++ group ++ after) ↔ OpenedFrom depth (before ++ after) := by
  have hgroup (depth : Nat) : OpenedFrom depth group :=
    (openedFrom_zero_iff.mpr balanced.1).mono (Nat.zero_le depth)
  have hdepth (depth : Nat) : depth + starts group - ends group = depth := by
    rw [balanced.2]
    omega
  rw [List.append_assoc, openedFrom_append_iff, openedFrom_append_iff, openedFrom_append_iff,
    hdepth]
  constructor
  · rintro ⟨hbefore, -, hafter⟩
    exact ⟨hbefore, hafter⟩
  · rintro ⟨hbefore, hafter⟩
    exact ⟨hbefore, hgroup _, hafter⟩

theorem opened_insert_iff {group : List Instruction} (balanced : Balanced group)
    (before after : List Instruction) :
    Opened (before ++ group ++ after) ↔ Opened (before ++ after) := by
  rw [← openedFrom_zero_iff, ← openedFrom_zero_iff, openedFrom_insert_iff balanced]

theorem balanced_insert_iff {group : List Instruction} (balanced : Balanced group)
    (before after : List Instruction) :
    Balanced (before ++ group ++ after) ↔ Balanced (before ++ after) := by
  rw [balanced_iff, balanced_iff, opened_insert_iff balanced]
  simp only [starts_append, ends_append, balanced.2]
  constructor
  · rintro ⟨hopened, htotal⟩
    exact ⟨hopened, by omega⟩
  · rintro ⟨hopened, htotal⟩
    exact ⟨hopened, by omega⟩

theorem balanced_nil : Balanced [] := ⟨fun count => by simp, rfl⟩

theorem Balanced.append {first second : List Instruction} (hfirst : Balanced first)
    (hsecond : Balanced second) : Balanced (first ++ second) := by
  have h := balanced_insert_iff hsecond first []
  rw [List.append_nil, List.append_nil] at h
  exact h.mpr hfirst

/-- A loop around a balanced body is balanced. -/
theorem Balanced.loop {opener closer : Instruction} {body : List Instruction}
    (balanced : Balanced body) (hs : opener.op = .loopStart) (he : closer.op = .loopEnd) :
    Balanced (opener :: body ++ [closer]) := by
  refine (balanced_insert_iff balanced [opener] [closer]).mpr ?_
  rw [← balancedFrom_zero_iff, List.singleton_append, balancedFrom_start_iff hs,
    balancedFrom_end_iff he]
  simp

/-- Instructions that open and close no loop of those around them: they are no brackets, or their
brackets are balanced. -/
def Neutral (group : List Instruction) : Prop :=
  (∀ instruction ∈ group, instruction.op ≠ .loopStart ∧ instruction.op ≠ .loopEnd) ∨ Balanced group

theorem Neutral.balanced {group : List Instruction} (h : Neutral group) : Balanced group := by
  rcases h with hplain | hbalanced
  · rw [← balancedFrom_zero_iff]
    induction group with
    | nil => simp
    | cons instruction rest ih =>
      obtain ⟨hs, he⟩ := hplain instruction List.mem_cons_self
      rw [balancedFrom_plain_iff hs he]
      exact ih fun other hmem => hplain other (List.mem_cons_of_mem _ hmem)
  · exact hbalanced

/-! ## The bracket that an error is about -/

/-- At an index stands a loop start, and no beginning of what follows it holds more loop ends than
loop starts, so it is never closed. -/
def Unclosed (instructions : List Instruction) (index : Nat) : Prop :=
  instructions[index]?.map Instruction.op = some .loopStart ∧
    Opened (instructions.drop (index + 1))

/-- The error is the one for the bracket of a program that stands at an index. -/
inductive Program.Names (program : Program) : Nat → BracketError → Prop where
  /-- Some beginning holds more loop ends than loop starts, and the shortest such beginning ends at
  the index. -/
  | unopened {index : Nat} {closer : Instruction}
      (place : program.instructions[index]? = some closer)
      (excess : starts (program.instructions.take (index + 1)) <
        ends (program.instructions.take (index + 1)))
      (shortest : ∀ count ≤ index,
        ends (program.instructions.take count) ≤ starts (program.instructions.take count)) :
      Names program index (.unopened program.file closer)
  /-- No beginning holds more loop ends than loop starts, and at the index stands the last loop
  start that is never closed. -/
  | unclosed {index : Nat} {opener : Instruction}
      (place : program.instructions[index]? = some opener)
      (opened : Opened program.instructions)
      (start : Unclosed program.instructions index)
      (last : ∀ later, Unclosed program.instructions later → later ≤ index) :
      Names program index (.unclosed program.file opener)

/-- There is at most one bracket to name. -/
theorem Program.Names.unique {program : Program} {index index' : Nat}
    {error error' : BracketError} (h : program.Names index error)
    (h' : program.Names index' error') : index' = index ∧ error' = error := by
  cases h with
  | unopened place excess shortest =>
    cases h' with
    | unopened place' excess' shortest' =>
      -- the beginning that ends at the one cannot be shorter than the one that ends at the other
      rcases Nat.lt_trichotomy index index' with hlt | rfl | hlt
      · have := shortest' (index + 1) hlt
        omega
      · rw [place, Option.some.injEq] at place'
        exact ⟨rfl, by rw [place']⟩
      · have := shortest (index' + 1) hlt
        omega
    | unclosed place' opened' start' last' =>
      have := opened' (index + 1)
      omega
  | unclosed place opened start last =>
    cases h' with
    | unopened place' excess' shortest' =>
      have := opened (index' + 1)
      omega
    | unclosed place' opened' start' last' =>
      obtain rfl : index = index' := Nat.le_antisymm (last' _ start) (last _ start')
      rw [place, Option.some.injEq] at place'
      exact ⟨rfl, by rw [place']⟩

/-- Nothing in a balanced list is left open. -/
theorem Balanced.not_unclosed {group : List Instruction} (balanced : Balanced group)
    (index : Nat) : ¬ Unclosed group index := by
  rintro ⟨hop, hopened⟩
  obtain ⟨opener, hplace, hs⟩ := Option.map_eq_some_iff.mp hop
  obtain ⟨hlt, hget⟩ := List.getElem?_eq_some_iff.mp hplace
  -- what stands around the loop start has no more loop ends than loop starts
  have hsplit : group = group.take index ++ ([opener] ++ group.drop (index + 1)) := by
    rw [List.singleton_append, ← hget, List.getElem_cons_drop, List.take_append_drop]
  have hstarts := congrArg starts hsplit
  have hends := congrArg ends hsplit
  have hbefore := balanced.1 index
  have hafter := hopened (group.drop (index + 1)).length
  have htotal := balanced.2
  rw [List.take_length] at hafter
  rw [starts_append, starts_append, starts_cons, starts_nil, if_pos hs] at hstarts
  rw [ends_append, ends_append, ends_cons, ends_nil, if_neg (by simp [hs])] at hends
  omega

/-- A bracket is named only where the brackets are not balanced. -/
theorem Program.Names.not_balanced {program : Program} {index : Nat} {error : BracketError}
    (h : program.Names index error) : ¬ Balanced program.instructions := by
  intro balanced
  cases h with
  | unopened place excess shortest =>
    have := balanced.1 (index + 1)
    omega
  | unclosed place opened start last => exact balanced.not_unclosed index start

/-- The same bracket, told by what stands around it. -/
inductive Isolates (file : String) : List Instruction → Nat → BracketError → Prop where
  /-- What stands before a loop end is balanced. -/
  | unopened {before after : List Instruction} {closer : Instruction}
      (op : closer.op = .loopEnd) (balanced : Balanced before) :
      Isolates file (before ++ closer :: after) before.length (.unopened file closer)
  /-- What stands after a loop start is balanced, and no loop end lacks a loop start. -/
  | unclosed {before after : List Instruction} {opener : Instruction}
      (op : opener.op = .loopStart) (opened : Opened before) (balanced : Balanced after) :
      Isolates file (before ++ opener :: after) before.length (.unclosed file opener)

namespace Isolates

variable {file : String} {instructions before group after : List Instruction} {index : Nat}
  {error : BracketError}

/-- A bracket that is told by what stands around it is the one to be named. -/
theorem names (h : Isolates file instructions index error) :
    Program.Names ⟨file, instructions⟩ index error := by
  cases h with
  | @unopened before after closer op balanced =>
    refine .unopened (by simp) ?_ ?_
    · show starts ((before ++ closer :: after).take (before.length + 1)) <
        ends ((before ++ closer :: after).take (before.length + 1))
      rw [List.take_length_add_append, starts_append, ends_append, balanced.2]
      simp [starts_cons, ends_cons, op]
    · intro count hle
      show ends ((before ++ closer :: after).take count) ≤
        starts ((before ++ closer :: after).take count)
      rw [List.take_append_of_le_length hle]
      exact balanced.1 count
  | @unclosed before after opener op opened balanced =>
    refine .unclosed (by simp) (opened.append_start op balanced.1) ⟨by simp [op], ?_⟩ ?_
    · show Opened ((before ++ opener :: after).drop (before.length + 1))
      rw [List.drop_length_add_append]
      exact balanced.1
    · intro later hlater
      refine Nat.le_of_not_lt fun hlt => ?_
      -- a later one would be among the instructions that are balanced
      obtain ⟨distance, rfl⟩ : ∃ distance, later = before.length + (distance + 1) :=
        ⟨later - before.length - 1, by omega⟩
      refine balanced.not_unclosed distance ?_
      obtain ⟨hop, hopened⟩ := hlater
      refine ⟨?_, ?_⟩
      · simpa [List.getElem?_append_right] using hop
      · simpa [Nat.add_assoc, List.drop_length_add_append] using hopened

end Isolates

/-! ## What linking refuses -/

/-- The loops that a beginning of a program leaves open, innermost first: their starts stand between
balanced groups. -/
inductive LeavesOpen : List Instruction → List OpenLoop → Prop where
  /-- A balanced beginning leaves none open. -/
  | none {group : List Instruction} (balanced : Balanced group) : LeavesOpen group []
  /-- The innermost loop start is followed by a balanced group. -/
  | start {before group : List Instruction} {opener : Instruction} {loops : List OpenLoop}
      (outer : LeavesOpen before loops) (op : opener.op = .loopStart) (balanced : Balanced group) :
      LeavesOpen (before ++ opener :: group) (⟨before.length, opener⟩ :: loops)

namespace LeavesOpen

variable {seen group : List Instruction} {loops : List OpenLoop}

theorem opened (h : LeavesOpen seen loops) : Opened seen := by
  induction h with
  | none balanced => exact balanced.1
  | start _ op balanced ih => exact ih.append_start op balanced.1

/-- A balanced group leaves the same loops open. -/
theorem append (h : LeavesOpen seen loops) (hgroup : Balanced group) :
    LeavesOpen (seen ++ group) loops := by
  cases h with
  | none balanced => exact .none (balanced.append hgroup)
  | start outer op balanced =>
    rw [List.append_assoc, List.cons_append]
    exact .start outer op (balanced.append hgroup)

/-- A loop end closes the innermost loop. -/
theorem close {innermost : OpenLoop} {closer : Instruction}
    (h : LeavesOpen seen (innermost :: loops)) (he : closer.op = .loopEnd) :
    LeavesOpen (seen ++ [closer]) loops := by
  cases h with
  | start outer hs balanced =>
    rw [List.append_assoc]
    exact outer.append (balanced.loop hs he)

end LeavesOpen

namespace Program

/-- If linking fails in what follows a beginning that left some loops open, it does so for a bracket
that can be told by what stands around it. -/
theorem exists_isolates_of_linkFrom {file : String} {seen rest : List Instruction}
    {loops : List OpenLoop} {linked : Array (Option Linked)} {error : BracketError}
    (hopen : LeavesOpen seen loops) (hsize : linked.size = seen.length)
    (herror : linkFrom file loops linked rest = .error (.bracket error)) :
    ∃ index, Isolates file (seen ++ rest) index error := by
  -- the open loops are those that the brackets seen so far leave open
  induction rest generalizing seen loops linked with
  | nil =>
    rw [List.append_nil]
    cases hopen with
    | none balanced => exact absurd herror (finish_ne_bracket file linked error)
    | start outer op balanced =>
      rw [linkFrom_cons_nil, Except.error.injEq, LinkError.bracket.injEq] at herror
      subst herror
      exact ⟨_, .unclosed op outer.opened balanced⟩
  | cons instruction rest ih =>
    rw [List.append_cons]
    by_cases hs : instruction.op = .loopStart
    · rw [linkFrom_start _ _ _ _ hs, hsize] at herror
      exact ih (.start hopen hs balanced_nil) (by simp [hsize]) herror
    · by_cases he : instruction.op = .loopEnd
      · cases loops with
        | nil =>
          rw [linkFrom_end_nil _ _ _ he, Except.error.injEq, LinkError.bracket.injEq] at herror
          subst herror
          cases hopen with
          | none balanced =>
            rw [← List.append_cons]
            exact ⟨_, .unopened he balanced⟩
        | cons innermost outer =>
          rw [linkFrom_end_cons _ _ _ _ he] at herror
          exact ih (hopen.close he) (by simp [hsize]) herror
      · rw [linkFrom_plain _ _ _ _ hs he] at herror
        have hplain : Neutral [instruction] := .inl (by simp [hs, he])
        exact ih (hopen.append hplain.balanced) (by simp [hsize]) herror

theorem exists_isolates_of_link {program : Program} {error : BracketError}
    (h : program.link = .error (.bracket error)) :
    ∃ index, Isolates program.file program.instructions index error :=
  exists_isolates_of_linkFrom (.none balanced_nil) rfl h

/-- A program with brackets that are not balanced is refused. -/
theorem exists_link_eq_error {program : Program} (h : ¬ Balanced program.instructions) :
    ∃ error, program.link = .error (.bracket error) := by
  rw [← program.link_ne_bracket_iff] at h
  simpa using h

/-- Linking fails exactly with the error for the bracket that is to be named. -/
theorem link_eq_error_iff {program : Program} {error : BracketError} :
    program.link = .error (.bracket error) ↔ ∃ index, program.Names index error := by
  constructor
  · intro h
    obtain ⟨index, hisolates⟩ := exists_isolates_of_link h
    exact ⟨index, hisolates.names⟩
  · rintro ⟨index, hnames⟩
    obtain ⟨error', hlink⟩ := exists_link_eq_error hnames.not_balanced
    obtain ⟨index', hisolates⟩ := exists_isolates_of_link hlink
    rw [hlink, (hnames.unique hisolates.names).2]

/-- The bracket to be named can be told by what stands around it. -/
theorem Names.isolates {program : Program} {index : Nat} {error : BracketError}
    (h : program.Names index error) : Isolates program.file program.instructions index error := by
  obtain ⟨index', hisolates⟩ := exists_isolates_of_link (link_eq_error_iff.mpr ⟨index, h⟩)
  rw [(hisolates.names.unique h).1]
  exact hisolates

end Program

/-! ## Edits that do not matter -/

/-- Where the instruction at an index stands once `length` instructions were put in at a place. -/
def afterInsertion (place length index : Nat) : Nat :=
  if index < place then index else index + length

/-- Where the instruction at an index stands once the `length` instructions from a place on were
taken out, if it is still there. -/
def afterDeletion (place length index : Nat) : Option Nat :=
  if index < place then some index
  else if index < place + length then none
  else some (index - length)

theorem afterDeletion_afterInsertion (place length index : Nat) :
    afterDeletion place length (afterInsertion place length index) = some index := by
  unfold afterInsertion
  by_cases hlt : index < place
  · rw [if_pos hlt, afterDeletion, if_pos hlt]
  · rw [if_neg hlt, afterDeletion, if_neg (by omega), if_neg (by omega), Nat.add_sub_cancel]

/-- The second list is made from the first by putting in and taking out instructions that open and
close no loop of those around them, any number of times and anywhere. The function tells where the
instruction at an index of the first list stands in the second, if it is still there. -/
inductive Edited (instructions : List Instruction) :
    (Nat → Option Nat) → List Instruction → Prop where
  /-- Nothing is changed. -/
  | unchanged : Edited instructions some instructions
  /-- A neutral group is put in. -/
  | insert {trace : Nat → Option Nat} {before group after : List Instruction}
      (edited : Edited instructions trace (before ++ after)) (neutral : Neutral group) :
      Edited instructions
        (fun index => (trace index).map (afterInsertion before.length group.length))
        (before ++ group ++ after)
  /-- A neutral group is taken out. -/
  | delete {trace : Nat → Option Nat} {before group after : List Instruction}
      (edited : Edited instructions trace (before ++ group ++ after)) (neutral : Neutral group) :
      Edited instructions
        (fun index => (trace index).bind (afterDeletion before.length group.length))
        (before ++ after)

/-- The places of an element of a list and of a cut through it: the element stands on one side. -/
theorem exists_of_append_eq_append_cons {α : Type} {before after left right : List α} {middle : α}
    (h : before ++ after = left ++ middle :: right) :
    (∃ rest, before = left ++ middle :: rest ∧ right = rest ++ after) ∨
      ∃ rest, left = before ++ rest ∧ after = rest ++ middle :: right := by
  rcases List.append_eq_append_iff.mp h with ⟨rest, hleft, hafter⟩ | ⟨rest, hbefore, hright⟩
  · exact .inr ⟨rest, hleft, hafter⟩
  · cases rest with
    | nil => exact .inr ⟨[], by simpa using hbefore.symm, by simpa using hright.symm⟩
    | cons first rest =>
      rw [List.cons_append, List.cons.injEq] at hright
      obtain ⟨rfl, hright⟩ := hright
      exact .inl ⟨rest, hbefore, hright⟩

variable {file : String} {before group after : List Instruction} {index : Nat}
  {error : BracketError}

/-- The same bracket is named once a balanced group was put in. -/
theorem Isolates.insert (h : Isolates file (before ++ after) index error)
    (hgroup : Balanced group) :
    Isolates file (before ++ group ++ after)
      (afterInsertion before.length group.length index) error := by
  generalize hwhole : before ++ after = whole at h
  unfold afterInsertion
  cases h with
  | @unopened left right closer op balanced =>
    rcases exists_of_append_eq_append_cons hwhole with ⟨rest, rfl, rfl⟩ | ⟨rest, rfl, rfl⟩
    · -- the group stands after the loop end
      rw [if_pos (by simp), List.append_assoc, List.append_assoc, List.cons_append]
      exact .unopened op balanced
    · have hleft : Isolates file (before ++ group ++ rest ++ closer :: right)
          (before ++ group ++ rest).length (.unopened file closer) :=
        .unopened op ((balanced_insert_iff hgroup before rest).mpr balanced)
      rw [if_neg (by simp)]
      simpa [Nat.add_assoc, Nat.add_comm group.length] using hleft
  | @unclosed left right opener op opened balanced =>
    rcases exists_of_append_eq_append_cons hwhole with ⟨rest, rfl, rfl⟩ | ⟨rest, rfl, rfl⟩
    · -- the group stands after the loop start
      have hright : Isolates file (left ++ opener :: (rest ++ group ++ after)) left.length
          (.unclosed file opener) :=
        .unclosed op opened ((balanced_insert_iff hgroup rest after).mpr balanced)
      rw [if_pos (by simp)]
      simpa using hright
    · have hleft : Isolates file (before ++ group ++ rest ++ opener :: right)
          (before ++ group ++ rest).length (.unclosed file opener) :=
        .unclosed op ((opened_insert_iff hgroup before rest).mpr opened) balanced
      rw [if_neg (by simp)]
      simpa [Nat.add_assoc, Nat.add_comm group.length] using hleft

namespace Program.Names

/-- The same bracket is named once a balanced group was put in. -/
theorem insert (h : Names ⟨file, before ++ after⟩ index error) (hgroup : Balanced group) :
    Names ⟨file, before ++ group ++ after⟩ (afterInsertion before.length group.length index)
      error :=
  (h.isolates.insert hgroup).names

/-- The same bracket is named once a balanced group was taken out; it was not in that group. -/
theorem delete (h : Names ⟨file, before ++ group ++ after⟩ index error)
    (hgroup : Balanced group) :
    ∃ index', afterDeletion before.length group.length index = some index' ∧
      Names ⟨file, before ++ after⟩ index' error := by
  have hbalanced : ¬ Balanced (before ++ after) := by
    rw [← balanced_insert_iff hgroup]
    exact h.not_balanced
  -- some bracket is to be named without the group, and putting the group back in changes nothing
  obtain ⟨error', hlink⟩ : ∃ error', link ⟨file, before ++ after⟩ = .error (.bracket error') :=
    exists_link_eq_error hbalanced
  obtain ⟨index', hnames⟩ := link_eq_error_iff.mp hlink
  obtain ⟨hindex, herror⟩ := h.unique (hnames.insert hgroup)
  refine ⟨index', ?_, herror ▸ hnames⟩
  rw [← hindex, afterDeletion_afterInsertion]

/-- The same bracket is named after any number of edits that do not matter. -/
theorem edited {instructions instructions' : List Instruction} {trace : Nat → Option Nat}
    (h : Names ⟨file, instructions⟩ index error)
    (hedited : Edited instructions trace instructions') :
    ∃ index', trace index = some index' ∧ Names ⟨file, instructions'⟩ index' error := by
  induction hedited with
  | unchanged => exact ⟨index, rfl, h⟩
  | insert _ neutral ih =>
    obtain ⟨index', htrace, hnames⟩ := ih
    exact ⟨_, by simp [htrace], hnames.insert neutral.balanced⟩
  | delete _ neutral ih =>
    obtain ⟨index', htrace, hnames⟩ := ih
    obtain ⟨index'', hindex, hnames'⟩ := hnames.delete neutral.balanced
    exact ⟨index'', by simp [htrace, hindex], hnames'⟩

/-- What follows a loop end without a loop start does not matter. -/
theorem replace_rest {program : Program} {closer : Instruction}
    (h : program.Names index (.unopened program.file closer)) (rest : List Instruction) :
    Names ⟨program.file, program.instructions.take (index + 1) ++ rest⟩ index
      (.unopened program.file closer) := by
  have hisolates := h.isolates
  generalize program.instructions = instructions at hisolates ⊢
  cases hisolates with
  | @unopened before after _ op balanced =>
    have hrest : Isolates program.file (before ++ closer :: rest) before.length
        (.unopened program.file closer) := .unopened op balanced
    rw [List.take_length_add_append]
    simpa using hrest.names

end Program.Names

/-! ## The bracket that is named -/

/-- A program is refused for the bracket at an index, with an error. -/
structure Program.Blames (program : Program) (index : Nat) (error : BracketError) : Prop where
  /-- Linking fails with the error. -/
  refused : program.link = .error (.bracket error)
  /-- The error is the one for the bracket at the index. -/
  named : program.Names index error
  /-- It is the one for no other bracket, and no other error is. -/
  only : ∀ index' error', program.Names index' error' → index' = index ∧ error' = error
  /-- The loop starts that are never closed are those for which a search finds no loop end. -/
  search : ∀ start, Unclosed program.instructions start ↔
    program.instructions[start]?.map Instruction.op = some .loopStart ∧
      distanceToEnd 0 (program.instructions.drop (start + 1)) = none
  /-- What follows a loop end without a loop start does not matter. -/
  rest : ∀ closer, error = .unopened program.file closer → ∀ rest,
    Names ⟨program.file, program.instructions.take (index + 1) ++ rest⟩ index error ∧
      link ⟨program.file, program.instructions.take (index + 1) ++ rest⟩ =
        .error (.bracket error)
  /-- Neither do plain instructions and balanced groups that are put in or taken out anywhere. -/
  edited : ∀ trace instructions, Edited program.instructions trace instructions →
    ∃ index', trace index = some index' ∧ Names ⟨program.file, instructions⟩ index' error ∧
      link ⟨program.file, instructions⟩ = .error (.bracket error)

/-- A program whose brackets are not balanced is refused for exactly one bracket: the loop end of
the shortest beginning with more loop ends than loop starts, or else the last loop start that is
never closed. -/
theorem Program.exists_blames_of_not_balanced (program : Program)
    (h : ¬ Balanced program.instructions) : ∃ index error, program.Blames index error := by
  obtain ⟨error, hlink⟩ := exists_link_eq_error h
  obtain ⟨index, hnames⟩ := link_eq_error_iff.mp hlink
  refine ⟨index, error, hlink, hnames, fun _ _ => hnames.unique, ?_, ?_, ?_⟩
  · intro start
    rw [Unclosed, distanceToEnd_eq_none_iff, openedFrom_zero_iff]
  · rintro closer rfl rest
    have hrest := hnames.replace_rest rest
    exact ⟨hrest, link_eq_error_iff.mpr ⟨index, hrest⟩⟩
  · intro trace instructions hedited
    obtain ⟨index', htrace, hnames'⟩ := hnames.edited hedited
    exact ⟨index', htrace, hnames', link_eq_error_iff.mpr ⟨index', hnames'⟩⟩

/-- The program `[+]][`, with as many loop starts as loop ends. -/
def strayEnd : Program :=
  ⟨"stray.bf", [⟨.loopStart, 1, 1⟩, ⟨.add, 1, 2⟩, ⟨.loopEnd, 1, 3⟩, ⟨.loopEnd, 1, 4⟩,
    ⟨.loopStart, 1, 5⟩]⟩

/-- It is refused for its second loop end, not for the loop start that is never closed. -/
theorem exists_blames_strayEnd :
    strayEnd = .ofSource "stray.bf" [0x5b, 0x2b, 0x5d, 0x5d, 0x5b] ∧
      ¬ Balanced strayEnd.instructions ∧
      ∃ index, strayEnd.Blames index (.unopened "stray.bf" ⟨.loopEnd, 1, 4⟩) := by
  have hbalanced : ¬ Balanced strayEnd.instructions := fun balanced =>
    absurd (balanced.1 4) (by decide)
  obtain ⟨index, error, hblames⟩ := Program.exists_blames_of_not_balanced strayEnd hbalanced
  obtain rfl : error = .unopened "stray.bf" ⟨.loopEnd, 1, 4⟩ :=
    LinkError.bracket.inj (Except.error.inj (hblames.refused.symm.trans rfl))
  exact ⟨rfl, hbalanced, index, hblames⟩

end Brainfuck
