import Brainfuck.Proofs.Tree

/-! # The pairing of brackets

Where the loops of a tree stand in its layout, and what follows for a linked program: every loop
start and every loop end belong to exactly one pair, what stands between them is balanced, and two
pairs are nested or apart.

Main definitions: `Tree.LoopAt`, `distanceToEnd`, `Paired`. Main statement: the brackets of a
program that can be linked are paired (`Program.paired_of_link_eq_ok`). -/

namespace Brainfuck

namespace Tree

/-! ## Where the loops of a tree stand -/

/-- The tree has a loop whose start is `offset` instructions from the beginning, with the given
brackets and body. -/
inductive LoopAt : Tree → Nat → Cursor → Tree → Cursor → Prop where
  /-- The tree begins with the loop. -/
  | here {start : Cursor} {body : Tree} {finish : Cursor} {rest : Tree} :
      LoopAt (loop start body finish rest) 0 start body finish
  /-- The loop comes after a plain operation. -/
  | afterPlain {operation : Primitive} {place : Cursor} {rest : Tree} {offset : Nat}
      {start : Cursor} {body : Tree} {finish : Cursor} :
      LoopAt rest offset start body finish →
        LoopAt (plain operation place rest) (offset + 1) start body finish
  /-- The loop is inside the body of another one. -/
  | inBody {first : Cursor} {outer : Tree} {last : Cursor} {rest : Tree} {offset : Nat}
      {start : Cursor} {body : Tree} {finish : Cursor} :
      LoopAt outer offset start body finish →
        LoopAt (loop first outer last rest) (offset + 1) start body finish
  /-- The loop comes after another one. -/
  | afterLoop {first : Cursor} {earlier : Tree} {last : Cursor} {rest : Tree} {offset : Nat}
      {start : Cursor} {body : Tree} {finish : Cursor} :
      LoopAt rest offset start body finish →
        LoopAt (loop first earlier last rest) (earlier.length + offset + 2) start body finish

namespace LoopAt

variable {tree : Tree} {offset : Nat} {start : Cursor} {body : Tree} {finish : Cursor}

/-- The end of a loop stands inside the tree. -/
theorem end_lt_length (h : tree.LoopAt offset start body finish) :
    offset + body.length + 1 < tree.length := by
  induction h with
  | here => simp only [Tree.length]; omega
  | afterPlain _ ih => simp only [Tree.length]; omega
  | inBody _ ih => simp only [Tree.length]; omega
  | afterLoop _ ih => simp only [Tree.length]; omega

/-- The layout of a tree, split at the brackets of one of its loops. -/
theorem exists_layout_eq (h : tree.LoopAt offset start body finish) (base : Nat) :
    ∃ before after, before.length = offset ∧
      tree.layout base =
        before ++
          .opener (start.instruction .loopStart) (base + offset + body.length + 1)
              (finish.instruction .loopEnd) ::
            (body.layout (base + offset + 1) ++
              .closer (finish.instruction .loopEnd) (base + offset)
                (start.instruction .loopStart) :: after) := by
  -- induction on where the loop stands; all that is in front of it only moves its indices
  induction h generalizing base with
  | here => exact ⟨[], _, rfl, rfl⟩
  | @afterPlain operation place _ _ _ _ _ _ ih =>
    obtain ⟨before, after, hbefore, hlayout⟩ := ih (base + 1)
    refine ⟨.plain (place.instruction operation.op) :: before, after, by simp [hbefore], ?_⟩
    rw [Tree.layout, hlayout]
    simp [Nat.add_assoc, Nat.add_comm 1]
  | @inBody first outer last rest _ _ _ _ _ ih =>
    obtain ⟨before, after, hbefore, hlayout⟩ := ih (base + 1)
    refine ⟨.opener (first.instruction .loopStart) (base + outer.length + 1)
        (last.instruction .loopEnd) :: before,
      after ++ .closer (last.instruction .loopEnd) base (first.instruction .loopStart) ::
        rest.layout (base + outer.length + 2), by simp [hbefore], ?_⟩
    rw [Tree.layout, hlayout]
    simp [Nat.add_assoc, Nat.add_comm 1]
  | @afterLoop first earlier last rest offset _ _ _ _ ih =>
    obtain ⟨before, after, hbefore, hlayout⟩ := ih (base + earlier.length + 2)
    refine ⟨.opener (first.instruction .loopStart) (base + earlier.length + 1)
        (last.instruction .loopEnd) :: (earlier.layout (base + 1) ++
          .closer (last.instruction .loopEnd) base (first.instruction .loopStart) :: before),
      after, by simp [hbefore]; omega, ?_⟩
    have hbase : base + earlier.length + 2 + offset = base + (earlier.length + offset + 2) := by
      omega
    rw [Tree.layout, hlayout, hbase]
    simp

/-- The instructions of a tree, split at the brackets of one of its loops. -/
theorem exists_flatten_eq (h : tree.LoopAt offset start body finish) :
    ∃ before after, before.length = offset ∧
      tree.flatten =
        before ++ start.instruction .loopStart ::
          (body.flatten ++ finish.instruction .loopEnd :: after) := by
  obtain ⟨before, after, hbefore, hlayout⟩ := h.exists_layout_eq 0
  refine ⟨before.map Linked.instruction, after.map Linked.instruction, by simpa using hbefore, ?_⟩
  rw [← map_instruction_layout tree 0, hlayout]
  simp [Linked.instruction]

/-- The entry of the start of a loop. -/
theorem getElem?_layout_start (h : tree.LoopAt offset start body finish) (base : Nat) :
    (tree.layout base)[offset]? = some (.opener (start.instruction .loopStart)
      (base + offset + body.length + 1) (finish.instruction .loopEnd)) := by
  obtain ⟨before, after, rfl, hlayout⟩ := h.exists_layout_eq base
  simp [hlayout]

/-- The entry of the end of a loop. -/
theorem getElem?_layout_end (h : tree.LoopAt offset start body finish) (base : Nat) :
    (tree.layout base)[offset + body.length + 1]? = some (.closer (finish.instruction .loopEnd)
      (base + offset) (start.instruction .loopStart)) := by
  obtain ⟨before, after, rfl, hlayout⟩ := h.exists_layout_eq base
  rw [hlayout, List.getElem?_append_right (by omega)]
  have hindex : before.length + body.length + 1 - before.length = body.length + 1 := by omega
  rw [hindex, List.getElem?_cons_succ, List.getElem?_append_right (by simp)]
  simp

/-- Two loops of a tree are the same one, or apart, or one is inside the other. -/
theorem same_or_apart_or_nested (h : tree.LoopAt offset start body finish) {offset' : Nat}
    {start' : Cursor} {body' : Tree} {finish' : Cursor}
    (h' : tree.LoopAt offset' start' body' finish') :
    (offset = offset' ∧ body.length = body'.length) ∨
      offset + body.length + 1 < offset' ∨ offset' + body'.length + 1 < offset ∨
      (offset < offset' ∧ offset' + body'.length < offset + body.length) ∨
      (offset' < offset ∧ offset + body.length < offset' + body'.length) := by
  -- the second loop is looked for in the part of the tree where the first one is; elsewhere it is
  -- apart from it, or around it
  induction h generalizing offset' with
  | here =>
    cases h' with
    | here => exact .inl ⟨rfl, rfl⟩
    | inBody h' => have := h'.end_lt_length; omega
    | afterLoop h' => omega
  | afterPlain _ ih =>
    cases h' with
    | afterPlain h' => have := ih h'; omega
  | inBody h ih =>
    have inside := h.end_lt_length
    cases h' with
    | here => omega
    | inBody h' => have := ih h'; omega
    | afterLoop h' => omega
  | afterLoop h ih =>
    cases h' with
    | here => omega
    | inBody h' => have := h'.end_lt_length; omega
    | afterLoop h' => have := ih h'; omega

end LoopAt

/-- An entry that is a loop start is the start of a loop of the tree. -/
theorem exists_loopAt_of_opener {tree : Tree} {base offset : Nat} {opener closer : Instruction}
    {target : Nat} (h : (tree.layout base)[offset]? = some (.opener opener target closer)) :
    ∃ start body finish, tree.LoopAt offset start body finish := by
  induction tree generalizing base offset with
  | done => simp [layout] at h
  | plain operation place rest ih =>
    cases offset with
    | zero => simp [layout] at h
    | succ offset =>
      rw [layout, List.getElem?_cons_succ] at h
      obtain ⟨start, body, finish, hloop⟩ := ih h
      exact ⟨start, body, finish, .afterPlain hloop⟩
  | loop first outer last rest ihOuter ihRest =>
    cases offset with
    | zero => exact ⟨first, outer, last, .here⟩
    | succ offset =>
      rw [layout, List.getElem?_cons_succ, List.getElem?_append, length_layout] at h
      split at h
      · -- the entry is inside the body
        obtain ⟨start, body, finish, hloop⟩ := ihOuter h
        exact ⟨start, body, finish, .inBody hloop⟩
      · obtain ⟨distance, rfl⟩ : ∃ distance, offset = outer.length + distance :=
          ⟨offset - outer.length, by omega⟩
        rw [Nat.add_sub_cancel_left] at h
        -- the entry right after the body is the loop end, so the one looked at comes later
        cases distance with
        | zero => simp at h
        | succ distance =>
          obtain ⟨start, body, finish, hloop⟩ := ihRest h
          refine ⟨start, body, finish, ?_⟩
          have hoffset : outer.length + (distance + 1) + 1 = outer.length + distance + 2 := by omega
          rw [hoffset]
          exact .afterLoop hloop

/-- An entry that is a loop end is the end of a loop of the tree. -/
theorem exists_loopAt_of_closer {tree : Tree} {base offset : Nat} {closer opener : Instruction}
    {target : Nat} (h : (tree.layout base)[offset]? = some (.closer closer target opener)) :
    ∃ origin start body finish, tree.LoopAt origin start body finish ∧
      offset = origin + body.length + 1 := by
  induction tree generalizing base offset with
  | done => simp [layout] at h
  | plain operation place rest ih =>
    cases offset with
    | zero => simp [layout] at h
    | succ offset =>
      rw [layout, List.getElem?_cons_succ] at h
      obtain ⟨origin, start, body, finish, hloop, rfl⟩ := ih h
      exact ⟨origin + 1, start, body, finish, .afterPlain hloop, by omega⟩
  | loop first outer last rest ihOuter ihRest =>
    cases offset with
    | zero => simp [layout] at h
    | succ offset =>
      rw [layout, List.getElem?_cons_succ, List.getElem?_append, length_layout] at h
      split at h
      · obtain ⟨origin, start, body, finish, hloop, rfl⟩ := ihOuter h
        exact ⟨origin + 1, start, body, finish, .inBody hloop, by omega⟩
      · obtain ⟨distance, rfl⟩ : ∃ distance, offset = outer.length + distance :=
          ⟨offset - outer.length, by omega⟩
        rw [Nat.add_sub_cancel_left] at h
        -- the entry right after the body is the end of this loop
        cases distance with
        | zero => exact ⟨0, first, outer, last, .here, by omega⟩
        | succ distance =>
          obtain ⟨origin, start, body, finish, hloop, rfl⟩ := ihRest h
          exact ⟨outer.length + origin + 2, start, body, finish, .afterLoop hloop, by omega⟩

/-- No bracket of a tree is laid out as a plain instruction. -/
theorem op_of_plain_mem_layout {tree : Tree} {base : Nat} {instruction : Instruction}
    (h : .plain instruction ∈ tree.layout base) :
    instruction.op ≠ .loopStart ∧ instruction.op ≠ .loopEnd := by
  induction tree generalizing base with
  | done => simp [layout] at h
  | plain operation place rest ih =>
    simp only [layout, List.mem_cons, Linked.plain.injEq] at h
    rcases h with rfl | h
    · exact ⟨operation.op_ne_loopStart, operation.op_ne_loopEnd⟩
    · exact ih h
  | loop first outer last rest ihOuter ihRest =>
    simp only [layout, List.mem_cons, List.mem_append, reduceCtorEq, false_or] at h
    exact h.elim ihOuter ihRest

end Tree

/-! ## A search for the end of a loop -/

/-- The distance to the loop end that closes one loop more than `depth`, found by counting the
loops that open and close on the way. -/
def distanceToEnd (depth : Nat) : List Instruction → Option Nat
  | [] => none
  | instruction :: rest =>
    match instruction.op with
    | .loopStart => (distanceToEnd (depth + 1) rest).map (· + 1)
    | .loopEnd => if depth = 0 then some 0 else (distanceToEnd (depth - 1) rest).map (· + 1)
    | _ => (distanceToEnd depth rest).map (· + 1)

theorem distanceToEnd_start {instruction : Instruction} (h : instruction.op = .loopStart)
    (depth : Nat) (rest : List Instruction) :
    distanceToEnd depth (instruction :: rest) = (distanceToEnd (depth + 1) rest).map (· + 1) := by
  simp only [distanceToEnd, h]

theorem distanceToEnd_end {instruction : Instruction} (h : instruction.op = .loopEnd)
    (depth : Nat) (rest : List Instruction) :
    distanceToEnd depth (instruction :: rest) =
      if depth = 0 then some 0 else (distanceToEnd (depth - 1) rest).map (· + 1) := by
  simp only [distanceToEnd, h]

theorem distanceToEnd_plain (operation : Primitive) (place : Cursor) (depth : Nat)
    (rest : List Instruction) :
    distanceToEnd depth (place.instruction operation.op :: rest) =
      (distanceToEnd depth rest).map (· + 1) := by
  cases operation <;> rfl

/-- The search passes over a written-out tree. -/
theorem distanceToEnd_flatten_append (tree : Tree) (depth : Nat) (rest : List Instruction) :
    distanceToEnd depth (tree.flatten ++ rest) =
      (distanceToEnd depth rest).map (· + tree.length) := by
  induction tree generalizing depth rest with
  | done => simp [Tree.flatten, Tree.length]
  | plain operation place after ih =>
    rw [Tree.flatten, List.cons_append, distanceToEnd_plain, ih, Option.map_map]
    rfl
  | loop start body finish after ihBody ihAfter =>
    rw [Tree.flatten, List.cons_append, List.append_assoc, List.cons_append,
      distanceToEnd_start rfl, ihBody, distanceToEnd_end rfl, if_neg (by omega), ihAfter]
    simp only [Option.map_map, Nat.add_sub_cancel]
    congr 1
    funext distance
    simp only [Function.comp_apply, Tree.length]
    omega

/-! ## Paired brackets -/

/-- The instructions strictly between two indices. -/
def between (instructions : List Instruction) (first last : Nat) : List Instruction :=
  (instructions.drop (first + 1)).take (last - first - 1)

/-- The linked program is the program with its brackets paired. -/
structure Paired (program : Program) (linked : LinkedProgram) : Prop where
  /-- The file is the same. -/
  file : linked.file = program.file
  /-- Every instruction has an entry. -/
  size : linked.size = program.instructions.length
  /-- Without their links the entries are the instructions. -/
  instructions : linked.instructions.toList.map Linked.instruction = program.instructions
  /-- The plain entries are those that are no brackets; so no loop start was left unlinked. -/
  plain : ∀ entry ∈ linked.instructions,
    (∃ instruction, entry = .plain instruction) ↔
      entry.op ≠ .loopStart ∧ entry.op ≠ .loopEnd
  /-- The entries of loop starts are those that lead to a loop end. -/
  opener : ∀ entry ∈ linked.instructions,
    (∃ instruction target partner, entry = .opener instruction target partner) ↔
      entry.op = .loopStart
  /-- The entries of loop ends are those that lead to a loop start. -/
  closer : ∀ entry ∈ linked.instructions,
    (∃ instruction target partner, entry = .closer instruction target partner) ↔
      entry.op = .loopEnd
  /-- A loop start leads to a later loop end that leads back, each with the instruction of the
  other. What stands between them is balanced, and a search would have found the same end. -/
  partner : ∀ (first last : Nat) (opener closer : Instruction),
    linked.instructions[first]? = some (.opener opener last closer) →
      first < last ∧ last < linked.size ∧
      linked.instructions[last]? = some (.closer closer first opener) ∧
      program.instructions[first]? = some opener ∧ program.instructions[last]? = some closer ∧
      Balanced (between program.instructions first last) ∧
      distanceToEnd 0 (program.instructions.drop (first + 1)) = some (last - first - 1)
  /-- Exactly one loop start leads to a loop end, and it is the one that the loop end leads to. -/
  origin : ∀ (first last : Nat) (opener closer : Instruction),
    linked.instructions[last]? = some (.closer closer first opener) →
      linked.instructions[first]? = some (.opener opener last closer) ∧
      ∀ (index : Nat) (instruction partner : Instruction),
        linked.instructions[index]? = some (.opener instruction last partner) → index = first
  /-- Two pairs are nested or apart. -/
  nested : ∀ (first last first' last' : Nat) (opener closer opener' closer' : Instruction),
    linked.instructions[first]? = some (.opener opener last closer) →
    linked.instructions[first']? = some (.opener opener' last' closer') → first ≠ first' →
      last < first' ∨ last' < first ∨ (first < first' ∧ last' < last) ∨
        (first' < first ∧ last < last')

namespace Tree

variable {tree : Tree} {first last : Nat} {opener closer : Instruction}

/-- The loop that a loop start of the layout begins, with what its entry says. -/
theorem exists_loopAt_opener (h : (tree.layout 0)[first]? = some (.opener opener last closer)) :
    ∃ start body finish, tree.LoopAt first start body finish ∧
      opener = start.instruction .loopStart ∧ last = first + body.length + 1 ∧
      closer = finish.instruction .loopEnd := by
  obtain ⟨start, body, finish, hloop⟩ := exists_loopAt_of_opener h
  rw [hloop.getElem?_layout_start, Option.some.injEq, Linked.opener.injEq] at h
  obtain ⟨rfl, rfl, rfl⟩ := h
  exact ⟨start, body, finish, hloop, rfl, by omega, rfl⟩

/-- The loop that a loop end of the layout ends, with what its entry says. -/
theorem exists_loopAt_closer (h : (tree.layout 0)[last]? = some (.closer closer first opener)) :
    ∃ start body finish, tree.LoopAt first start body finish ∧
      opener = start.instruction .loopStart ∧ last = first + body.length + 1 ∧
      closer = finish.instruction .loopEnd := by
  obtain ⟨origin, start, body, finish, hloop, rfl⟩ := exists_loopAt_of_closer h
  rw [hloop.getElem?_layout_end, Option.some.injEq, Linked.closer.injEq] at h
  obtain ⟨rfl, rfl, rfl⟩ := h
  rw [Nat.zero_add]
  exact ⟨start, body, finish, hloop, rfl, rfl, rfl⟩

/-- The operation of an entry of the layout tells what kind of entry it is. -/
theorem op_of_mem_layout {entry : Linked} (h : entry ∈ tree.layout 0) :
    match entry with
    | .plain instruction => instruction.op ≠ .loopStart ∧ instruction.op ≠ .loopEnd
    | .opener instruction _ _ => instruction.op = .loopStart
    | .closer instruction _ _ => instruction.op = .loopEnd := by
  cases entry with
  | plain instruction => exact op_of_plain_mem_layout h
  | opener instruction target partner =>
    obtain ⟨index, hindex⟩ := List.mem_iff_getElem?.mp h
    obtain ⟨start, -, -, -, rfl, -⟩ := exists_loopAt_opener hindex
    rfl
  | closer instruction target partner =>
    obtain ⟨index, hindex⟩ := List.mem_iff_getElem?.mp h
    obtain ⟨-, -, finish, -, -, -, rfl⟩ := exists_loopAt_closer hindex
    rfl

/-- The brackets of a laid-out tree are paired. -/
theorem paired_layout (tree : Tree) (file : String) :
    Paired ⟨file, tree.flatten⟩ ⟨file, (tree.layout 0).toArray⟩ where
  file := rfl
  size := by simp [LinkedProgram.size]
  instructions := by simp
  plain entry h := by
    have hop := op_of_mem_layout (List.mem_toArray.mp h)
    cases entry <;> simp_all [Linked.op, Linked.instruction]
  opener entry h := by
    have hop := op_of_mem_layout (List.mem_toArray.mp h)
    cases entry <;> simp_all [Linked.op, Linked.instruction]
  closer entry h := by
    have hop := op_of_mem_layout (List.mem_toArray.mp h)
    cases entry <;> simp_all [Linked.op, Linked.instruction]
  partner first last opener closer h := by
    rw [List.getElem?_toArray] at h
    obtain ⟨start, body, finish, hloop, rfl, rfl, rfl⟩ := exists_loopAt_opener h
    have hlength := hloop.end_lt_length
    have hend := hloop.getElem?_layout_end 0
    rw [Nat.zero_add] at hend
    obtain ⟨before, after, rfl, hflatten⟩ := hloop.exists_flatten_eq
    have hdrop : tree.flatten.drop (before.length + 1) =
        body.flatten ++ finish.instruction .loopEnd :: after := by
      rw [hflatten]
      simp [List.drop_append]
    have hdistance : before.length + body.length + 1 - before.length - 1 = body.length := by omega
    refine ⟨by omega, by simpa [LinkedProgram.size] using hlength, by simpa using hend, ?_, ?_, ?_,
      ?_⟩
    -- the two instructions, what stands between them, and the search
    · simp [hflatten]
    · rw [hflatten, List.getElem?_append_right (by omega)]
      simp [Nat.add_assoc]
    · rw [between, hdrop, hdistance, ← length_flatten body, List.take_left]
      exact balanced_iff_exists_flatten.mpr ⟨body, rfl⟩
    · rw [hdrop, hdistance, distanceToEnd_flatten_append, distanceToEnd_end rfl]
      simp
  origin first last opener closer h := by
    simp only [List.getElem?_toArray] at h ⊢
    obtain ⟨start, body, finish, hloop, rfl, rfl, rfl⟩ := exists_loopAt_closer h
    refine ⟨by simpa using hloop.getElem?_layout_start 0, ?_⟩
    intro index instruction partner hindex
    obtain ⟨_, body', _, hloop', -, hlast, -⟩ := exists_loopAt_opener hindex
    -- two loops that end at the same place are the same one
    have := hloop.same_or_apart_or_nested hloop'
    omega
  nested first last first' last' opener closer opener' closer' h h' hne := by
    rw [List.getElem?_toArray] at h h'
    obtain ⟨_, body, _, hloop, -, rfl, -⟩ := exists_loopAt_opener h
    obtain ⟨_, body', _, hloop', -, rfl, -⟩ := exists_loopAt_opener h'
    have := hloop.same_or_apart_or_nested hloop'
    omega

end Tree

namespace Program

/-- The brackets of a linked program are paired. -/
theorem paired_of_link_eq_ok {program : Program} {linked : LinkedProgram}
    (h : program.link = .ok linked) : Paired program linked := by
  obtain ⟨tree, htree, rfl⟩ := link_eq_ok_iff.mp h
  have hprogram : program = ⟨program.file, tree.flatten⟩ := by rw [htree]
  rw [hprogram]
  exact tree.paired_layout program.file

/-- A program can be linked exactly if its brackets are balanced, and then linking pairs them. No
loop start is ever left without its partner. -/
theorem link_ok_iff_balanced_and_paired (program : Program) :
    ((∃ linked, program.link = .ok linked) ↔ Balanced program.instructions) ∧
      program.link ≠ .error .unpatched ∧
      ∀ linked, program.link = .ok linked → Paired program linked :=
  ⟨program.exists_link_eq_ok_iff, program.link_ne_unpatched, fun _ h => paired_of_link_eq_ok h⟩

end Program

end Brainfuck
