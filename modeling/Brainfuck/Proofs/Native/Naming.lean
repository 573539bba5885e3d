import Brainfuck.Proofs.Ir.WellFormed
import Brainfuck.Proofs.Native.Compiled

/-! # Names and declarations of compiled code

What a build keeps whatever it emits. An instruction with a result takes a fresh name for it, and
nothing else gives a name to a value; a function that is called is declared before its first call.
So a property that survives these few steps survives every piece of a build, and two of them say
that no name is given twice and that exactly the functions needed are declared.

Main definitions: `Build.Carries`, `Builder.Stable`, `Builder.Named`, `Declares`. Main statements:
the names of a compiled function are distinct (`nodup_names_compile`), and its declarations are
those of the operations of the program (`declares_compile`). -/

namespace Brainfuck.Native

open Ir Build

/-! ## Properties of builds -/

/-- A piece of a build leads from builds with one property to builds with another. -/
def Build.Carries {α : Type} (first second : Builder → Prop) (build : Build α) : Prop :=
  ∀ builder, first builder → second (build builder).2

/-- A property that every step of a build keeps, except that a call may be noted. -/
structure Builder.Stable (property : Builder → Prop) : Prop where
  /-- An instruction with a result takes a fresh name for it. -/
  result : ∀ (stem : Stem) (instr : Name → Instr), (∀ name, (instr name).result? = some name) →
    ∀ builder, property builder →
      property (push (instr (fresh stem builder).1) (fresh stem builder).2).2
  /-- An instruction without a result uses up a name. -/
  effect : ∀ instr : Instr, instr.result? = none →
    Carries property property (do skipName; push instr)
  /-- A block is created. -/
  block : ∀ stem, Carries property property (createBlock stem)
  /-- Another block is filled. -/
  position : ∀ builder position, property builder → property { builder with position }
  /-- A loop begins or ends. -/
  loops : ∀ builder loops, property builder → property { builder with loops }

namespace Build

open Builder

namespace Carries

variable {first second third : Builder → Prop} {α β : Type}

theorem pure (result : α) : Carries first first (Pure.pure result : Build α) :=
  fun _ h => h

theorem bind {build : Build α} {rest : α → Build β} (h : Carries first second build)
    (hrest : ∀ result, Carries second third (rest result)) :
    Carries first third (build >>= rest) :=
  fun builder hbuilder => hrest _ _ (h builder hbuilder)

/-- A result is named and defined, and then the build goes on. -/
theorem result (h : Stable first) (stem : Stem) {instr : Name → Instr}
    (hresult : ∀ name, (instr name).result? = some name) {rest : Name → Build β}
    (hrest : ∀ name, Carries first second (rest name)) :
    Carries first second (do
      let name ← fresh stem
      push (instr name)
      rest name) :=
  fun builder hbuilder => hrest _ _ (h.result stem instr hresult builder hbuilder)

end Carries

/-! ## Pieces of code -/

section Pieces

variable {first second : Builder → Prop} (h : Stable first) (frame : Frame)
include h

theorem carries_moveTo (block : Nat) : Carries first first (moveTo block) :=
  fun builder hbuilder => h.position builder block hbuilder

theorem carries_branch (condition : Name) (ifTrue ifFalse : Nat) :
    Carries first first (branch condition ifTrue ifFalse) :=
  h.effect (.branch condition ifTrue ifFalse) rfl

theorem carries_ret (value : Int) : Carries first first (ret value) :=
  h.effect (.ret value) rfl

theorem carries_store (width : Width) (value : Operand) (address : Name) :
    Carries first first (store width value address) :=
  h.effect (.store width value address) rfl

theorem carries_pointer : Carries first first (pointer frame) :=
  .result h .pointer (fun _ => rfl) fun _ => .pure _

theorem carries_elementAddress : Carries first first (elementAddress frame) :=
  .bind (carries_pointer h frame) fun _ =>
    .result h .elementAddress (fun _ => rfl) fun _ => .pure _

theorem carries_element : Carries first first (element frame) :=
  .bind (carries_elementAddress h frame) fun _ =>
    .result h .element (fun _ => rfl) fun _ => .pure _

theorem carries_compare (stem : Stem) (comparison : Comparison) (width : Width) (left : Name)
    (right : Int) : Carries first first (compare stem comparison width left right) :=
  .result h stem (fun _ => rfl) fun _ => .pure _

theorem carries_arithmetic (stem : Stem) (operation : Arithmetic) (width : Width) (left : Name)
    (right : Int) : Carries first first (arithmetic stem operation width left right) :=
  .result h stem (fun _ => rfl) fun _ => .pure _

theorem carries_faultUnless (ok : Name) (index : Nat) :
    Carries first first (faultUnless ok index) :=
  .bind (h.block .noFault) fun _ =>
  .bind (h.block .fault) fun _ =>
  .bind (carries_branch h ok _ _) fun _ =>
  .bind (carries_moveTo h _) fun _ =>
  .bind (carries_ret h index) fun _ =>
  carries_moveTo h _

/-! ## Instructions -/

theorem carries_move (index : Nat) (comparison : Comparison) (limit : Int) (stem : Stem)
    (operation : Arithmetic) :
    Carries first first (move frame index comparison limit stem operation) :=
  .bind (carries_pointer h frame) fun _ =>
  .bind (carries_compare h _ _ _ _ _) fun _ =>
  .bind (carries_faultUnless h _ index) fun _ =>
  .bind (carries_arithmetic h _ _ _ _ _) fun _ =>
  carries_store h _ _ _

theorem carries_change (stem : Stem) (operation : Arithmetic) :
    Carries first first (change frame stem operation) :=
  .bind (carries_element h frame) fun _ =>
  .bind (carries_arithmetic h _ _ _ _ _) fun _ =>
  carries_store h _ _ _

/-- An output notes the call of the function that writes a byte. -/
theorem carries_output (h' : Stable second) (hdeclare : Carries first second (declare .putByte))
    (index : Nat) : Carries first second (output frame index) :=
  .bind (carries_element h frame) fun _ =>
  .bind hdeclare fun _ =>
  .result h' .unnamed (fun _ => rfl) fun _ =>
  .bind (carries_compare h' _ _ _ _ _) fun _ =>
  carries_faultUnless h' _ index

omit h in
/-- An input notes the call of the function that reads a byte. -/
theorem carries_input (h' : Stable second) (hdeclare : Carries first second (declare .getByte))
    (index : Nat) : Carries first second (input frame index) :=
  .bind hdeclare fun _ =>
  .result h' .unnamed (fun _ => rfl) fun _ =>
  .bind (carries_compare h' _ _ _ _ _) fun _ =>
  .bind (carries_faultUnless h' _ index) fun _ =>
  .result h' .inputByte (fun _ => rfl) fun _ =>
  .bind (carries_elementAddress h' frame) fun _ =>
  carries_store h' _ _ _

theorem carries_openLoop (index : Nat) : Carries first first (openLoop frame index) :=
  .bind (carries_element h frame) fun _ =>
  .bind (carries_compare h _ _ _ _ _) fun _ =>
  .bind (h.block .loopBody) fun _ =>
  .bind (h.block .postLoop) fun _ =>
  .bind (carries_branch h _ _ _) fun _ =>
  .bind (fun builder hbuilder => h.loops builder _ hbuilder) fun _ =>
  carries_moveTo h _

theorem carries_closeLoop (opener : Nat) : Carries first first (closeLoop frame opener) := by
  intro builder hbuilder
  have hget : (get : Build Builder) builder = (builder, builder) := rfl
  cases hfind : builder.loops.find? (·.opener = opener) with
  | none =>
    simp only [closeLoop, bind_eq hget, hfind]
    exact hbuilder
  | some loop =>
    simp only [closeLoop, bind_eq hget, hfind]
    have hrest := Carries.bind (carries_element h frame) fun (result : Name × Name) =>
      Carries.bind (carries_compare h .compareZero .notEqual .byte result.2 0) fun isNonzero =>
      Carries.bind (carries_branch h isNonzero loop.body loop.after) fun _ =>
      carries_moveTo h loop.after
    exact hrest _ (h.loops builder _ hbuilder)

end Pieces

/-- Any instruction, if the property does not mind the note of a call either. -/
theorem carries_instruction {property : Builder → Prop} (h : Stable property)
    (hdeclare : ∀ callee, Carries property property (declare callee)) (frame : Frame) (size : Int)
    (index : Nat) (entry : Linked) :
    Carries property property (instruction frame size index entry) := by
  cases entry with
  | opener instruction target partner => exact carries_openLoop h frame index
  | closer instruction target partner => exact carries_closeLoop h frame target
  | plain instruction =>
    cases hop : instruction.op with
    | right => simpa only [Build.instruction, hop] using carries_move h frame index _ _ _ _
    | left => simpa only [Build.instruction, hop] using carries_move h frame index _ _ _ _
    | add => simpa only [Build.instruction, hop] using carries_change h frame _ _
    | sub => simpa only [Build.instruction, hop] using carries_change h frame _ _
    | output =>
      simpa only [Build.instruction, hop] using carries_output h frame h (hdeclare _) index
    | input => simpa only [Build.instruction, hop] using carries_input frame h (hdeclare _) index
    | loopStart => simpa only [Build.instruction, hop] using Carries.pure ()
    | loopEnd => simpa only [Build.instruction, hop] using Carries.pure ()

theorem carries_instructions {property : Builder → Prop} (h : Stable property)
    (hdeclare : ∀ callee, Carries property property (declare callee)) (frame : Frame) (size : Int)
    (index : Nat) (entries : List Linked) :
    Carries property property (instructions frame size index entries) := by
  induction entries generalizing index with
  | nil => exact .pure ()
  | cons entry entries ih =>
    exact .bind (carries_instruction h hdeclare frame size index entry) fun _ => ih (index + 1)

end Build

/-! ## Names -/

/-- The names that a block being filled gives: its own, and those of the results of its
instructions. -/
def OpenBlock.names (block : OpenBlock) : List Name :=
  block.label :: results block.code.toList

/-- Adding an instruction to one of some blocks gives the name of its result. -/
theorem perm_flatMap_modify (blocks : List OpenBlock) (position : Nat) (instr : Instr) :
    ((blocks.modify position fun block => { block with code := block.code.push instr }).flatMap
        OpenBlock.names).Perm
      ((if position < blocks.length then instr.result?.toList else []) ++
        blocks.flatMap OpenBlock.names) := by
  induction blocks generalizing position with
  | nil => simp
  | cons block rest ih =>
    cases position with
    | zero =>
      have hnames : OpenBlock.names { block with code := block.code.push instr } =
          block.names ++ instr.result?.toList := by
        cases hresult : instr.result? <;> simp [OpenBlock.names, results, hresult]
      simp only [List.modify_zero_cons, List.flatMap_cons, hnames, List.length_cons,
        Nat.zero_lt_succ, if_true, List.append_assoc]
      exact List.perm_append_comm_assoc ..
    | succ position =>
      simp only [List.modify_succ_cons, List.flatMap_cons, List.length_cons,
        Nat.succ_lt_succ_iff]
      exact ((ih position).append_left block.names).trans (List.perm_append_comm_assoc ..)

namespace Builder

/-- The names given to blocks and to values so far. -/
def given (builder : Builder) : List Name := builder.blocks.toList.flatMap OpenBlock.names

/-- Apart from some names that stand in no block, all names given are distinct, and all come before
those still to be given. -/
structure Named (reserved : List Name) (builder : Builder) : Prop where
  /-- No name is given twice. -/
  distinct : (reserved ++ builder.given).Nodup
  /-- The names are not given again. -/
  below : ∀ name ∈ reserved ++ builder.given, name.serial < builder.names.serial name.stem

namespace Named

variable {reserved : List Name} {builder : Builder}

/-- A fresh name stands in no block yet. -/
theorem fresh (h : Named reserved builder) (stem : Stem) :
    Named ((Build.fresh stem builder).1 :: reserved) (Build.fresh stem builder).2 where
  distinct := by
    refine List.nodup_cons.mpr ⟨fun hmem => ?_, h.distinct⟩
    exact absurd (h.below _ hmem) (Nat.lt_irrefl _)
  below name hname := by
    show name.serial < (builder.names.fresh stem).2.serial name.stem
    rw [NameSupply.serial_fresh]
    rcases List.mem_cons.mp hname with rfl | hname
    · exact (if_pos rfl).symm ▸ Nat.lt_succ_self _
    · have hbelow := h.below name hname
      split
      next hstem => exact Nat.lt_succ_of_lt (hstem ▸ hbelow)
      next => exact hbelow

/-- A name that is no longer kept aside is left out. -/
theorem of_cons {name : Name} (h : Named (name :: reserved) builder) : Named reserved builder :=
  ⟨(List.nodup_cons.mp h.distinct).2, fun other hother =>
    h.below other (List.mem_cons_of_mem name hother)⟩

/-- The result of an instruction that is added was kept aside for it. -/
theorem push {instr : Instr} (h : Named (instr.result?.toList ++ reserved) builder) :
    Named reserved (Build.push instr builder).2 := by
  have hperm : (Build.push instr builder).2.given.Perm
      ((if builder.position < builder.blocks.toList.length then instr.result?.toList else []) ++
        builder.given) := by
    have hmodify := perm_flatMap_modify builder.blocks.toList builder.position instr
    rw [← Array.toList_modify] at hmodify
    exact hmodify
  -- the names are the old ones and, if the block exists, that of the result
  have hsub : ((if builder.position < builder.blocks.toList.length then instr.result?.toList
      else []) ++ (reserved ++ builder.given)).Sublist
        (instr.result?.toList ++ reserved ++ builder.given) := by
    rw [List.append_assoc]
    split
    · exact List.Sublist.refl _
    · exact List.sublist_append_right _ _
  have hall := (hperm.append_left reserved).trans (List.perm_append_comm_assoc ..)
  exact ⟨hall.nodup_iff.mpr (h.distinct.sublist hsub), fun name hname =>
    h.below name (hsub.subset (hall.mem_iff.mp hname))⟩

end Named

/-- Every step of a build keeps the names distinct. -/
theorem stable_named (reserved : List Name) : Stable (Named reserved) where
  result stem instr hresult builder h := by
    refine Named.push ?_
    rw [hresult]
    exact h.fresh stem
  effect instr hresult builder h := by
    have hskip : Named (instr.result?.toList ++ reserved) (Build.fresh .unnamed builder).2 := by
      rw [hresult]
      exact (h.fresh .unnamed).of_cons
    exact hskip.push
  block stem builder h := by
    have hfresh := h.fresh stem
    have hgiven : (createBlock stem builder).2.given =
        (Build.fresh stem builder).2.given ++ [(Build.fresh stem builder).1] := by
      show ((Build.fresh stem builder).2.blocks.push _).toList.flatMap OpenBlock.names = _
      rw [Array.toList_push, List.flatMap_append]
      rfl
    have hperm : (reserved ++ (createBlock stem builder).2.given).Perm
        ((Build.fresh stem builder).1 :: (reserved ++ (Build.fresh stem builder).2.given)) := by
      rw [hgiven, ← List.append_assoc]
      exact List.perm_append_singleton _ _
    exact ⟨hperm.nodup_iff.mpr hfresh.distinct, fun name hname =>
      hfresh.below name (hperm.mem_iff.mp hname)⟩
  position _ _ h := ⟨h.distinct, h.below⟩
  loops _ _ h := ⟨h.distinct, h.below⟩

theorem carries_named_declare (reserved : List Name) (callee : Callee) :
    Carries (Named reserved) (Named reserved) (declare callee) := by
  intro builder h
  rw [declare_eq]
  split
  · exact h
  · exact ⟨h.distinct, h.below⟩

end Builder

section Compiled

open Builder

variable (program : LinkedProgram) (size : Int)

/-- The names of the first block are distinct from that of the tape. -/
theorem named_entryBuilder : Named [frame.tape] entryBuilder := by
  have hempty : Named [] {} := ⟨List.nodup_nil, fun name hname => by cases hname⟩
  have htape : (fresh .unnamed {}).1 = frame.tape := by
    show Name.mk .unnamed (NameSupply.serial {} .unnamed) = _
    rw [NameSupply.serial_empty]
    rfl
  have htape' : Carries (· = {}) (Named [frame.tape]) (fresh .unnamed) := by
    rintro _ rfl
    have hfresh := hempty.fresh .unnamed
    rwa [htape] at hfresh
  have hstable := stable_named [frame.tape]
  have hentry : Carries (· = {}) (Named [frame.tape]) entry :=
    .bind htape' fun _ =>
    .bind (.bind (fun _ h => (h.fresh .unnamed).of_cons) fun _ => .pure ()) fun _ =>
    .bind (hstable.block .entry) fun _ =>
    .bind (carries_moveTo hstable _) fun _ =>
    .result hstable .unnamed (fun _ => rfl) fun _ =>
    .bind (carries_store hstable _ _ _) fun _ => .pure _
  exact hentry {} rfl

/-- The names of the whole build are distinct. -/
theorem named_completed : Named [frame.tape] (completed program size) := by
  have hstable := stable_named [frame.tape]
  exact carries_ret hstable noFault _
    (carries_instructions hstable (carries_named_declare _) frame size 0 _ _ named_entryBuilder)

theorem names_compile :
    (compile program size).function.names = frame.tape :: (completed program size).given := by
  simp only [Function.names, compile, StateT.run, function_eq, given,
    Array.toList_map, List.flatMap_map]
  rfl

/-- No two blocks and values of a compiled function have the same name. -/
theorem nodup_names_compile : (compile program size).function.names.Nodup := by
  rw [names_compile]
  exact (named_completed program size).distinct

end Compiled

/-! ## Declarations -/

/-- The function that the code of an operation calls. -/
def callee? : Op → Option Callee
  | .output => some .putByte
  | .input => some .getByte
  | _ => none

/-- The declarations are those that some operations need, each of them once. -/
structure Declares (ops : List Op) (declarations : List Callee) : Prop where
  /-- No function is declared twice. -/
  once : declarations.Nodup
  /-- A function is declared exactly if an operation needs it. -/
  needed : ∀ callee, callee ∈ declarations ↔ ∃ op ∈ ops, callee? op = some callee

/-- A property of the declarations minds nothing but the note of a call. -/
theorem Builder.stable_declarations (property : List Callee → Prop) :
    Builder.Stable fun builder => property builder.declarations where
  result _ _ _ _ h := h
  effect _ _ _ h := h
  block _ _ h := h
  position _ _ h := h
  loops _ _ h := h

namespace Declares

variable {ops : List Op} {declarations : List Callee} {op : Op} {callee : Callee}

/-- An operation that calls nothing needs no declaration. -/
theorem append_of_none (h : Declares ops declarations) (hop : callee? op = none) :
    Declares (ops ++ [op]) declarations :=
  ⟨h.once, fun callee => by simp [h.needed, hop]⟩

/-- A function that is called is declared, if it was not. -/
theorem append_of_some (h : Declares ops declarations) (hop : callee? op = some callee) :
    Declares (ops ++ [op])
      (if callee ∈ declarations then declarations else declarations ++ [callee]) := by
  split
  next hmem =>
    refine ⟨h.once, fun other => ?_⟩
    rw [h.needed] at hmem ⊢
    constructor
    · rintro ⟨op', hop', hcallee⟩
      exact ⟨op', List.mem_append_left _ hop', hcallee⟩
    · rintro ⟨op', hop', hcallee⟩
      rcases List.mem_append.mp hop' with hop' | hop'
      · exact ⟨op', hop', hcallee⟩
      · rw [List.mem_singleton.mp hop', hop, Option.some.injEq] at hcallee
        exact hcallee ▸ hmem
  next hmem =>
    refine ⟨List.nodup_append.mpr ⟨h.once, by simp, ?_⟩, fun other => ?_⟩
    · rintro first hfirst second hsecond rfl
      exact hmem (List.mem_singleton.mp hsecond ▸ hfirst)
    · simp [h.needed, or_and_right, exists_or, hop, eq_comm]

/-- The code of an instruction needs the declarations of its operation. -/
theorem instruction {builder : Builder} {entry : Linked} (h : Declares ops builder.declarations)
    (hbracket : (∃ instruction, entry = .plain instruction) ∨ callee? entry.op = none)
    (frame : Frame) (size : Int) (index : Nat) :
    Declares (ops ++ [entry.op])
      ((Build.instruction frame size index entry) builder).2.declarations := by
  have hstable := Builder.stable_declarations (Declares (ops ++ [entry.op]))
  -- the first use of a function declares it, later ones find it declared
  have hdeclare {callee : Callee} (hop : callee? entry.op = some callee) :
      Carries (fun builder => Declares ops builder.declarations)
        (fun builder => Declares (ops ++ [entry.op]) builder.declarations) (declare callee) := by
    intro builder hbuilder
    have hafter := hbuilder.append_of_some hop
    rw [declare_eq]
    split at hafter <;> simp_all
  cases entry with
  | opener instruction target partner =>
    have hop := hbracket.resolve_left (by simp)
    exact carries_openLoop hstable frame index builder (h.append_of_none hop)
  | closer instruction target partner =>
    have hop := hbracket.resolve_left (by simp)
    exact carries_closeLoop hstable frame target builder (h.append_of_none hop)
  | plain instruction =>
    have hentry : (Linked.plain instruction).op = instruction.op := rfl
    cases hop : instruction.op with
    | output =>
      simp only [Build.instruction, hop]
      exact carries_output (Builder.stable_declarations (Declares ops)) frame hstable
        (hdeclare (by rw [hentry, hop]; rfl)) index builder h
    | input =>
      simp only [Build.instruction, hop]
      exact carries_input frame hstable (hdeclare (by rw [hentry, hop]; rfl)) index builder h
    | right =>
      simp only [Build.instruction, hop]
      exact carries_move hstable frame index _ _ _ _ builder
        (h.append_of_none (by rw [hentry, hop]; rfl))
    | left =>
      simp only [Build.instruction, hop]
      exact carries_move hstable frame index _ _ _ _ builder
        (h.append_of_none (by rw [hentry, hop]; rfl))
    | add =>
      simp only [Build.instruction, hop]
      exact carries_change hstable frame _ _ builder (h.append_of_none (by rw [hentry, hop]; rfl))
    | sub =>
      simp only [Build.instruction, hop]
      exact carries_change hstable frame _ _ builder (h.append_of_none (by rw [hentry, hop]; rfl))
    | loopStart =>
      simp only [Build.instruction, hop]
      exact h.append_of_none (by rw [hentry, hop]; rfl)
    | loopEnd =>
      simp only [Build.instruction, hop]
      exact h.append_of_none (by rw [hentry, hop]; rfl)

/-- The code of instructions needs the declarations of their operations. -/
theorem instructions {builder : Builder} {entries : List Linked}
    (h : Declares ops builder.declarations)
    (hbrackets : ∀ entry ∈ entries,
      (∃ instruction, entry = .plain instruction) ∨ callee? entry.op = none)
    (frame : Frame) (size : Int) (index : Nat) :
    Declares (ops ++ entries.map Linked.op)
      ((Build.instructions frame size index entries) builder).2.declarations := by
  induction entries generalizing ops builder index with
  | nil =>
    rw [List.map_nil, List.append_nil]
    exact h
  | cons entry entries ih =>
    have hfirst := h.instruction (hbrackets entry List.mem_cons_self) frame size index
    have hrest := ih hfirst (fun other hother => hbrackets other (List.mem_cons_of_mem _ hother))
      (index + 1)
    rw [List.append_assoc] at hrest
    exact hrest

end Declares

/-- The functions declared in compiled code are those that the operations of the program need. -/
theorem declares_compile {source : Program} {program : LinkedProgram}
    (hlink : source.link = .ok program) (size : Int) :
    Declares (source.instructions.map (·.op)) (compile program size).declarations := by
  have hpaired := Program.paired_of_link_eq_ok hlink
  -- brackets call no function, wherever they lead
  have hbrackets : ∀ entry ∈ program.instructions.toList,
      (∃ instruction, entry = .plain instruction) ∨ callee? entry.op = none := by
    intro entry hentry
    rw [Array.mem_toList_iff] at hentry
    cases entry with
    | plain instruction => exact .inl ⟨instruction, rfl⟩
    | opener instruction target partner =>
      rw [(hpaired.opener _ hentry).mp ⟨_, _, _, rfl⟩]
      exact .inr rfl
    | closer instruction target partner =>
      rw [(hpaired.closer _ hentry).mp ⟨_, _, _, rfl⟩]
      exact .inr rfl
  have hnone : entryBuilder.declarations = [] := rfl
  have hentry : Declares [] entryBuilder.declarations := by
    rw [hnone]
    exact ⟨List.nodup_nil, fun callee => by simp⟩
  have hall := hentry.instructions hbrackets frame size 0
  rw [← stage_size] at hall
  have hops : source.instructions.map (·.op) = [] ++ program.instructions.toList.map Linked.op := by
    rw [← hpaired.instructions, List.map_map]
    rfl
  have hdeclarations : (compile program size).declarations =
      (completed program size).declarations := by
    simp only [compile, StateT.run, function_eq]
  rw [hops, hdeclarations]
  exact carries_ret (Builder.stable_declarations _) noFault _ hall

end Brainfuck.Native
