import Brainfuck.Proofs.Tree
import Mathlib.Data.List.Basic

/-! # The places of the instructions of a source

Reading a source goes from symbol to symbol with the place of the next one. What is read can also be
told offset by offset: the operation is that of the symbol, and the place is what the symbols before
it have led to. For bytes that place follows from the line ends before an offset alone, their number
for the line and the last of them for the column.

Main definitions: `Reader`, `lineAt`, `columnAt`, `instructionAtOffset?`, `Located`. Main statement:
`located_ofSource`. -/

namespace Brainfuck

/-! ## Reading symbols -/

/-- A way to read symbols: the operation that a symbol writes, and the place after it. -/
structure Reader (α : Type) where
  /-- The operation that a symbol writes. -/
  op? : α → Option Op
  /-- The place after a symbol. -/
  advance : Cursor → α → Cursor

namespace Reader

variable {α : Type} (reader : Reader α)

/-- The place after some symbols. -/
def after (cursor : Cursor) (symbols : List α) : Cursor :=
  symbols.foldl reader.advance cursor

/-- The instructions of the symbols that start at a place. -/
def read (cursor : Cursor) : List α → List Instruction
  | [] => []
  | symbol :: rest =>
    (reader.op? symbol).toList.map cursor.instruction ++ read (reader.advance cursor symbol) rest

/-- The instruction that the symbol at an index writes. -/
def instruction? (cursor : Cursor) (symbols : List α) (index : Nat) : Option Instruction := do
  let symbol ← symbols[index]?
  let op ← reader.op? symbol
  return (reader.after cursor (symbols.take index)).instruction op

@[simp] theorem after_nil (cursor : Cursor) : reader.after cursor [] = cursor := rfl

@[simp] theorem after_cons (cursor : Cursor) (symbol : α) (rest : List α) :
    reader.after cursor (symbol :: rest) = reader.after (reader.advance cursor symbol) rest := rfl

theorem after_append (cursor : Cursor) (first second : List α) :
    reader.after cursor (first ++ second) = reader.after (reader.after cursor first) second :=
  List.foldl_append

@[simp] theorem read_nil (cursor : Cursor) : reader.read cursor [] = [] := rfl

theorem read_cons (cursor : Cursor) (symbol : α) (rest : List α) :
    reader.read cursor (symbol :: rest) =
      (reader.op? symbol).toList.map cursor.instruction ++
        reader.read (reader.advance cursor symbol) rest := rfl

/-- The second of two parts is read from the place that the first one leads to. -/
theorem read_append (cursor : Cursor) (first second : List α) :
    reader.read cursor (first ++ second) =
      reader.read cursor first ++ reader.read (reader.after cursor first) second := by
  induction first generalizing cursor with
  | nil => rfl
  | cons symbol rest ih => rw [List.cons_append, read_cons, read_cons, ih, after_cons,
      List.append_assoc]

/-- A symbol that writes nothing is passed over. -/
theorem read_cons_of_none {cursor : Cursor} {symbol : α} (h : reader.op? symbol = none)
    (rest : List α) :
    reader.read cursor (symbol :: rest) = reader.read (reader.advance cursor symbol) rest := by
  rw [read_cons, h]
  rfl

/-- What is read is one instruction for each index whose symbol writes one, in their order. -/
theorem read_eq_filterMap (cursor : Cursor) (symbols : List α) :
    reader.read cursor symbols =
      (List.range symbols.length).filterMap (reader.instruction? cursor symbols) := by
  induction symbols generalizing cursor with
  | nil => rfl
  | cons symbol rest ih =>
    have hfirst : reader.instruction? cursor (symbol :: rest) 0 =
        (reader.op? symbol).map cursor.instruction := by
      cases h : reader.op? symbol <;> simp [instruction?, h]
    have hlater : reader.instruction? cursor (symbol :: rest) ∘ Nat.succ =
        reader.instruction? (reader.advance cursor symbol) rest := by
      funext index
      simp [instruction?]
    rw [read_cons, ih, List.length_cons, List.range_succ_eq_map, List.filterMap_cons, hfirst,
      List.filterMap_map, hlater]
    cases reader.op? symbol <;> rfl

end Reader

theorem Cursor.advance_newline (cursor : Cursor) :
    cursor.advance newline = ⟨cursor.line + 1, 1⟩ := rfl

theorem Cursor.advance_of_ne {byte : UInt8} (h : byte ≠ newline) (cursor : Cursor) :
    cursor.advance byte = ⟨cursor.line, cursor.column + 1⟩ :=
  if_neg h

/-- Sources are read byte by byte. -/
def Reader.bytes : Reader UInt8 := ⟨Op.ofByte?, Cursor.advance⟩

theorem Program.toList_scan (cursor : Cursor) (source : List UInt8) :
    (scan cursor #[] source).toList = Reader.bytes.read cursor source := by
  induction source generalizing cursor with
  | nil => rfl
  | cons byte rest ih =>
    rw [scan_cons, scan_eq_append, Reader.read_cons, Array.toList_append, ih]
    cases h : Op.ofByte? byte <;> simp [instructionAt?, Reader.bytes, Cursor.instruction, h]

theorem Program.instructions_ofSource (file : String) (source : List UInt8) :
    (ofSource file source).instructions = Reader.bytes.read .start source :=
  toList_scan .start source

/-! ## The place of a byte -/

/-- The operation that a byte writes is the one whose symbol has its code. -/
theorem Op.ofByte?_eq_find? (byte : UInt8) :
    ofByte? byte = all.find? fun op => op.symbol.toNat = byte.toNat := by
  cases h : ofByte? byte with
  | none =>
    symm
    rw [List.find?_eq_none]
    intro op _ hcode
    have hop : ofCode? (byte.toNat : Int) = some op :=
      ofCode?_eq_some_iff.mpr (congrArg Nat.cast (of_decide_eq_true hcode).symm)
    rw [ofByte?, hop] at h
    cases h
  | some op =>
    have hcode : op.symbol.toNat = byte.toNat := by
      have := ofCode?_eq_some_iff.mp h
      omega
    rw [← hcode]
    cases op <;> rfl

/-- The offsets before an offset at which lines end. -/
def lineEndsBefore (source : List UInt8) (offset : Nat) : List Nat :=
  (List.range offset).filter fun earlier => source[earlier]? = some Cursor.newline

/-- The line of the byte at an offset, counted from one: so many lines have ended before it. -/
def lineAt (source : List UInt8) (offset : Nat) : Int :=
  1 + (source.take offset).count Cursor.newline

/-- The column of the byte at an offset: its distance from the last line end before it, or from the
place in front of the source. -/
def columnAt (source : List UInt8) (offset : Nat) : Int :=
  match (lineEndsBefore source offset).getLast? with
  | some last => offset - last
  | none => offset + 1

/-- The instruction that the byte at an offset writes. -/
def instructionAtOffset? (source : List UInt8) (offset : Nat) : Option Instruction := do
  let byte ← source[offset]?
  let op ← Op.all.find? fun op => op.symbol.toNat = byte.toNat
  return ⟨op, lineAt source offset, columnAt source offset⟩

section Next

variable {source : List UInt8} {offset : Nat} {byte : UInt8}

theorem lineAt_succ (h : source[offset]? = some byte) :
    lineAt source (offset + 1) = lineAt source offset + if byte = Cursor.newline then 1 else 0 := by
  rw [lineAt, lineAt, List.take_add_one, h, List.count_append]
  by_cases hbyte : byte = Cursor.newline
  · simp [hbyte, Int.add_assoc]
  · simp [hbyte]

theorem lineEndsBefore_succ (h : source[offset]? = some byte) :
    lineEndsBefore source (offset + 1) =
      lineEndsBefore source offset ++ if byte = Cursor.newline then [offset] else [] := by
  rw [lineEndsBefore, List.range_succ, List.filter_append]
  by_cases hbyte : byte = Cursor.newline
  · simp [lineEndsBefore, h, hbyte]
  · simp [lineEndsBefore, h, hbyte]

/-- A line end starts the count of columns again. -/
theorem columnAt_succ (h : source[offset]? = some byte) :
    columnAt source (offset + 1) =
      if byte = Cursor.newline then 1 else columnAt source offset + 1 := by
  rw [columnAt, lineEndsBefore_succ h]
  by_cases hbyte : byte = Cursor.newline
  · rw [if_pos hbyte, if_pos hbyte, List.getLast?_append]
    show ((offset + 1 : Nat) : Int) - (offset : Int) = 1
    omega
  · rw [if_neg hbyte, if_neg hbyte, List.append_nil, columnAt]
    cases (lineEndsBefore source offset).getLast? with
    | none => show ((offset + 1 : Nat) : Int) + 1 = (offset : Int) + 1 + 1; omega
    | some last => show ((offset + 1 : Nat) : Int) - (last : Int) = offset - last + 1; omega

/-- The place that the bytes before an offset lead to is the line and column of that offset. -/
theorem after_take_eq (h : offset ≤ source.length) :
    Reader.bytes.after .start (source.take offset) =
      ⟨lineAt source offset, columnAt source offset⟩ := by
  induction offset with
  | zero => rfl
  | succ offset ih =>
    have hget : source[offset]? = some source[offset] := List.getElem?_eq_getElem h
    rw [List.take_add_one, Reader.after_append, ih (by omega), hget, lineAt_succ hget,
      columnAt_succ hget]
    show Cursor.advance _ source[offset] = _
    by_cases hbyte : source[offset] = Cursor.newline
    · rw [if_pos hbyte, if_pos hbyte, hbyte, Cursor.advance_newline]
    · rw [if_neg hbyte, if_neg hbyte, Cursor.advance_of_ne hbyte, Int.add_zero]

end Next

/-- What is read of a source, offset by offset. -/
theorem read_bytes_eq_filterMap (source : List UInt8) :
    Reader.bytes.read .start source =
      (List.range source.length).filterMap (instructionAtOffset? source) := by
  rw [Reader.read_eq_filterMap]
  refine List.filterMap_congr fun offset hmem => ?_
  have hle : offset ≤ source.length := Nat.le_of_lt (List.mem_range.mp hmem)
  rw [Reader.instruction?, after_take_eq hle, instructionAtOffset?]
  simp only [Reader.bytes, Op.ofByte?_eq_find?]
  rfl

/-! ## The order of the places -/

/-- One place comes before another: on an earlier line, or in an earlier column of the same. -/
def Cursor.Precedes (first second : Cursor) : Prop :=
  first.line < second.line ∨ first.line = second.line ∧ first.column < second.column

/-- One place is another one or comes before it. -/
def Cursor.UpTo (first second : Cursor) : Prop :=
  second = first ∨ first.Precedes second

/-- The place of an instruction. -/
def Instruction.cursor (instruction : Instruction) : Cursor :=
  ⟨instruction.line, instruction.column⟩

namespace Cursor

theorem Precedes.trans {first second third : Cursor} (h : first.Precedes second)
    (h' : second.Precedes third) : first.Precedes third := by
  unfold Precedes at *
  omega

theorem Precedes.trans_upTo {first second third : Cursor} (h : first.Precedes second)
    (h' : second.UpTo third) : first.Precedes third := by
  rcases h' with hsame | hlater
  · rw [hsame]
    exact h
  · exact h.trans hlater

theorem precedes_advance (cursor : Cursor) (byte : UInt8) :
    cursor.Precedes (cursor.advance byte) := by
  by_cases hbyte : byte = newline
  · rw [hbyte, advance_newline]
    exact .inl (Int.lt_succ cursor.line)
  · rw [advance_of_ne hbyte]
    exact .inr ⟨rfl, Int.lt_succ cursor.column⟩

end Cursor

namespace Reader

variable {cursor : Cursor} {instruction : Instruction}

/-- An instruction stands at the place that reading started from, or comes from what is read from
the next place on. -/
theorem mem_read_cons {byte : UInt8} {rest : List UInt8}
    (h : instruction ∈ bytes.read cursor (byte :: rest)) :
    instruction.cursor = cursor ∨ instruction ∈ bytes.read (cursor.advance byte) rest := by
  rw [read_cons, List.mem_append, List.mem_map] at h
  rcases h with ⟨op, -, rfl⟩ | h
  · exact .inl rfl
  · exact .inr h

/-- Reading leads to the place it started from, or to a later one. -/
theorem upTo_after (cursor : Cursor) (source : List UInt8) :
    cursor.UpTo (bytes.after cursor source) := by
  induction source generalizing cursor with
  | nil => exact .inl rfl
  | cons byte rest ih => exact .inr ((cursor.precedes_advance byte).trans_upTo (ih _))

/-- Instructions stand between the place that reading started from and the one it leads to. -/
theorem bounds_of_mem_read {source : List UInt8} (h : instruction ∈ bytes.read cursor source) :
    cursor.UpTo instruction.cursor ∧ instruction.cursor.Precedes (bytes.after cursor source) := by
  induction source generalizing cursor with
  | nil => cases h
  | cons byte rest ih =>
    have hnext := cursor.precedes_advance byte
    rw [after_cons]
    rcases mem_read_cons h with hhere | hlater
    · rw [hhere]
      exact ⟨.inl rfl, hnext.trans_upTo (upTo_after _ rest)⟩
    · obtain ⟨hfrom, hto⟩ := ih hlater
      exact ⟨.inr (hnext.trans_upTo hfrom), hto⟩

/-- Instructions are read in the order of their places. -/
theorem pairwise_read (cursor : Cursor) (source : List UInt8) :
    (bytes.read cursor source).Pairwise fun first second =>
      first.cursor.Precedes second.cursor := by
  induction source generalizing cursor with
  | nil => exact .nil
  | cons byte rest ih =>
    rw [read_cons]
    cases bytes.op? byte with
    | none => exact ih _
    | some op =>
      refine .cons ?_ (ih _)
      intro later hlater
      exact (cursor.precedes_advance byte).trans_upTo (bounds_of_mem_read hlater).1

/-- No instruction stands on a line before the one that reading starts on. -/
theorem line_le_of_mem_read {source : List UInt8} (h : instruction ∈ bytes.read cursor source) :
    cursor.line ≤ instruction.line := by
  rcases (bounds_of_mem_read h).1 with hsame | hline | ⟨hline, -⟩
  · exact Int.le_of_eq (congrArg Cursor.line hsame).symm
  · exact Int.le_of_lt hline
  · exact Int.le_of_eq hline

/-- Columns are counted from one on every line. -/
theorem one_le_column_of_mem_read {source : List UInt8} (hcursor : 1 ≤ cursor.column)
    (h : instruction ∈ bytes.read cursor source) : 1 ≤ instruction.column := by
  induction source generalizing cursor with
  | nil => cases h
  | cons byte rest ih =>
    rcases mem_read_cons h with hhere | hlater
    · rw [← hhere] at hcursor
      exact hcursor
    · refine ih ?_ hlater
      by_cases hbyte : byte = Cursor.newline
      · have hcolumn : (cursor.advance byte).column = 1 := by rw [hbyte, Cursor.advance_newline]
        omega
      · rw [Cursor.advance_of_ne hbyte]
        exact Int.le_add_one hcursor

end Reader

/-! ## Comments and lines -/

/-- A byte that neither writes an operation nor ends a line. -/
def IsComment (byte : UInt8) : Prop :=
  (∀ op : Op, op.symbol.toNat ≠ byte.toNat) ∧ byte ≠ Cursor.newline

/-- The instruction some lines further down. -/
def Instruction.lower (lines : Nat) (instruction : Instruction) : Instruction :=
  { instruction with line := instruction.line + lines }

namespace Reader

theorem op?_eq_none_of_isComment {byte : UInt8} (h : IsComment byte) : bytes.op? byte = none := by
  show Op.ofByte? byte = none
  rw [Op.ofByte?_eq_find?, List.find?_eq_none]
  intro op _ hcode
  exact h.1 op (of_decide_eq_true hcode)

/-- A comment only moves on to the next column. -/
theorem read_comment_cons {byte : UInt8} (h : IsComment byte) (cursor : Cursor)
    (rest : List UInt8) :
    bytes.read cursor (byte :: rest) = bytes.read ⟨cursor.line, cursor.column + 1⟩ rest := by
  rw [read_cons_of_none _ (op?_eq_none_of_isComment h)]
  exact congrArg (bytes.read · rest) (Cursor.advance_of_ne h.2 cursor)

/-- A line end only moves on to the next line. -/
theorem read_newline_cons (cursor : Cursor) (rest : List UInt8) :
    bytes.read cursor (Cursor.newline :: rest) = bytes.read ⟨cursor.line + 1, 1⟩ rest :=
  read_cons_of_none bytes rfl rest

theorem line_after (cursor : Cursor) (source : List UInt8) :
    (bytes.after cursor source).line = cursor.line + source.count Cursor.newline := by
  induction source generalizing cursor with
  | nil => simp
  | cons byte rest ih =>
    rw [after_cons, ih]
    show (cursor.advance byte).line + _ = _
    by_cases hbyte : byte = Cursor.newline
    · rw [hbyte, Cursor.advance_newline, List.count_cons_self]
      push_cast
      omega
    · rw [Cursor.advance_of_ne hbyte, List.count_cons_of_ne hbyte]

/-- The lines of what is read follow the line that reading starts on. -/
theorem read_lower (cursor : Cursor) (lines : Nat) (source : List UInt8) :
    bytes.read ⟨cursor.line + lines, cursor.column⟩ source =
      (bytes.read cursor source).map (Instruction.lower lines) := by
  induction source generalizing cursor with
  | nil => rfl
  | cons byte rest ih =>
    have hnext : bytes.advance ⟨cursor.line + lines, cursor.column⟩ byte =
        ⟨(bytes.advance cursor byte).line + lines, (bytes.advance cursor byte).column⟩ := by
      show Cursor.advance _ byte =
        ⟨(cursor.advance byte).line + lines, (cursor.advance byte).column⟩
      by_cases hbyte : byte = Cursor.newline
      · rw [hbyte, Cursor.advance_newline, Cursor.advance_newline, Int.add_right_comm]
      · rw [Cursor.advance_of_ne hbyte, Cursor.advance_of_ne hbyte]
    rw [read_cons, read_cons, hnext, ih, List.map_append, List.map_map]
    rfl

end Reader

/-! ## Sources -/

namespace Program

/-- A comment can be replaced by any other. -/
theorem ofSource_set_comment (file : String) {source : List UInt8} {offset : Nat}
    {comment comment' : UInt8} (hget : source[offset]? = some comment)
    (hcomment : IsComment comment) (hcomment' : IsComment comment') :
    ofSource file (source.set offset comment') = ofSource file source := by
  obtain ⟨hlt, hget⟩ := List.getElem?_eq_some_iff.mp hget
  have hsource : source = source.take offset ++ comment :: source.drop (offset + 1) := by
    rw [← hget, List.getElem_cons_drop, List.take_append_drop]
  have hinstructions : (ofSource file (source.set offset comment')).instructions =
      (ofSource file source).instructions := by
    rw [instructions_ofSource, instructions_ofSource, List.set_eq_take_append_cons_drop,
      if_pos hlt, Reader.read_append, Reader.read_comment_cons hcomment',
      ← Reader.read_comment_cons hcomment, ← Reader.read_append, ← hsource]
  exact congrArg (mk file) hinstructions

/-- What follows a line end is read as if it stood alone, some lines further down. -/
theorem instructions_ofSource_newline (file : String) (before after : List UInt8) :
    (ofSource file (before ++ Cursor.newline :: after)).instructions =
      (ofSource file before).instructions ++ (ofSource file after).instructions.map
        (Instruction.lower (1 + before.count Cursor.newline)) := by
  simp only [instructions_ofSource]
  have hplace : (⟨Cursor.start.line + (1 + before.count Cursor.newline : Nat), 1⟩ : Cursor) =
      ⟨(Reader.bytes.after .start before).line + 1, 1⟩ := by
    rw [Reader.line_after, Nat.add_comm, Int.natCast_add, Int.add_assoc]
    rfl
  rw [Reader.read_append, Reader.read_newline_cons, ← Reader.read_lower, ← hplace]
  rfl

end Program

/-- The instructions of a source are those of its bytes, each at the place of its offset. -/
structure Located (file : String) (source : List UInt8) : Prop where
  /-- There is one instruction for each offset whose byte writes one, in their order. -/
  instructions : (Program.ofSource file source).instructions =
    (List.range source.length).filterMap (instructionAtOffset? source)
  /-- Their places come one after another. -/
  increasing : (Program.ofSource file source).instructions.Pairwise fun first second =>
    first.line < second.line ∨ first.line = second.line ∧ first.column < second.column
  /-- Lines and columns are counted from one. -/
  positive : ∀ instruction ∈ (Program.ofSource file source).instructions,
    1 ≤ instruction.line ∧ 1 ≤ instruction.column
  /-- A comment can be replaced by any other. -/
  comments : ∀ offset comment comment', source[offset]? = some comment → IsComment comment →
    IsComment comment' →
      Program.ofSource file (source.set offset comment') = Program.ofSource file source
  /-- What follows a line end is read as if it stood alone, some lines further down. -/
  lines : ∀ before after, source = before ++ Cursor.newline :: after →
    (Program.ofSource file source).instructions =
      (Program.ofSource file before).instructions ++
        (Program.ofSource file after).instructions.map
          (Instruction.lower (1 + before.count Cursor.newline))

/-- Every source is read as its instructions, each at the place of its offset. -/
theorem located_ofSource (file : String) (source : List UInt8) : Located file source where
  instructions := by rw [Program.instructions_ofSource, read_bytes_eq_filterMap]
  increasing := by
    rw [Program.instructions_ofSource]
    exact Reader.pairwise_read .start source
  positive := by
    intro instruction hmem
    rw [Program.instructions_ofSource] at hmem
    exact ⟨Reader.line_le_of_mem_read hmem, Reader.one_le_column_of_mem_read (Int.le_refl 1) hmem⟩
  comments _ _ _ hget hcomment hcomment' :=
    Program.ofSource_set_comment file hget hcomment hcomment'
  lines := by
    rintro before after rfl
    exact Program.instructions_ofSource_newline file before after

end Brainfuck
