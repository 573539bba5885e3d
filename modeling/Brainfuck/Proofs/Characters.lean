import Brainfuck.Proofs.Reading
import Mathlib.Data.List.DropRight

/-! # Sources that are text

A text is a source through its UTF-8 encoding. Characters of the alphabet and line ends are single
bytes there, and every other character is made of bytes that are none of these. So reading the bytes
is reading the characters, where a character takes as many columns as it has bytes.

Main definitions: `utf8`, `Reader.characters`, `instructionAtCharacter?`, `Spelled`. Main statement:
`spelled_ofSource`. -/

namespace Brainfuck

/-! ## The bytes of a character -/

/-- The bytes of a text. -/
def utf8 (text : String) : List UInt8 := text.toUTF8.data.toList

theorem utf8_eq_flatMap (text : String) :
    utf8 text = text.toList.flatMap String.utf8EncodeChar := by
  rw [utf8, String.toUTF8_eq_toByteArray, ← String.utf8Encode_toList, List.utf8Encode,
    List.toList_data_toByteArray]

/-- The characters of the alphabet are in the first half of the byte range. -/
theorem Op.symbol_lt (op : Op) : op.symbol.toNat < 128 := by
  cases op <;> decide

theorem utf8EncodeChar_of_lt {c : Char} (h : c.toNat < 128) :
    String.utf8EncodeChar c = [UInt8.ofNat c.toNat] := by
  have hle : c.val.toNat ≤ 0x7f := Nat.le_of_lt_succ h
  rw [String.utf8EncodeChar]
  exact if_pos hle

/-- A character outside that half has no byte in it. -/
theorem le_of_mem_utf8EncodeChar {c : Char} (h : 128 ≤ c.toNat) {byte : UInt8}
    (hmem : byte ∈ String.utf8EncodeChar c) : 128 ≤ byte.toNat := by
  have hgt : ¬ c.val.toNat ≤ 0x7f := Nat.not_le.mpr h
  simp only [String.utf8EncodeChar, if_neg hgt] at hmem
  -- two, three or four bytes
  split at hmem
  · simp only [List.mem_cons, List.not_mem_nil, or_false] at hmem
    rcases hmem with rfl | rfl <;> rw [UInt8.toNat_ofNat'] <;> omega
  · split at hmem
    · simp only [List.mem_cons, List.not_mem_nil, or_false] at hmem
      rcases hmem with rfl | rfl | rfl <;> rw [UInt8.toNat_ofNat'] <;> omega
    · simp only [List.mem_cons, List.not_mem_nil, or_false] at hmem
      rcases hmem with rfl | rfl | rfl | rfl <;> rw [UInt8.toNat_ofNat'] <;> omega

/-- A character is a single byte with its code, or it is outside the alphabet, ends no line, and all
of its bytes are comments. -/
theorem single_or_comments (c : Char) :
    (∃ byte : UInt8, String.utf8EncodeChar c = [byte] ∧ byte.toNat = c.toNat) ∨
      ((∀ op : Op, op.symbol ≠ c) ∧ c ≠ '\n' ∧
        ∀ byte ∈ String.utf8EncodeChar c, IsComment byte) := by
  by_cases hlt : c.toNat < 128
  · refine .inl ⟨_, utf8EncodeChar_of_lt hlt, ?_⟩
    rw [UInt8.toNat_ofNat']
    omega
  · refine .inr ⟨?_, ?_, ?_⟩
    · rintro op rfl
      exact hlt op.symbol_lt
    · rintro rfl
      exact hlt (by decide)
    · intro byte hmem
      have hbyte := le_of_mem_utf8EncodeChar (Nat.le_of_not_lt hlt) hmem
      constructor
      · intro op
        have := op.symbol_lt
        omega
      · rintro rfl
        exact absurd hbyte (by decide)

/-- All bytes of a character of several bytes are comments. -/
theorem isComment_of_wide {c : Char} (h : 1 < c.utf8Size) {byte : UInt8}
    (hmem : byte ∈ String.utf8EncodeChar c) : IsComment byte := by
  rcases single_or_comments c with ⟨single, hencode, -⟩ | ⟨-, -, hcomments⟩
  · rw [← String.length_utf8EncodeChar, hencode] at h
    exact absurd h (Nat.lt_irrefl 1)
  · exact hcomments byte hmem

/-! ## Reading characters -/

/-- Texts are read character by character; a character takes as many columns as it has bytes. -/
def Reader.characters : Reader Char where
  op? c := Op.all.find? fun op => op.symbol = c
  advance cursor c :=
    if c = '\n' then ⟨cursor.line + 1, 1⟩ else ⟨cursor.line, cursor.column + c.utf8Size⟩

namespace Reader

theorem read_comments {comments : List UInt8} (h : ∀ byte ∈ comments, IsComment byte)
    (cursor : Cursor) : bytes.read cursor comments = [] := by
  induction comments generalizing cursor with
  | nil => rfl
  | cons byte rest ih =>
    obtain ⟨hbyte, hrest⟩ := List.forall_mem_cons.mp h
    rw [read_comment_cons hbyte, ih hrest]

theorem after_comments {comments : List UInt8} (h : ∀ byte ∈ comments, IsComment byte)
    (cursor : Cursor) :
    bytes.after cursor comments = ⟨cursor.line, cursor.column + comments.length⟩ := by
  induction comments generalizing cursor with
  | nil => simp
  | cons byte rest ih =>
    obtain ⟨hbyte, hrest⟩ := List.forall_mem_cons.mp h
    have hnext : bytes.advance cursor byte = ⟨cursor.line, cursor.column + 1⟩ :=
      Cursor.advance_of_ne hbyte.2 cursor
    rw [after_cons, hnext, ih hrest, List.length_cons, Int.natCast_succ, Int.add_assoc,
      Int.add_comm 1]

/-- The bytes of a character write what the character writes. -/
theorem read_utf8EncodeChar (c : Char) (cursor : Cursor) :
    bytes.read cursor (String.utf8EncodeChar c) =
      (characters.op? c).toList.map cursor.instruction := by
  rcases single_or_comments c with ⟨byte, hencode, hcode⟩ | ⟨hsymbol, -, hcomments⟩
  · have hop : bytes.op? byte = characters.op? c := by
      simp only [bytes, characters, Op.ofByte?_eq_find?, hcode, Char.toNat_inj]
    rw [hencode, read_cons, hop, read_nil, List.append_nil]
  · have hop : characters.op? c = none :=
      List.find?_eq_none.mpr fun op _ hc => hsymbol op (of_decide_eq_true hc)
    rw [hop, read_comments hcomments]
    rfl

/-- The bytes of a character lead to the place that the character leads to. -/
theorem after_utf8EncodeChar (c : Char) (cursor : Cursor) :
    bytes.after cursor (String.utf8EncodeChar c) = characters.advance cursor c := by
  have hsize := String.length_utf8EncodeChar c
  rcases single_or_comments c with ⟨byte, hencode, hcode⟩ | ⟨-, hnewline, hcomments⟩
  · rw [hencode] at hsize ⊢
    show cursor.advance byte = if c = '\n' then _ else _
    by_cases hc : c = '\n'
    · have hbyte : byte = Cursor.newline := UInt8.toNat_inj.mp (by rw [hcode, hc]; rfl)
      rw [if_pos hc, hbyte, Cursor.advance_newline]
    · have hbyte : byte ≠ Cursor.newline := by
        rintro rfl
        exact hc (Char.toNat_inj.mp hcode.symm)
      rw [if_neg hc, Cursor.advance_of_ne hbyte, ← hsize]
      rfl
  · rw [after_comments hcomments, hsize]
    exact (if_neg hnewline).symm

/-- The bytes of a text lead to the place that its characters lead to. -/
theorem after_flatMap (text : List Char) (cursor : Cursor) :
    bytes.after cursor (text.flatMap String.utf8EncodeChar) = characters.after cursor text := by
  induction text generalizing cursor with
  | nil => rfl
  | cons c rest ih =>
    rw [List.flatMap_cons, after_append, after_utf8EncodeChar, ih, after_cons]

/-- The bytes of a text write what its characters write. -/
theorem read_flatMap (text : List Char) (cursor : Cursor) :
    bytes.read cursor (text.flatMap String.utf8EncodeChar) = characters.read cursor text := by
  induction text generalizing cursor with
  | nil => rfl
  | cons c rest ih =>
    rw [List.flatMap_cons, read_append, read_utf8EncodeChar, after_utf8EncodeChar, ih, read_cons]

end Reader

/-! ## The place of a character -/

/-- The characters after the last line end. -/
def currentLine (before : List Char) : List Char := before.rtakeWhile fun c => c ≠ '\n'

/-- The number of bytes of some characters. -/
def byteLength (characters : List Char) : Nat :=
  (characters.flatMap String.utf8EncodeChar).length

@[simp] theorem byteLength_nil : byteLength [] = 0 := rfl

theorem byteLength_concat (characters : List Char) (c : Char) :
    byteLength (characters ++ [c]) = byteLength characters + c.utf8Size := by
  simp [byteLength]

/-- The place after some characters: the number of line ends among them gives the line, and the
bytes after the last of these give the column. -/
def placeAfter (before : List Char) : Cursor :=
  ⟨1 + before.count '\n', 1 + byteLength (currentLine before)⟩

/-- The instruction that the character at an index writes. -/
def instructionAtCharacter? (text : List Char) (index : Nat) : Option Instruction := do
  let c ← text[index]?
  let op ← Op.all.find? fun op => op.symbol = c
  return (placeAfter (text.take index)).instruction op

/-- Characters lead to the place after them. -/
theorem after_eq_placeAfter (before : List Char) :
    Reader.characters.after .start before = placeAfter before := by
  induction before using List.reverseRecOn with
  | nil => rfl
  | append_singleton before c ih =>
    rw [Reader.after_append, ih]
    show Reader.characters.advance _ c = _
    simp only [Reader.characters, placeAfter, currentLine, List.rtakeWhile_concat,
      List.count_append]
    by_cases hc : c = '\n'
    · simp [hc, Int.add_assoc]
    · simp [hc, byteLength_concat, Int.add_assoc]

/-- The bytes of some characters lead to the place after these. -/
theorem after_flatMap_eq_placeAfter (before : List Char) :
    Reader.bytes.after .start (before.flatMap String.utf8EncodeChar) = placeAfter before := by
  rw [Reader.after_flatMap, after_eq_placeAfter]

/-- What is read of a text, character by character. -/
theorem read_characters_eq_filterMap (text : List Char) :
    Reader.characters.read .start text =
      (List.range text.length).filterMap (instructionAtCharacter? text) := by
  rw [Reader.read_eq_filterMap]
  congr 1
  funext index
  rw [Reader.instruction?, after_eq_placeAfter, instructionAtCharacter?]
  rfl

/-! ## Characters of several bytes -/

/-- The instruction some columns further on, if it stands on the line of a place and not before
it. -/
def Instruction.moveFrom (place : Cursor) (columns : Nat) (instruction : Instruction) :
    Instruction :=
  if instruction.line = place.line ∧ place.column ≤ instruction.column then
    { instruction with column := instruction.column + columns }
  else instruction

/-- Instructions that stand before the place or on another line are not moved. -/
theorem map_moveFrom_eq_self {place : Cursor} {instructions : List Instruction}
    (h : ∀ instruction ∈ instructions,
      instruction.line = place.line → instruction.column < place.column) (columns : Nat) :
    instructions.map (Instruction.moveFrom place columns) = instructions := by
  refine (List.map_congr_left fun instruction hmem => ?_).trans (List.map_id instructions)
  refine if_neg ?_
  rintro ⟨hline, hcolumn⟩
  exact absurd (h instruction hmem hline) (Int.not_lt.mpr hcolumn)

/-- What is read of some characters stands before the place after these, and is not moved. -/
theorem map_moveFrom_read_placeAfter (before : List Char) (columns : Nat) :
    (Reader.bytes.read .start (before.flatMap String.utf8EncodeChar)).map
      (Instruction.moveFrom (placeAfter before) columns) =
        Reader.bytes.read .start (before.flatMap String.utf8EncodeChar) := by
  refine map_moveFrom_eq_self (fun instruction hmem hline => ?_) columns
  have hprecedes := (Reader.bounds_of_mem_read hmem).2
  rw [after_flatMap_eq_placeAfter] at hprecedes
  simp only [Cursor.Precedes, Instruction.cursor] at hprecedes
  omega

/-- To read from a later column moves what is read on the same line. -/
theorem Reader.read_moveFrom {place cursor : Cursor} (hline : cursor.line = place.line)
    (hcolumn : place.column ≤ cursor.column) (columns : Nat) (source : List UInt8) :
    bytes.read ⟨cursor.line, cursor.column + columns⟩ source =
      (bytes.read cursor source).map (Instruction.moveFrom place columns) := by
  induction source generalizing cursor with
  | nil => rfl
  | cons byte rest ih =>
    by_cases hbyte : byte = Cursor.newline
    · rw [hbyte, read_newline_cons, read_newline_cons, map_moveFrom_eq_self]
      -- what follows a line end stands on later lines
      intro instruction hmem hsame
      have hfrom := (bounds_of_mem_read hmem).1
      simp only [Cursor.UpTo, Cursor.Precedes, Instruction.cursor, Cursor.mk.injEq] at hfrom
      omega
    · have hnext (cursor : Cursor) :
          bytes.advance cursor byte = ⟨cursor.line, cursor.column + 1⟩ :=
        Cursor.advance_of_ne hbyte cursor
      have hhere (op : Op) : (cursor.instruction op).moveFrom place columns =
          Cursor.instruction ⟨cursor.line, cursor.column + columns⟩ op :=
        if_pos ⟨hline, hcolumn⟩
      have hrest : bytes.read ⟨cursor.line, cursor.column + 1 + columns⟩ rest =
          (bytes.read ⟨cursor.line, cursor.column + 1⟩ rest).map
            (Instruction.moveFrom place columns) :=
        @ih ⟨cursor.line, cursor.column + 1⟩ hline (Int.le_add_one hcolumn)
      rw [read_cons, read_cons, hnext, hnext, List.map_append, List.map_map, Int.add_right_comm,
        hrest]
      congr 2
      funext op
      exact (hhere op).symm

/-! ## Texts -/

/-- The instructions of a text are those of its characters, each at the place of its character. -/
structure Spelled (file text : String) : Prop where
  /-- There is one instruction for each character that writes one, in their order. -/
  instructions : (Program.ofSource file (utf8 text)).instructions =
    (List.range text.length).filterMap (instructionAtCharacter? text.toList)
  /-- A character of several bytes only moves what follows it on its line, by that many columns. -/
  wide : ∀ before c after, text.toList = before ++ c :: after → 1 < c.utf8Size →
    (Program.ofSource file (utf8 text)).instructions =
      (Program.ofSource file (utf8 (.ofList (before ++ after)))).instructions.map
        (Instruction.moveFrom (placeAfter before) c.utf8Size)

/-- Every text is read as the instructions of its characters. -/
theorem spelled_ofSource (file text : String) : Spelled file text where
  instructions := by
    rw [Program.instructions_ofSource, utf8_eq_flatMap, Reader.read_flatMap,
      read_characters_eq_filterMap, String.length_toList]
  wide := by
    intro before c after htext hwide
    have hcomments : ∀ byte ∈ String.utf8EncodeChar c, IsComment byte := fun _ hmem =>
      isComment_of_wide hwide hmem
    rw [Program.instructions_ofSource, Program.instructions_ofSource, utf8_eq_flatMap,
      utf8_eq_flatMap, htext, String.toList_ofList, List.flatMap_append, List.flatMap_append,
      List.flatMap_cons, Reader.read_append, Reader.read_append, Reader.read_append,
      Reader.read_comments hcomments, Reader.after_comments hcomments,
      after_flatMap_eq_placeAfter, String.length_utf8EncodeChar, List.nil_append, List.map_append,
      map_moveFrom_read_placeAfter, Reader.read_moveFrom rfl (Int.le_refl _)]

end Brainfuck
