import Brainfuck.Numeral
import Mathlib.Data.List.DropRight
import Mathlib.Data.Nat.Digits.Defs

/-! # Numerals are read exactly

Apart from the blanks around it, an ASCII text is a numeral if it is a sign or none and groups of
decimal digits that are joined by underscores. Exactly these texts are read, up to the limit on the
number of digits, and what is read is the positional value of the digits, whatever the groups are.

Main definitions: `trimmed`, `Numeral.Literal`, `PositiveInteger.Exact`. Main statement:
`PositiveInteger.exact_parse`. -/

namespace Brainfuck

/-! ## ASCII characters -/

/-- All characters of a text are ASCII characters. -/
def IsAscii (text : List Char) : Prop := ∀ c ∈ text, c.toNat < 128

/-- The ASCII characters that may surround a numeral. -/
def asciiBlanks : List Char := [' ', '\t', '\n', '\x0b', '\x0c', '\r']

namespace Text

theorem isBlank_iff_mem {c : Char} (h : c.toNat < 128) : isBlank c ↔ c ∈ asciiBlanks := by
  have hcodes : ∀ code < 128, isBlank (Char.ofNat code) ↔ Char.ofNat code ∈ asciiBlanks := by
    decide
  rw [← Char.ofNat_toNat c]
  exact hcodes c.toNat h

theorem lt_of_mem_asciiBlanks {c : Char} (h : c ∈ asciiBlanks) : c.toNat < 128 := by
  have hall : asciiBlanks.all (·.toNat < 128) := by decide
  exact of_decide_eq_true (List.all_eq_true.mp hall c h)

theorem char_isDigit_iff {c : Char} : c.isDigit ↔ 48 ≤ c.toNat ∧ c.toNat < 58 := by
  rw [Char.isDigit, Bool.and_eq_true, decide_eq_true_iff, decide_eq_true_iff, ge_iff_le,
    UInt32.le_iff_toNat_le, UInt32.le_iff_toNat_le, Nat.lt_succ_iff]
  rfl

/-- The digits of the other scripts come after the ASCII characters. -/
theorem digitValue?_of_lt {c : Char} (h : c.toNat < 128) :
    digitValue? c = if c.isDigit then some (c.toNat - '0'.toNat) else none := by
  have hzeros : digitZeros = 48 :: digitZeros.tail := rfl
  have hothers : ∀ first ∈ digitZeros.tail, 128 ≤ first := by decide
  by_cases hdigit : c.isDigit
  · have hrange := char_isDigit_iff.mp hdigit
    rw [digitValue?, hzeros, List.find?_cons_of_pos (by simpa using hrange), if_pos hdigit]
    rfl
  · have hrange := mt char_isDigit_iff.mpr hdigit
    have hnone : digitZeros.tail.find? (fun first => first ≤ c.toNat && c.toNat < first + 10) =
        none := by
      refine List.find?_eq_none.mpr fun first hfirst => ?_
      have := hothers first hfirst
      simp only [Bool.and_eq_true, decide_eq_true_eq]
      omega
    rw [digitValue?, hzeros, List.find?_cons_of_neg (by simpa using hrange), hnone, if_neg hdigit]

end Text

/-! ## Blanks around a text -/

/-- A text without the ASCII blanks at its ends. -/
def trimmed (text : List Char) : List Char :=
  (text.dropWhile (· ∈ asciiBlanks)).rdropWhile (· ∈ asciiBlanks)

/-- A text is what is left of it with blanks around. -/
theorem exists_eq_append_trimmed (text : List Char) :
    ∃ front back, front ⊆ asciiBlanks ∧ back ⊆ asciiBlanks ∧
      text = front ++ trimmed text ++ back := by
  refine ⟨text.takeWhile (· ∈ asciiBlanks),
    (text.dropWhile (· ∈ asciiBlanks)).rtakeWhile (· ∈ asciiBlanks), ?_, ?_, ?_⟩
  · intro c hc
    simpa using List.mem_takeWhile_imp hc
  · intro c hc
    simpa using List.mem_rtakeWhile_imp hc
  · rw [trimmed, List.append_assoc, List.rdropWhile_append_rtakeWhile,
      List.takeWhile_append_dropWhile]

/-- Of a text without blanks, only the blanks around it are taken off. -/
theorem trimmed_append {front text back : List Char} (hfront : front ⊆ asciiBlanks)
    (hback : back ⊆ asciiBlanks) (hne : text ≠ []) (htext : ∀ c ∈ text, c ∉ asciiBlanks) :
    trimmed (front ++ text ++ back) = text := by
  obtain ⟨first, rest, rfl⟩ := List.exists_cons_of_ne_nil hne
  have hfirst : first ∉ asciiBlanks := htext first List.mem_cons_self
  have hleft : (front ++ (first :: rest) ++ back).dropWhile (· ∈ asciiBlanks) =
      (first :: rest) ++ back := by
    rw [List.append_assoc, List.dropWhile_append_of_pos (fun c hc => decide_eq_true (hfront hc)),
      List.cons_append, List.dropWhile_cons_of_neg (by simpa using hfirst)]
  have hlast : (first :: rest).rdropWhile (· ∈ asciiBlanks) = first :: rest :=
    List.rdropWhile_eq_self_iff.mpr fun hne => by
      simpa using htext _ (List.getLast_mem hne)
  rw [trimmed, hleft, List.rdropWhile, List.reverse_append,
    List.dropWhile_append_of_pos (fun c hc => decide_eq_true (hback (List.mem_reverse.mp hc)))]
  exact hlast

namespace Numeral

/-! ## Groups of digits -/

/-- The value of a decimal digit, as its place among the digits. -/
def digit (c : Char) : Nat := c.toNat - '0'.toNat

theorem ne_underscore_of_isDigit {c : Char} (h : c.isDigit) : c ≠ '_' := by
  rintro rfl
  exact absurd h (by decide)

theorem digitValue?_of_isDigit {c : Char} (h : c.isDigit) :
    Text.digitValue? c = some (digit c) := by
  have hrange := Text.char_isDigit_iff.mp h
  rw [Text.digitValue?_of_lt (by omega), if_pos h]
  rfl

theorem isBody_iff {c : Char} (h : c.toNat < 128) : isBody c ↔ c = '_' ∨ c.isDigit := by
  have hdigit : Text.isDigit c = c.isDigit := by
    rw [Text.isDigit, Text.digitValue?_of_lt h]
    cases c.isDigit <;> rfl
  simp [isBody, hdigit]

/-- A blank ends the digits. -/
theorem not_isBody_of_mem {c : Char} (h : c ∈ asciiBlanks) : ¬isBody c := by
  have hall : asciiBlanks.all (!isBody ·) := by decide
  simpa using List.all_eq_true.mp hall c h

theorem intercalate_nil_cons (group : List Char) (groups : List (List Char)) :
    ['_'].intercalate ([] :: group :: groups) = '_' :: ['_'].intercalate (group :: groups) := by
  simp [List.intercalate_cons_cons]

theorem intercalate_cons_group (c : Char) (group : List Char) (groups : List (List Char)) :
    ['_'].intercalate ((c :: group) :: groups) = c :: ['_'].intercalate (group :: groups) := by
  cases groups <;> simp [List.intercalate_cons_cons]

theorem underscoresBetween_underscore (afterDigit : Bool) (rest : List Char) :
    underscoresBetween afterDigit ('_' :: rest) = (afterDigit && underscoresBetween false rest) :=
  rfl

theorem underscoresBetween_digit {c : Char} (h : c.isDigit) (afterDigit : Bool) (rest : List Char) :
    underscoresBetween afterDigit (c :: rest) = underscoresBetween true rest := by
  rw [underscoresBetween]
  exact ne_underscore_of_isDigit h

/-- What holds of no digits, and goes on to hold with one more underscore or digit in front, holds
of all groups. -/
theorem groups_induction {motive : List Char → List (List Char) → Prop} (last : motive [] [])
    (underscore : ∀ group groups, motive group groups → motive [] (group :: groups))
    (digit : ∀ c group groups, motive group groups → motive (c :: group) groups)
    (group : List Char) (groups : List (List Char)) : motive group groups := by
  induction groups generalizing group with
  | nil =>
    induction group with
    | nil => exact last
    | cons c group ih => exact digit c group [] ih
  | cons next groups ihgroups =>
    induction group with
    | nil => exact underscore next groups (ihgroups next)
    | cons c group ih => exact digit c group (next :: groups) ih

theorem mem_intercalate {c : Char} (group : List Char) (groups : List (List Char))
    (h : c ∈ ['_'].intercalate (group :: groups)) :
    c = '_' ∨ c ∈ (group :: groups).flatten := by
  induction group, groups using groups_induction with
  | last => simp at h
  | underscore group groups ih =>
    rw [intercalate_nil_cons, List.mem_cons] at h
    exact h.elim .inl ih
  | digit first group groups ih =>
    rw [intercalate_cons_group, List.mem_cons] at h
    rw [List.flatten_cons, List.cons_append, List.mem_cons, or_left_comm]
    exact h.imp_right ih

/-- The digits of groups that are joined are those of the groups. -/
theorem digitValues_intercalate (group : List Char) (groups : List (List Char))
    (hdigits : ∀ c ∈ (group :: groups).flatten, c.isDigit) :
    digitValues (['_'].intercalate (group :: groups)) = (group :: groups).flatten.map digit := by
  induction group, groups using groups_induction with
  | last => rfl
  | underscore group groups ih =>
    have hnone : Text.digitValue? '_' = none := by decide
    rw [intercalate_nil_cons, digitValues, List.filterMap_cons_none hnone]
    exact ih hdigits
  | digit c group groups ih =>
    rw [List.flatten_cons, List.cons_append, List.forall_mem_cons] at hdigits
    rw [intercalate_cons_group, digitValues,
      List.filterMap_cons_some (digitValue?_of_isDigit hdigits.1)]
    exact congrArg (digit c :: ·) (ih hdigits.2)

/-- Groups of digits that are joined have their underscores between digits. -/
theorem underscoresBetween_intercalate (group : List Char) (groups : List (List Char))
    {afterDigit : Bool} (hgroup : afterDigit = false → group ≠ []) (hgroups : [] ∉ groups)
    (hdigits : ∀ c ∈ (group :: groups).flatten, c.isDigit) :
    underscoresBetween afterDigit (['_'].intercalate (group :: groups)) := by
  induction group, groups using groups_induction generalizing afterDigit with
  | last =>
    cases afterDigit with
    | false => exact absurd rfl (hgroup rfl)
    | true => rfl
  | underscore group groups ih =>
    rw [List.mem_cons, not_or] at hgroups
    cases afterDigit with
    | false => exact absurd rfl (hgroup rfl)
    | true =>
      rw [intercalate_nil_cons, underscoresBetween_underscore, Bool.true_and]
      exact ih (fun _ => Ne.symm hgroups.1) hgroups.2 hdigits
  | digit c group groups ih =>
    rw [List.flatten_cons, List.cons_append, List.forall_mem_cons] at hdigits
    rw [intercalate_cons_group, underscoresBetween_digit hdigits.1]
    exact ih nofun hgroups hdigits.2

/-- A text of digits and underscores between these is made of groups of digits. -/
theorem exists_groups {body : List Char} {afterDigit : Bool}
    (hbody : ∀ c ∈ body, c = '_' ∨ c.isDigit) (h : underscoresBetween afterDigit body) :
    ∃ group groups, body = ['_'].intercalate (group :: groups) ∧
      (afterDigit = false → group ≠ []) ∧ [] ∉ groups ∧
        ∀ c ∈ (group :: groups).flatten, c.isDigit := by
  induction body generalizing afterDigit with
  | nil => exact ⟨[], [], rfl, by simp_all [underscoresBetween], by simp, by simp⟩
  | cons c rest ih =>
    obtain ⟨hc, hrest⟩ := List.forall_mem_cons.mp hbody
    rcases hc with rfl | hdigit
    · -- the digits before the underscore are still to come, so their group is empty
      rw [underscoresBetween_underscore, Bool.and_eq_true] at h
      obtain ⟨group, groups, rfl, hgroup, hgroups, hdigits⟩ := ih hrest h.2
      refine ⟨[], group :: groups, (intercalate_nil_cons group groups).symm, by simp [h.1], ?_,
        by simpa using hdigits⟩
      rw [List.mem_cons, not_or]
      exact ⟨(hgroup rfl).symm, hgroups⟩
    · rw [underscoresBetween_digit hdigit] at h
      obtain ⟨group, groups, rfl, -, hgroups, hdigits⟩ := ih hrest h
      refine ⟨c :: group, groups, (intercalate_cons_group c group groups).symm, by simp, hgroups,
        ?_⟩
      rw [List.flatten_cons, List.cons_append, List.forall_mem_cons]
      exact ⟨hdigit, hdigits⟩

/-- The number that digits write is their positional value. -/
theorem value_eq_ofDigits (digits : List Nat) : value digits = Nat.ofDigits 10 digits.reverse := by
  induction digits using List.reverseRecOn with
  | nil => rfl
  | append_singleton digits digit ih =>
    rw [value, List.foldl_append, ← value, ih, List.reverse_append, List.reverse_singleton,
      List.singleton_append, Nat.ofDigits_cons, Nat.add_comm]
    rfl

/-! ## Literals -/

/-- What stands before the digits of a numeral. -/
inductive Sign where
  /-- There is no sign. -/
  | absent
  /-- A plus sign. -/
  | plus
  /-- A minus sign. -/
  | minus
deriving DecidableEq, Repr

namespace Sign

/-- How a sign is written. -/
def text : Sign → List Char
  | absent => []
  | plus => ['+']
  | minus => ['-']

/-- The integer with a given sign and magnitude. -/
def apply (sign : Sign) (magnitude : Nat) : Int :=
  if sign = minus then -magnitude else magnitude

theorem ascii_and_not_blank_of_mem_text (sign : Sign) :
    ∀ c ∈ sign.text, c.toNat < 128 ∧ c ∉ asciiBlanks := by
  intro c hc
  cases sign with
  | absent => cases hc
  | plus =>
    obtain rfl := List.mem_singleton.mp hc
    decide
  | minus =>
    obtain rfl := List.mem_singleton.mp hc
    decide

end Sign

theorem splitSign_digit {c : Char} (h : c.isDigit) (rest : List Char) :
    splitSign (c :: rest) = (false, c :: rest) := by
  rw [splitSign]
  · rintro _ ⟨⟩
    exact absurd h (by decide)
  · rintro _ ⟨⟩
    exact absurd h (by decide)

/-- What is left when a sign is taken off a text had a sign or none before it. -/
theorem exists_sign_append {text rest : List Char} {negative : Bool}
    (h : splitSign text = (negative, rest)) : ∃ sign : Sign, text = sign.text ++ rest := by
  unfold splitSign at h
  split at h <;> obtain ⟨rfl, rfl⟩ := Prod.mk.injEq .. ▸ h
  · exact ⟨.minus, rfl⟩
  · exact ⟨.plus, rfl⟩
  · exact ⟨.absent, rfl⟩

/-- A sign or none, and groups of digits that are joined by underscores. -/
structure Literal where
  /-- The sign. -/
  sign : Sign
  /-- The digits before the first underscore. -/
  first : List Char
  /-- The digits after each underscore, up to the next one. -/
  others : List (List Char)
  /-- There are digits on both sides of an underscore. -/
  nonempty : [] ∉ first :: others
  /-- All of them are decimal digits. -/
  isDigit : ∀ c ∈ (first :: others).flatten, c.isDigit

namespace Literal

/-- What stands after the sign. -/
def body (literal : Literal) : List Char :=
  ['_'].intercalate (literal.first :: literal.others)

/-- How a literal is written. -/
def text (literal : Literal) : List Char := literal.sign.text ++ literal.body

/-- The digits of a literal. -/
def digits (literal : Literal) : List Char := (literal.first :: literal.others).flatten

/-- The integer that a literal stands for: the positional value of its digits, with its sign. -/
def value (literal : Literal) : Int :=
  literal.sign.apply (Nat.ofDigits 10 (literal.digits.map digit).reverse)

/-- What stands after the sign begins with a digit. -/
theorem exists_body_eq_cons (literal : Literal) :
    ∃ c rest, c.isDigit ∧ literal.body = c :: rest := by
  obtain ⟨sign, first, others, nonempty, isDigit⟩ := literal
  cases first with
  | nil => exact absurd List.mem_cons_self nonempty
  | cons c group =>
    exact ⟨c, _, isDigit c List.mem_cons_self, intercalate_cons_group c group others⟩

/-- What stands after the sign are ASCII characters that can occur among digits. -/
theorem ascii_and_isBody_of_mem_body (literal : Literal) {c : Char} (h : c ∈ literal.body) :
    c.toNat < 128 ∧ isBody c := by
  have hc : c = '_' ∨ c.isDigit :=
    (mem_intercalate literal.first literal.others h).imp_right (literal.isDigit c)
  have hascii : c.toNat < 128 := by
    rcases hc with rfl | hdigit
    · decide
    · have := Text.char_isDigit_iff.mp hdigit
      omega
  exact ⟨hascii, (isBody_iff hascii).mpr hc⟩

/-- The characters of a literal are ASCII characters and no blanks. -/
theorem ascii_and_not_blank_of_mem_text (literal : Literal) {c : Char} (h : c ∈ literal.text) :
    c.toNat < 128 ∧ c ∉ asciiBlanks := by
  rcases List.mem_append.mp h with hsign | hbody
  · exact literal.sign.ascii_and_not_blank_of_mem_text c hsign
  · obtain ⟨hascii, hbody⟩ := literal.ascii_and_isBody_of_mem_body hbody
    exact ⟨hascii, fun hblank => not_isBody_of_mem hblank hbody⟩

theorem text_ne_nil (literal : Literal) : literal.text ≠ [] := by
  obtain ⟨c, rest, -, hbody⟩ := literal.exists_body_eq_cons
  rw [text, hbody]
  exact List.append_ne_nil_of_right_ne_nil _ (List.cons_ne_nil c rest)

theorem trimmed_append_text (literal : Literal) {front back : List Char}
    (hfront : front ⊆ asciiBlanks) (hback : back ⊆ asciiBlanks) :
    trimmed (front ++ literal.text ++ back) = literal.text :=
  trimmed_append hfront hback literal.text_ne_nil fun _ hc =>
    (literal.ascii_and_not_blank_of_mem_text hc).2

/-- The sign is taken off a literal. -/
theorem splitSign_text_append (literal : Literal) (back : List Char) :
    splitSign (literal.text ++ back) = (decide (literal.sign = .minus), literal.body ++ back) := by
  rw [text]
  cases literal.sign with
  | plus => rfl
  | minus => rfl
  | absent =>
    obtain ⟨c, rest, hdigit, hbody⟩ := literal.exists_body_eq_cons
    rw [hbody]
    exact splitSign_digit hdigit (rest ++ back)

end Literal

/-! ## Reading literals -/

/-- What is read of a text, once its sign is taken off. -/
theorem parse_of_splitSign {text : String} {negative : Bool} {rest : List Char}
    (h : splitSign (text.toList.dropWhile Text.isBlank) = (negative, rest)) :
    parse text =
      if !underscoresBetween false (rest.takeWhile isBody) then .error (.malformed text)
      else if digitLimit < (digitValues (rest.takeWhile isBody)).length then
        .error (.tooLong (digitValues (rest.takeWhile isBody)).length)
      else if (rest.dropWhile isBody).all Text.isBlank then
        .ok (if negative then -(value (digitValues (rest.takeWhile isBody)) : Int)
          else value (digitValues (rest.takeWhile isBody)))
      else .error (.malformed text) := by
  rw [parse, h]

theorem isBlank_of_subset {text : List Char} (h : text ⊆ asciiBlanks) :
    ∀ c ∈ text, Text.isBlank c := fun _ hc =>
  (Text.isBlank_iff_mem (Text.lt_of_mem_asciiBlanks (h hc))).mpr (h hc)

namespace Literal

theorem takeWhile_body_append (literal : Literal) {back : List Char} (h : back ⊆ asciiBlanks) :
    (literal.body ++ back).takeWhile isBody = literal.body := by
  rw [List.takeWhile_append_of_pos fun _ hc => (literal.ascii_and_isBody_of_mem_body hc).2]
  cases back with
  | nil => simp
  | cons c back =>
    rw [List.takeWhile_cons_of_neg (not_isBody_of_mem (h List.mem_cons_self)), List.append_nil]

theorem dropWhile_text_append (literal : Literal) (back : List Char) :
    (literal.text ++ back).dropWhile Text.isBlank = literal.text ++ back := by
  obtain ⟨c, rest, htext⟩ := List.exists_cons_of_ne_nil literal.text_ne_nil
  have hc := literal.ascii_and_not_blank_of_mem_text (htext ▸ List.mem_cons_self : c ∈ literal.text)
  rw [htext, List.cons_append,
    List.dropWhile_cons_of_neg fun hblank => hc.2 ((Text.isBlank_iff_mem hc.1).mp hblank)]

theorem dropWhile_body_append (literal : Literal) {back : List Char} (h : back ⊆ asciiBlanks) :
    (literal.body ++ back).dropWhile isBody = back := by
  rw [List.dropWhile_append_of_pos fun _ hc => (literal.ascii_and_isBody_of_mem_body hc).2]
  cases back with
  | nil => rfl
  | cons c back =>
    rw [List.dropWhile_cons_of_neg (not_isBody_of_mem (h List.mem_cons_self))]

theorem underscoresBetween_body (literal : Literal) :
    underscoresBetween false literal.body = true := by
  have hnonempty := literal.nonempty
  rw [List.mem_cons, not_or] at hnonempty
  exact underscoresBetween_intercalate literal.first literal.others
    (fun _ => Ne.symm hnonempty.1) hnonempty.2 literal.isDigit

theorem digitValues_body (literal : Literal) :
    digitValues literal.body = literal.digits.map digit :=
  digitValues_intercalate literal.first literal.others literal.isDigit

end Literal

/-- A literal with blanks around is read as its value, unless it has too many digits. -/
theorem parse_of_literal {text : String} {front back : List Char} (literal : Literal)
    (hfront : front ⊆ asciiBlanks) (hback : back ⊆ asciiBlanks)
    (htext : text.toList = front ++ literal.text ++ back) :
    parse text = if digitLimit < literal.digits.length then .error (.tooLong literal.digits.length)
      else .ok literal.value := by
  -- the blanks before the sign go first, and those after the digits end these
  have hstart : text.toList.dropWhile Text.isBlank = literal.text ++ back := by
    rw [htext, List.append_assoc, List.dropWhile_append_of_pos (isBlank_of_subset hfront),
      literal.dropWhile_text_append]
  have hsplit := hstart ▸ literal.splitSign_text_append back
  have hblank : back.all Text.isBlank := List.all_eq_true.mpr (isBlank_of_subset hback)
  rw [parse_of_splitSign hsplit, literal.takeWhile_body_append hback,
    literal.dropWhile_body_append hback, literal.underscoresBetween_body,
    literal.digitValues_body, List.length_map, if_neg (by decide), if_pos hblank,
    value_eq_ofDigits]
  simp only [decide_eq_true_eq, Literal.value, Sign.apply]

/-- A text that is read has its underscores between digits, and only blanks after these. -/
theorem underscoresBetween_and_isBlank_of_parse {text : String} {value : Int}
    (h : parse text = .ok value) {negative : Bool} {rest : List Char}
    (hsplit : splitSign (text.toList.dropWhile Text.isBlank) = (negative, rest)) :
    underscoresBetween false (rest.takeWhile isBody) ∧
      (rest.dropWhile isBody).all Text.isBlank := by
  rw [parse_of_splitSign hsplit] at h
  grind

theorem subset_asciiBlanks {text : List Char} (hascii : IsAscii text)
    (h : ∀ c ∈ text, Text.isBlank c) : text ⊆ asciiBlanks := fun c hc =>
  (Text.isBlank_iff_mem (hascii c hc)).mp (h c hc)

/-- What is read of an ASCII text is a literal with blanks around. -/
theorem exists_literal_of_parse_eq_ok {text : String} (hascii : IsAscii text.toList) {value : Int}
    (h : parse text = .ok value) :
    ∃ (literal : Literal) (front back : List Char), front ⊆ asciiBlanks ∧ back ⊆ asciiBlanks ∧
      text.toList = front ++ literal.text ++ back := by
  cases hsplit : splitSign (text.toList.dropWhile Text.isBlank) with
  | mk negative rest =>
    obtain ⟨hbetween, hblank⟩ := underscoresBetween_and_isBlank_of_parse h hsplit
    obtain ⟨sign, hsign⟩ := exists_sign_append hsplit
    -- among ASCII characters, digits and blanks are the usual ones
    have hrest : IsAscii rest := fun c hc =>
      hascii c ((List.dropWhile_suffix _).subset (hsign ▸ List.mem_append_right _ hc))
    have hbody : ∀ c ∈ rest.takeWhile isBody, c = '_' ∨ c.isDigit := fun c hc =>
      (isBody_iff (hrest c ((List.takeWhile_prefix _).subset hc))).mp (List.mem_takeWhile_imp hc)
    obtain ⟨first, others, hgroups, hfirst, hothers, hdigits⟩ := exists_groups hbody hbetween
    have hnonempty : [] ∉ first :: others := by
      rw [List.mem_cons, not_or]
      exact ⟨(hfirst rfl).symm, hothers⟩
    refine ⟨⟨sign, first, others, hnonempty, hdigits⟩, text.toList.takeWhile Text.isBlank,
      rest.dropWhile isBody, ?_, ?_, ?_⟩
    · exact subset_asciiBlanks (fun c hc => hascii c ((List.takeWhile_prefix _).subset hc))
        fun c hc => List.mem_takeWhile_imp hc
    · exact subset_asciiBlanks (fun c hc => hrest c ((List.dropWhile_suffix _).subset hc))
        (List.all_eq_true.mp hblank)
    · rw [Literal.text, Literal.body, ← hgroups, List.append_assoc, List.append_assoc,
        List.takeWhile_append_dropWhile, ← hsign, List.takeWhile_append_dropWhile]

theorem parse_of_trimmed_eq {text : String} {literal : Literal}
    (h : trimmed text.toList = literal.text) :
    parse text = if digitLimit < literal.digits.length then .error (.tooLong literal.digits.length)
      else .ok literal.value := by
  obtain ⟨front, back, hfront, hback, htext⟩ := exists_eq_append_trimmed text.toList
  rw [h] at htext
  exact parse_of_literal literal hfront hback htext

theorem exists_trimmed_eq_of_parse_eq_ok {text : String} (hascii : IsAscii text.toList)
    {value : Int} (h : parse text = .ok value) :
    ∃ literal : Literal, trimmed text.toList = literal.text ∧
      literal.digits.length ≤ digitLimit := by
  obtain ⟨literal, front, back, hfront, hback, htext⟩ := exists_literal_of_parse_eq_ok hascii h
  refine ⟨literal, ?_, ?_⟩
  · rw [htext, literal.trimmed_append_text hfront hback]
  · rw [parse_of_literal literal hfront hback htext] at h
    by_contra hlong
    rw [if_pos (Nat.lt_of_not_le hlong)] at h
    cases h

/-! ## Rendered numbers -/

/-- Zeros before the digits of a number do not change its value. -/
theorem ofDigits_zeros_append (zeros number : Nat) :
    Nat.ofDigits 10
      ((List.replicate zeros '0' ++ (toString number).toList).map digit).reverse = number := by
  have hread (digits : List Char) : value (digits.map digit) = Nat.ofDigitChars 10 digits 0 :=
    List.foldl_map
  rw [← value_eq_ofDigits, hread, Nat.ofDigitChars_append, Nat.ofDigitChars_replicate_zero,
    Nat.mul_zero, Nat.toString_eq_repr, Nat.toList_repr, Nat.ofDigitChars_ten_toDigits]

/-- The digits of a number, with zeros before these, can be grouped in any way. -/
theorem exists_literal_of_flatten_eq (sign : Sign) {groups : List (List Char)} {zeros number : Nat}
    (hgroups : [] ∉ groups)
    (hdigits : groups.flatten = List.replicate zeros '0' ++ (toString number).toList) :
    ∃ literal : Literal, literal.text = sign.text ++ ['_'].intercalate groups ∧
      literal.digits.length = zeros + (toString number).length ∧
        literal.value = sign.apply number := by
  have hall : ∀ c ∈ groups.flatten, c.isDigit := by
    intro c hc
    rw [hdigits, List.mem_append, Nat.toString_eq_repr, Nat.toList_repr] at hc
    rcases hc with hzero | hdigit
    · rw [List.eq_of_mem_replicate hzero]
      decide
    · exact Nat.isDigit_of_mem_toDigits (by decide) (by decide) hdigit
  cases groups with
  | nil =>
    -- a number has digits
    rw [Nat.toString_eq_repr, Nat.toList_repr] at hdigits
    exact absurd (List.append_eq_nil_iff.mp hdigits.symm).2 Nat.toDigits_ne_nil
  | cons first others =>
    refine ⟨⟨sign, first, others, hgroups, hall⟩, rfl, ?_, ?_⟩
    · rw [Literal.digits, hdigits, List.length_append, List.length_replicate, String.length_toList]
    · rw [Literal.value, Literal.digits, hdigits, ofDigits_zeros_append]

end Numeral

/-! ## Positive integers -/

namespace PositiveInteger

open Numeral

/-- A reader of positive integers takes exactly the literals of a positive value. -/
structure Exact (read : String → Except PositiveIntegerError Int) : Prop where
  /-- A literal that is positive is read as its value. -/
  positive : ∀ (text : String) (literal : Literal), trimmed text.toList = literal.text →
    literal.digits.length ≤ 4300 → 0 < literal.value → read text = .ok literal.value
  /-- A literal that is not positive is refused for its value. -/
  notPositive : ∀ (text : String) (literal : Literal), trimmed text.toList = literal.text →
    literal.digits.length ≤ 4300 → literal.value ≤ 0 → read text = .error (.notPositive text)
  /-- Any other text is refused as no numeral. -/
  noNumeral : ∀ text : String, IsAscii text.toList →
    (∀ literal : Literal, trimmed text.toList = literal.text → 4300 < literal.digits.length) →
      ∃ error, read text = .error (.numeral error)
  /-- A positive number is read back. -/
  rendered : ∀ number : Nat, 0 < number → (toString number).length ≤ 4300 →
    read (toString number) = .ok number
  /-- It still is with zeros before it, underscores between the digits, a plus sign, and blanks
  around. -/
  decorated : ∀ (number zeros : Nat) (sign : Sign) (groups : List (List Char))
    (front back : List Char), 0 < number → zeros + (toString number).length ≤ 4300 →
      groups.flatten = List.replicate zeros '0' ++ (toString number).toList → [] ∉ groups →
        sign ≠ .minus → front ⊆ asciiBlanks → back ⊆ asciiBlanks →
          read (.ofList (front ++ (sign.text ++ ['_'].intercalate groups) ++ back)) = .ok number

/-- What is read of a literal, apart from the blanks around, with no more digits than the limit. -/
theorem parse_of_trimmed_eq {text : String} {literal : Literal}
    (h : trimmed text.toList = literal.text) (hlimit : literal.digits.length ≤ 4300) :
    parse text = if 0 < literal.value then .ok literal.value else .error (.notPositive text) := by
  have hread : ¬digitLimit < literal.digits.length := Nat.not_lt_of_le hlimit
  rw [parse, Numeral.parse_of_trimmed_eq h, if_neg hread]

theorem parse_of_forall_tooLong {text : String} (hascii : IsAscii text.toList)
    (h : ∀ literal : Literal, trimmed text.toList = literal.text → 4300 < literal.digits.length) :
    ∃ error, parse text = .error (.numeral error) := by
  cases hparse : Numeral.parse text with
  | error error => exact ⟨error, by rw [parse, hparse]⟩
  | ok value =>
    obtain ⟨literal, hliteral, hlimit⟩ := exists_trimmed_eq_of_parse_eq_ok hascii hparse
    exact absurd (h literal hliteral) (Nat.not_lt_of_le hlimit)

/-- The digits of a number are read back, however they are decorated. -/
theorem parse_decorated {number : Nat} (zeros : Nat) (sign : Sign) {groups : List (List Char)}
    {front back : List Char} (hpositive : 0 < number)
    (hlimit : zeros + (toString number).length ≤ 4300)
    (hdigits : groups.flatten = List.replicate zeros '0' ++ (toString number).toList)
    (hgroups : [] ∉ groups) (hsign : sign ≠ .minus) (hfront : front ⊆ asciiBlanks)
    (hback : back ⊆ asciiBlanks) :
    parse (.ofList (front ++ (sign.text ++ ['_'].intercalate groups) ++ back)) = .ok number := by
  obtain ⟨literal, htext, hlength, hvalue⟩ :=
    exists_literal_of_flatten_eq sign hgroups hdigits
  rw [Sign.apply, if_neg hsign] at hvalue
  have htrimmed : trimmed (front ++ literal.text ++ back) = literal.text :=
    literal.trimmed_append_text hfront hback
  rw [← htext, parse_of_trimmed_eq (by rw [String.toList_ofList, htrimmed]) (hlength ▸ hlimit),
    hvalue, if_pos (Int.natCast_pos.mpr hpositive)]

theorem parse_toString {number : Nat} (hpositive : 0 < number)
    (hlimit : (toString number).length ≤ 4300) : parse (toString number) = .ok number := by
  have htext : [] ++ (Sign.absent.text ++ ['_'].intercalate [(toString number).toList]) ++ [] =
      (toString number).toList := by
    rw [List.intercalate_singleton, List.append_nil]
    rfl
  have hparse := parse_decorated 0 .absent hpositive (by omega)
    (by simp : [(toString number).toList].flatten = _) (by simp) (by decide) (List.nil_subset _)
    (List.nil_subset _)
  rwa [htext, String.ofList_toList] at hparse

/-- Positive integers are read from exactly the literals of a positive value. -/
theorem exact_parse : Exact parse where
  positive text literal h hlimit hpositive := by
    rw [parse_of_trimmed_eq h hlimit, if_pos hpositive]
  notPositive text literal h hlimit hvalue := by
    rw [parse_of_trimmed_eq h hlimit, if_neg (Int.not_lt.mpr hvalue)]
  noNumeral _ hascii h := parse_of_forall_tooLong hascii h
  rendered _ hpositive hlimit := parse_toString hpositive hlimit
  decorated _ zeros sign _ _ _ hpositive hlimit hdigits hgroups hsign hfront hback :=
    parse_decorated zeros sign hpositive hlimit hdigits hgroups hsign hfront hback

example : PositiveInteger.parse "\t+0_042\n" = .ok 42 := by decide

end PositiveInteger

end Brainfuck
