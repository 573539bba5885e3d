import Brainfuck.CommandLine.Parse

/-! # Accepted options

What holds of the options of every command line that is accepted, however its switches are written:
the number of cells is positive, the number of bits is one of the choices, unless a separator has
taken it away, and a program is compiled only for a fixed tape of bytes.

Main definitions: `Options.Sound`, `Options.Accepted`. Main statements: each switch keeps the
options sound (`Options.Sound.apply`), so does reading any arguments (`Draft.sound_read`), and what
is accepted in the end is `Options.Accepted` (`Options.accepted_of_parse`). -/

namespace Brainfuck.CommandLine

/-- The values that were given to switches are possible ones. -/
structure Options.Sound (dialect : Dialect) (options : Options) : Prop where
  /-- The number of cells is positive. -/
  cells : ∀ count, options.cells = some count → 0 < count
  /-- The number of bits is one of the choices. -/
  cellBits : ∀ bits, options.cellBits = some bits → bits ∈ cellBitsChoices
  /-- There is a number of bits, if a separator is a value like any other. -/
  width : dialect = .strict → options.cellBits.isSome = true

/-- The options of a command line that is accepted. -/
structure Options.Accepted (dialect : Dialect) (options : Options) : Prop where
  /-- The values that were given to switches are possible ones. -/
  sound : options.Sound dialect
  /-- A program is compiled only for a fixed tape of bytes. -/
  compiled : options.jit = true → options.extensible = false ∧ options.cellBits = some 8

variable {dialect : Dialect}

/-- Options without a number of bits are of the lenient dialect, and nothing is compiled. -/
theorem Options.Accepted.of_widthless {options : Options} (h : options.Accepted dialect)
    (hbits : options.cellBits = none) : dialect = .lenient ∧ options.jit = false := by
  constructor
  · cases hdialect : dialect with
    | lenient => rfl
    | strict =>
      have hwidth := h.sound.width hdialect
      rw [hbits] at hwidth
      cases hwidth
  · cases hjit : options.jit with
    | false => rfl
    | true => cases hbits.symm.trans (h.compiled hjit).2

/-! ## Values -/

/-- A number of cells that is read is positive. -/
theorem pos_of_readCells {text : OsText} {count : Int}
    (h : readCells dialect text = .ok (some count)) : 0 < count := by
  unfold readCells at h
  split at h
  · cases h
  · cases hvalue : text.string?.map PositiveInteger.parse with
    | none => simp [hvalue] at h
    | some result =>
      cases result with
      | error error => cases error <;> simp [hvalue] at h
      | ok value =>
        obtain ⟨written, -, hparse⟩ := Option.map_eq_some_iff.mp hvalue
        simp only [hvalue, Except.ok.injEq, Option.some.injEq] at h
        exact h ▸ PositiveInteger.pos_of_parse hparse

/-- A number of bits that is read is one of the choices; only a separator may take it away. -/
theorem exists_of_readCellBits {text : OsText} {cellBits : Option Int}
    (h : readCellBits dialect text = .ok cellBits) (hkept : dialect.takesAway text = false) :
    ∃ bits ∈ cellBitsChoices, cellBits = some bits := by
  unfold readCellBits at h
  rw [if_neg (ne_true_of_eq_false hkept)] at h
  cases hvalue : text.string?.map Numeral.parse with
  | none => simp [hvalue] at h
  | some result =>
    cases result with
    | error error => simp [hvalue] at h
    | ok value =>
      by_cases hmember : value ∈ cellBitsChoices
      · simp only [hvalue, if_pos hmember, Except.ok.injEq] at h
        exact ⟨value, hmember, h.symm⟩
      · simp [hvalue, hmember] at h

theorem readCellBits_of_takesAway {text : OsText} (h : dialect.takesAway text = true) :
    readCellBits dialect text = .ok none :=
  if_pos h

/-! ## Switches taking effect -/

namespace Options.Sound

variable {options last : Options}

/-- Nothing has been given yet. -/
theorem default (program : OsText) : Options.Sound dialect { program } where
  cells := by simp
  cellBits := by simp [cellBitsChoices]
  width _ := rfl

/-- A switch that takes effect keeps the options sound. -/
theorem apply (h : options.Sound dialect) {setting : Setting}
    (happly : options.apply dialect setting = .ok last) : last.Sound dialect := by
  unfold Options.apply at happly
  split at happly
  next => cases happly
  next =>
    cases hread : readCells dialect setting.value with
    | error error => simp [hread] at happly
    | ok cells =>
      simp only [hread, Except.ok.injEq] at happly
      subst happly
      refine ⟨fun count hcount => ?_, h.cellBits, h.width⟩
      exact pos_of_readCells (hread.trans (congrArg Except.ok hcount))
  next =>
    cases hread : readCellBits dialect setting.value with
    | error error => simp [hread] at happly
    | ok cellBits =>
      simp only [hread, Except.ok.injEq] at happly
      subst happly
      cases haway : dialect.takesAway setting.value with
      | true =>
        obtain rfl := Except.ok.inj (hread.symm.trans (readCellBits_of_takesAway haway))
        refine ⟨h.cells, nofun, ?_⟩
        rintro rfl
        cases haway
      | false =>
        obtain ⟨bits, hmember, rfl⟩ := exists_of_readCellBits hread haway
        refine ⟨h.cells, ?_, fun _ => rfl⟩
        rintro _ ⟨⟩
        exact hmember
  -- the other switches are given no value
  all_goals
    cases happly
    exact ⟨h.cells, h.cellBits, h.width⟩

/-- Switches that take effect one after the other keep the options sound. -/
theorem foldlM {settings : List Setting} (h : options.Sound dialect)
    (hfold : settings.foldlM (Options.apply dialect) options = .ok last) : last.Sound dialect := by
  induction settings generalizing options with
  | nil =>
    cases hfold
    exact h
  | cons setting rest ih =>
    rw [List.foldlM_cons] at hfold
    cases happly : options.apply dialect setting with
    | error stop =>
      rw [happly] at hfold
      cases hfold
    | ok next =>
      rw [happly] at hfold
      exact ih (h.apply happly) hfold

end Options.Sound

namespace Draft

variable {draft last : Draft}

/-- The switches of one argument keep the options sound. -/
theorem sound_apply {settings : List Setting} (h : draft.options.Sound dialect)
    (happly : draft.apply dialect settings = .ok last) : last.options.Sound dialect := by
  unfold Draft.apply at happly
  cases hfold : settings.foldlM (Options.apply dialect) draft.options with
  | error stop =>
    rw [hfold] at happly
    cases happly
  | ok options =>
    rw [hfold] at happly
    cases happly
    exact h.foldlM hfold

/-- What is read after the switches of an argument have taken effect is read from a sound draft. -/
theorem exists_of_apply_bind {settings : List Setting} {arguments : List Argument}
    (h : draft.options.Sound dialect)
    (hread : (draft.apply dialect settings >>= fun next => read dialect next arguments) =
      .ok last) :
    ∃ next, next.options.Sound dialect ∧ read dialect next arguments = .ok last := by
  cases happly : draft.apply dialect settings with
  | error stop =>
    rw [happly] at hread
    cases hread
  | ok next =>
    rw [happly] at hread
    exact ⟨next, sound_apply h happly, hread⟩

/-- Reading any arguments keeps the options sound. -/
theorem sound_read {arguments : List Argument} (h : draft.options.Sound dialect)
    (hread : read dialect draft arguments = .ok last) : last.options.Sound dialect := by
  fun_induction read dialect draft arguments with
  | case1 draft =>
    cases hread
    exact h
  -- a switch with a value to come, with none to come before a word, and with none to come
  | case11 draft switch short value text rest settings pending hsettings ih =>
    obtain ⟨next, hnext, hrest⟩ := exists_of_apply_bind h hread
    exact ih next hnext hrest
  | case12 draft switch short value text rest settings hsettings ih =>
    obtain ⟨next, hnext, hrest⟩ := exists_of_apply_bind h hread
    exact ih next hnext hrest
  | case15 draft switch short value rest hword settings hsettings ih =>
    obtain ⟨next, hnext, hrest⟩ := exists_of_apply_bind h hread
    exact ih next hnext hrest
  | case10 | case13 | case14 => cases hread
  -- words, separators and what is left over give no settings
  | _ =>
    rename_i ih
    exact ih h hread

/-- What is accepted in the end is sound, and compiled only for a fixed tape of bytes. -/
theorem accepted_of_finish {options : Options} (h : draft.options.Sound dialect)
    (hfinish : draft.finish = .ok options) : options.Accepted dialect := by
  unfold finish at hfinish
  cases hprogram : draft.program with
  | none => simp [hprogram] at hfinish
  | some program =>
    simp only [hprogram] at hfinish
    split at hfinish
    · cases hfinish
    · split at hfinish
      · cases hfinish
      · rename_i hjit
        cases hfinish
        exact ⟨⟨h.cells, h.cellBits, h.width⟩, by simpa using hjit⟩

end Draft

/-- The options of a command line that is accepted. -/
theorem Options.accepted_of_parse {arguments : List OsText} {options : Options}
    (h : parse dialect arguments = .ok (.run options)) : options.Accepted dialect := by
  unfold parse at h
  split at h
  · cases h
  · split at h
    · cases h
    · cases h
    next draft hread =>
      have hsound := Draft.sound_read (Options.Sound.default []) hread
      cases hfinish : draft.finish with
      | error error =>
        rw [hfinish] at h
        cases h
      | ok accepted =>
        rw [hfinish] at h
        cases h
        exact Draft.accepted_of_finish hsound hfinish

end Brainfuck.CommandLine
