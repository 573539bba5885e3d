import Brainfuck.Files

/-! # Entries that are added

A path of plain components leads straight down from the working directory: the place that it names
is the list of its components. What is added at such a path is what is read there, as long as no
file is in its way.

Main definitions: `FileTree.IsPlainName`, `FileTree.InTheWay`. Main statements: the entries that an
added one leaves or makes (`FileTree.entryAt?_add`, `FileTree.entryAt?_add_above`), and what
reading comes to at its path (`FileTree.read_add`). -/

namespace Brainfuck.FileTree

/-- A component that names something in a directory, and is not too long. -/
structure IsPlainName (name : OsText) : Prop where
  /-- It is not empty. -/
  ne_nil : name ≠ []
  /-- It does not stay where it is. -/
  ne_dot : name ≠ dot
  /-- It does not lead up. -/
  ne_dots : name ≠ dots
  /-- It is not too long. -/
  length : name.byteLength ≤ componentLimit

variable {tree : FileTree} {path : OsText} {place : List OsText} {content : List UInt8}

/-- Some components on the way to a place lead to a file. -/
def InTheWay (tree : FileTree) (place : List OsText) : Prop :=
  ∃ above name rest content, above ++ name :: rest = place ∧
    tree.entryAt? above = some (.file content)

/-- Plain components are the place that they lead to. -/
theorem placeOf_of_plain {names : List OsText} (h : ∀ name ∈ names, IsPlainName name) :
    placeOf place names = place ++ names := by
  induction names generalizing place with
  | nil => rw [placeOf, List.append_nil]
  | cons name rest ih =>
    obtain ⟨hname, hrest⟩ := List.forall_mem_cons.mp h
    rw [placeOf, if_neg (not_or.mpr ⟨hname.ne_nil, hname.ne_dot⟩), if_neg hname.ne_dots, ih hrest,
      List.append_assoc, List.singleton_append]

/-- Nothing is in the way where there is nothing. -/
theorem not_inTheWay_empty (place : List OsText) : ¬ InTheWay {} place := by
  rintro ⟨above, name, rest, content, -, hentry⟩
  cases hentry

section Added

variable {entry : FileEntry} (h : ∀ name ∈ components path, IsPlainName name)
include h

/-- An added entry is at the place of its path. -/
theorem entryAt?_add : (tree.add path entry).entryAt? (components path) = some entry := by
  have hplace : placeOf [] (components path) = components path := placeOf_of_plain h
  simp only [entryAt?, add, hplace, List.find?_cons, decide_true]

/-- A place on the way to an added entry is a directory, unless a file is there. -/
theorem entryAt?_add_above (hfree : ¬ tree.InTheWay (components path)) {name : OsText}
    {rest : List OsText} (hplace : place ++ name :: rest = components path) :
    (tree.add path entry).entryAt? place = some .directory := by
  have hadded : placeOf [] (components path) = components path := placeOf_of_plain h
  have hne : components path ≠ place := by
    intro heq
    have hlength := congrArg List.length (hplace.trans heq)
    rw [List.length_append, List.length_cons] at hlength
    omega
  have hbelow : place.isPrefixOf (components path) = true :=
    List.isPrefixOf_iff_prefix.mpr ⟨_, hplace⟩
  -- the place is an entry of its own, or a directory because the new entry is below it
  simp only [entryAt?, add, hadded, List.find?_cons, hne, decide_false, List.any_cons, hbelow,
    Bool.true_or, if_true]
  cases hfind : tree.entries.find? (·.1 = place) with
  | none => rfl
  | some found =>
    obtain ⟨there, found⟩ := found
    cases found with
    | directory => rfl
    | file bytes =>
      refine absurd ⟨place, name, rest, bytes, hplace, ?_⟩ hfree
      rw [entryAt?, hfind]

/-- What a walk down the rest of the path leads to. -/
theorem walk_add (hfree : ¬ tree.InTheWay (components path)) {rest : List OsText}
    (hrest : rest ≠ []) (hplace : place ++ rest = components path) :
    (tree.add path entry).walk (.directory place) rest =
      .ok (entry.placed (components path)) := by
  induction rest generalizing place with
  | nil => exact absurd rfl hrest
  | cons name rest ih =>
    have hname : IsPlainName name := by
      apply h
      rw [← hplace]
      exact List.mem_append_right _ List.mem_cons_self
    have hnext : (place ++ [name]) ++ rest = components path := by
      rw [List.append_assoc, List.singleton_append, hplace]
    rw [walk, if_neg (not_or.mpr ⟨hname.ne_nil, hname.ne_dot⟩), if_neg hname.ne_dots,
      if_neg (Nat.not_lt.mpr hname.length)]
    cases rest with
    | nil =>
      rw [List.append_nil] at hnext
      rw [hnext, entryAt?_add h]
      cases entry <;> rfl
    | cons below rest =>
      rw [entryAt?_add_above h hfree hnext]
      exact ih (List.cons_ne_nil _ _) hnext

end Added

theorem components_ne_nil (path : OsText) : components path ≠ [] := by
  cases path with
  | nil => simp [components]
  | cons c rest =>
    unfold components
    split
    · exact List.cons_ne_nil _ _
    · split <;> exact List.cons_ne_nil _ _

/-- Reading at a path of plain components comes to what has been added there, as long as no file is
in the way. -/
theorem read_add {entry : FileEntry} (h : ∀ name ∈ components path, IsPlainName name)
    (hnull : .decoded '\x00' ∉ path) (hlength : path.byteLength ≤ pathLimit)
    (hfree : ¬ tree.InTheWay (components path)) :
    (tree.add path entry).read path =
      (contentOf (entry.placed (components path))).mapError fun problem => ⟨path, problem⟩ := by
  have hwalk : (tree.add path entry).walk (.directory []) (components path) =
      .ok (entry.placed (components path)) :=
    walk_add h hfree (components_ne_nil path) (List.nil_append _)
  -- the first component is not empty, so the path is not and does not begin with a slash
  have hfirst : path ≠ [] ∧ path.head? ≠ some slash := by
    constructor
    · rintro rfl
      exact (h [] (by simp [components])).ne_nil rfl
    · intro hslash
      obtain ⟨rest, rfl⟩ := List.head?_eq_some_iff.mp hslash
      exact (h [] (by simp [components])).ne_nil rfl
  have horigin : origin path = .directory [] := if_neg hfirst.2
  have hempty : path.isEmpty = false := by
    rw [List.isEmpty_eq_false_iff]
    exact hfirst.1
  simp only [read, if_neg hnull, hempty, Bool.false_eq_true, if_false,
    if_neg (Nat.not_lt.mpr hlength), horigin, hwalk]
  rfl

/-- So a file that has been added can be read. -/
theorem read_add_file (h : ∀ name ∈ components path, IsPlainName name)
    (hnull : .decoded '\x00' ∉ path) (hlength : path.byteLength ≤ pathLimit)
    (hfree : ¬ tree.InTheWay (components path)) :
    (tree.add path (.file content)).read path = .ok content :=
  read_add h hnull hlength hfree

end Brainfuck.FileTree
