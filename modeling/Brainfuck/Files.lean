import Brainfuck.Text.Basic

/-! # Files

A tree of files in memory, and what a path leads to in it. A path is walked from left to right, one
component at a time; every component but the last has to lead to a directory, and so has one that a
slash follows. Above the working directory there are only directories, and what is absolute leads
nowhere but to the root.

Main definitions: `FileProblem`, `FileError`, `FileTree`, `FileTree.read`. -/

namespace Brainfuck

/-! ## Errors -/

/-- Why no bytes can be read at a path. -/
inductive FileProblem where
  /-- Nothing is there. -/
  | notFound
  /-- A file is used as a directory. -/
  | notADirectory
  /-- A directory is there. -/
  | isADirectory
  /-- A component, or the whole path, is too long. -/
  | nameTooLong
  /-- The path holds the null character. -/
  | embeddedNull
  /-- Any other refusal of the operating system, by its number and text. -/
  | other (number : Nat) (text : String)
deriving DecidableEq, Repr

/-- The error number and text of the operating system; a null character never gets that far. -/
def FileProblem.code? : FileProblem → Option (Nat × String)
  | notFound => some (2, "No such file or directory")
  | notADirectory => some (20, "Not a directory")
  | isADirectory => some (21, "Is a directory")
  | nameTooLong => some (36, "File name too long")
  | embeddedNull => none
  | other number text => some (number, text)

/-- A path at which no bytes can be read, and why. -/
structure FileError where
  /-- The path. -/
  path : OsText
  /-- The reason. -/
  problem : FileProblem
deriving DecidableEq, Repr

/-- The diagnostic for a path at which no bytes can be read. -/
def FileError.message (error : FileError) : String :=
  match error.problem.code? with
  | some (number, text) =>
    "[Errno " ++ toString number ++ "] " ++ text ++ ": " ++ error.path.quoted
  | none => "embedded null byte"

/-! ## Trees -/

/-- An entry of a tree. -/
inductive FileEntry where
  /-- A file and its bytes. -/
  | file (content : List UInt8)
  /-- A directory. -/
  | directory
deriving DecidableEq, Repr

/-- The entries of a tree by their places, seen from a working directory: a place is a list of names
after as many `..` as lead up from there. Where two entries have the same place the first one
counts, and every directory that leads to an entry exists. -/
structure FileTree where
  /-- The entries. -/
  entries : List (List OsText × FileEntry) := []

/-- What a walk has led to. -/
inductive FilePlace where
  /-- A file and its bytes. -/
  | file (content : List UInt8)
  /-- A directory, by its place. -/
  | directory (place : List OsText)
  /-- The root of all absolute paths. -/
  | root
deriving DecidableEq, Repr

/-- What a walk that comes to an entry at a place has led to. -/
def FileEntry.placed (place : List OsText) : FileEntry → FilePlace
  | .file content => .file content
  | .directory => .directory place

namespace FileTree

/-- The largest number of bytes of a component. -/
def componentLimit : Nat := 255

/-- The largest number of bytes of a path. -/
def pathLimit : Nat := 4095

/-- The character between the components of a path. -/
def slash : OsChar := .decoded '/'

/-- The component that leads nowhere. -/
def dot : OsText := [.decoded '.']

/-- The component that leads up. -/
def dots : OsText := [.decoded '.', .decoded '.']

/-- The components of a path; a slash at the start or the end gives an empty one there. -/
def components : OsText → List OsText
  | [] => [[]]
  | c :: rest =>
    if c = slash then [] :: components rest
    else
      match components rest with
      | [] => [[c]]
      | name :: names => (c :: name) :: names

/-- The place above a place. -/
def above (place : List OsText) : List OsText :=
  if place.getLast? = none ∨ place.getLast? = some dots then place ++ [dots] else place.dropLast

/-- The place that components lead to from a place. -/
def placeOf (place : List OsText) : List OsText → List OsText
  | [] => place
  | name :: rest =>
    if name = [] ∨ name = dot then placeOf place rest
    else if name = dots then placeOf (above place) rest
    else placeOf (place ++ [name]) rest

/-- Adds an entry at a path, in front of what was there. -/
def add (tree : FileTree) (path : OsText) (entry : FileEntry) : FileTree :=
  ⟨(placeOf [] (components path), entry) :: tree.entries⟩

/-- The entry at a place. -/
def entryAt? (tree : FileTree) (place : List OsText) : Option FileEntry :=
  match tree.entries.find? (·.1 = place) with
  | some (_, entry) => some entry
  | none => if tree.entries.any (place.isPrefixOf ·.1) then some .directory else none

/-- Walks the given components from a place. -/
def walk (tree : FileTree) (here : FilePlace) : List OsText → Except FileProblem FilePlace
  | [] => .ok here
  | name :: rest =>
    match here with
    | .file _ => .error .notADirectory
    | .root =>
      if name = [] ∨ name = dot ∨ name = dots then tree.walk .root rest
      else if componentLimit < name.byteLength then .error .nameTooLong
      else .error .notFound
    | .directory place =>
      if name = [] ∨ name = dot then tree.walk here rest
      else if name = dots then tree.walk (.directory (above place)) rest
      else if componentLimit < name.byteLength then .error .nameTooLong
      else
        match tree.entryAt? (place ++ [name]) with
        | none => .error .notFound
        | some entry => tree.walk (entry.placed (place ++ [name])) rest

/-- The bytes that a file holds, or why a place holds none. -/
def contentOf : FilePlace → Except FileProblem (List UInt8)
  | .file content => .ok content
  | .directory _ => .error .isADirectory
  | .root => .error .isADirectory

/-- The place at which a path starts. -/
def origin (path : OsText) : FilePlace :=
  if path.head? = some slash then .root else .directory []

/-- The bytes of the file at a path. -/
def read (tree : FileTree) (path : OsText) : Except FileError (List UInt8) :=
  let found : Except FileProblem (List UInt8) :=
    if .decoded '\x00' ∈ path then .error .embeddedNull
    else if path.isEmpty then .error .notFound
    else if pathLimit < path.byteLength then .error .nameTooLong
    else tree.walk (origin path) (components path) >>= contentOf
  found.mapError fun problem => ⟨path, problem⟩

end FileTree

end Brainfuck
