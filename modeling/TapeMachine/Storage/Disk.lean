import TapeMachine.Storage

/-!
# Files in memory

A disk holds files in a working directory, in the directories that it lies in and in the root; it
has no other directories. A path is walked step by step: a single dot stays where it is, two dots
go up, and any other step must lead to a directory, so it fails. The last step names a file, unless
it is made of dots, and then the path leads to a directory. What a slash at the end means depends
on what is wanted: reading asks for a directory then, and writing is refused.

`find?_store_self` and `find?_store_of_ne` say what storing a file does to the disk.
-/

set_option autoImplicit false

namespace TapeMachine

/-- A directory: the working directory or one it lies in, by the number of levels between them, or
the root. -/
inductive Directory where
  | above (levels : Nat)
  | root
  deriving DecidableEq

/-- The directory that a directory lies in. -/
def Directory.parent : Directory → Directory
  | above levels => above (levels + 1)
  | root => root

/-- Where a file is. -/
structure Place where
  directory : Directory
  name : String
  deriving DecidableEq

/-- The files there are, each with its place. Of two at one place the first counts. -/
structure Disk where
  files : List (Place × Buffer) := []

namespace Disk

/-- The contents of the file at a place. -/
def find? (disk : Disk) (place : Place) : Option Buffer :=
  (disk.files.find? fun file ↦ file.1 = place).map Prod.snd

/-- Puts a file at a place, instead of one that is there. -/
def store (disk : Disk) (place : Place) (contents : Buffer) : Disk :=
  { files := (place, contents) :: disk.files }

@[simp]
theorem find?_store_self (disk : Disk) (place : Place) (contents : Buffer) :
    (disk.store place contents).find? place = some contents := by
  simp [find?, store]

theorem find?_store_of_ne (disk : Disk) {place other : Place} (contents : Buffer)
    (hplace : place ≠ other) : (disk.store place contents).find? other = disk.find? other := by
  simp [find?, store, hplace]

/-! ### Paths -/

/-- The longest path, in bytes. -/
def pathLimit : Nat := 4095

/-- The longest name of a file or directory, in bytes. -/
def nameLimit : Nat := 255

/-- The parts of a path between slashes; there is nothing between two slashes in a row. -/
def parts : List Char → List (List Char)
  | [] => [[]]
  | '/' :: rest => [] :: parts rest
  | c :: rest =>
    match parts rest with
    | [] => [[c]]
    | first :: more => (c :: first) :: more

/-- The steps of a path. -/
def steps (path : String) : List String :=
  ((parts path.toList).filter fun part ↦ part ≠ []).map String.ofList

/-- Where the walk along a path starts. -/
def start (path : String) : Directory :=
  if path.toList.head? = some '/' then .root else .above 0

/-- Whether a path asks for a directory. -/
def endsInSlash (path : String) : Bool :=
  path.toList.getLast? = some '/'

/-- Refuses a name that is too long. -/
def checkName (name : String) : Except AccessFailure Unit :=
  if nameLimit < name.utf8ByteSize then .error .nameTooLong else .ok ()

/-- Where a step that is not the last leads. -/
def enter (disk : Disk) (directory : Directory) (step : String) :
    Except AccessFailure Directory := do
  if step = "." then return directory
  if step = ".." then return directory.parent
  checkName step
  if (disk.find? ⟨directory, step⟩).isSome then throw .notADirectory else throw .missing

/-- Where steps lead from a directory; to no place if they lead to a directory. -/
def walk (disk : Disk) : Directory → List String → Except AccessFailure (Option Place)
  | _, [] => .ok none
  | directory, [step] =>
    if step = "." ∨ step = ".." then .ok none else .ok (some ⟨directory, step⟩)
  | directory, step :: rest => do
    disk.walk (← disk.enter directory step) rest

/-- Where a path leads. -/
def locate (disk : Disk) (path : String) : Except AccessFailure (Option Place) :=
  if path.toList.contains '\x00' then .error .containsNul
  else if path = "" then .error .missing
  else if pathLimit < path.utf8ByteSize then .error .nameTooLong
  else disk.walk (start path) (steps path)

/-- The contents of the file at a path. -/
def readAt (disk : Disk) (path : String) : Except AccessFailure Buffer := do
  match ← disk.locate path with
  | none => throw .isADirectory
  | some place =>
    checkName place.name
    match disk.find? place with
    | none => throw .missing
    | some contents => if endsInSlash path then throw .notADirectory else return contents

/-- The disk after a file was written at a path. -/
def writeAt (disk : Disk) (path : String) (contents : Buffer) : Except AccessFailure Disk := do
  match ← disk.locate path with
  | none => throw .isADirectory
  | some place =>
    if endsInSlash path then throw .isADirectory
    checkName place.name
    return disk.store place contents

instance : Files (StateM Disk) where
  read path := do return (← get).readAt path
  write path contents := do
    match (← get).writeAt path contents with
    | .ok disk =>
      set disk
      return .ok ()
    | .error failure => return .error failure

end Disk

end TapeMachine
