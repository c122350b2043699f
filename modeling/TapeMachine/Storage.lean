import TapeMachine.Machine.Basic

/-!
# Storage

A machine is stored as its image, read and written whole. `Files` is what storage needs of a world
with files.
-/

set_option autoImplicit false

namespace TapeMachine

/-- Why a file could not be read or written. -/
inductive AccessFailure where
  | missing
  | notADirectory
  | isADirectory
  | nameTooLong
  | containsNul
  | other (description : String)
  deriving DecidableEq

def AccessFailure.message : AccessFailure → String
  | missing => "No such file or directory (os error 2)"
  | notADirectory => "Not a directory (os error 20)"
  | isADirectory => "Is a directory (os error 21)"
  | nameTooLong => "File name too long (os error 36)"
  | containsNul => "file name contained an unexpected NUL byte"
  | other description => description

/-- Why a machine could not be loaded or saved. -/
inductive StorageError where
  | access (path : String) (failure : AccessFailure)
  | image (error : ImageError)
  deriving DecidableEq

def StorageError.message : StorageError → String
  | access path failure => s!"could not access {path}: {failure.message}"
  | image error => error.message

/-- Reading and writing whole files. -/
class Files (m : Type → Type) where
  read : String → m (Except AccessFailure Buffer)
  write : String → Buffer → m (Except AccessFailure Unit)

namespace Storage

variable {m : Type → Type} [Monad m] [Files m]

/-- The image in a file. -/
def read (path : String) : m (Except StorageError Buffer) := do
  match ← Files.read path with
  | .ok image => return .ok image
  | .error failure => return .error (.access path failure)

/-- The machine in a file. -/
def load (path : String) : m (Except StorageError Machine) := do
  match ← read path with
  | .ok image => return (Machine.ofImage image).mapError .image
  | .error error => return .error error

/-- Stores a machine in a file. -/
def save (path : String) (machine : Machine) : m (Except StorageError Unit) := do
  match ← Files.write path machine.buffer with
  | .ok () => return .ok ()
  | .error failure => return .error (.access path failure)

end Storage

end TapeMachine
