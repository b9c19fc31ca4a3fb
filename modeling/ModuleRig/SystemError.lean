/-!
# Errors of the system

What goes wrong outside the program: in the file tree, in starting a process, in writing output.
The kind is what the program decides on, and the text is what it shows.
-/

namespace ModuleRig

inductive SystemError.Kind where
  | notFound
  | permissionDenied
  | alreadyExists
  | notADirectory
  | isADirectory
  | brokenPipe
  | invalidFilename
  | directoryNotEmpty
  /-- A file that may be started, but holds no program. -/
  | unloadable
  | argumentTooLong
  /-- A path that no system call takes. -/
  | invalidInput
  /-- Content that is not what was asked for. -/
  | invalidData
  | other
deriving DecidableEq, Repr

structure SystemError where
  kind : SystemError.Kind
  text : String
deriving DecidableEq, Repr

namespace SystemError

def Kind.text : Kind → String
  | .notFound => "No such file or directory (os error 2)"
  | .permissionDenied => "Permission denied (os error 13)"
  | .alreadyExists => "File exists (os error 17)"
  | .notADirectory => "Not a directory (os error 20)"
  | .isADirectory => "Is a directory (os error 21)"
  | .brokenPipe => "Broken pipe (os error 32)"
  | .invalidFilename => "File name too long (os error 36)"
  | .directoryNotEmpty => "Directory not empty (os error 39)"
  | .unloadable => "Exec format error (os error 8)"
  | .argumentTooLong => "Argument list too long (os error 7)"
  | .invalidInput => "file name contained an unexpected NUL byte"
  | .invalidData => "stream did not contain valid UTF-8"
  | .other => "other error"

def ofKind (kind : Kind) : SystemError :=
  ⟨kind, kind.text⟩

end SystemError

end ModuleRig
