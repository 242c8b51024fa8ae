/-!
# Files as the library sees them

A run may need up to three files.  What the file system says about a path is a `FileView`: the
bytes of the file, or a complaint, which may arise when the file is opened or later when it is read.
-/

namespace CowLang

/-- Why a file cannot be used. -/
inductive FileError where
  /-- The operating system refuses, with its own wording and number. -/
  | system (description : String) (number : Nat)
  /-- The bytes are not text. -/
  | notText
deriving DecidableEq, Repr, Inhabited

namespace FileError

/-- There is no such file. -/
def missing : FileError := .system "No such file or directory" 2

/-- A part of the path that should be a directory is none. -/
def notDirectory : FileError := .system "Not a directory" 20

/-- The path names a directory. -/
def isDirectory : FileError := .system "Is a directory" 21

/-- The path, or a name on it, is longer than the system allows. -/
def nameTooLong : FileError := .system "File name too long" 36

/-- The wording of the error. -/
def message : FileError → String
  | system description number => s!"{description} (os error {number})"
  | notText => "stream did not contain valid UTF-8"

end FileError

/-- What the file system says about a path. -/
inductive FileView where
  /-- The file has these bytes. -/
  | contents (bytes : ByteArray)
  /-- The file cannot be opened. -/
  | closed (error : FileError)
  /-- The file can be opened, but not read. -/
  | unreadable (error : FileError)

/-- The text of a file. -/
def FileView.text : FileView → Except FileError String
  | contents bytes =>
    match String.fromUTF8? bytes with
    | some text => .ok text
    | none => .error .notText
  | closed error => .error error
  | unreadable error => .error error

end CowLang
