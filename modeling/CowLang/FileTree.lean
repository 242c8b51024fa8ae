import CowLang.File
/-!
# Files in directories

A `FileTree` is what a file system holds, and a `Location` is a directory of it together with the
directories above.  `Location.view` follows a path from there, name by name: a path that starts with
a slash is followed from the topmost directory, an empty name and the name `.` stay where they are,
and `..` goes up, where the topmost directory is above itself.  The first name that cannot be
followed decides the complaint.
-/

namespace CowLang

/-- A file, or a directory with the names of what it holds. -/
inductive FileTree where
  /-- A file with its bytes. -/
  | file (bytes : ByteArray)
  /-- A directory. -/
  | directory (entries : List (String × FileTree))

/-- A directory and where it is. -/
structure Location where
  /-- What the directory holds. -/
  entries : List (String × FileTree)
  /-- What the directories above it hold, the nearest first. -/
  above : List (List (String × FileTree)) := []

namespace Location

/-- The most bytes that one name on a path may have. -/
def maxNameSize : Nat := 255

/-- The most bytes that a path may have. -/
def maxPathSize : Nat := 4095

/-- The directory one up. -/
def parent (l : Location) : Location :=
  match l.above with
  | [] => l
  | entries :: above => ⟨entries, above⟩

/-- The topmost directory. -/
def top (l : Location) : Location :=
  ⟨l.above.getLastD l.entries, []⟩

/-- What is said about the names of a path. -/
def follow : List String → Location → FileView
  | [], _ => .unreadable .isDirectory
  | name :: names, l =>
    if name = "" || name = "." then follow names l
    else if name = ".." then follow names l.parent
    else if maxNameSize < name.utf8ByteSize then .closed .nameTooLong
    else match l.entries.lookup name with
      | none => .closed .missing
      | some (.directory entries) => follow names ⟨entries, l.entries :: l.above⟩
      | some (.file bytes) => if names.isEmpty then .contents bytes else .closed .notDirectory

/-- What is said about a path. -/
def view (l : Location) (path : String) : FileView :=
  if path = "" then .closed .missing
  else if maxPathSize < path.utf8ByteSize then .closed .nameTooLong
  else follow (path.splitOn "/") (if path.startsWith "/" then l.top else l)

end Location

end CowLang
