import TypeRecovery.Error
import TypeRecovery.Folder.Place

/-! Folders of text files, written one file at a time. -/
namespace TypeRecovery

abbrev Folder := OrdMap String String

/-- Work on a folder; what was written before a failure stays. -/
abbrev Writing := EStateM Error Folder

namespace Folder

/-- Writes a whole file, in place of an earlier one at that path. A file outside the folder does
not change it. -/
def write (path text : String) : Writing Unit := fun folder =>
  match Place.ofPath folder path with
  | .error fault => .error (.system fault.message) folder
  | .ok .outside => .ok () folder
  | .ok (.inside name) => .ok () (folder.insert name text)

/-- A file name without its last extension. -/
def stem (name : String) : String :=
  match (name.toList.reverse.dropWhile (· ≠ '.')).drop 1 with
  | [] => name
  | rest => String.ofList rest.reverse

end Folder
end TypeRecovery
