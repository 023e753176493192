import TypeRecovery.Folder.Place
import TypeRecovery.Notice
import TypeRecovery.Text.Rows

/-! Relations that the inference rules produce, read from the files they are left in. -/
namespace TypeRecovery

/-- Rows of columns by relation. -/
abbrev Relations := OrdMap String (List (List String))

abbrev RawFiles := OrdMap String ByteArray

/-- Puts a file where a path leads; one that lies outside is no file of the folder. -/
def RawFiles.put (files : RawFiles) (path : String) (bytes : ByteArray) : RawFiles :=
  match Place.ofPath files path with
  | .ok (.inside name) => files.insert name bytes
  | _ => files

namespace Relations

def fileName (relation : String) : String := relation ++ ".csv"

/-- The rows in a file. A relation without a file is empty. -/
def readFile : Option ByteArray → Except Error (List (List String))
  | none => .ok []
  | some bytes =>
    match String.fromUTF8? bytes with
    | some text => .ok (Text.decodeRows text)
    | none => .error (.system "stream did not contain valid UTF-8")

/-- Reads relations one by one, up to the first that cannot be read. -/
def readInto (files : RawFiles) (found : Relations) :
    List String → Except Error Relations × List Notice
  | [] => (.ok found, [])
  | name :: names =>
    let file := fileAt? files (fileName name)
    let missing : List Notice := if file.isNone then [.noRelation name] else []
    match readFile file with
    | .error e => (.error e, missing)
    | .ok rows =>
      let (result, notices) := readInto files (found.insert name rows) names
      (result, missing ++ notices)

def read (files : RawFiles) (names : List String) : Except Error Relations × List Notice :=
  readInto files ∅ names

end Relations
end TypeRecovery
