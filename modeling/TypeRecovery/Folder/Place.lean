import TypeRecovery.Ordered.Map
import TypeRecovery.Text.Split

/-! Names of files as paths from within a folder. The folder holds files only, so a path that stays
inside leads to one of its files or to none. -/
namespace TypeRecovery

inductive Place where
  | inside (name : String)
  | outside
deriving DecidableEq

inductive PlaceError where
  | nulByte
  | tooLong
  | noFolder
  | fileAsFolder
  | folderAsFile
deriving DecidableEq

def PlaceError.message : PlaceError → String
  | .nulByte => "file name contained an unexpected NUL byte"
  | .tooLong => "File name too long (os error 36)"
  | .noFolder => "No such file or directory (os error 2)"
  | .fileAsFolder => "Not a directory (os error 20)"
  | .folderAsFile => "Is a directory (os error 21)"

namespace Place

def nameLimit : Nat := 255

def pathLimit : Nat := 4095

def systemFolders : List (List String) :=
  [["bin"], ["dev"], ["etc"], ["tmp"], ["usr"], ["usr", "bin"], ["var"]]

def systemFiles : List (List String) :=
  [["dev", "full"], ["dev", "null"], ["dev", "random"], ["dev", "tty"], ["dev", "urandom"],
    ["dev", "zero"], ["etc", "hosts"], ["etc", "passwd"]]

/-- Where a walk along a path stands: in the folder it set out from, or in one of the system. -/
inductive Spot where
  | home
  | away (names : List String)
deriving DecidableEq

namespace Spot

/-- Folders to be filled are made among the temporary ones. Above the root is the root. -/
def parent : Spot → Spot
  | home => away ["tmp"]
  | away names => away names.dropLast

/-- The bytes of the path of the folder that a walk sets out from, up to the name of a file. -/
def homeBytes : Nat := 16

def enter {ν : Type} (files : OrdMap String ν) (name : String) : Spot → Except PlaceError Spot
  | home => if files.contains name then .error .fileAsFolder else .error .noFolder
  | away names =>
    if names ++ [name] ∈ systemFolders then .ok (away (names ++ [name]))
    else if names ++ [name] ∈ systemFiles then .error .fileAsFolder
    else .error .noFolder

def file (name : String) : Spot → Place
  | home => inside name
  | away _ => outside

end Spot

/-- Follows the steps of a path, where `files` are those of the folder it sets out from. An empty
step and a single dot stay in place. -/
def follow {ν : Type} (files : OrdMap String ν) (spot : Spot) :
    List (List Char) → Except PlaceError Place
  | [] => .error .folderAsFile
  | step :: rest =>
    if step = [] ∨ step = ['.'] then follow files spot rest
    else if step = ['.', '.'] then follow files spot.parent rest
    else if nameLimit < (String.ofList step).utf8ByteSize then .error .tooLong
    else if rest.isEmpty then .ok (spot.file (String.ofList step))
    else
      match spot.enter files (String.ofList step) with
      | .error e => .error e
      | .ok next => follow files next rest

def startsAtRoot (path : String) : Bool := path.toList.head? = some '/'

def ofPath {ν : Type} (files : OrdMap String ν) (path : String) : Except PlaceError Place :=
  let steps := Text.split '/' path.toList
  if '\x00' ∈ path.toList then .error .nulByte
  else if startsAtRoot path then
    if pathLimit < path.utf8ByteSize then .error .tooLong else follow files (.away []) steps
  else if pathLimit < Spot.homeBytes + path.utf8ByteSize then .error .tooLong
  else follow files .home steps

end Place

def fileAt? {ν : Type} (files : OrdMap String ν) (path : String) : Option ν :=
  match Place.ofPath files path with
  | .ok (.inside name) => files.get? name
  | _ => none

end TypeRecovery
