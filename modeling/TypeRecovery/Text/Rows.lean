import TypeRecovery.Text.Split

/-! Relations as text: a line per row, columns separated by tabs. A line ends with a line
feed, before which one carriage return is dropped; the last line may lack its end. -/
namespace TypeRecovery.Text

def dropReturn (line : List Char) : List Char :=
  if line.getLast? = some '\r' then line.dropLast else line

def linesOf : List (List Char) → List (List Char)
  | [] => []
  | [last] => if last = [] then [] else [last]
  | line :: rest => dropReturn line :: linesOf rest

def lines (s : List Char) : List (List Char) := linesOf (split '\n' s)

def encodeRow (row : List String) : List Char :=
  join ['\t'] (row.map String.toList) ++ ['\n']

def encodeRows (rows : List (List String)) : String :=
  String.ofList (rows.flatMap encodeRow)

def decodeRows (text : String) : List (List String) :=
  (lines text.toList).map fun line => (split '\t' line).map String.ofList

end TypeRecovery.Text
