/-! Bytes as text in UTF-8. Where the bytes are no text, a mark stands for the longest beginning of
a character, or else for a single byte. -/
namespace TypeRecovery.Text

def inRange (low high byte : Nat) : Bool := low ≤ byte && byte ≤ high

/-- The range of the second byte of a character, and how many bytes follow that one, by the first
byte of a character of several. -/
def charShape? (first : Nat) : Option ((Nat × Nat) × Nat) :=
  if inRange 0xc2 0xdf first then some ((0x80, 0xbf), 0)
  else if first = 0xe0 then some ((0xa0, 0xbf), 1)
  else if first = 0xed then some ((0x80, 0x9f), 1)
  else if inRange 0xe1 0xef first then some ((0x80, 0xbf), 1)
  else if first = 0xf0 then some ((0x90, 0xbf), 2)
  else if inRange 0xf1 0xf3 first then some ((0x80, 0xbf), 2)
  else if first = 0xf4 then some ((0x80, 0x8f), 2)
  else none

/-- How many bytes after the first one belong to the same character, as far as they are there. -/
def charTail (first : Nat) (rest : List Nat) : Nat :=
  match charShape? first, rest with
  | some ((low, high), more), second :: rest =>
    if inRange low high second then 1 + ((rest.take more).takeWhile (inRange 0x80 0xbf)).length
    else 0
  | _, _ => 0

/-- The character that bytes stand for, or a mark. -/
def charOr (bytes : List Nat) : List Char :=
  match String.fromUTF8? (ByteArray.mk (bytes.map Nat.toUInt8).toArray) with
  | some text => text.toList
  | none => ['\ufffd']

def charsOf : List Nat → List Char
  | [] => []
  | first :: rest =>
    charOr (first :: rest.take (charTail first rest)) ++ charsOf (rest.drop (charTail first rest))
termination_by bytes => bytes.length
decreasing_by
  simp only [List.length_drop, List.length_cons]
  omega

def ofBytes (bytes : ByteArray) : String :=
  String.ofList (charsOf (bytes.toList.map UInt8.toNat))

end TypeRecovery.Text
