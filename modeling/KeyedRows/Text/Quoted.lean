import KeyedRows.Text.GraphemeExtend
import KeyedRows.Text.Printable

namespace KeyedRows.Text

/-- Whether a code point lies in one of the runs that a rising list of boundaries
describes: an odd number of boundaries is at most the point. -/
def inRuns (bounds : List Nat) (point : Nat) : Bool :=
  (bounds.takeWhile (· ≤ point)).length % 2 == 1

/-- Whether a character is written as its code point: it does not print, or would
join the character before it. -/
def needsCodePoint (c : Char) : Bool :=
  inRuns unprintedBounds c.toNat || inRuns graphemeExtendBounds c.toNat

/-- A character inside quotes of a kind. Only that kind of quote is escaped. -/
def escape (quote c : Char) : List Char :=
  if c = Char.ofNat 0 then ['\\', '0']
  else if c = '\t' then ['\\', 't']
  else if c = '\r' then ['\\', 'r']
  else if c = '\n' then ['\\', 'n']
  else if c = '\\' then ['\\', '\\']
  else if c = quote then ['\\', quote]
  else if needsCodePoint c then ['\\', 'u', '\x7b'] ++ Nat.toDigits 16 c.toNat ++ ['\x7d']
  else [c]

/-- A text in double quotes, with what cannot be read on a page written as an
escape. -/
def quoted (text : String) : String :=
  String.ofList ('\x22' :: (text.toList.flatMap (escape '\x22') ++ ['\x22']))

/-- A character in single quotes. -/
def quotedChar (c : Char) : String :=
  String.ofList ('\x27' :: (escape '\x27' c ++ ['\x27']))

end KeyedRows.Text
