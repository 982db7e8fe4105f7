import GpuListing.Text.Unprintable
import GpuListing.Text.Extender
import GpuListing.Text.Hex

/-! # Quoted text

Values in messages stand between quotation marks: texts between double ones, characters between single ones.
Inside, the mark and the backslash follow a backslash, tabs, line ends and NUL have letters of their own, and
a character that is unprintable or joins the one before it is written by its code point. -/

namespace GpuListing.Text

/-- A code point in hexadecimal digits between braces. -/
def codePointEscape (c : Char) : List Char := "\\u\x7b".toList ++ hex c.toNat ++ ['\x7d']

/-- A character as it is written between the given marks. -/
def escape (mark c : Char) : List Char :=
  if c = mark ∨ c = '\\' then ['\\', c]
  else if c = '\t' then ['\\', 't']
  else if c = '\r' then ['\\', 'r']
  else if c = '\n' then ['\\', 'n']
  else if c = '\x00' then ['\\', '0']
  else if isExtender c || isUnprintable c then codePointEscape c
  else [c]

/-- A text between two marks. -/
def quotedWith (mark : Char) (text : List Char) : List Char := mark :: text.flatMap (escape mark) ++ [mark]

/-- A text between double quotation marks. -/
def quoted (text : String) : String := String.ofList (quotedWith '\x22' text.toList)

/-- A character between single quotation marks. -/
def quotedChar (c : Char) : String := String.ofList (quotedWith '\x27' [c])

end GpuListing.Text
