/-! # Space in TOML

Blanks and tabs are space within a line. A comment runs to the end of its line. A line ends at a line feed,
or at a carriage return and a line feed; a carriage return stands nowhere else. -/

namespace GpuListing.Toml

/-- A blank or a tab. -/
def isSpace (c : Char) : Bool := c = ' ' || c = '\t'

/-- A character that may stand in comments and strings: no control character but the tab. -/
def isPlain (c : Char) : Bool := c = '\t' || (' ' ≤ c && c ≠ '\x7f')

/-- The text after the space at its start. -/
def skipSpaces (text : List Char) : List Char := text.dropWhile isSpace

/-- The text after a comment at its start, as far as the characters that may stand in it. -/
def skipComment : List Char → List Char
  | '#' :: rest => rest.dropWhile isPlain
  | text => text

/-- The text after the space and the comment that may end a line, and after the end of the line. -/
def lineEnd (text : List Char) : Option (List Char) :=
  match skipComment (skipSpaces text) with
  | [] => some []
  | '\n' :: rest => some rest
  | '\r' :: '\n' :: rest => some rest
  | _ => none

/-- The text after space, comments and ends of lines; `inComment` tells that it begins inside a comment. -/
def skipGap : (inComment : Bool) → List Char → Option (List Char)
  | _, [] => some []
  | _, '\n' :: rest => skipGap false rest
  | _, '\r' :: '\n' :: rest => skipGap false rest
  | true, c :: rest => if isPlain c then skipGap true rest else none
  | false, c :: rest =>
    if isSpace c then skipGap false rest
    else if c = '#' then skipGap true rest
    else some (c :: rest)

end GpuListing.Toml
