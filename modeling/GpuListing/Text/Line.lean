/-! # Lines

A line ends at a line feed, together with a carriage return directly before it. What follows the last line
feed is a line of its own unless it is empty, and a carriage return at its end stays. `ofLines` writes lines. -/

namespace GpuListing.Text

/-- The lines of a text, without what ends them. -/
def lines : List Char → List (List Char)
  | [] => []
  | '\n' :: rest => [] :: lines rest
  | '\r' :: '\n' :: rest => [] :: lines rest
  | c :: rest =>
    match lines rest with
    | [] => [[c]]
    | line :: more => (c :: line) :: more

/-- The text of lines, with a line feed after each. -/
def ofLines (lines : List (List Char)) : List Char := lines.flatMap fun line => line ++ ['\n']

/-- A line without the carriage return at its end. -/
def withoutReturn (line : List Char) : List Char := if line.getLast? = some '\r' then line.dropLast else line

end GpuListing.Text
