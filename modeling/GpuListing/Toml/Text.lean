import GpuListing.Text.Numeral
import GpuListing.Toml.Space

/-! # Strings in TOML

A string stands between double marks, with escapes, or between single ones, without. One mark on each side
keeps it on a line; three let it run over lines, and then a first line end is dropped, one or two marks may
stand inside, even at the end, and a backslash before a line end drops all space up to the next text. -/

namespace GpuListing.Toml

/-- What a reader finds at the start of a text, and the text after it. -/
abbrev Reader (α : Type) := List Char → Option (α × List Char)

/-! ### Escapes -/

/-- The character whose code point stands in hexadecimal digits of a given number. -/
def codePoint (width : Nat) : Reader Char := fun text => do
  let n ← Text.ofDigits? 16 (text.take width)
  if width ≤ text.length ∧ n.isValidChar then some (Char.ofNat n, text.drop width) else none

/-- The character that is escaped; the text begins after the backslash. -/
def escaped : Reader Char
  | 'b' :: rest => some ('\x08', rest)
  | 't' :: rest => some ('\t', rest)
  | 'n' :: rest => some ('\n', rest)
  | 'f' :: rest => some ('\x0c', rest)
  | 'r' :: rest => some ('\r', rest)
  | 'e' :: rest => some ('\x1b', rest)
  | '\x22' :: rest => some ('\x22', rest)
  | '\\' :: rest => some ('\\', rest)
  | 'x' :: rest => codePoint 2 rest
  | 'u' :: rest => codePoint 4 rest
  | 'U' :: rest => codePoint 8 rest
  | _ => none

theorem length_of_codePoint {width : Nat} {text rest : List Char} {c : Char}
    (h : codePoint width text = some (c, rest)) : rest.length ≤ text.length := by
  simp only [codePoint, Option.bind_eq_bind, Option.bind_eq_some_iff] at h
  obtain ⟨n, -, h⟩ := h
  split at h
  · simp only [Option.some.injEq, Prod.mk.injEq] at h
    rw [← h.2, List.length_drop]
    omega
  · cases h

/-- An escape takes at least one character. -/
theorem length_of_escaped {text rest : List Char} {c : Char} (h : escaped text = some (c, rest)) :
    rest.length < text.length := by
  unfold escaped at h
  split at h
  case h_9 => have := length_of_codePoint h; simp only [List.length_cons]; omega
  case h_10 => have := length_of_codePoint h; simp only [List.length_cons]; omega
  case h_11 => have := length_of_codePoint h; simp only [List.length_cons]; omega
  case h_12 => cases h
  all_goals
    simp only [Option.some.injEq, Prod.mk.injEq] at h
    rw [← h.2]
    simp

/-! ### Strings on a line -/

/-- A string between double marks; the text begins after the first one. -/
def basic : List Char → Option (List Char × List Char)
  | [] => none
  | c :: tail =>
    if c = '\x22' then some ([], tail)
    else if c = '\\' then
      match _h : escaped tail with
      | none => none
      | some (c, rest) => (basic rest).map fun found => (c :: found.1, found.2)
    else if isPlain c then (basic tail).map fun found => (c :: found.1, found.2)
    else none
termination_by text => text.length
decreasing_by
  · have := length_of_escaped ‹_›
    simp only [List.length_cons]
    omega
  · simp

/-- A string between single marks; the text begins after the first one. -/
def literal (text : List Char) : Option (List Char × List Char) :=
  let isInside c := isPlain c && c ≠ '\x27'
  match text.dropWhile isInside with
  | '\x27' :: rest => some (text.takeWhile isInside, rest)
  | _ => none

/-! ### Strings over lines -/

/-- The text after an end of line at its start. -/
def dropLineEnd : List Char → List Char
  | '\n' :: rest => rest
  | '\r' :: '\n' :: rest => rest
  | text => text

/-- The text after the space and the ends of lines at its start. -/
def skipBlankLines : List Char → List Char
  | '\n' :: rest => skipBlankLines rest
  | '\r' :: '\n' :: rest => skipBlankLines rest
  | c :: rest => if isSpace c then skipBlankLines rest else c :: rest
  | [] => []

/-- A line ends here, but for space before its end. -/
def endsLine (text : List Char) : Bool :=
  match skipSpaces text with
  | '\n' :: _ => true
  | '\r' :: '\n' :: _ => true
  | _ => false

/-- What a part of a string over lines gives, the text after it, and whether the string ends there. -/
abbrev Piece := List Char × List Char × Bool

/-- Marks inside a string over lines: three end it, and up to two before them belong to it. -/
def markPiece (mark : Char) (text : List Char) : Option Piece :=
  let count := (text.takeWhile (· = mark)).length
  let rest := text.drop count
  if count < 3 then some (List.replicate count mark, rest, false)
  else if count ≤ 5 then some (List.replicate (count - 3) mark, rest, true)
  else none

/-- The next part of a string over lines. -/
def piece (mark : Char) (escapes : Bool) : List Char → Option Piece
  | [] => none
  | '\n' :: rest => some (['\n'], rest, false)
  | '\r' :: '\n' :: rest => some (['\r', '\n'], rest, false)
  | c :: rest =>
    if c = mark then markPiece mark (c :: rest)
    else if escapes && c = '\\' then
      if endsLine rest then some ([], skipBlankLines rest, false)
      else (escaped rest).map fun (c, rest) => ([c], rest, false)
    else if isPlain c then some ([c], rest, false)
    else none

theorem length_skipBlankLines (text : List Char) : (skipBlankLines text).length ≤ text.length := by
  induction text using skipBlankLines.induct <;> simp_all [skipBlankLines] <;> omega

theorem length_of_markPiece {mark : Char} {tail cs rest : List Char} {ends : Bool}
    (h : markPiece mark (mark :: tail) = some (cs, rest, ends)) : rest.length < (mark :: tail).length := by
  simp only [markPiece] at h
  have hcount : 0 < ((mark :: tail).takeWhile (· = mark)).length := by simp
  have hle := (List.takeWhile_sublist (· = mark) (l := mark :: tail)).length_le
  split at h
  · simp only [Option.some.injEq, Prod.mk.injEq] at h
    rw [← h.2.1, List.length_drop]
    omega
  · split at h
    · simp only [Option.some.injEq, Prod.mk.injEq] at h
      rw [← h.2.1, List.length_drop]
      omega
    · cases h

/-- A part takes at least one character. -/
theorem length_of_piece {mark : Char} {escapes : Bool} {text cs rest : List Char} {ends : Bool}
    (h : piece mark escapes text = some (cs, rest, ends)) : rest.length < text.length := by
  unfold piece at h
  split at h
  · cases h
  · simp only [Option.some.injEq, Prod.mk.injEq] at h
    rw [← h.2.1]
    simp
  · simp only [Option.some.injEq, Prod.mk.injEq] at h
    rw [← h.2.1]
    simp only [List.length_cons]
    omega
  · next c tail _ _ =>
    split at h
    · next hc =>
      subst hc
      exact length_of_markPiece h
    · split at h
      · split at h
        · simp only [Option.some.injEq, Prod.mk.injEq] at h
          have := length_skipBlankLines tail
          rw [← h.2.1, List.length_cons]
          omega
        · obtain ⟨found, he, h⟩ := Option.map_eq_some_iff.mp h
          have := length_of_escaped he
          simp only [Prod.mk.injEq] at h
          rw [← h.2.1, List.length_cons]
          omega
      · split at h
        · simp only [Option.some.injEq, Prod.mk.injEq] at h
          rw [← h.2.1]
          simp
        · cases h

/-- The rest of a string over lines. -/
def pieces (mark : Char) (escapes : Bool) (text : List Char) : Option (List Char × List Char) :=
  match _h : piece mark escapes text with
  | none => none
  | some (cs, rest, true) => some (cs, rest)
  | some (cs, rest, false) => (pieces mark escapes rest).map fun found => (cs ++ found.1, found.2)
termination_by text.length
decreasing_by exact length_of_piece ‹_›

/-- A string over lines; the text begins after the first three marks. -/
def multiline (mark : Char) (escapes : Bool) : Reader (List Char) := fun text =>
  pieces mark escapes (dropLineEnd text)

/-- A string on one line, if the text begins with one. -/
def lineText : Reader (List Char)
  | '\x22' :: rest => basic rest
  | '\x27' :: rest => literal rest
  | _ => none

/-- A string, if the text begins with one. -/
def anyText : Reader (List Char)
  | '\x22' :: '\x22' :: '\x22' :: rest => multiline '\x22' true rest
  | '\x27' :: '\x27' :: '\x27' :: rest => multiline '\x27' false rest
  | text => lineText text

end GpuListing.Toml
