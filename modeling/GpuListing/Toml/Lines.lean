import GpuListing.Text.Hex
import GpuListing.Toml.Document

/-! # Documents of lines

A document that tells given entries, one on each line: a bare key, an equals sign and a value, which is a text between
double marks, a truth value or a decimal integer of 64 bits. Space may stand around the parts, each character of a text
may be written in several ways, and a line ends as lines of documents do. `writeLines` is one way to write them. -/

namespace GpuListing.Toml

/-! ### Values -/

/-- A value that is written on a line. -/
inductive Scalar where
  | text (s : String)
  | boolean (b : Bool)
  | integer (n : Int64)
  deriving DecidableEq

/-- The value in a document. -/
def Scalar.node : Scalar → Node
  | text s => .text s
  | boolean b => .boolean b
  | integer n => .integer n.toInt

/-- What is set on a line. -/
abbrev Entry := String × Scalar

/-- The fields that entries make. -/
def nodesOf (entries : List Entry) : Fields := entries.map fun entry => (entry.1, entry.2.node)

/-! ### Texts -/

/-- The letters that stand for a character behind a backslash, each with its character. -/
def letterEscapes : List (Char × Char) :=
  [('b', '\x08'), ('t', '\t'), ('n', '\n'), ('f', '\x0c'), ('r', '\r'), ('e', '\x1b'), ('\x22', '\x22'), ('\\', '\\')]

/-- The letters behind a backslash that a code point follows, each with the number of its digits. -/
def codeEscapes : List (Char × Nat) := [('x', 2), ('u', 4), ('U', 8)]

/-- The ways to write a character between double marks: as it is, by a letter, or by its code point in hexadecimal
digits of either case. -/
inductive Spells (c : Char) : List Char → Prop where
  | plain : isPlain c = true → c ≠ '\x22' → c ≠ '\\' → Spells c [c]
  | letter {mark : Char} : (mark, c) ∈ letterEscapes → Spells c ['\\', mark]
  | code {mark : Char} {digits : List Char} : (mark, digits.length) ∈ codeEscapes →
      (∀ d ∈ digits, Text.isDigitOf 16 d = true) → Text.ofDigits 16 digits = c.toNat → Spells c ('\\' :: mark :: digits)

/-- The ways to write a text between double marks. -/
inductive SpellsText : List Char → List Char → Prop where
  | nil : SpellsText [] []
  | cons {c : Char} {text word words : List Char} : Spells c word → SpellsText text words →
      SpellsText (c :: text) (word ++ words)

/-! ### Integers -/

/-- The ways to write decimal digits, with single underscores between some of them. -/
inductive Groups : List Char → List Char → Prop where
  | last {d : Char} : d.isDigit = true → Groups [d] [d]
  | next {d : Char} {digits word : List Char} : d.isDigit = true → Groups digits word →
      Groups (d :: digits) (d :: word)
  | apart {d : Char} {digits word : List Char} : d.isDigit = true → Groups digits word →
      Groups (d :: digits) (d :: '_' :: word)

/-- The ways to write a number without a sign: no zero stands in front of other digits. -/
def Counts (n : Nat) (word : List Char) : Prop :=
  ∃ digits, Groups digits word ∧ (digits.head? = some '0' → digits = ['0']) ∧ Text.ofDecimal digits = n

/-- The ways to write an integer in decimal digits. -/
inductive Numeral : Int → List Char → Prop where
  | unsigned {n : Nat} {word : List Char} : Counts n word → Numeral n word
  | plus {n : Nat} {word : List Char} : Counts n word → Numeral n ('+' :: word)
  | minus {n : Nat} {word : List Char} : Counts n word → Numeral (-n) ('-' :: word)

/-! ### Lines -/

/-- The ways to write a value. -/
inductive Scalar.Written : Scalar → List Char → Prop where
  | text {s : String} {word : List Char} : SpellsText s.toList word →
      Written (.text s) ('\x22' :: (word ++ ['\x22']))
  | yes : Written (.boolean true) "true".toList
  | no : Written (.boolean false) "false".toList
  | integer {n : Int64} {word : List Char} : Numeral n.toInt word → Written (.integer n) word

/-- Blanks and tabs, or nothing. -/
def Spaces (text : List Char) : Prop := ∀ c ∈ text, isSpace c = true

/-- A key that needs no marks around it. -/
def BareKey (key : String) : Prop := key.toList ≠ [] ∧ ∀ c ∈ key.toList, isKeyCharacter c = true

instance (key : String) : Decidable (BareKey key) :=
  decidable_of_iff (key.toList ≠ [] ∧ key.toList.all isKeyCharacter = true) (and_congr_right fun _ => List.all_eq_true)

/-- The ways to write an entry on a line. -/
inductive LineOf : Entry → List Char → Prop where
  | mk {key : String} {value : Scalar} {front left right word back : List Char} : BareKey key → value.Written word →
      Spaces front → Spaces left → Spaces right → Spaces back →
      LineOf (key, value) (front ++ (key.toList ++ (left ++ '=' :: (right ++ (word ++ back)))))

/-- A line ends, or the text does; and the text after it. -/
inductive Ends : List Char → List Char → Prop where
  | last : Ends [] []
  | feed (rest : List Char) : Ends ('\n' :: rest) rest
  | returnFeed (rest : List Char) : Ends ('\r' :: '\n' :: rest) rest

/-- The ways to write entries line by line. -/
inductive LinesOf : List Entry → List Char → Prop where
  | nil : LinesOf [] []
  | cons {entry : Entry} {entries : List Entry} {line ending rest : List Char} : LineOf entry line →
      Ends ending rest → LinesOf entries rest → LinesOf (entry :: entries) (line ++ ending)

/-! ### A writer -/

/-- A character as it is if it may be, and by its code point otherwise. -/
def spell (c : Char) : List Char :=
  if isPlain c = true ∧ c ≠ '\x22' ∧ c ≠ '\\' then [c] else '\\' :: 'U' :: Text.hexFixed 8 c.toNat

namespace Scalar

/-- The value on a line. -/
def write : Scalar → List Char
  | text s => '\x22' :: (s.toList.flatMap spell ++ ['\x22'])
  | boolean b => if b then "true".toList else "false".toList
  | integer n => if n.toInt < 0 then '-' :: Nat.toDigits 10 n.toInt.natAbs else Nat.toDigits 10 n.toInt.natAbs

end Scalar

/-- An entry on a line, which ends. -/
def writeLine (entry : Entry) : List Char :=
  entry.1.toList ++ (' ' :: '=' :: ' ' :: (entry.2.write ++ ['\n']))

/-- The entries line by line. -/
def writeLines (entries : List Entry) : List Char := entries.flatMap writeLine

end GpuListing.Toml
