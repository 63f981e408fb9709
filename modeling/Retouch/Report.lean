import Retouch.ParseError
import Retouch.Text.Blank
import Retouch.Text.Width

/-!
# Reports

A parse error drawn for a user: the line of the source where it shows, with a label under the
character. `highlight` says which character that is; at the end of a source the label is empty.
-/

namespace Retouch.Report

open Text

/-! ## Positions -/

/-- How many characters stand before the byte offset `offset` of a text. An offset inside a
character counts as the beginning of the text, one behind the text as its end. -/
def charactersBefore (source : Text) (offset : Nat) : Nat :=
  match splitAt? source (min offset (byteLength source)) with
  | some (before, _) => before.length
  | none => 0

/-- The characters from `start` up to `stop` that a report points at. -/
structure Highlight where
  start : Nat
  stop : Nat
deriving DecidableEq

/-- What a report points at for an error at a byte offset: one character, or none at the end. -/
def highlight (source : Text) (offset : Nat) : Highlight :=
  let start := charactersBefore source offset
  ⟨start, max start (min (start + 1) source.length)⟩

/-! ## Lines -/

/-- A character that ends a line of a report. -/
def endsLine (c : Char) : Bool :=
  let n := c.toNat
  (10 ≤ n && n ≤ 13) || n == 0x85 || n == 0x2028 || n == 0x2029

/-- The lines of a text, each with what ends it. -/
def lines : Text → List Text
  | [] => []
  | '\r' :: '\n' :: rest => ['\r', '\n'] :: lines rest
  | c :: rest =>
    if endsLine c then [c] :: lines rest
    else match lines rest with
      | [] => [[c]]
      | line :: others => (c :: line) :: others

/-- A line of a source: its number from 1, its characters, and a position in it. -/
structure Place where
  number : Nat
  line : Text
  column : Nat

/-- Where the character of a rank is. A rank behind the text is taken to be on the last line. -/
def locate (number rank : Nat) : List Text → Option Place
  | [] => none
  | [line] => some ⟨number, line, rank⟩
  | line :: rest =>
    if rank < line.length then some ⟨number, line, rank⟩
    else locate (number + 1) (rank - line.length) rest

/-! ## Drawing -/

/-- How many columns a character takes that stands at the index `i` of its line. -/
def widthAt (i : Nat) (c : Char) : Nat :=
  if c == '\t' then 4 - i % 4 else if isBlank c then 1 else columns c

/-- How a character of the line is shown: blanks as spaces. -/
def shown (i : Nat) (c : Char) : Text :=
  if isBlank c then List.replicate (widthAt i c) ' ' else [c]

/-- The widths of the first `n` characters of a line; behind the line they are 1. -/
def widths (line : Text) (n : Nat) : List Nat :=
  let known := (line.take n).zipIdx.map fun (c, i) => widthAt i c
  known ++ List.replicate (n - known.length) 1

/-- A row with something drawn under each of the first `n` characters of a line, and what fills it up
to the width of the character. -/
def row (line : Text) (n : Nat) (draw : Nat → Char × Char) : Text :=
  ((widths line n).zipIdx).flatMap fun (width, i) =>
    (draw i).1 :: List.replicate (width - 1) (draw i).2

/-- The row under the line: a mark under what is highlighted. -/
def markRow (column : Nat) (empty : Bool) (i : Nat) : Char × Char :=
  if i == column then (if empty then ('│', ' ') else ('┬', '─')) else (' ', ' ')

/-- The row with the label: an arrow from the mark to it. -/
def arrowRow (column : Nat) (i : Nat) : Char × Char :=
  if i < column then (' ', ' ') else if i == column then ('╰', '─') else ('─', '─')

/-- The lines of a report behind its message. -/
def body (place : Place) (length : Nat) : List Text :=
  let number := Nat.toDigits 10 place.number
  let blank := List.replicate (number.length + 2) ' '
  let visible := (trimEnd place.line).zipIdx.flatMap fun (c, i) => shown i c
  let drawn := place.column + length + 2
  [ blank ++ "╭─[<unknown>:".toList ++ number ++ ':' :: Nat.toDigits 10 (place.column + 1) ++ [']'],
    blank ++ ['│'],
    ' ' :: number ++ " │ ".toList ++ visible,
    blank ++ "│ ".toList ++ row place.line drawn (markRow place.column (length == 0)),
    blank ++ "│ ".toList ++ row place.line drawn (arrowRow place.column) ++ " here".toList,
    List.replicate (number.length + 2) '─' ++ ['╯'] ]

/-- The report of an error in a source. An empty source has no line to show. -/
def draw (error : ParseError) (source : Text) : Text :=
  let h := highlight source error.offset
  let title := "Error: ".toList ++ error.message
  let rest := match locate 1 h.start (lines source) with
    | some place => body place (h.stop - h.start)
    | none => []
  (title :: rest).flatMap fun line => line ++ ['\n']

end Retouch.Report
