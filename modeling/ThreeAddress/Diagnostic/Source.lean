import ThreeAddress.Text.Blank
import ThreeAddress.Text.Decimal
import ThreeAddress.Text.Lines
import ThreeAddress.Text.Span
import ThreeAddress.Text.Width

/-!
# Places in a source file

* `SourceFile.lines` : the lines of a file with their numbers and the bytes at which they begin;
* `SourceFile.lineAt` : the line of a byte offset. A line owns its end, and an offset behind the file counts
  to the last line;
* `SourceFile.locus` : file name, line and column. Columns count characters, from 1;
* `cells` : the characters of a line with their places and display widths; a tab fills up to the next stop.
-/

namespace ThreeAddress
open Text

structure SourceFile where
  name : String
  text : String
deriving DecidableEq, Repr

/-- A line without its end. -/
structure SourceLine where
  number : Nat
  start : Nat
  text : List Char
deriving DecidableEq, Repr, Inhabited

namespace SourceLine

/-- Numbers lines and gives them their places, each a line end behind the one before. -/
def locate (number start : Nat) : List (List Char) → List SourceLine
  | [] => []
  | l :: ls => ⟨number, start, l⟩ :: locate (number + 1) (start + utf8Length l + 1) ls

/-- How many characters end within the first `n` bytes. -/
def charsWithin (n : Nat) : List Char → Nat
  | [] => 0
  | c :: cs => if c.utf8Size ≤ n then charsWithin (n - c.utf8Size) cs + 1 else 0

def column (l : SourceLine) (offset : Nat) : Nat := charsWithin (offset - l.start) l.text + 1

/-- The part of a line that is shown. -/
def visible (l : SourceLine) : List Char :=
  (l.text.reverse.dropWhile fun c => c = '\r' || c = '\x00').reverse

/-- The bytes of blanks at the front of the visible part. -/
def indent (l : SourceLine) : Nat := utf8Length (l.visible.takeWhile isBlank)

end SourceLine

namespace SourceFile

def lines (f : SourceFile) : List SourceLine := SourceLine.locate 1 0 (splitLines f.text.toList)

def lineAt (f : SourceFile) (offset : Nat) : SourceLine :=
  (f.lines.takeWhile (·.start ≤ offset)).getLast?.getD ⟨1, 0, []⟩

def locus (f : SourceFile) (offset : Nat) : String :=
  let l := f.lineAt offset
  f.name ++ ":" ++ Decimal.ofNat l.number ++ ":" ++ Decimal.ofNat (l.column offset)

end SourceFile

/-! ## Cells -/

structure Cell where
  offset : Nat
  char : Char
  width : Nat
deriving DecidableEq, Repr

namespace Cell

def tabWidth : Nat := 4

/-- The cells of a text that begins at byte `offset` and column `column`. -/
def layOut (offset column : Nat) : List Char → List Cell
  | [] => []
  | c :: cs =>
    let w := if c = '\t' then tabWidth - column % tabWidth else Text.width c
    ⟨offset, c, w⟩ :: layOut (offset + c.utf8Size) (column + w) cs

def stop (c : Cell) : Nat := c.offset + c.char.utf8Size

/-- Tabs are shown as blanks. -/
def shown (c : Cell) : List Char := if c.char = '\t' then List.replicate c.width ' ' else [c.char]

end Cell

def SourceLine.cells (l : SourceLine) : List Cell := Cell.layOut 0 0 l.visible

end ThreeAddress
