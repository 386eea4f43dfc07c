import ThreeAddress.Diagnostic.Source

/-!
# Snippets: source lines with one place marked

A place inside one line is underlined with carets, and the message stands behind them:

```text
  ┌─ name:1:8
  │
1 │ lookup x y
  │          ^ message
```

A place that reaches into a later line is drawn as a bracket at the left of its lines, from its first
character to its last:

```text
  ┌─ name:1:7
  │  
1 │   lookup
  │ ╭──────^
2 │ │ print
  │ ╰^ message
```

When nothing but blanks stands before the place, the bracket opens at the first line itself. Of the lines in
between the first three and the last one are shown; two or more others become one row with a dot.

Of a place that ends on an earlier line than it starts, the bracket closes above and opens below, and only these
two lines belong to it.
-/

namespace ThreeAddress
open Text

/-- What is drawn at a line. -/
inductive Mark where
  | underline (start stop : Nat)
  | opening (start : Nat)
  | side
  | closing (stop : Nat)
deriving DecidableEq, Repr

namespace Mark

/-- A bracket opens at the line itself when only blanks stand before it. -/
def opensAtFront (l : SourceLine) : Mark → Bool
  | opening start => start ≤ l.indent
  | _ => false

/-- The bracket column in front of a source line. -/
def gutter (l : SourceLine) (m : Mark) : String :=
  match m with
  | underline .. => ""
  | opening _ => if m.opensAtFront l then " ╭" else "  "
  | side | closing _ => " │"

end Mark

namespace Snippet

def repeated (n : Nat) (c : Char) : String := String.ofList (List.replicate n c)

/-- How many lines behind the first one of a bracket, and before the last one, are shown. -/
def contextAfter : Nat := 3
def contextBefore : Nat := 1

/-- The margin with or without a line number, as wide as the largest number. -/
def margin (padding : Nat) (number : String) : String :=
  repeated (padding - number.length) ' ' ++ number ++ " "

def row (padding : Nat) (number gutter text : String) : String :=
  margin padding number ++ "│" ++ gutter ++ text

def sourceRow (padding : Nat) (l : SourceLine) (gutter : String) : String :=
  row padding (Decimal.ofNat l.number) gutter (" " ++ String.ofList (l.cells.flatMap Cell.shown))

def withMessage (text message : String) : String := if message = "" then text else text ++ " " ++ message

/-- Carets below the cells that overlap the place and blanks before them. One more cell stands behind the
last character, for a place at the end of the line. -/
def carets (l : SourceLine) (start stop : Nat) : String :=
  let cells := l.cells ++ [⟨utf8Length l.visible, '\x00', 1⟩]
  String.join (cells.map fun c =>
    if max c.offset start < min c.stop stop then repeated c.width '^'
    else if c.offset < stop then repeated c.width ' '
    else "")

/-- The arm of a bracket below the cells before a place. -/
def arm (l : SourceLine) (stop : Nat) : String :=
  String.join ((l.cells.filter (·.offset < stop)).map fun c => repeated c.width '─') ++ "^"

/-- The source row of a line, and below it what belongs to its mark. -/
def markedRows (padding : Nat) (message : String) (l : SourceLine) : Option Mark → List String
  | none => [sourceRow padding l "  "]
  | some m =>
    sourceRow padding l (m.gutter l) ::
      match m with
      | .underline start stop => [row padding "" "" (withMessage (" " ++ carets l start stop) message)]
      | .opening start => if m.opensAtFront l then [] else [row padding "" " ╭" (arm l (start + 1))]
      | .side => []
      | .closing stop => [row padding "" " ╰" (withMessage (arm l stop) message)]

/-- The row that stands for lines left out. The bar of the row above it runs on. -/
def breakRow (padding : Nat) : String := margin padding "" ++ "· │"

/-- The mark of a line in a bracket from the line numbered `first` to the one numbered `last`. -/
def bracketMark (span : Span) (first last : Nat) (l : SourceLine) : Option Mark :=
  if l.number = first then some (.opening (span.start - l.start))
  else if l.number = last then some (.closing (span.stop - l.start))
  else if first < l.number ∧ l.number < last then some .side
  else none

def isShown (first last : Nat) (l : SourceLine) : Bool :=
  l.number = first || l.number = last
    || first < l.number && l.number < last
        && (l.number - first ≤ contextAfter || last - l.number ≤ contextBefore)

/-- Lines that are not shown, two or more in a row, become a break. -/
def bracketRows (padding : Nat) (message : String) (span : Span) (first last : Nat)
    (ls : List SourceLine) : List String :=
  let shown := isShown first last
  (ls.splitBy fun a b => shown a == shown b).flatMap fun group =>
    match group with
    | a :: _ :: _ =>
      if shown a then group.flatMap fun l => markedRows padding message l (bracketMark span first last l)
      else [breakRow padding]
    | _ => group.flatMap fun l => markedRows padding message l (bracketMark span first last l)

def digitCount (n : Nat) : Nat := (Decimal.ofNat n).length

/-- All rows of a snippet, the locus first. -/
def rows (f : SourceFile) (span : Span) (message : String) : List String :=
  let first := f.lineAt span.start
  let last := f.lineAt span.stop
  let padding := digitCount (max first.number last.number)
  let locus := margin padding "" ++ "┌─ " ++ f.locus span.start
  if first.number = last.number then
    let start := span.start - first.start
    let stop := max (span.stop - first.start) (start + 1)
    locus :: row padding "" "" "" :: markedRows padding message first (some (.underline start stop))
  else
    let low := min first.number last.number
    let high := max first.number last.number
    let between := f.lines.filter fun l => low ≤ l.number && l.number ≤ high
    locus :: row padding "" "  " "" ::
      bracketRows padding message span first.number last.number between

end Snippet

end ThreeAddress
