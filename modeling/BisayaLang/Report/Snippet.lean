/-
**Snippets of source.**

A snippet shows the lines of a source that labels point at, with their numbers.  A label on one line is
drawn as carets below the line, followed by its remark.  A label over several lines is drawn as a
bracket in a gutter between the numbers and the text; of its lines the first four and the last two are
shown.  A single line left out between two shown lines is shown too; more of them are replaced by dots.

Main definitions:

* `BisayaLang.Snippet.Line`, `BisayaLang.Snippet.linesOf` — the lines of a source;
* `BisayaLang.Snippet.Cell`, `BisayaLang.Snippet.cells` — the columns of a line;
* `BisayaLang.Snippet.Mark` — a part of a label on one line;
* `BisayaLang.Snippet.Row` — a line with the marks on it;
* `BisayaLang.Snippet.draw` — the snippet, line by line.
-/

import BisayaLang.Report.Diagnostic
import BisayaLang.Text.Blank
import BisayaLang.Text.Width

set_option relaxedAutoImplicit false
set_option autoImplicit false

namespace BisayaLang.Snippet

/-! ### Lines and columns -/

/-- A line of the source with its end, its number and the offset where it starts. -/
structure Line where
  number : Nat
  start : Nat
  text : List Char

/-- The number of bytes of a text. -/
def byteSize (cs : List Char) : Nat := cs.foldl (fun n c => n + c.utf8Size) 0

/-- Cuts a text behind every line feed; `line` is what stands before it on its line, backwards.  Behind
the last line feed there is always another line, maybe an empty one. -/
def cutLines (number start : Nat) (line : List Char) : List Char → List Line
  | [] => [⟨number, start, line.reverse⟩]
  | c :: cs =>
      if c = '\n' then
        let text := (c :: line).reverse
        ⟨number, start, text⟩ :: cutLines (number + 1) (start + byteSize text) [] cs
      else cutLines number start (c :: line) cs

/-- The lines of a source, from number one. -/
def linesOf (source : String) : List Line := cutLines 1 0 [] source.toList

/-- The text of a line as it is shown, without its end. -/
def Line.shown (l : Line) : List Char :=
  Text.dropEndWhile (fun c => c = '\n' || c = '\r' || c = '\x00') l.text

/-- The number of bytes of blanks that a line starts with. -/
def Line.indent (l : Line) : Nat := byteSize (l.shown.takeWhile Text.isBlank)

/-- The number of the line that an offset lies on. -/
def lineNumberAt (lines : List Line) (offset : Nat) : Nat :=
  lines.foldl (fun n l => if l.start ≤ offset then l.number else n) 1

/-- The offset where a line starts. -/
def startOf (lines : List Line) (number : Nat) : Nat :=
  ((lines.find? fun l => l.number == number).map Line.start).getD 0

/-- A character of a line: its offset in the line, and the number of columns it takes. -/
structure Cell where
  offset : Nat
  char : Char
  width : Nat

/-- The columns from one tab stop to the next. -/
def tabWidth : Nat := 4

/-- The characters of a line from some offset and column on.  A tab goes up to the next tab stop. -/
def cellsFrom (offset column : Nat) : List Char → List Cell
  | [] => []
  | c :: cs =>
      let width := if c = '\t' then tabWidth - column % tabWidth else Text.width c
      ⟨offset, c, width⟩ :: cellsFrom (offset + c.utf8Size) (column + width) cs

/-- The characters of a line as they are shown. -/
def cells (l : Line) : List Cell := cellsFrom 0 0 l.shown

/-- A character so many times. -/
def times (n : Nat) (c : Char) : String := String.ofList (List.replicate n c)

/-- The column of an offset, counted from one: the characters on its line that end before it. -/
def columnAt (lines : List Line) (offset : Nat) : Nat :=
  let number := lineNumberAt lines offset
  match lines.find? fun l => l.number == number with
  | none => 1
  | some l =>
      let ended (state : Nat × Nat) (c : Char) : Nat × Nat :=
        let stop := state.1 + c.utf8Size
        (stop, if stop ≤ offset then state.2 + 1 else state.2)
      (l.text.foldl ended (l.start, 0)).2 + 1

/-! ### Marks -/

/-- A label that is what the diagnostic is about, or another one. -/
inductive Rank where
  | primary | secondary
  deriving DecidableEq

/-- The character that a label of one line is drawn with. -/
def Rank.caret : Rank → Char
  | .primary => '^'
  | .secondary => '-'

/-- The character that a label of several lines starts and ends with. -/
def Rank.corner : Rank → Char
  | .primary => '^'
  | .secondary => '\''

/-- What a label of several lines does on one of its lines. -/
inductive Mark where
  | top (offset : Nat)
  | left
  | bottom (offset : Nat) (remark : String)

/-- A label in terms of lines. -/
structure Placed where
  rank : Rank
  span : Span
  remark : String
  first : Nat
  last : Nat

/-- Finds the lines of a label, after its span is cut down to the source. -/
def place (lines : List Line) (size : Nat) (rank : Rank) (label : Label) : Placed :=
  let span := label.span.clamp size
  ⟨rank, span, label.text.getD "", lineNumberAt lines span.start, lineNumberAt lines span.stop⟩

/-- A label on one line: where it starts and stops on the line.  It takes at least one byte. -/
structure Single where
  rank : Rank
  start : Nat
  stop : Nat
  remark : String

/-- A line with what is drawn on it: labels of one line, and marks with the number of their gutter. -/
structure Row where
  line : Line
  singles : List Single
  marks : List (Nat × Rank × Mark)
  shown : Bool

/-- The label as one on a single line. -/
def single? (l : Line) (p : Placed) : Option Single :=
  if p.first = p.last ∧ p.first = l.number then
    let start := p.span.start - l.start
    some ⟨p.rank, start, max (p.span.stop - l.start) (start + 1), p.remark⟩
  else none

/-- The lines shown of a label after its first one. -/
def contextAfter : Nat := 3

/-- The lines shown of a label before its last one. -/
def contextBefore : Nat := 1

/-- The mark that a label of several lines leaves on a line, and whether the line is shown for it. -/
def mark? (l : Line) (p : Placed) : Option (Mark × Bool) :=
  if l.number = p.first then some (.top (p.span.start - l.start), true)
  else if l.number = p.last then some (.bottom (p.span.stop - l.start) p.remark, true)
  else if p.first < l.number ∧ l.number < p.last then
    some (.left, l.number - p.first ≤ contextAfter || p.last - l.number ≤ contextBefore)
  else none

/-- Numbers the gutters of the labels of several lines. -/
def gutters (placed : List Placed) : List (Nat × Placed) :=
  (placed.filter fun p => p.first != p.last).mapIdx fun i p => (i, p)

/-- The line with all that is drawn on it, if there is anything. -/
def row? (placed : List Placed) (l : Line) : Option Row :=
  let singles := placed.filterMap (single? l)
  let marks := (gutters placed).filterMap fun (i, p) =>
    (mark? l p).map fun (m, shown) => ((i, p.rank, m), shown)
  if singles.isEmpty && marks.isEmpty then none
  else some ⟨l, singles, marks.map (·.1), !singles.isEmpty || marks.any (·.2)⟩

/-! ### Drawing -/

/-- An empty gutter. -/
def emptyGutter : String := "  "

/-- The gutters beside dots or below a line. -/
def gutterBelow (count : Nat) (marks : List (Nat × Rank × Mark)) : String :=
  String.join ((List.range count).map fun i =>
    match marks.lookup i with
    | some (_, .left) | some (_, .bottom ..) => " │"
    | _ => emptyGutter)

/-- The gutters beside a line.  A label that starts in front of all text of the line starts in the
gutter. -/
def gutterBeside (count : Nat) (row : Row) : String :=
  String.join ((List.range count).map fun i =>
    match row.marks.lookup i with
    | some (_, .left) | some (_, .bottom ..) => " │"
    | some (_, .top offset) => if offset ≤ row.line.indent then " ╭" else emptyGutter
    | none => emptyGutter)

/-- The source text of a line. -/
def drawText (l : Line) : String :=
  String.join ((cells l).map fun c =>
    if c.char = '\t' then times c.width ' ' else c.char.toString)

/-- Two ranges of offsets have an offset in common. -/
def overlap (start₁ stop₁ start₂ stop₂ : Nat) : Bool := max start₁ start₂ < min stop₁ stop₂

/-- The carets below a line.  There is one column behind the text, so that a label can point at the end
of the line. -/
def drawCarets (l : Line) (singles : List Single) : String :=
  let columns := cells l ++ [⟨byteSize l.shown, '\x00', 1⟩]
  let stop := singles.foldl (fun n s => max n s.stop) 0
  String.join (columns.map fun c =>
    let here := singles.filter fun s => overlap s.start s.stop c.offset (c.offset + c.char.utf8Size)
    match here with
    | s :: rest =>
        times c.width (if (s :: rest).any (fun s => s.rank == .primary) then Rank.primary.caret
          else s.rank.caret)
    | [] => if c.offset < stop then times c.width ' ' else "")

/-- A remark with a space before it, unless there is none. -/
def trailer (remark : String) : String := if remark.isEmpty then "" else " " ++ remark

/-- The gutters below a line on which the corner of the label in gutter `mine` is drawn: later gutters are
underlined, and a label that started above or still goes on keeps its line. -/
def gutterCorner (count mine : Nat) (corner : String) (marks : List (Nat × Rank × Mark)) : String :=
  String.join ((List.range count).map fun i =>
    if i = mine then " " ++ corner
    else
      let line := if mine < i then "─│" else " │"
      let space := if mine < i then "──" else emptyGutter
      match marks.lookup i with
      | some (_, .left) => line
      | some (_, .top _) => if i < mine then line else space
      | some (_, .bottom ..) => if mine < i then line else space
      | none => space)

/-- A horizontal line below the characters before an offset. -/
def underline (l : Line) (offset : Nat) : String :=
  String.join (((cells l).takeWhile fun c => c.offset < offset).map fun c => times c.width '─')

/-- The corner of a label of several lines below the line where it starts or stops. -/
def drawCorner (count : Nat) (row : Row) : Nat × Rank × Mark → Option String
  | (_, _, .left) => none
  | (i, rank, .top offset) =>
      if offset ≤ row.line.indent then none
      else
        some (gutterCorner count i "╭" row.marks ++ underline row.line (offset + 1) ++
          rank.corner.toString)
  | (i, rank, .bottom offset remark) =>
      some (gutterCorner count i "╰" row.marks ++ underline row.line offset ++
        rank.corner.toString ++ trailer remark)

/-- A text at the right end of so many columns. -/
def alignRight (width : Nat) (s : String) : String := times (width - s.length) ' ' ++ s

/-- What a snippet is drawn with: the width of the line numbers, and the number of gutters. -/
structure Frame where
  width : Nat
  count : Nat

/-- The margin of a line without a number. -/
def Frame.margin (f : Frame) (border : String) : String := times f.width ' ' ++ " " ++ border

/-- A line of the source, and the lines below it. -/
def Frame.drawRow (f : Frame) (row : Row) : List String :=
  let source := alignRight f.width (toString row.line.number) ++ " │" ++ gutterBeside f.count row ++
    " " ++ drawText row.line
  let carets :=
    match row.singles.getLast? with
    | none => []
    | some last =>
        [f.margin "│" ++ gutterBelow f.count row.marks ++ " " ++ drawCarets row.line row.singles ++
          trailer last.remark]
  let corners := row.marks.filterMap (drawCorner f.count row)
  source :: carets ++ corners.map fun c => f.margin "│" ++ c

/-- What stands between two shown lines: nothing, the one line between them, or dots. -/
def Frame.drawGap (f : Frame) (lines : List Line) (rows : List Row) (row next : Row) : List String :=
  if next.line.number = row.line.number + 1 then []
  else if next.line.number = row.line.number + 2 then
    match lines.find? fun l => l.number == row.line.number + 1 with
    | none => []
    | some l =>
        let marks := ((rows.find? fun r => r.line.number == l.number).map Row.marks).getD []
        f.drawRow ⟨l, [], marks, true⟩
  else [f.margin "·" ++ gutterBelow f.count row.marks]

/-- The shown lines, with what stands between them. -/
def Frame.drawRows (f : Frame) (lines : List Line) (rows : List Row) : List Row → List String
  | [] => []
  | [row] => f.drawRow row
  | row :: next :: rest =>
      f.drawRow row ++ f.drawGap lines rows row next ++ drawRows f lines rows (next :: rest)

/-- The greatest number of digits of the lines that labels touch. -/
def numberWidth (placed : List Placed) : Nat :=
  placed.foldl (fun n p => max n (toString (max p.first p.last)).length) 0

/-- The snippet of a location: the place of its label, and the lines that labels touch. -/
def draw (loc : Location) : List String :=
  let lines := linesOf loc.source
  let size := loc.source.utf8ByteSize
  let placed := place lines size .primary loc.label :: loc.others.map (place lines size .secondary)
  let rows := lines.filterMap (row? placed)
  let f : Frame := ⟨numberWidth placed, (gutters placed).length⟩
  let start := (loc.label.span.clamp size).start
  let locus := f.margin "┌─" ++ " " ++ loc.path ++ ":" ++ toString (lineNumberAt lines start) ++ ":" ++
    toString (columnAt lines start)
  locus :: (f.margin "│" ++ gutterBelow f.count []) ::
    f.drawRows lines rows (rows.filter Row.shown)

end BisayaLang.Snippet
