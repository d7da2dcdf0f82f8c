import LiveForms.Screen.Help
import LiveForms.Screen.Lines
import LiveForms.Text.Cluster

/-!
# Live forms: the screen

The screen is a list of rows of cells. From top to bottom it shows a heading of one
row, a box with the lines of the page, and a box of three rows with the status or the
key hints. In help mode a box with the help text lies over the middle of it.

The page is scrolled just as far as is needed to show the line that holds the focus.

Main definitions:

* `Screen.fit`: pieces of text in a row of cells.
* `Screen.boxed`: rows inside a border with a title.
* `Screen.pageScroll`: how far the page is scrolled.
* `Screen.helpStart`: the first line of the help text that is shown.
* `Screen.frame`: the screen.
-/

namespace LiveForms
namespace Screen

/-- The cells in which the clusters of a text start, in one style. -/
def textCells (style : Style) (text : String) : List Cell :=
  ((Text.clusters text.toList).filter fun cluster => Text.cells cluster ≠ 0).map fun cluster =>
    { symbol := String.ofList cluster, width := Text.cells cluster, style := style }

/-- Blank cells of one style. -/
def blanks (style : Style) (count : Nat) : List Cell :=
  List.replicate count { style := style }

/-- The cells of a span on a ground of one style. -/
def spanCells (ground : Style) (span : Span) : List Cell :=
  textCells (ground.patch span.style) span.text

/-- The cells of a line on a ground of one style. -/
def lineCells (ground : Style) (spans : List Span) : List Cell :=
  spans.flatMap (spanCells ground)

/--
Pieces of text put into a row of `width` cells, of which `room` are left, on a ground of
one style. A piece that is wider than the row is left out, and the first one that finds
no room ends the row.
-/
def fitFrom (width : Nat) (ground : Style) (room : Nat) : List Cell → List Cell
  | [] => blanks ground room
  | c :: cs =>
      if width < c.width then
        fitFrom width ground room cs
      else if room < c.width then
        blanks ground room
      else
        c :: (blanks ground (c.width - 1) ++ fitFrom width ground (room - c.width) cs)

/-- A row of `width` cells that holds pieces of text on a ground of one style. -/
def fit (width : Nat) (ground : Style) (cells : List Cell) : List Cell :=
  fitFrom width ground width cells

/-- A row of a box: the inner cells between two border cells. -/
def borderedRow (width : Nat) (frame : Style) (left right : String) (inner : List Cell) :
    List Cell :=
  ({ symbol := left, style := frame } :: (inner ++ [{ symbol := right, style := frame }])).take
    width

/-- A row of the border, with a title from its second cell on. -/
def edgeRow (width : Nat) (frame : Style) (left right : String) (title : String) : List Cell :=
  let inner := width - 2
  let edge := textCells frame title ++ List.replicate inner { symbol := "─", style := frame }
  borderedRow width frame left right (edge.take inner)

/-- Rows of cells inside a border with a title, cut or filled to a size. -/
def boxed (width height : Nat) (frame ground : Style) (title : String)
    (rows : List (List Cell)) : List (List Cell) :=
  let inner := (rows ++ List.replicate (height - 2) []).take (height - 2)
  let top := edgeRow width frame "┌" "┐" title
  let bottom := edgeRow width frame "└" "┘" ""
  let middle := inner.map fun row =>
    borderedRow width frame "│" "│" (fit (width - 2) ground row)
  (top :: (middle ++ [bottom])).take height

/-- The heading: the title of the page and what has the focus. -/
def heading (s : Session) : String :=
  let title := if s.title = "" then "Form" else s.title
  "tforms - " ++ title ++ " | Focus: " ++ s.focusDescription

/-- The row of the heading. -/
def headingRow (s : Session) (width : Nat) : List Cell :=
  let style := Style.ink .cyan
  fit width style (textCells style ((Text.rows (heading s)).headD ""))

/-- How far a page has to be scrolled so that `line` is among `visible` lines. -/
def scrollFor (line visible : Nat) : Nat :=
  if 0 < visible ∧ visible ≤ line then line + 1 - visible else 0

/-- The scroll offset of a page box of some height, as a number of sixteen bits. -/
def pageScroll (line height : Nat) : Nat :=
  scrollFor line (height - 2) % Nat.pow 2 16

/-- The box with the lines of the page. -/
def pageBox (s : Session) (width height : Nat) : List (List Cell) :=
  let lines := pageLines s
  let shown := lines.drop (pageScroll (focusLine lines) height)
  boxed width height .plain .plain "Form"
    (shown.map fun line => lineCells .plain line.spans)

/-- The text of the status box. -/
def statusText (s : Session) : String :=
  match s.mode with
  | .normal =>
      s.status.getD <|
        "Tab/jk: move | Enter: edit/press | a: add course | d: remove course | " ++
          "y: copy | F1/?: help | q: quit"
  | .editing =>
      "Editing: " ++ String.ofList s.buffer.text ++ " (Enter to keep, Esc to cancel)"
  | .help => "↑↓/jk: scroll | PgUp/PgDn: fast scroll | Home: top | Esc/q: close help"

/-- The style of the status box. -/
def statusStyle : Mode → Style
  | .normal => .plain
  | .editing => .ink .green
  | .help => .ink .cyan

/-- The status box. -/
def statusBox (s : Session) (width : Nat) : List (List Cell) :=
  let style := statusStyle s.mode
  boxed width 3 style style "Status" ((Text.rows (statusText s)).map (textCells style))

/-- The first line of the help text shown by a box with `visible` lines. -/
def helpStart (scroll visible : Nat) : Nat :=
  min scroll (helpText.length - visible)

/-- The box with the help text. -/
def helpBox (scroll width height : Nat) : List (List Cell) :=
  let start := helpStart scroll (height - 2)
  let title :=
    "tforms Help (Line " ++ toString (start + 1) ++ "/" ++ toString helpText.length ++ ")"
  let text := Style.ink .white
  boxed width height (.ink .cyan) text title ((helpText.drop start).map (textCells text))

/-- A row with other cells in place of its own from column `x` on. -/
def overlayRow (x : Nat) (upper row : List Cell) : List Cell :=
  row.take x ++ upper ++ row.drop (x + upper.length)

/-- Rows with other rows laid over them from column `x` and row `y` on. -/
def overlay (x y : Nat) (upper rows : List (List Cell)) : List (List Cell) :=
  rows.take y ++ List.zipWith (overlayRow x) upper (rows.drop y) ++
    rows.drop (y + upper.length)

/-- The screen without the help text. -/
def mainFrame (s : Session) (width height : Nat) : List (List Cell) :=
  headingRow s width :: (pageBox s width (height - 4) ++ statusBox s width)

/-- The screen as it is drawn, with the help text over it in help mode. -/
def drawn (s : Session) (width height : Nat) : List (List Cell) :=
  let base := mainFrame s width height
  if s.mode = .help then
    overlay (width / 10) (height / 10)
      (helpBox s.helpScroll (width * 4 / 5) (height * 4 / 5)) base
  else
    base

/--
A row as a terminal shows it: the cell behind one with a wider piece of text is not
written, and stays blank. `covered` says that the first cell is such a cell.
-/
def shownFrom (covered : Bool) : List Cell → List Cell
  | [] => []
  | c :: cs => (if covered then {} else c) :: shownFrom (1 < c.width) cs

/-- The screen of a session on a terminal of at least five rows. -/
def frame (s : Session) (width height : Nat) : List (List Cell) :=
  (drawn s width height).map (shownFrom false)

end Screen
end LiveForms
