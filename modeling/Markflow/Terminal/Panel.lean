import Markflow.Terminal.Wrap

/-!
# Panels

A panel is text in a box of a given width with a title in its upper border.
-/

namespace Markflow.Terminal

namespace Panel

/-- The title between blanks, cut off at a width. -/
def label (title : Run) (width : Nat) : Run :=
  let text := title.text.map fun c => if c == '\n' then ' ' else c
  ⟨title.style, String.ofList ((' ' :: text.toList ++ [' ']).take width)⟩

/-- The upper border. -/
def upperBorder (panel : Panel) (title : Run) (width : Nat) : List Run :=
  let label := label title (width - 4)
  let slack := width - 4 - label.text.length
  let left := if panel.centred then slack / 2 else 0
  [.plain ("╭─" ++ repeated '─' left), label, .plain (repeated '─' (slack - left) ++ "─╮")]

/-- The lines of a panel with the given title. -/
def lines (panel : Panel) (title : Run) (width : Nat) : List (List Run) :=
  let inner := width - 4
  let content := (wrapRuns inner (panel.body.map Run.clean)).map fun line =>
    [Run.plain "│ "] ++ Run.pad inner line ++ [.plain " │"]
  [panel.upperBorder title width] ++ content ++ [[.plain ("╰" ++ repeated '─' (width - 2) ++ "╯")]]

end Panel

end Markflow.Terminal
