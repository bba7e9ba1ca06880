import Markflow.Fault

/-!
# Options of a converter

How help is displayed, and which built-in transforms are left out.
-/

namespace Markflow

/-- How help is displayed: as Markdown or with the colours of a terminal. -/
inductive Display where
  | plain
  | terminal
  deriving DecidableEq, Repr, Inhabited

namespace Display

/-- The name of a display. -/
def name : Display → String
  | plain => "plain"
  | terminal => "terminal"

/-- The display that a value names. -/
def read : Value → Except Fault Display
  | .text "plain" => .ok plain
  | .text "terminal" => .ok terminal
  | value => .error (.invalid (.displayMode value))

end Display

/-- The options of a converter. -/
structure Options where
  display : Display := .plain
  /-- The names of built-in transforms that are removed; names that are unknown are ignored. -/
  disabled : List String := []
  deriving DecidableEq, Repr, Inhabited

namespace Options

/-- The names that a value lists; a text is one name. -/
def readDisabled (value : Value) : Except Fault (List String) := do
  let items ← match value with
    | .text name => pure [.text name]
    | .list items => pure items
    | .table entries => pure (entries.map (·.1))
    | .bag _ _ items => pure items
    | value => throw (.kind (.notIterable value.kindName))
  if items.all Value.isText then return items.map Value.shown
  else throw (.invalid (.disabledNotNames value))

/-- The options of two values. -/
def make (display disabled : Value) : Except Fault Options := do
  let display ← Display.read display
  let disabled ← readDisabled disabled
  return { display, disabled }

/-- The options with the given ones in their place.  Names other than those of the two options are
refused. -/
def update (options : Options) (changes : Entries) : Except Fault Options :=
  match changes.without ["display_mode", "disabled_transforms"] with
  | (key, _) :: _ => .error (.kind (.unexpectedArgument .options key.shown))
  | [] =>
    make ((changes.find? "display_mode").getD (.text options.display.name))
      ((changes.find? "disabled_transforms").getD (.list (options.disabled.map .text)))

/-- The options of named values. -/
def ofEntries (entries : Entries) : Except Fault Options :=
  update {} entries

end Options

end Markflow
