import Markflow.Builtin.Kind
import Markflow.Data.Key
import Markflow.Pattern.Compiled

/-!
# Definitions

A transform pairs a pattern with a function that renders its matches; a definition holds the two
together with what is said about them.  It can be made from fields that are not valid: whether a
definition can be used is checked by `Definition.validate`, and whether its pattern can be read by
`Definition.compile`.

Render functions other than the built-in ones are not known here; `ρ` is the type of whatever stands
for them.
-/

namespace Markflow

/-- What a function wants that renders no captures: a text, or something with a field that captures
do not have. -/
inductive Misfit where
  | wantsMarkdown
  | wantsField (name : String)
  deriving DecidableEq, Repr, Inhabited

/-- What is given to render matches. -/
inductive Render (ρ : Type) where
  | builtin (kind : Builtin)
  | custom (handle : ρ)
  /-- A function that fails for all captures. -/
  | misfit (cause : Misfit)
  /-- A value that is no function. -/
  | value (v : Value)
  deriving Repr, Inhabited

namespace Render

variable {ρ : Type}

/-- Whether what is given counts as given. -/
def isSet : Render ρ → Bool
  | value v => v.isSet
  | _ => true

/-- Whether what is given is a function. -/
def isFunction : Render ρ → Bool
  | value _ => false
  | _ => true

/-- The value that is no function; null for a function. -/
def plainValue : Render ρ → Value
  | value v => v
  | _ => .null

end Render

/-- A transform. -/
structure Definition (ρ : Type) where
  name : Value
  pattern : Value
  render : Render ρ
  description : Value := .text ""
  usage : Value := .text ""
  flags : Flags := .default
  tags : List Value := []
  deriving Repr, Inhabited

/-- Fields of a definition as they are given.  The render function stands apart from the others,
whose order is kept. -/
structure Fields (ρ : Type) where
  entries : Entries := []
  render : Option (Render ρ) := none
  deriving Repr, Inhabited

namespace Fields

variable {ρ : Type}

/-- The names of the fields other than the render function. -/
def known : List String :=
  ["name", "pattern", "description", "usage", "flags", "tags"]

/-- The fields with others put in their place or added. -/
def merge (fields changes : Fields ρ) : Fields ρ where
  entries := fields.entries.merge changes.entries
  render := changes.render <|> fields.render

/-- Whether no field is given. -/
def isEmpty (fields : Fields ρ) : Bool :=
  fields.entries.isEmpty && fields.render.isNone

/-- The entries that are no fields of a definition. -/
def unknown (fields : Fields ρ) : Entries :=
  fields.entries.without known

/-- A field, or the given value where it is absent. -/
def getD (fields : Fields ρ) (key : String) (absent : Value) : Value :=
  (fields.entries.find? key).getD absent

/-- A field, or the given value where it is absent or null. -/
def getSetD (fields : Fields ρ) (key : String) (absent : Value) : Value :=
  match fields.getD key .null with
  | .null => absent
  | value => value

end Fields

namespace Definition

variable {ρ : Type}

/-- The tags that a value stands for: a text is one tag. -/
def readTags : Value → Except Fault (List Value)
  | .text tag => .ok [.text tag]
  | .list items => .ok items
  | .table entries => .ok (entries.map (·.1))
  | .bag _ _ items => .ok items
  | value => .error (.kind (.notIterable value.kindName))

/-- A definition of fields whose flags and tags are still to be read. -/
def make (name pattern : Value) (render : Render ρ) (description usage flags tags : Value) :
    Except Fault (Definition ρ) :=
  match Flags.read flags with
  | .ok flags => do
    return { name, pattern, render, description, usage, flags, tags := ← readTags tags }
  | .error (.pattern (.flags fault)) =>
    .error (.pattern (.flagsOf fault pattern (if name.isSet then name else .null)))
  | .error fault => .error fault

/-- The definition of some fields.  An absent or null field takes its default, save that a null
name or pattern stays. -/
def ofFields (fields : Fields ρ) : Except Fault (Definition ρ) := do
  let unknown := fields.unknown
  if !unknown.isEmpty then
    let names ← sortedKeys (unknown.map (·.1))
    throw (.invalid (.unknownFields names ((unknown.find? (names.headD "")).getD .null)))
  make (fields.getD "name" (.text "")) (fields.getD "pattern" (.text ""))
    (fields.render.getD (.value .null)) (fields.getSetD "description" (.text ""))
    (fields.getSetD "usage" (.text "")) (fields.getSetD "flags" (.text Flags.default.letters))
    (fields.getSetD "tags" (.list []))

/-- The fields of a definition. -/
def toFields (d : Definition ρ) : Fields ρ where
  entries := [(.text "name", d.name), (.text "pattern", d.pattern),
    (.text "description", d.description), (.text "usage", d.usage),
    (.text "flags", .text d.flags.letters), (.text "tags", .list d.tags)]
  render := some d.render

/-- The definition with some fields replaced, which have to be fields of a definition. -/
def update (d : Definition ρ) (changes : Fields ρ) : Except Fault (Definition ρ) :=
  match changes.unknown with
  | (key, _) :: _ => .error (.kind (.unexpectedArgument .definition key.shown))
  | [] =>
    let fields := d.toFields.merge changes
    make (fields.getD "name" .null) (fields.getD "pattern" .null)
      (fields.render.getD d.render) (fields.getD "description" .null)
      (fields.getD "usage" .null) (fields.getD "flags" .null) (fields.getD "tags" .null)

/-- Checks that name, pattern and render function are given, that the name is a text and that the
render function is one. -/
def validate (d : Definition ρ) : Except Fault Unit :=
  if !d.name.isSet then .error (.invalid (.missing .name d.name))
  else if !d.pattern.isSet then .error (.invalid (.missing .pattern d.pattern))
  else if !d.render.isSet then .error (.invalid (.missing .render d.render.plainValue))
  else if !d.name.isText then .error (.invalid (.nameNotText d.name))
  else if !d.render.isFunction then
    .error (.invalid (.renderNotFunction d.name d.render.plainValue))
  else .ok ()

variable [Host]

/-- The pattern of a definition. -/
def compile (d : Definition ρ) : Except Fault Pattern :=
  Pattern.compile d.pattern (.text d.flags.letters) d.name

/-- The name under which a definition is registered. -/
def key (d : Definition ρ) : String :=
  d.name.shown

/-- The pattern between slashes and its flags. -/
def signature (d : Definition ρ) : String :=
  s!"/{d.pattern.shown}/{d.flags.letters}"

end Definition

/-- What a definition is made from. -/
inductive Base (ρ : Type) where
  /-- Nothing but the fields that are given with it. -/
  | none
  | definition (d : Definition ρ)
  | fields (fields : Fields ρ)
  | other (value : Value)
  deriving Repr, Inhabited

/-- The definition that something stands for, with the given fields in place of its own. -/
def Base.toDefinition {ρ : Type} (base : Base ρ) (changes : Fields ρ) :
    Except Fault (Definition ρ) :=
  match base with
  | .none => Definition.ofFields changes
  | .definition d => if changes.isEmpty then .ok d else d.update changes
  | .fields given => Definition.ofFields (given.merge changes)
  | .other value => .error (.invalid (.notDefinition value))

end Markflow
