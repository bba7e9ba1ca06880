import Markflow.Import.Catalogue
import Markflow.Builtin.Definitions

/-!
# The standard catalogue

What a configuration can name without any module of its own: the built-in definitions, their render
functions and the functions for whole texts.  The latter are functions too, so that they can be
named; they fail when they are called with captures.
-/

namespace Markflow

namespace Builtin

/-- The name of a built-in render function in a path. -/
def renderName : Builtin → String
  | codeBlocks => "render_code_block"
  | headers => "render_header"
  | horizontalRule => "render_horizontal_rule"
  | unorderedList => "render_unordered_list"
  | orderedList => "render_ordered_list"
  | blockquote => "render_blockquote"
  | inlineCode => "render_inline_code"
  | images => "render_image"
  | links => "render_link"
  | bold => "render_bold"
  | italic => "render_italic"
  | strikethrough => "render_strikethrough"
  | paragraphs => "render_paragraphs"

/-- The name of a built-in definition in a path: its own in capitals, with low lines. -/
def definitionName (kind : Builtin) : String :=
  (kind.name.map fun c => if c == '-' then '_' else c.toUpper) ++ "_DEFINITION"

end Builtin

namespace Catalogue

variable {ρ : Type}

/-- What a value offers: nothing. -/
def plainOffer (kind : String) : Offer ρ :=
  .object kind []

/-- What a built-in definition offers. -/
def definitionOffer (kind : Builtin) : Offer ρ :=
  .object "TransformDefinition"
    [("name", plainOffer "str"), ("pattern", plainOffer "str"),
      ("render", .function (.builtin kind)), ("description", plainOffer "str"),
      ("usage", plainOffer "str"), ("flags", plainOffer "str"), ("tags", plainOffer "tuple"),
      ("signature", plainOffer "str")]

/-- The list of the built-in definitions. -/
def definitionList : String × Offer ρ :=
  ("BUILTIN_TRANSFORMS", plainOffer "tuple")

/-- The conversion of a text, and the type of converters. -/
def conversions : List (String × Offer ρ) :=
  [("parse", .function (.misfit .wantsMarkdown)),
    ("MarkdownParser", .type "MarkdownParser" (.misfit (.wantsField "display_mode")) [])]

/-- A module, with the name that it has in the one around it. -/
def module (around name : String) (package : Bool) (members : List (String × Offer ρ)) :
    String × Offer ρ :=
  (name, .module (around ++ name) package members)

/-- The module of the built-in transforms. -/
def builtins : String × Offer ρ :=
  module "rxmd.transforms." "builtin" false
    (Builtin.all.map (fun kind => (kind.renderName, Offer.function (.builtin kind)))
      ++ Builtin.all.map (fun kind => (kind.definitionName, definitionOffer kind))
      ++ [definitionList])

/-- The modules around transforms. -/
def transforms : String × Offer ρ :=
  module "rxmd." "transforms" true
    ([builtins]
      ++ ["captures", "definition", "patterns", "pipeline", "registry"].map (fun name =>
        module "rxmd.transforms." name false [])
      ++ [definitionList])

/-- The module of escaping functions. -/
def escapes : String × Offer ρ :=
  module "rxmd.utils." "escape" false
    (["escape_html", "escape_code", "escape_attribute"].map fun name =>
      (name, .function (.misfit (.wantsField "replace"))))

/-- The modules of the command line. -/
def commands : String × Offer ρ :=
  module "rxmd." "cli" true
    [module "rxmd.cli." "commands" true [module "rxmd.cli.commands." "transforms" false []],
      module "rxmd.cli." "config" false []]

/-- The modules that a configuration can always name. -/
def standard : Catalogue ρ :=
  [module "" "rxmd" true
    ([transforms, commands, module "rxmd." "utils" true [escapes],
      module "rxmd." "parser" false conversions]
      ++ ["constants", "exceptions", "help", "logging_utils", "options"].map (fun name =>
        module "rxmd." name false [])
      ++ [("__version__", plainOffer "str"), definitionList] ++ conversions)]

end Catalogue

end Markflow
