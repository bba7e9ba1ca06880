import Markflow.Data.Value
import Markflow.Files.Tree
import Markflow.Pattern.Flag
import Markflow.Pattern.Spelling
import Markflow.Regex.Problem
import Markflow.Text.Utf8

/-!
# Faults

Everything that can go wrong, by cause, and the wording of each cause in one place.  Values that are
shown in a message are kept as they were given.
-/

namespace Markflow

/-- What is wrong with the flags of a pattern. -/
inductive FlagFault where
  | unsupported (letter : Char)
  | notText (kind : String)
  deriving DecidableEq, Repr, Inhabited

/-- The wording of a fault of flags. -/
def FlagFault.message : FlagFault → String
  | unsupported letter => s!"Unsupported pattern flag: {Text.quoted (String.singleton letter)}"
  | notText kind => s!"Flags must be strings, got {kind}"

/-- What is wrong with a pattern.  The owner is the name of the transform that has the pattern; null
when it is not known. -/
inductive PatternFault where
  | flags (fault : FlagFault)
  /-- Flags that belong to a pattern. -/
  | flagsOf (fault : FlagFault) (pattern owner : Value)
  | notText (kind : String) (owner : Value)
  | malformed (malformed : Regex.Malformed) (source : String) (flags : Flags) (owner : Value)
  deriving Repr, Inhabited

namespace PatternFault

/-- The mention of a pattern's owner in a message. -/
def ownerMention (owner : Value) : String :=
  if owner.isSet then s!" for transform '{owner.shown}'" else ""

/-- The wording of a fault of a pattern. -/
def message : PatternFault → String
  | flags fault => fault.message
  | flagsOf fault pattern owner => s!"{fault.message}{ownerMention owner}: /{pattern.shown}/"
  | notText kind _ => s!"Pattern must be a string, got {kind}"
  | malformed problem source chosen owner =>
    let expression := String.ofList (Spelling.expand source.toList)
    let detail := problem.message expression
    s!"Invalid pattern{ownerMention owner}: /{source}/{chosen.letters}: {detail}"

/-- The pattern that a fault concerns, if it is known. -/
def pattern : PatternFault → Value
  | flags _ => .null
  | flagsOf _ pattern _ => pattern
  | notText _ _ => .null
  | malformed _ source _ _ => .text source

/-- The owner of the pattern that a fault concerns, if it is known. -/
def owner : PatternFault → Value
  | flags _ => .null
  | flagsOf _ _ owner => owner
  | notText _ owner => owner
  | malformed _ _ _ owner => owner

end PatternFault

/-- A field that a transform must have. -/
inductive RequiredField where
  | name
  | pattern
  | render
  deriving DecidableEq, Repr, Inhabited

/-- The name of a required field. -/
def RequiredField.label : RequiredField → String
  | name => "name"
  | pattern => "pattern"
  | render => "render"

/-- The two sides of a registered transform. -/
inductive Side where
  | before
  | after
  deriving DecidableEq, Repr, Inhabited

/-- The name of a side. -/
def Side.label : Side → String
  | before => "before"
  | after => "after"

/-- A definition or an option that is not valid. -/
inductive Invalid where
  | missing (field : RequiredField) (value : Value)
  | nameNotText (name : Value)
  | renderNotFunction (name render : Value)
  /-- Fields that no definition has, in order, and the value of the first. -/
  | unknownFields (names : List String) (value : Value)
  | notDefinition (value : Value)
  | bothSides (before : Value)
  | badAnchor (name : Value) (side : Side) (anchor : Value)
  | displayMode (value : Value)
  | disabledNotNames (value : Value)
  deriving Repr, Inhabited

namespace Invalid

/-- The wording of what is not valid. -/
def message : Invalid → String
  | missing _ _ => "Feature must have name, pattern, and replacement"
  | nameNotText name => s!"Transform name must be a string, got {name.kindName}"
  | renderNotFunction name render =>
    s!"Render function for transform '{name.shown}' must be callable, got {render.kindName}"
  | unknownFields names _ => "Unknown transform field(s): " ++ ", ".intercalate names
  | notDefinition value => s!"Expected TransformDefinition or mapping, got {value.kindName}"
  | bothSides _ => "Specify at most one of 'before' and 'after'"
  | badAnchor name _ anchor =>
    s!"Cannot place transform '{name.shown}' relative to '{anchor.shown}': "
      ++ "anchor is not another registered transform"
  | displayMode value =>
    s!"display_mode must be one of ('plain', 'terminal'), got {value.written}"
  | disabledNotNames _ => "disabled_transforms must contain transform names"

/-- The name of the parameter that is not valid. -/
def parameter : Invalid → String
  | missing field _ => field.label
  | nameNotText _ => "name"
  | renderNotFunction _ _ => "render"
  | unknownFields names _ => names.headD ""
  | notDefinition _ => "definition"
  | bothSides _ => "before"
  | badAnchor _ side _ => side.label
  | displayMode _ => "display_mode"
  | disabledNotNames _ => "disabled_transforms"

/-- The value that is not valid. -/
def value : Invalid → Value
  | missing _ value => value
  | nameNotText name => name
  | renderNotFunction _ render => render
  | unknownFields _ value => value
  | notDefinition value => value
  | bothSides before => before
  | badAnchor _ _ anchor => anchor
  | displayMode value => value
  | disabledNotNames value => value

/-- The values that the wording shows. -/
def mentions : Invalid → List Value
  | renderNotFunction name _ => [name]
  | badAnchor name _ anchor => [name, anchor]
  | displayMode value => [value]
  | _ => []

end Invalid

/-- Why a render function cannot be imported. -/
inductive ImportFault where
  | noModule (name : String)
  /-- A path below a module that has no modules below it. -/
  | notPackage (name parent : String)
  | noAttribute (owner name : String)
  /-- A failure of its own kind that something makes when it is imported or looked up. -/
  | raised (kind message : String)
  deriving DecidableEq, Repr, Inhabited

/-- The wording of a failed import. -/
def ImportFault.message : ImportFault → String
  | noModule name => s!"No module named {Text.quoted name}"
  | notPackage name parent =>
    s!"No module named {Text.quoted name}; {Text.quoted parent} is not a package"
  | noAttribute owner name => s!"{owner} has no attribute {Text.quoted name}"
  | raised _ message => message

/-- The formats of configuration files. -/
inductive FileFormat where
  | toml
  | yaml
  | json
  deriving DecidableEq, Repr, Inhabited

/-- The name of a format. -/
def FileFormat.label : FileFormat → String
  | toml => "TOML"
  | yaml => "YAML"
  | json => "JSON"

/-- A configuration that cannot be used. -/
inductive Misconfigured where
  | unknownKeys (names : List String)
  | disableNotList
  | options (invalid : Invalid)
  | transformsNotList
  | transformNotTable (index : Nat) (kind : String)
  | renderPath (path : String)
  | notImported (path : String) (fault : ImportFault)
  | notFunction (path : String)
  | noFile (path : String)
  | unsupportedFormat (suffix path : String)
  | notMapping (format : FileFormat) (kind path : String)
  /-- Text that is not of its format; `project` tells the file that several tools share. -/
  | malformed (format : FileFormat) (project : Bool) (path : String)
  /-- A file that may not be read. -/
  | unreadable (format : FileFormat) (project : Bool) (path : String)
  | sectionNotTable (kind path : String)
  deriving Repr, Inhabited

namespace Misconfigured

/-- The wording of what makes a configuration unusable.  The parsers' own wording is not kept and
stands as `<detail>`. -/
def message : Misconfigured → String
  | unknownKeys names => "Unknown configuration key(s): " ++ ", ".intercalate names
  | disableNotList => "'disable' must be a list of transform names"
  | options invalid => invalid.message
  | transformsNotList => "'transforms' must be a list of tables"
  | transformNotTable index kind => s!"transforms[{index}] must be a table, got {kind}"
  | renderPath path => s!"Render path must look like 'module:function', got {Text.quoted path}"
  | notImported path fault => s!"Cannot import render function {Text.quoted path}: {fault.message}"
  | notFunction path => s!"Render target {Text.quoted path} is not callable"
  | noFile path => s!"Configuration file does not exist: {path}"
  | unsupportedFormat suffix _ =>
    s!"Unsupported config file format: {suffix}. Use .json, .toml, or .yaml"
  | notMapping format kind _ =>
    s!"{format.label} config file must contain a mapping at root level, got {kind}"
  | malformed format project path =>
    let file := if project then path else s!"config file {path}"
    s!"Invalid {format.label} in {file}: <detail>"
  | unreadable format project path =>
    let file := if project then path else s!"{format.label} config {path}"
    s!"Error reading {file}: {FileFault.denied.message path}"
  | sectionNotTable kind path => s!"[tool.rxmd] section in {path} must be a table, got {kind}"

/-- The path of the configuration file, if there is one. -/
def path? : Misconfigured → Option String
  | noFile path => some path
  | unsupportedFormat _ path => some path
  | notMapping _ _ path => some path
  | malformed _ _ path => some path
  | unreadable _ _ path => some path
  | sectionNotTable _ path => some path
  | _ => none

end Misconfigured

/-- The things that are made from named arguments. -/
inductive Made where
  | definition
  | options
  deriving DecidableEq, Repr, Inhabited

/-- The name of what is made. -/
def Made.label : Made → String
  | definition => "TransformDefinition"
  | options => "RxmdOptions"

/-- A value of a kind that an operation cannot take. -/
inductive KindFault where
  | notIterable (kind : String)
  | notCallable (kind : String)
  | unhashable (kind : String)
  | unexpectedArgument (made : Made) (name : String)
  | notNames
  | noRender (name : Value)
  | renderedOther (name : Value) (kind : String)
  | notMarkdown (kind : String)
  | sliceBound
  | notJoined (position : Nat) (kind : String)
  | notComparable (left right : String)
  | relativeImport (name : String)
  deriving Repr, Inhabited

/-- The wording of a value of a wrong kind. -/
def KindFault.message : KindFault → String
  | notIterable kind => s!"'{kind}' object is not iterable"
  | notCallable kind => s!"'{kind}' object is not callable"
  | unhashable kind => s!"unhashable type: '{kind}'"
  | unexpectedArgument made name =>
    s!"{made.label}.__init__() got an unexpected keyword argument '{name}'"
  | notNames => "keywords must be strings"
  | noRender name => s!"Transform '{name.shown}' has no render function"
  | renderedOther name kind =>
    s!"Render function for transform '{name.shown}' returned {kind} instead of str"
  | notMarkdown kind => s!"parse() expects str, got {kind}"
  | sliceBound => "slice indices must be integers or None or have an __index__ method"
  | notJoined position kind =>
    s!"sequence item {position}: expected str instance, {kind} found"
  | notComparable left right =>
    s!"'<' not supported between instances of '{left}' and '{right}'"
  | relativeImport name =>
    s!"the 'package' argument is required to perform a relative import for {Text.quoted name}"

/-- A capture that is not there. -/
inductive NoCapture where
  | index (position : Value)
  | name (key : Value)
  /-- A key that is a name, though no group has a name. -/
  | unnamed (key : Value)
  deriving Repr, Inhabited

/-- The wording of a missing capture. -/
def NoCapture.message : NoCapture → String
  | index position => s!"No capture group {position.shown}"
  | name key => s!"Pattern has no group named '{key.shown}'"
  | unnamed key => s!"Pattern has no named groups, cannot look up '{key.shown}'"

/-- Everything that can go wrong. -/
inductive Fault where
  | invalid (cause : Invalid)
  | pattern (cause : PatternFault)
  | misconfigured (cause : Misconfigured)
  | kind (cause : KindFault)
  | capture (cause : NoCapture)
  | noAttribute (owner name : String)
  | undecodable (cause : Text.Undecodable)
  | clashingModes
  | repeatTooLarge
  /-- A limit of what the program runs on. -/
  | excess (cause : Excess)
  | zeroStep
  /-- A file that cannot be used at a path. -/
  | file (cause : FileFault) (path : String)
  | noHome
  /-- A failure of its own kind of what the program calls, such as a render function. -/
  | raised (kind message : String)
  /-- What a render function does to end the whole program. -/
  | interrupted (kind message : String)
  deriving Repr, Inhabited

/-- The wording of a fault. -/
def Fault.message : Fault → String
  | invalid cause => cause.message
  | pattern cause => cause.message
  | misconfigured cause => cause.message
  | kind cause => cause.message
  | capture cause => cause.message
  | noAttribute owner name => s!"'{owner}' object has no attribute '{name}'"
  | undecodable cause => cause.message
  | clashingModes => "ASCII and UNICODE flags are incompatible"
  | repeatTooLarge => "the repetition number is too large"
  | excess cause => cause.message
  | zeroStep => "slice step cannot be zero"
  | file cause path => cause.message path
  | noHome => "Could not determine home directory."
  | raised _ message => message
  | interrupted _ message => message

/-- The values that the wording of a fault shows. -/
def Fault.mentions : Fault → List Value
  | invalid cause => cause.mentions
  | misconfigured (.options cause) => cause.mentions
  | pattern (.flagsOf _ source owner) => [source, owner]
  | pattern (.malformed _ _ _ owner) => [owner]
  | kind (.noRender name) => [name]
  | kind (.renderedOther name _) => [name]
  | capture (.index position) => [position]
  | capture (.name key) => [key]
  | capture (.unnamed key) => [key]
  | _ => []

/-- What a fault comes to when it is put into words: a number that cannot be written is a fault of
its own. -/
def Fault.worded (fault : Fault) : Fault :=
  if fault.mentions.all Value.isWritable then fault else .excess .form

end Markflow
