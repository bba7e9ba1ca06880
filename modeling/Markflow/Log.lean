/-!
# Records of what happens

The parts of the library report what they do as records.  A record has a level, the name of the part
that made it and a message.  The parts' names are paths, so that a name stands also for what is
below it.
-/

namespace Markflow

/-- How important a record is. -/
inductive Level where
  | debug
  | info
  | warning
  | error
  | critical
  deriving DecidableEq, Repr, Inhabited

namespace Level

/-- The name of a level. -/
def name : Level → String
  | debug => "DEBUG"
  | info => "INFO"
  | warning => "WARNING"
  | error => "ERROR"
  | critical => "CRITICAL"

/-- The number of a level, higher for more important records. -/
def number : Level → Int
  | debug => 10
  | info => 20
  | warning => 30
  | error => 40
  | critical => 50

/-- The level of a name. -/
def ofName? (name : String) : Option Level :=
  [debug, info, warning, error, critical].find? (·.name == name)

end Level

/-- The parts that make records. -/
inductive Source where
  | patterns
  | registry
  | pipeline
  | converter
  | configuration
  | commandLine
  | root
  deriving DecidableEq, Repr, Inhabited

/-- The name of a part. -/
def Source.name : Source → String
  | patterns => "rxmd.transforms.patterns"
  | registry => "rxmd.transforms.registry"
  | pipeline => "rxmd.transforms.pipeline"
  | converter => "rxmd.parser"
  | configuration => "rxmd.cli.config"
  | commandLine => "rxmd.cli"
  | root => "root"

/-- What a part reports. -/
structure Record where
  level : Level
  source : Source
  message : String
  deriving DecidableEq, Repr, Inhabited

end Markflow
