import Markflow.Libraries
import Markflow.Transform.Registry

/-!
# Help

Help describes all registered transforms or one of them, as Markdown or for a terminal.  A name that
is not registered gives a message and no failure.
-/

namespace Markflow.Help

open Terminal

variable {ρ : Type}

/-- The title of help. -/
def title : String := "rxmd Markdown Parser"

/-- The line below the title. -/
def tagline : String := "Regular expressions in, HTML out"

/-- The message for a name that is not registered. -/
def notFound (name : Value) : String :=
  s!"Feature '{name.shown}' not found"

/-- The description of one transform as Markdown. -/
def markdownFeature (level : String) (d : Definition ρ) : Except Fault String := do
  let tags ← if d.tags.isEmpty then pure ""
    else (fun tags => s!"\n**Tags:** {tags}\n") <$> joined ", " d.tags
  return s!"{level} {d.name.shown}\n\n{d.description.shown}\n\n**Usage:**\n"
    ++ s!"```\n{d.usage.shown}\n```\n\n**Pattern:** `{d.signature}`\n{tags}"

/-- How to use a converter. -/
def markdownUsage : String :=
  "## Usage\n\n```python\nfrom rxmd import MarkdownParser\n\nmd = MarkdownParser()\n"
    ++ "md.parse('# Hello World')\nmd.help('bold')     # details for one feature\n"
    ++ "md.tty = True       # colored terminal help\n```\n"

/-- Help as Markdown, on one transform or with a null name on all. -/
def markdown (registry : Registry ρ) (name : Value) : Except Fault String :=
  match name with
  | .null => do
    let features ← registry.definitions.mapM (markdownFeature "###")
    let intro := s!"# {title}\n\n*{tagline}*\n\n## Registered Features\n"
    return "\n".intercalate ([intro] ++ features ++ [markdownUsage])
  | name => do
    match ← registry.find name with
    | some d => markdownFeature "##" d
    | none => return notFound name

/-- The description of one transform in a panel. -/
def featurePanel (d : Definition ρ) : Except Fault Panel := do
  let tags ← if d.tags.isEmpty then pure []
    else (fun tags => [⟨.green, "\n\nTags: "⟩, Run.plain tags]) <$> joined ", " d.tags
  return {
    title := .text ⟨.boldBlue, d.key⟩
    centred := false
    body := [.plain s!"{d.description.shown}\n\n", ⟨.green, "Usage:\n"⟩,
      .plain s!"  {d.usage.shown}\n\n", ⟨.green, "Pattern:\n"⟩,
      ⟨.yellow, s!"  {d.signature}"⟩] ++ tags }

/-- A row of cells behind its number, which is counted from one. -/
def numbered (i : Nat) (row : List Label) : List Label :=
  .markup (toString (i + 1)) :: row

/-- The text below the table. -/
def terminalUsage : List Run :=
  [⟨.green, "Usage:\n"⟩, .plain "  md.help('feature-name')  - detailed help for a feature\n",
    .plain "  md.parse(markdown)       - convert markdown to HTML\n",
    .plain "  md.tty = True            - enable terminal colors"]

variable [Libraries]

/-- All transforms in a table. -/
def overviewTable (registry : Registry ρ) : Except Fault Table := do
  let rows ← registry.definitions.mapM fun d => do
    return [Label.text (.plain d.key), .text (.plain (← Libraries.cellText d.description)),
      .text (.plain d.signature)]
  return {
    title := ⟨.green, "Registered Features"⟩
    columns := [{ header := "#", style := .dim, right := true },
      { header := "Name", style := .bold }, { header := "Description" },
      { header := "Pattern", style := .yellow, fold := true }]
    rows := rows.mapIdx numbered }

/-- Help for a terminal, on one transform or with a null name on all. -/
def terminal (registry : Registry ρ) (name : Value) : Except Fault String :=
  match name with
  | .null => do
    let header : List Run := [⟨.boldBlue, s!"{title}\n"⟩, ⟨.yellow, tagline⟩]
    Libraries.draw .help [.text header, .text [], .table (← overviewTable registry), .text [],
      .text terminalUsage]
  | name => do
    match ← registry.find name with
    | some d => Libraries.draw .help [.panel (← featurePanel d)]
    | none => Libraries.draw .help [.text [⟨.yellow, notFound name⟩]]

end Markflow.Help
