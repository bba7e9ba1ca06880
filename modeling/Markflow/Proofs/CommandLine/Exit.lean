import Markflow.CommandLine.Run
import Markflow.Proofs.CommandLine.Listing
import Markflow.Proofs.CommandLine.Logging
import Markflow.Proofs.Config.Discovery
import Markflow.Terminal.Standard

/-!
# How runs end

A run whose arguments are understood ends with the exit code of the first stage that fails, and with
0 if none does: 2 for the configuration, 3 for the input, 1 for the conversion or for a name that is
not registered, 3 for the output (`ConversionEnds`, `ListingEnds`).  Until a conversion has
succeeded nothing is written but records, to the standard error and to the log file (`Silent`).

Every stage lets some faults through that it does not catch.  A run that meets one of them stops
without an exit code (`ConversionStops`, `ListingStops`), and what it stops for is a defect of the
configuration that nothing checks, a path with a zero character, a render function that ends the
program, or a transform that cannot be shown.  `run_ends` is the law of both.
-/

namespace Markflow.CommandLine

/-- What the program is asked to do. -/
inductive Task where
  | convert (request : Conversion)
  | list (request : Listing)

/-- Arguments that are understood, and what they ask for. -/
inductive Asks : List String → Task → Prop
  | listing {name : String} {rest : List String} {request : Listing} (named : name ∈ listingNames)
    (read : Listing.command.request rest = .ok request) : Asks (name :: rest) (.list request)
  | conversion {arguments : List String} {request : Conversion}
    (unnamed : ∀ name ∈ arguments.head?, name ∉ listingNames)
    (read : Conversion.command.request arguments = .ok request) : Asks arguments (.convert request)

namespace Surroundings

variable {ρ σ : Type} (around : Surroundings ρ σ)

/-- Nothing is written but records: the standard output stays empty, and every file but the log
file, to which lines are added, as it was. -/
structure Silent (request : Conversion) (outcome : Outcome) : Prop where
  stdout_eq : outcome.stdout = ""
  logged : Logged around.time (request.logPlace around.tree) around.tree outcome.tree
  kept : ".." ∉ around.tree.work → ∀ place, some place ≠ request.logPlace around.tree →
    outcome.tree.readAt place = around.tree.readAt place

variable [Host] [Libraries]

/-- The converter for a conversion with a console, and the console when it has been made. -/
def prepared (request : Conversion) (console : Console) : Except Fault (Converter ρ) × Console :=
  around.converter console request.noConfig request.config request.disable

/-- The converter whose transforms are listed. -/
def listed (request : Listing) : Except Fault (Converter ρ) :=
  (around.converter around.quietConsole request.noConfig request.config []).1

omit [Libraries] in
/-- The result of a conversion. -/
def converted (converter : Converter ρ) (markdown : String) : Except Fault String :=
  ((converter.convert around.call (.text markdown)).runFrom around.state).1

/-- A conversion comes to a converter, with the files as they then are, and to the text of its
input. -/
structure Loads (request : Conversion) (console : Console) (converter : Converter ρ)
    (markdown : String) : Prop where
  made : (around.prepared request console).1 = .ok converter
  read : around.input (around.prepared request console).2.tree request.input = .ok markdown

/-- How a conversion that has been started with a console ends. -/
inductive ConversionEnds (request : Conversion) (console : Console) (outcome : Outcome) : Prop
  | misconfigured {fault : Fault} (fails : (around.prepared request console).1 = .error fault)
    (caught : isConfigurationFault fault = true)
    (exit_eq : outcome.exit = .ok 2) (silent : around.Silent request outcome)
  | unreadable {converter : Converter ρ} {fault : Fault}
    (made : (around.prepared request console).1 = .ok converter)
    (fails : around.input (around.prepared request console).2.tree request.input = .error fault)
    (caught : isFileFault fault = true)
    (exit_eq : outcome.exit = .ok 3) (silent : around.Silent request outcome)
  | failed {converter : Converter ρ} {markdown : String} {fault : Fault}
    (loads : around.Loads request console converter markdown)
    (fails : around.converted converter markdown = .error fault)
    (caught : isConversionFault fault = true)
    (exit_eq : outcome.exit = .ok 1) (silent : around.Silent request outcome)
  | unwritten {converter : Converter ρ} {markdown html output : String} {before : Tree}
    {cause : FileFault} (loads : around.Loads request console converter markdown)
    (succeeds : around.converted converter markdown = .ok html)
    (toFile : request.output = some output)
    (earlier : Logged around.time (request.logPlace around.tree) around.tree before)
    (fails : before.write (Path.ofText output) html.toUTF8.toList = .error cause)
    (caught : cause ≠ .embeddedNull)
    (exit_eq : outcome.exit = .ok 3) (silent : around.Silent request outcome)
  | written {converter : Converter ρ} {markdown html output : String} {before after : Tree}
    (loads : around.Loads request console converter markdown)
    (succeeds : around.converted converter markdown = .ok html)
    (toFile : request.output = some output)
    (earlier : Logged around.time (request.logPlace around.tree) around.tree before)
    (wrote : before.write (Path.ofText output) html.toUTF8.toList = .ok after)
    (later : Logged around.time (request.logPlace around.tree) after outcome.tree)
    (exit_eq : outcome.exit = .ok 0) (stdout_eq : outcome.stdout = "")
  | printed {converter : Converter ρ} {markdown html : String}
    (loads : around.Loads request console converter markdown)
    (succeeds : around.converted converter markdown = .ok html) (noFile : request.output = none)
    (logged : Logged around.time (request.logPlace around.tree) around.tree outcome.tree)
    (exit_eq : outcome.exit = .ok 0)
    (stdout_eq : outcome.stdout = html ++ if html.isEmpty || html.endsWith "\n" then "" else "\n")

/-- How a listing ends.  It changes no file. -/
inductive ListingEnds (request : Listing) (outcome : Outcome) : Prop
  | misconfigured {fault : Fault} (fails : around.listed request = .error fault)
    (caught : isConfigurationFault fault = true)
    (exit_eq : outcome.exit = .ok 2) (stdout_eq : outcome.stdout = "")
    (tree_eq : outcome.tree = around.tree)
  | unknown {converter : Converter ρ} (made : around.listed request = .ok converter)
    (named : request.name ≠ "") (missing : request.name ∉ converter.names)
    (exit_eq : outcome.exit = .ok 1) (stdout_eq : outcome.stdout = "")
    (tree_eq : outcome.tree = around.tree)
  | shown {converter : Converter ρ} (made : around.listed request = .ok converter)
    (known : request.name = "" ∨ request.name ∈ converter.names)
    (content : request.content converter = some (outcome.stdout, none))
    (exit_eq : outcome.exit = .ok 0) (tree_eq : outcome.tree = around.tree)

/-- A defect that nothing checks, on the way to the configuration or in the configuration itself. -/
inductive Unforeseen (console : Console) (requested : Option String) (disable : List String) : Prop
  | search {directories : List (List String)}
    (unset : Config.firstSet [requested, around.environment] = none)
    (searched : Config.SearchedFrom console.tree (Path.ofText ".") directories)
    (fails : Config.SearchFails console.tree directories)
  | blocked {origin : Config.Origin} {tree : Tree} {cause : FileFault}
    (chosen : Config.choose console.tree requested around.environment = .ok (some origin))
    (tree_eq : (console.emit (origin.record console.tree)).tree = tree)
    (blocks : tree.isFile (origin.target tree) = .error cause)
  | file {origin : Config.Origin} {tree : Tree} {bytes : List UInt8}
    (chosen : Config.choose console.tree requested around.environment = .ok (some origin))
    (tree_eq : (console.emit (origin.record console.tree)).tree = tree)
    (read : origin.target tree >>= tree.readAt = .ok bytes) (unchecked : Config.UncheckedFile bytes)
  | config {origin : Config.Origin} {config : Entries}
    (chosen : Config.choose console.tree requested around.environment = .ok (some origin))
    (loaded : origin.load (console.emit (origin.record console.tree)).tree = .ok config)
    (unchecked : Config.Unchecked around.catalogue config)
  | unwritable {origin : Config.Origin} {config : Entries} {fault : Fault} {value : Value}
    (chosen : Config.choose console.tree requested around.environment = .ok (some origin))
    (loaded : origin.load (console.emit (origin.record console.tree)).tree = .ok config)
    (fails : (Config.build around.catalogue config (disable.map .text)).1 = .error fault)
    (shows : value ∈ fault.mentions) (unwritable : value.isWritable = false)

/-- How a conversion that has been started with a console stops. -/
inductive ConversionStops (request : Conversion) (console : Console) (outcome : Outcome) : Prop
  | misconfigured {fault : Fault} (fails : (around.prepared request console).1 = .error fault)
    (uncaught : isConfigurationFault fault = false) (configured : request.noConfig = false)
    (unforeseen : around.Unforeseen console request.config request.disable)
    (exit_eq : outcome.exit = .error fault) (silent : around.Silent request outcome)
  | unreadable {converter : Converter ρ} {fault : Fault}
    (made : (around.prepared request console).1 = .ok converter)
    (fails : around.input (around.prepared request console).2.tree request.input = .error fault)
    (null : '\x00' ∈ (Path.ofText request.input).text.toList)
    (exit_eq : outcome.exit = .error fault) (silent : around.Silent request outcome)
  | interrupted {converter : Converter ρ} {markdown kind message : String}
    (loads : around.Loads request console converter markdown)
    (fails : around.converted converter markdown = .error (.interrupted kind message))
    (exit_eq : outcome.exit = .error (.interrupted kind message))
    (silent : around.Silent request outcome)
  | unwritten {converter : Converter ρ} {markdown html output : String} {fault : Fault}
    (loads : around.Loads request console converter markdown)
    (succeeds : around.converted converter markdown = .ok html)
    (toFile : request.output = some output) (null : '\x00' ∈ (Path.ofText output).text.toList)
    (exit_eq : outcome.exit = .error fault) (silent : around.Silent request outcome)

/-- How a listing stops. -/
inductive ListingStops (request : Listing) (outcome : Outcome) : Prop
  | misconfigured {fault : Fault} (fails : around.listed request = .error fault)
    (uncaught : isConfigurationFault fault = false) (configured : request.noConfig = false)
    (unforeseen : around.Unforeseen around.quietConsole request.config [])
    (exit_eq : outcome.exit = .error fault) (stdout_eq : outcome.stdout = "")
    (tree_eq : outcome.tree = around.tree)
  | shown {converter : Converter ρ} {fault : Fault}
    (made : around.listed request = .ok converter)
    (content : request.content converter = some (outcome.stdout, some fault))
    (unshown : Listing.Unshown converter.registry.definitions fault)
    (exit_eq : outcome.exit = .error fault) (tree_eq : outcome.tree = around.tree)

/-- How a run ends. -/
inductive Ends : Task → Outcome → Prop
  | conversion {request : Conversion} {console : Console} {outcome : Outcome}
    (started : Console.start around.tree around.time request = .ok console)
    (ends : around.ConversionEnds request console outcome) : Ends (.convert request) outcome
  | listing {request : Listing} {outcome : Outcome} (ends : around.ListingEnds request outcome) :
    Ends (.list request) outcome

/-- How a run stops without an end. -/
inductive Stops : Task → Outcome → Prop
  | log {request : Conversion} {outcome : Outcome} {fault : Fault} {path : String}
    (unstarted : Console.start around.tree around.time request = .error fault)
    (given : request.logFile = some path)
    (null : '\x00' ∈ (around.tree.absoluteText (Path.ofText path)).toList)
    (exit_eq : outcome.exit = .error fault) (silent : around.Silent request outcome) :
    Stops (.convert request) outcome
  | conversion {request : Conversion} {console : Console} {outcome : Outcome}
    (started : Console.start around.tree around.time request = .ok console)
    (stops : around.ConversionStops request console outcome) : Stops (.convert request) outcome
  | listing {request : Listing} {outcome : Outcome} (stops : around.ListingStops request outcome) :
    Stops (.list request) outcome

variable {around}

section Configuration

variable {console : Console} {skip : Bool} {requested : Option String} {disable : List String}
variable {log : Option (List String)} {tree : Tree}

theorem logsTo_configuration (logsTo : console.LogsTo around.time log tree) :
    (around.configuration console skip requested).2.LogsTo around.time log tree := by
  unfold Surroundings.configuration
  split
  · exact logsTo
  · split
    · exact logsTo
    · exact logsTo
    · exact logsTo.emit _

theorem logsTo_converter (logsTo : console.LogsTo around.time log tree) :
    (around.converter console skip requested disable).2.LogsTo around.time log tree := by
  have configured : (around.configuration console skip requested).2.LogsTo around.time log tree :=
    logsTo_configuration logsTo
  unfold Surroundings.converter
  split
  · next stop => rwa [stop] at configured
  · next loaded =>
    rw [loaded] at configured
    exact configured.emitAll _

omit [Libraries] in
theorem exists_searchFails_of_choose {fault : Fault}
    (unchosen : Config.choose tree requested around.environment = .error fault) :
    Config.firstSet [requested, around.environment] = none ∧
      ∃ directories, Config.SearchedFrom tree (Path.ofText ".") directories ∧
        Config.SearchFails tree directories := by
  unfold Config.choose at unchosen
  split at unchosen
  · cases unchosen
  · next unset =>
    refine ⟨unset, ?_⟩
    rcases Config.exists_searchedFrom tree (Path.ofText ".") with ⟨directories, searched, find_eq⟩
    have undiscovered := Config.error_of_bind (fun _ => ⟨_, rfl⟩) unchosen
    exact
      ⟨directories, searched, (Config.exists_discover_error_iff find_eq).mp ⟨fault, undiscovered⟩⟩

theorem reported_or_unforeseen_of_configuration {fault : Fault}
    (failed : (around.configuration console skip requested).1 = .error fault) :
    isConfigurationFault fault = true ∨
      skip = false ∧ around.Unforeseen console requested disable := by
  unfold Surroundings.configuration at failed
  cases skip
  case true => cases failed
  case false =>
    simp only [Bool.false_eq_true, if_false] at failed
    split at failed
    · next stop unchosen =>
      rcases exists_searchFails_of_choose unchosen with ⟨unset, directories, searched, fails⟩
      exact .inr ⟨rfl, .search unset searched fails⟩
    · cases failed
    · next origin chosen =>
      rcases Config.misconfigured_or_unchecked_of_load failed with
        ⟨cause, rfl⟩ | ⟨cause, blocks⟩ | ⟨bytes, read, unchecked⟩
      · exact .inl rfl
      · exact .inr ⟨rfl, .blocked chosen rfl blocks⟩
      · exact .inr ⟨rfl, .file chosen rfl read unchecked⟩

/-- A configuration that is not empty comes from a file. -/
theorem exists_origin_of_configuration {config : Entries}
    (loaded : (around.configuration console skip requested).1 = .ok config)
    (notEmpty : config ≠ []) :
    skip = false ∧ ∃ origin,
      Config.choose console.tree requested around.environment = .ok (some origin) ∧
        origin.load (console.emit (origin.record console.tree)).tree = .ok config := by
  unfold Surroundings.configuration at loaded
  cases skip
  case true =>
    cases loaded
    exact absurd rfl notEmpty
  case false =>
    simp only [Bool.false_eq_true, if_false] at loaded
    split at loaded
    · cases loaded
    · cases loaded
      exact absurd rfl notEmpty
    · next origin chosen => exact ⟨rfl, origin, chosen, loaded⟩

/-- No converter is made of a configuration for a reason that is reported, or because of what
nothing checks. -/
theorem reported_or_unforeseen_of_build {config : Entries} {fault : Fault}
    (loaded : (around.configuration console skip requested).1 = .ok config)
    (failed : (Config.build around.catalogue config (disable.map .text)).1 = .error fault) :
    isConfigurationFault fault.worded = true ∨
      skip = false ∧ around.Unforeseen console requested disable := by
  have notEmpty : config ≠ [] := by
    rintro rfl
    exact Config.build_ne_error_of_nothing disable fault failed
  rcases exists_origin_of_configuration loaded notEmpty with ⟨configured, origin, chosen, load_eq⟩
  unfold Fault.worded
  split
  · exact (Config.known_or_unchecked_of_build failed).imp_right fun unchecked =>
      ⟨configured, .config chosen load_eq unchecked⟩
  · next unwritten =>
    rw [List.all_eq_true, not_forall] at unwritten
    rcases unwritten with ⟨value, unwritten⟩
    rw [Classical.not_imp, Bool.not_eq_true] at unwritten
    exact .inr ⟨configured, .unwritable chosen load_eq failed unwritten.1 unwritten.2⟩

/-- No converter is made for a reason that is reported, or because of what nothing checks. -/
theorem reported_or_unforeseen_of_converter {fault : Fault}
    (failed : (around.converter console skip requested disable).1 = .error fault) :
    isConfigurationFault fault = true ∨
      skip = false ∧ around.Unforeseen console requested disable := by
  unfold Surroundings.converter at failed
  split at failed
  · next unloaded =>
    cases failed
    exact reported_or_unforeseen_of_configuration (congrArg Prod.fst unloaded)
  · next config later loaded =>
    dsimp only at failed
    rcases built : (Config.build around.catalogue config (disable.map .text)).1 with
      cause | converter
    · rw [built] at failed
      cases failed
      exact reported_or_unforeseen_of_build (congrArg Prod.fst loaded) built
    · rw [built] at failed
      cases failed

end Configuration

section Conversions

variable {request : Conversion} {start console : Console} {fault : Fault} {outcome : Outcome}

omit [Host] [Libraries] in
/-- A run that writes no result writes nothing but records. -/
theorem silent_of_logsTo
    (logsTo : console.LogsTo around.time (request.logPlace around.tree) around.tree)
    (stdout_eq : outcome.stdout = "") (tree_eq : outcome.tree = console.tree) :
    around.Silent request outcome where
  stdout_eq
  logged := tree_eq ▸ logsTo.logged
  kept work place differs := by
    rw [tree_eq]
    exact logsTo.logged.readAt_eq (fun _ isLog => Conversion.plain_logPlace work isLog) differs

omit [Host] [Libraries] in
theorem stop_of_caught {caught : Fault → Bool} {exit : Nat} {message : String}
    (isCaught : caught fault = true) :
    console.stop caught exit message fault = console.fail exit message :=
  if_pos isCaught

omit [Host] [Libraries] in
theorem stop_of_uncaught {caught : Fault → Bool} {exit : Nat} {message : String}
    (isUncaught : caught fault = false) :
    console.stop caught exit message fault = console.escape fault "" :=
  if_neg (by simp [isUncaught])

omit [Host] [Libraries] in
/-- To end the program is not put into other words. -/
theorem isConversionFault_worded (fault : Fault) :
    isConversionFault fault.worded = isConversionFault fault := by
  unfold Fault.worded
  split
  · rfl
  · next unwritten => cases fault <;> first | rfl | exact absurd rfl unwritten

omit [Host] [Libraries] in
/-- An input is not read for a reason that is reported, or because its path cannot be asked for. -/
theorem caught_or_null_of_input {tree : Tree} {source : String}
    (failed : around.input tree source = .error fault) :
    isFileFault fault = true ∨ '\x00' ∈ (Path.ofText source).text.toList := by
  have caught_of_decode {bytes : List UInt8} (failed : (do
      let characters ← (Text.Utf8.decode bytes).mapError Fault.undecodable
      return String.ofList (Text.unifyBreaks characters)) = Except.error fault) :
      isFileFault fault = true := by
    have undecoded := Config.error_of_bind (fun _ => ⟨_, rfl⟩) failed
    rcases decoded : Text.Utf8.decode bytes with cause | characters <;>
      rw [decoded] at undecoded <;> cases undecoded
    rfl
  unfold input at failed
  dsimp only at failed
  split at failed
  · exact .inl (caught_of_decode failed)
  rcases Config.bind_eq_error_iff.mp failed with unread | ⟨bytes, -, failed⟩
  · rcases read : tree.read (Path.ofText source) with cause | bytes <;> rw [read] at unread <;>
      cases unread
    cases cause with
    | embeddedNull => exact .inr (Tree.null_of_read read)
    | _ => exact .inl rfl
  · exact .inl (caught_of_decode failed)

variable {converter : Converter ρ} {markdown : String}

theorem ends_or_stops_of_deliver {html : String}
    (logsTo : console.LogsTo around.time (request.logPlace around.tree) around.tree)
    (loads : around.Loads request start converter markdown)
    (succeeds : around.converted converter markdown = .ok html) :
    around.ConversionEnds request start (deliver console html request.output) ∨
      around.ConversionStops request start (deliver console html request.output) := by
  unfold deliver
  rcases toFile : request.output with _ | output
  · exact .inl (.printed loads succeeds toFile logsTo.logged rfl rfl)
  · dsimp only
    split
    · next cause fails =>
      by_cases isNull : cause = .embeddedNull
      · subst isNull
        rw [stop_of_uncaught rfl]
        exact .inr (.unwritten loads succeeds toFile (Tree.null_of_write fails) rfl
          (silent_of_logsTo logsTo rfl rfl))
      · have isCaught : isFileFault (.file cause (Path.ofText output).text) = true := by
          cases cause <;> first | rfl | exact absurd rfl isNull
        rw [stop_of_caught isCaught]
        exact .inl (.unwritten loads succeeds toFile logsTo.logged fails isNull rfl
          (silent_of_logsTo logsTo rfl rfl))
    · next after wrote =>
      have rewritten : Console.LogsTo { console with tree := after } around.time
          (request.logPlace around.tree) after :=
        ⟨logsTo.time_eq, logsTo.file_eq, .refl⟩
      exact .inl (.written loads succeeds toFile logsTo.logged wrote (rewritten.emit _).logged
        rfl rfl)

theorem ends_or_stops_of_convertText
    (logsTo : console.LogsTo around.time (request.logPlace around.tree) around.tree)
    (loads : around.Loads request start converter markdown) :
    around.ConversionEnds request start (around.convertText console converter request markdown) ∨
      around.ConversionStops request start
        (around.convertText console converter request markdown) := by
  unfold convertText
  rcases ran : (converter.convert around.call (.text markdown)).runFrom around.state with
    ⟨fault | html, traced⟩
  · have fails : around.converted converter markdown = .error fault := congrArg Prod.fst ran
    dsimp only [Except.mapError]
    rw [isConversionFault_worded]
    rcases caught : isConversionFault fault
    · cases fault with
      | interrupted kind message =>
        exact .inr (.interrupted loads fails rfl (silent_of_logsTo (logsTo.emitAll _) rfl rfl))
      | _ => cases caught
    · exact .inl (.failed loads fails caught rfl
        (silent_of_logsTo ((logsTo.emitAll _).emit _) rfl rfl))
  · exact ends_or_stops_of_deliver (logsTo.emitAll _) loads (congrArg Prod.fst ran)

theorem runWith_of_error (fails : (around.prepared request start).1 = .error fault) :
    around.runWith start request =
      (around.prepared request start).2.stop isConfigurationFault 2 s!"Error: {fault.message}"
        fault := by
  delta prepared at fails ⊢
  rcases made : around.converter start request.noConfig request.config request.disable with
    ⟨result, console⟩
  rw [made] at fails
  cases fails
  simp only [runWith, made]

theorem runWith_of_ok (made : (around.prepared request start).1 = .ok converter) :
    around.runWith start request =
      match around.input (around.prepared request start).2.tree request.input with
      | .error fault => (around.prepared request start).2.stop isFileFault 3
          s!"Error reading {request.input}: {fault.message}" fault
      | .ok markdown =>
        around.convertText (around.prepared request start).2 converter request markdown := by
  delta prepared at made ⊢
  rcases read : around.converter start request.noConfig request.config request.disable with
    ⟨result, console⟩
  rw [read] at made
  cases made
  rcases input_eq : around.input console.tree request.input with fault | markdown <;>
    simp only [runWith, read, input_eq]

theorem ends_or_stops_of_runWith
    (logsTo : start.LogsTo around.time (request.logPlace around.tree) around.tree) :
    around.ConversionEnds request start (around.runWith start request) ∨
      around.ConversionStops request start (around.runWith start request) := by
  have logsTo : (around.prepared request start).2.LogsTo around.time
      (request.logPlace around.tree) around.tree :=
    logsTo_converter logsTo
  rcases made : (around.prepared request start).1 with fault | converter
  · rw [runWith_of_error made]
    rcases caught : isConfigurationFault fault
    · rcases reported_or_unforeseen_of_converter made with impossible | ⟨configured, unforeseen⟩
      · cases caught.symm.trans impossible
      · rw [stop_of_uncaught caught]
        exact .inr (.misconfigured made caught configured unforeseen rfl
          (silent_of_logsTo logsTo rfl rfl))
    · rw [stop_of_caught caught]
      exact .inl (.misconfigured made caught rfl (silent_of_logsTo logsTo rfl rfl))
  · rw [runWith_of_ok made]
    rcases read : around.input (around.prepared request start).2.tree request.input with
      fault | markdown
    · dsimp only
      rcases caught : isFileFault fault
      · rcases caught_or_null_of_input read with impossible | null
        · cases caught.symm.trans impossible
        · rw [stop_of_uncaught caught]
          exact .inr (.unreadable made read null rfl (silent_of_logsTo logsTo rfl rfl))
      · rw [stop_of_caught caught]
        exact .inl (.unreadable made read caught rfl (silent_of_logsTo logsTo rfl rfl))
    · exact ends_or_stops_of_convertText logsTo ⟨made, read⟩

theorem ends_or_stops_of_runConversion (request : Conversion) :
    around.Ends (.convert request) (around.runConversion request) ∨
      around.Stops (.convert request) (around.runConversion request) := by
  rcases Console.logsTo_or_null_of_start around.tree around.time request with
    ⟨start, started, logsTo⟩ | ⟨fault, path, unstarted, given, null⟩
  · have run_eq : around.runConversion request = around.runWith start request := by
      rw [runConversion, started]
    rw [run_eq]
    exact (ends_or_stops_of_runWith logsTo).imp (.conversion started) (.conversion started)
  · have run_eq : around.runConversion request = around.quietConsole.escape fault "" := by
      rw [runConversion, unstarted]
    have quiet :
        around.quietConsole.LogsTo around.time (request.logPlace around.tree) around.tree :=
      ⟨rfl, .inl rfl, .refl⟩
    rw [run_eq]
    exact .inr (.log unstarted given null rfl (silent_of_logsTo quiet rfl rfl))

end Conversions

section Listings

variable {request : Listing} {converter : Converter ρ}

theorem runListing_of_error {fault : Fault} (fails : around.listed request = .error fault) :
    around.runListing request =
      around.quietConsole.stop isConfigurationFault 2 s!"Error: {fault.message}" fault := by
  delta listed at fails
  simp only [runListing, fails]

theorem runListing_of_ok (made : around.listed request = .ok converter) :
    around.runListing request = match request.content converter with
      | none => (around.quietConsole.print (request.notFound converter)).finish 1 ""
      | some (shown, none) => around.quietConsole.finish 0 shown
      | some (shown, some fault) => around.quietConsole.escape fault shown := by
  delta listed at made
  rcases content_eq : request.content converter with _ | ⟨shown, _ | fault⟩ <;>
    simp only [runListing, made, content_eq]

theorem ends_or_stops_of_runListing (request : Listing) :
    around.Ends (.list request) (around.runListing request) ∨
      around.Stops (.list request) (around.runListing request) := by
  rcases made : around.listed request with fault | converter
  · rw [runListing_of_error made]
    rcases caught : isConfigurationFault fault
    · rcases reported_or_unforeseen_of_converter made with impossible | ⟨configured, unforeseen⟩
      · cases caught.symm.trans impossible
      · rw [stop_of_uncaught caught]
        exact .inr (.listing (.misconfigured made caught configured unforeseen rfl rfl rfl))
    · rw [stop_of_caught caught]
      exact .inl (.listing (.misconfigured made caught rfl rfl rfl))
  · rw [runListing_of_ok made]
    rcases content : request.content converter with _ | ⟨shown, _ | fault⟩
    · rcases Listing.content_eq_none_iff.mp content with ⟨named, missing⟩
      exact .inl (.listing (.unknown made named missing rfl rfl rfl))
    · have known : ¬(request.name ≠ "" ∧ request.name ∉ converter.names) := by
        rw [← Listing.content_eq_none_iff, content]
        nofun
      exact .inl (.listing (.shown made (by tauto) content rfl rfl))
    · exact .inr (.listing (.shown made content (Listing.unshown_of_content content) rfl rfl))

end Listings

theorem run_of_asks (around : Surroundings ρ σ) {arguments : List String} {task : Task}
    (asks : Asks arguments task) :
    around.run arguments = match task with
      | .convert request => around.runConversion request
      | .list request => around.runListing request := by
  cases asks with
  | listing named read => simp [run, named, read]
  | @conversion arguments request unnamed read =>
    have converts : run.convert around arguments = around.runConversion request := by
      rw [run.convert, read]
    cases arguments with
    | nil => exact converts
    | cons name rest => simpa [run, unnamed name rfl] using converts

/-- How a run ends: with the exit code of the first stage that fails, else with 0, and without a
result of the conversion unless it succeeds.  It stops without an end only for what no stage
catches. -/
theorem run_ends (around : Surroundings ρ σ) {arguments : List String} {task : Task}
    (asks : Asks arguments task) :
    around.Ends task (around.run arguments) ∨ around.Stops task (around.run arguments) := by
  rw [around.run_of_asks asks]
  cases task with
  | convert request => exact ends_or_stops_of_runConversion request
  | list request => exact ends_or_stops_of_runListing request

end Surroundings

namespace Surroundings

attribute [local instance] Host.standard Libraries.standard

/-- Surroundings with a text that is to be converted, and with a file to work with. -/
def withFile (markdown name : String) (bytes : List UInt8) : Surroundings Empty Unit where
  tree := {
    root := .directory [("work", .directory [(name, .file bytes)]), ("home", .directory [])]
    work := ["work"]
    home := some ["home"]
    mount := "/tree" }
  stdin := markdown.toUTF8.toList
  environment := none
  time := ""
  catalogue := []
  call := noCaller
  state := ()

/-- A configuration file that is missing ends a run with 2. -/
theorem run_ends_missing :
    Asks ["--config", "d.json", "-"] (.convert { config := some "d.json" }) ∧
      ((withFile "x" "c.json" []).run ["--config", "d.json", "-"]).exit = .ok 2 ∧
      (withFile "x" "c.json" []).Silent { config := some "d.json" }
        ((withFile "x" "c.json" []).run ["--config", "d.json", "-"]) := by
  have asks : Asks ["--config", "d.json", "-"] (.convert { config := some "d.json" }) :=
    .conversion (by decide) rfl
  have exit_eq : ((withFile "x" "c.json" []).run ["--config", "d.json", "-"]).exit = .ok 2 := rfl
  refine ⟨asks, exit_eq, ?_⟩
  rcases run_ends (withFile "x" "c.json" []) asks with ends | stops
  · rcases ends with ⟨-, ends⟩
    cases ends with
    | misconfigured fails caught exit_eq silent => exact silent
    | unreadable made fails caught other silent => cases exit_eq.symm.trans other
    | failed loads fails caught other silent => cases exit_eq.symm.trans other
    | unwritten loads succeeds toFile earlier fails caught other silent =>
      cases exit_eq.symm.trans other
    | written loads succeeds toFile earlier wrote later other stdout_eq =>
      cases exit_eq.symm.trans other
    | printed loads succeeds noFile logged other stdout_eq => cases exit_eq.symm.trans other
  · rcases stops with ⟨-, -, -, other, silent⟩ | ⟨-, stops⟩
    · exact silent
    · cases stops with
      | misconfigured fails uncaught configured unforeseen other silent => exact silent
      | unreadable made fails null other silent => exact silent
      | interrupted loads fails other silent => exact silent
      | unwritten loads succeeds toFile null other silent => exact silent

/-- One that is no text stops a run: it has no exit code. -/
theorem run_stops_undecodable :
    Asks ["--config", "c.json", "-"] (.convert { config := some "c.json" }) ∧
      ((withFile "x" "c.json" [0xff]).run ["--config", "c.json", "-"]).exit =
        .error (.undecodable ⟨0, 1, 0xff, .invalidStart⟩) :=
  ⟨.conversion (by decide) rfl, rfl⟩

end Surroundings

end Markflow.CommandLine
