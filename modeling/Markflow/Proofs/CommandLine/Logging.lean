import Markflow.CommandLine.Logging
import Markflow.Proofs.Files.Tree
import Mathlib.Logic.Relation

/-!
# What logging writes

Besides the standard error records go to the log file and nowhere else: a console that is started
and written to adds lines to this one file (`LogsTo`), so every other file stays as it was
(`Logged.readAt_eq`).
-/

namespace Markflow.CommandLine

/-- A record is added to the log file, or the file is made. -/
def AddsLine (time : String) (log : Option (List String)) (before after : Tree) : Prop :=
  ∃ place line, log = some place ∧ before.appendAt place line = .ok after ∧
    (line = [] ∨ ∃ entry, line = (traceLine time entry).toUTF8.toList)

/-- Records are added to the log file. -/
def Logged (time : String) (log : Option (List String)) : Tree → Tree → Prop :=
  Relation.ReflTransGen (AddsLine time log)

variable {time : String} {log : Option (List String)} {before after : Tree}

theorem AddsLine.readAt_eq (adds : AddsLine time log before after)
    (plain : ∀ place, log = some place → ".." ∉ place)
    {other : List String} (differs : some other ≠ log) :
    after.readAt other = before.readAt other := by
  rcases adds with ⟨place, line, rfl, appended, -⟩
  exact Tree.readAt_writeAt_of_ne appended (plain place rfl) fun same =>
    differs (congrArg some same)

/-- Logging keeps every file but the log file as it was. -/
theorem Logged.readAt_eq (logged : Logged time log before after)
    (plain : ∀ place, log = some place → ".." ∉ place)
    {other : List String} (differs : some other ≠ log) :
    after.readAt other = before.readAt other := by
  induction logged with
  | refl => rfl
  | tail _ adds ih => exact (adds.readAt_eq plain differs).trans ih

variable [Libraries]

namespace Console

omit [Libraries] in
/-- A console whose records go to a log file, if to any file, and that has done nothing else to a
tree. -/
structure LogsTo (console : Console) (time : String) (log : Option (List String)) (tree : Tree) :
    Prop where
  time_eq : console.time = time
  file_eq : console.file = none ∨ console.file = log
  logged : Logged time log tree console.tree

variable {console : Console} {tree : Tree}

omit [Libraries] in
theorem LogsTo.print (logsTo : console.LogsTo time log tree) (text : String) :
    (console.print text).LogsTo time log tree :=
  ⟨logsTo.time_eq, logsTo.file_eq, logsTo.logged⟩

theorem LogsTo.emit (logsTo : console.LogsTo time log tree) (entry : Record) :
    (console.emit entry).LogsTo time log tree := by
  unfold Console.emit
  split
  · exact logsTo
  · dsimp only
    rcases file : (console.print (console.line entry)).file with _ | place
    · exact logsTo.print _
    · dsimp only
      split
      · next later appended =>
        have isLog : log = some place := by
          rcases logsTo.file_eq with absent | same
          · cases absent.symm.trans file
          · exact same.symm.trans file
        refine ⟨logsTo.time_eq, .inr isLog.symm,
          logsTo.logged.tail ⟨place, _, isLog, appended, .inr ⟨entry, ?_⟩⟩⟩
        rw [← logsTo.time_eq]
        rfl
      · exact logsTo.print _

theorem LogsTo.emitAll (logsTo : console.LogsTo time log tree) (entries : List Record) :
    (console.emitAll entries).LogsTo time log tree := by
  induction entries generalizing console with
  | nil => exact logsTo
  | cons entry entries ih => exact ih (logsTo.emit entry)

end Console

/-- The place of the log file of a request. -/
def Conversion.logPlace (request : Conversion) (tree : Tree) : Option (List String) :=
  request.logFile.bind fun path => tree.resolve (Path.ofText path)

/-- A console with a log file writes to that file, and there is none for the lack of a path that the
system can be asked for. -/
theorem Console.logsTo_or_null_of_openFile {path : String} {request : Conversion} {tree : Tree}
    (given : request.logFile = some path) (console : Console) (tree_eq : console.tree = tree)
    (time_eq : console.time = time) (file_eq : console.file = none) :
    (∃ opened, console.openFile path = .ok opened ∧
        opened.LogsTo time (request.logPlace tree) tree) ∨
      ∃ fault, console.openFile path = .error fault ∧
        '\x00' ∈ (tree.absoluteText (Path.ofText path)).toList := by
  subst tree_eq
  have unopened : console.LogsTo time (request.logPlace console.tree) console.tree :=
    ⟨time_eq, .inl file_eq, .refl⟩
  unfold Console.openFile
  dsimp only
  rcases checked : Tree.checkText (console.tree.absoluteText (Path.ofText path)) with fault | _
  · cases fault with
    | embeddedNull => exact .inr ⟨_, rfl, Tree.null_of_checkText checked⟩
    | _ => exact .inl ⟨_, rfl, unopened.emit _⟩
  · rcases placed : console.tree.resolve (Path.ofText path) with _ | place
    · exact .inl ⟨_, rfl, unopened.emit _⟩
    · have isLog : request.logPlace console.tree = some place := by
        simp [Conversion.logPlace, given, placed]
      dsimp only [bind, Except.bind]
      rcases made : console.tree.appendAt place [] with fault | later
      · cases fault with
        | embeddedNull => exact absurd made (Tree.writeAt_ne_null _ _)
        | _ => exact .inl ⟨_, rfl, unopened.emit _⟩
      · have opened : LogsTo { console with tree := later, file := some place } time
            (request.logPlace console.tree) console.tree :=
          ⟨time_eq, .inr isLog.symm, .single ⟨place, [], isLog, made, .inl rfl⟩⟩
        exact .inl ⟨_, rfl, opened.emit _⟩

/-- The console of a request writes to its log file, and there is none for the lack of a path that
the system can be asked for. -/
theorem Console.logsTo_or_null_of_start (tree : Tree) (time : String) (request : Conversion) :
    (∃ console, Console.start tree time request = .ok console ∧
        console.LogsTo time (request.logPlace tree) tree) ∨
      ∃ fault path, Console.start tree time request = .error fault ∧ request.logFile = some path ∧
        '\x00' ∈ (tree.absoluteText (Path.ofText path)).toList := by
  unfold Console.start
  dsimp only
  split
  · next path given =>
    split
    · exact .inl ⟨_, rfl, rfl, .inl rfl, .refl⟩
    · refine (Console.logsTo_or_null_of_openFile given _ rfl rfl rfl).imp_right ?_
      rintro ⟨fault, failed, null⟩
      exact ⟨fault, path, failed, given, null⟩
  · exact .inl ⟨_, rfl, rfl, .inl rfl, .refl⟩

omit [Libraries] in
/-- The place of a log file has no two dots in it where the working directory has none. -/
theorem Conversion.plain_logPlace {request : Conversion} {tree : Tree} (work : ".." ∉ tree.work)
    {place : List String} (isLog : request.logPlace tree = some place) : ".." ∉ place := by
  have collapsed : ∀ (start parts : List String), ".." ∉ start →
      ".." ∉ Path.collapse start parts := by
    intro start parts plain
    induction parts generalizing start with
    | nil => exact plain
    | cons part parts ih =>
      apply ih
      dsimp only
      split
      · exact fun mem => plain (List.dropLast_subset start mem)
      · next other => simpa [plain] using fun same : ".." = part => other (by simp [← same])
  rcases Option.bind_eq_some_iff.mp isLog with ⟨path, -, resolved⟩
  unfold Tree.resolve at resolved
  split at resolved
  · split at resolved <;> cases resolved
    exact collapsed [] _ (by simp)
  · cases resolved
    exact collapsed _ _ work

end Markflow.CommandLine
