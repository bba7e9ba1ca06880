import Mathlib.Data.List.Induction
import Markflow.Proofs.Config.Loading

/-!
# Where a configuration is found

The search climbs from a directory to the root (`Climb`).  The nearest directory that offers a
configuration wins, by the first of its configuration files or else by the file of its project
(`Offers`).  A project's file that cannot be used, or has nothing for this program, does not stop
the search (`Passed`); one with a defect that nothing checks does, and so does a directory into
which the system does not let the program look (`Breaks`).  Every directory is one of the three, so
that what the search comes to first decides (`firstOf_eq_iff`, `discover_nearest`).
-/

namespace Markflow.Config

/-- A place and the places above it up to the root. -/
inductive Climb : List String → List (List String) → Prop
  | root : Climb [] [[]]
  | up {place : List String} {above : List (List String)} (name : String)
      (higher : Climb place above) :
      Climb (place ++ [name]) ((place ++ [name]) :: above)

theorem withParents_append (place : List String) (name : String) :
    withParents (place ++ [name]) = (place ++ [name]) :: withParents place := by
  have shorter : ∀ count ∈ (List.range (place.length + 1)).reverse, (place ++ [name]).take count =
      place.take count := by
    intro count mem
    rw [List.mem_reverse, List.mem_range] at mem
    exact List.take_append_of_le_length (Nat.le_of_lt_succ mem)
  rw [withParents, List.length_append, List.length_singleton, List.range_succ, List.reverse_append,
    List.reverse_singleton, List.singleton_append, List.map_cons, List.map_congr_left shorter,
    withParents]
  congr 1
  apply List.take_of_length_le
  rw [List.length_append, List.length_singleton]

theorem climb_withParents (place : List String) : Climb place (withParents place) := by
  induction place using List.reverseRecOn with
  | nil => exact .root
  | append_singleton place name ih =>
    rw [withParents_append]
    exact .up name ih

/-- The places that a search from a path goes through; there are none for a path outside of the
tree. -/
def SearchedFrom (tree : Tree) (start : Path) (directories : List (List String)) : Prop :=
  (tree.resolve start).elim (directories = []) (Climb · directories)

section Looking

variable {α β : Type} {offer : α → Except Fault (Option β)} {passed : α → Prop} {a : α}
    {others : List α}

/-- A search comes to a candidate, having passed all before it. -/
def ComesTo (passed : α → Prop) (candidates : List α) (candidate : α) : Prop :=
  ∃ earlier later, candidates = earlier ++ candidate :: later ∧ ∀ other ∈ earlier, passed other

theorem comesTo_cons_iff {candidate : α} :
    ComesTo passed (a :: others) candidate ↔
      candidate = a ∨ passed a ∧ ComesTo passed others candidate := by
  constructor
  · rintro ⟨_ | ⟨first, earlier⟩, later, split, all⟩ <;> cases split
    · exact .inl rfl
    · exact .inr ⟨all a List.mem_cons_self, earlier, later, rfl, fun other mem =>
        all other (.tail a mem)⟩
  · rintro (rfl | ⟨here, earlier, later, rfl, all⟩)
    · exact ⟨[], others, rfl, List.forall_mem_nil _⟩
    · exact ⟨a :: earlier, later, rfl, List.forall_mem_cons.mpr ⟨here, all⟩⟩

theorem firstOf_of_nothing (nothing : offer a = .ok none) :
    firstOf offer (a :: others) = firstOf offer others := by
  rw [firstOf, nothing]
  rfl

theorem firstOf_of_end (ends : offer a ≠ .ok none) : firstOf offer (a :: others) = offer a := by
  rw [firstOf]
  rcases offered : offer a with fault | _ | found
  · rfl
  · exact absurd offered ends
  · rfl

/-- A search ends with what it comes to first. -/
theorem firstOf_eq_iff (passes : ∀ candidate, offer candidate = .ok none ↔ passed candidate)
    {candidates : List α} {result : Except Fault (Option β)} (ends : result ≠ .ok none) :
    firstOf offer candidates = result ↔
      ∃ candidate, ComesTo passed candidates candidate ∧ offer candidate = result := by
  induction candidates with
  | nil =>
    refine ⟨fun nothing => absurd nothing.symm ends, ?_⟩
    rintro ⟨candidate, ⟨earlier, later, split, -⟩, -⟩
    exact absurd split (List.append_ne_nil_of_right_ne_nil earlier (List.cons_ne_nil _ _)).symm
  | cons a others ih =>
    by_cases nothing : offer a = .ok none
    · rw [firstOf_of_nothing nothing, ih]
      simp only [comesTo_cons_iff, or_and_right, exists_or, exists_eq_left, (passes a).mp nothing,
        true_and, nothing, iff_or_self]
      exact fun same => absurd same.symm ends
    · have stays : ¬ passed a := fun here => nothing ((passes a).mpr here)
      simp only [firstOf_of_end nothing, comesTo_cons_iff, stays, false_and, or_false,
        exists_eq_left]

theorem firstOf_eq_some_iff (passes : ∀ candidate, offer candidate = .ok none ↔ passed candidate)
    {candidates : List α} {found : β} :
    firstOf offer candidates = .ok (some found) ↔
      ∃ candidate, ComesTo passed candidates candidate ∧ offer candidate = .ok (some found) :=
  firstOf_eq_iff passes nofun

theorem exists_firstOf_error_iff
    (passes : ∀ candidate, offer candidate = .ok none ↔ passed candidate) {candidates : List α} :
    (∃ fault, firstOf offer candidates = .error fault) ↔
      ∃ candidate, ComesTo passed candidates candidate ∧ ∃ fault,
        offer candidate = .error fault := by
  have ends (fault : Fault) : firstOf offer candidates = .error fault ↔
      ∃ candidate, ComesTo passed candidates candidate ∧ offer candidate = .error fault :=
    firstOf_eq_iff passes nofun
  rw [exists_congr ends, exists_comm]
  exact exists_congr fun candidate => exists_and_left

theorem firstOf_eq_none_iff (passes : ∀ candidate, offer candidate = .ok none ↔ passed candidate)
    {candidates : List α} :
    firstOf offer candidates = .ok none ↔ ∀ candidate ∈ candidates, passed candidate := by
  induction candidates with
  | nil => exact ⟨fun _ => List.forall_mem_nil _, fun _ => rfl⟩
  | cons a others ih =>
    rw [List.forall_mem_cons, ← passes a, ← ih]
    by_cases nothing : offer a = .ok none
    · rw [firstOf_of_nothing nothing, and_iff_right nothing]
    · rw [firstOf_of_end nothing]
      exact iff_of_false nothing fun both => nothing both.1

end Looking

section Files

variable {tree : Tree} {directory place : List String}

/-- There is a file at a place, be it one that may not be read. -/
def IsThere (tree : Tree) (place : List String) : Prop :=
  tree.isFile (tree.reach place) = .ok true

/-- There is no file at a place. -/
def IsAbsent (tree : Tree) (place : List String) : Prop :=
  tree.isFile (tree.reach place) = .ok false

/-- The system does not tell whether there is a file at a place. -/
def IsBlocked (tree : Tree) (place : List String) : Prop :=
  ∃ fault, tree.isFile (tree.reach place) = .error fault

/-- The first of the configuration files of a directory. -/
def IsFirstFile (tree : Tree) (directory place : List String) : Prop :=
  ∃ name, ComesTo (fun other => IsAbsent tree (directory ++ [other])) fileNames name ∧
    place = directory ++ [name] ∧ IsThere tree place

/-- A directory has no configuration file. -/
def HasNoFile (tree : Tree) (directory : List String) : Prop :=
  ∀ name ∈ fileNames, IsAbsent tree (directory ++ [name])

/-- Which configuration file a directory has cannot be told. -/
def HidesFile (tree : Tree) (directory : List String) : Prop :=
  ∃ name, ComesTo (fun other => IsAbsent tree (directory ++ [other])) fileNames name ∧
    IsBlocked tree (directory ++ [name])

theorem fileAt_eq_none_iff : fileAt tree place = .ok none ↔ IsAbsent tree place := by
  unfold fileAt IsAbsent
  rcases tree.isFile (tree.reach place) with fault | _ | _ <;> simp

theorem fileAt_eq_some_iff {other : List String} :
    fileAt tree place = .ok (some other) ↔ other = place ∧ IsThere tree place := by
  unfold fileAt IsThere
  rcases tree.isFile (tree.reach place) with fault | _ | _ <;> simp [eq_comm]

theorem fileAt_of_isThere (isThere : IsThere tree place) : fileAt tree place = .ok (some place) :=
  fileAt_eq_some_iff.mpr ⟨rfl, isThere⟩

theorem exists_fileAt_error_iff :
    (∃ fault, fileAt tree place = .error fault) ↔ IsBlocked tree place := by
  unfold fileAt IsBlocked
  rcases tree.isFile (tree.reach place) with fault | _ | _ <;> simp

theorem fileIn_eq_some_iff :
    fileIn tree directory = .ok (some place) ↔ IsFirstFile tree directory place := by
  rw [fileIn, firstOf_eq_some_iff fun _ => fileAt_eq_none_iff]
  simp only [fileAt_eq_some_iff, IsFirstFile]
  exact exists_congr fun name => and_congr_right fun _ => and_congr_right fun same => by rw [same]

theorem fileIn_eq_none_iff : fileIn tree directory = .ok none ↔ HasNoFile tree directory :=
  firstOf_eq_none_iff fun _ => fileAt_eq_none_iff

theorem exists_fileIn_error_iff :
    (∃ fault, fileIn tree directory = .error fault) ↔ HidesFile tree directory := by
  rw [fileIn, exists_firstOf_error_iff fun _ => fileAt_eq_none_iff]
  simp only [exists_fileAt_error_iff, HidesFile]

end Files

section Projects

variable [Host] {bytes : List UInt8} {data tools entries : Entries} {path : String}

/-- What the bytes of a file are as TOML. -/
def Parses (bytes : List UInt8) (outcome : Except ReadFault Entries) : Prop :=
  ∃ characters, Text.Utf8.decode bytes = .ok characters ∧ Toml.read characters = outcome

/-- The section for this program in the file of a project. -/
inductive HasSection (bytes : List UInt8) (entries : Entries) : Prop
  | intro {data tools : Entries} (parses : Parses bytes (.ok data))
    (tool : data.find? "tool" = some (.table tools))
    (given : Entries.find? tools sectionName = some (.table entries))

/-- What reading the file of a project comes to when it is of no use for this program. -/
inductive Useless : Except FileFault (List UInt8) → Prop
  | unread (fault : FileFault) : Useless (.error fault)
  | malformed {bytes : List UInt8} (parses : Parses bytes (.error .malformed)) : Useless (.ok bytes)
  | noTool {bytes : List UInt8} {data : Entries} (parses : Parses bytes (.ok data))
      (absent : data.find? "tool" = none) : Useless (.ok bytes)
  | noSection {bytes : List UInt8} {data tools : Entries} (parses : Parses bytes (.ok data))
      (tool : data.find? "tool" = some (.table tools))
      (absent : Entries.find? tools sectionName = none) : Useless (.ok bytes)
  | emptySection {bytes : List UInt8} (given : HasSection bytes []) : Useless (.ok bytes)
  | sectionNotTable {bytes : List UInt8} {data tools : Entries} {value : Value}
      (parses : Parses bytes (.ok data)) (tool : data.find? "tool" = some (.table tools))
      (given : Entries.find? tools sectionName = some value)
      (noTable : ∀ entries, value ≠ .table entries) : Useless (.ok bytes)

/-- The file of a project has a section that is not empty, or it is of no use, or it has a defect
that nothing checks. -/
theorem project_cases (content : Except FileFault (List UInt8)) :
    (∃ bytes entries, content = .ok bytes ∧ HasSection bytes entries ∧ entries ≠ []) ∨
      Useless content ∨ ∃ bytes, content = .ok bytes ∧ UncheckedProject bytes := by
  rcases content with fault | bytes
  · exact .inr (.inl (.unread fault))
  rcases decoded : Text.Utf8.decode bytes with cause | characters
  · exact .inr (.inr ⟨bytes, rfl, .undecodable decoded⟩)
  rcases read : Toml.read characters with cause | data
  · by_cases isMalformed : cause = .malformed
    · subst isMalformed
      exact .inr (.inl (.malformed ⟨characters, decoded, read⟩))
    · exact .inr (.inr ⟨bytes, rfl, .unread decoded read isMalformed⟩)
  have parses : Parses bytes (.ok data) := ⟨characters, decoded, read⟩
  rcases tool : data.find? "tool" with _ | value
  · exact .inr (.inl (.noTool parses tool))
  by_cases isTable : ∃ tools, value = .table tools
  case neg => exact .inr (.inr ⟨bytes, rfl, .tool decoded read tool (not_exists.mp isTable)⟩)
  rcases isTable with ⟨tools, rfl⟩
  rcases given : Entries.find? tools sectionName with _ | value
  · exact .inr (.inl (.noSection parses tool given))
  by_cases isTable : ∃ entries, value = .table entries
  case neg => exact .inr (.inl (.sectionNotTable parses tool given (not_exists.mp isTable)))
  rcases isTable with ⟨_ | ⟨entry, entries⟩, rfl⟩
  · exact .inr (.inl (.emptySection ⟨parses, tool, given⟩))
  · exact .inl ⟨bytes, _, rfl, ⟨parses, tool, given⟩, List.cons_ne_nil _ _⟩

theorem readSection_of_parses (parses : Parses bytes (.ok data))
    (tool : (data.find? "tool").getD (.table []) = .table tools)
    (given : (Entries.find? tools sectionName).getD (.table []) = .table entries) :
    readSection path bytes = .ok entries := by
  rcases parses with ⟨characters, decoded, read⟩
  simp only [readSection, decode, decoded, Except.mapError, read, parsed, tool, given, bind,
    Except.bind, pure, Except.pure]

theorem readSection_of_hasSection (has : HasSection bytes entries) :
    readSection path bytes = .ok entries := by
  rcases has with ⟨parses, tool, given⟩
  apply readSection_of_parses parses
  · rw [tool]
    rfl
  · rw [given]
    rfl

theorem readSection_of_sectionNotTable {value : Value} (parses : Parses bytes (.ok data))
    (tool : data.find? "tool" = some (.table tools))
    (given : Entries.find? tools sectionName = some value)
    (noTable : ∀ entries, value ≠ .table entries) :
    readSection path bytes = .error (.misconfigured (.sectionNotTable value.kindName path)) := by
  rcases parses with ⟨characters, decoded, read⟩
  simp only [readSection, decode, decoded, Except.mapError, read, parsed, tool, given, bind,
    Except.bind, Option.getD_some]
  cases value with
  | table entries => exact absurd rfl (noTable entries)
  | _ => rfl

theorem readSection_of_malformed (parses : Parses bytes (.error .malformed)) :
    readSection path bytes = .error (.misconfigured (.malformed .toml true path)) := by
  rcases parses with ⟨characters, decoded, read⟩
  simp only [readSection, decode, decoded, Except.mapError, read, parsed, bind, Except.bind]
  rfl

theorem readSection_of_useless (path : String) (useless : Useless (.ok bytes)) :
    readSection path bytes = .ok [] ∨
      ∃ cause, readSection path bytes = .error (.misconfigured cause) := by
  cases useless with
  | malformed parses => exact .inr ⟨_, readSection_of_malformed parses⟩
  | noTool parses absent =>
    exact .inl (readSection_of_parses parses (congrArg (·.getD (.table [])) absent) rfl)
  | noSection parses tool absent =>
    left
    apply readSection_of_parses parses
    · rw [tool]
      rfl
    · rw [absent]
      rfl
  | emptySection given => exact .inl (readSection_of_hasSection given)
  | sectionNotTable parses tool given noTable =>
    exact .inr ⟨_, readSection_of_sectionNotTable parses tool given noTable⟩

theorem readSection_of_unchecked (path : String) (unchecked : UncheckedProject bytes) :
    ∃ fault, readSection path bytes = .error fault ∧ ∀ cause, fault ≠ .misconfigured cause := by
  cases unchecked with
  | @undecodable cause fails =>
    refine ⟨.undecodable cause, ?_, nofun⟩
    simp only [readSection, decode, fails, Except.mapError, bind, Except.bind]
  | @unread characters cause decoded fails unforeseen =>
    rcases parsed_cases (Toml.read characters) with
      ⟨data, read, -⟩ | ⟨malformed, -⟩ | ⟨_, fault, -, -, parsed_eq, foreign⟩
    · cases read.symm.trans fails
    · cases malformed.symm.trans fails
      exact absurd rfl unforeseen
    · refine ⟨fault, ?_, foreign⟩
      simp only [readSection, decode, decoded, Except.mapError, parsed_eq, bind, Except.bind]
  | @tool characters data value decoded read given noTable =>
    refine ⟨.noAttribute value.kindName "get", ?_, nofun⟩
    simp only [readSection, decode, decoded, Except.mapError, read, parsed, given, bind,
      Except.bind, Option.getD_some]
    cases value with
    | table entries => exact absurd rfl (noTable entries)
    | _ => rfl

end Projects

section Search

variable [Host] {tree : Tree} {directory place : List String}

/-- A directory offers one of its configuration files, or else the file of its project. -/
inductive Offers (tree : Tree) (directory place : List String) : Prop
  | file (first : IsFirstFile tree directory place)
  | project {bytes : List UInt8} {entries : Entries} (noFile : HasNoFile tree directory)
      (place_eq : place = directory ++ [projectFile]) (isThere : IsThere tree place)
      (read : tree.readAt place = .ok bytes) (has : HasSection bytes entries)
      (nonempty : entries ≠ [])

/-- A directory offers nothing, and the search goes on above it. -/
structure Passed (tree : Tree) (directory : List String) : Prop where
  noFile : HasNoFile tree directory
  noProject : IsAbsent tree (directory ++ [projectFile]) ∨
    IsThere tree (directory ++ [projectFile]) ∧ Useless (tree.readAt (directory ++ [projectFile]))

/-- The search fails at a directory. -/
inductive Breaks (tree : Tree) (directory : List String) : Prop
  | hidden (hides : HidesFile tree directory)
  | blocked (noFile : HasNoFile tree directory)
      (blocks : IsBlocked tree (directory ++ [projectFile]))
  | project {bytes : List UInt8} (noFile : HasNoFile tree directory)
      (isThere : IsThere tree (directory ++ [projectFile]))
      (read : tree.readAt (directory ++ [projectFile]) = .ok bytes)
      (unchecked : UncheckedProject bytes)

theorem directory_cases (tree : Tree) (directory : List String) :
    (∃ place, Offers tree directory place) ∨ Passed tree directory ∨ Breaks tree directory := by
  rcases first : fileIn tree directory with fault | _ | place
  · exact .inr (.inr (.hidden (exists_fileIn_error_iff.mp ⟨fault, first⟩)))
  · have noFile := fileIn_eq_none_iff.mp first
    rcases isFile : tree.isFile (tree.reach (directory ++ [projectFile])) with fault | _ | _
    · exact .inr (.inr (.blocked noFile ⟨fault, isFile⟩))
    · exact .inr (.inl ⟨noFile, .inl isFile⟩)
    · rcases project_cases (tree.readAt (directory ++ [projectFile])) with
        ⟨bytes, entries, read, has, nonempty⟩ | useless | ⟨bytes, read, unchecked⟩
      · exact .inl ⟨_, .project noFile rfl isFile read has nonempty⟩
      · exact .inr (.inl ⟨noFile, .inr ⟨isFile, useless⟩⟩)
      · exact .inr (.inr (.project noFile isFile read unchecked))
  · exact .inl ⟨place, .file (fileIn_eq_some_iff.mp first)⟩

theorem projectIn_of_hasSection {bytes : List UInt8} {entries : Entries}
    (isThere : IsThere tree (directory ++ [projectFile]))
    (read : tree.readAt (directory ++ [projectFile]) = .ok bytes) (has : HasSection bytes entries)
    (nonempty : entries ≠ []) :
    projectIn tree directory = .ok (some (directory ++ [projectFile])) := by
  simp only [projectIn, fileAt_of_isThere isThere, read, readSection_of_hasSection has, bind,
    Except.bind]
  cases entries with
  | nil => exact absurd rfl nonempty
  | cons entry entries => rfl

theorem projectIn_of_useless (isThere : IsThere tree (directory ++ [projectFile]))
    (useless : Useless (tree.readAt (directory ++ [projectFile]))) :
    projectIn tree directory = .ok none := by
  simp only [projectIn, fileAt_of_isThere isThere, bind, Except.bind]
  rcases read : tree.readAt (directory ++ [projectFile]) with fault | bytes
  · rfl
  rw [read] at useless
  rcases readSection_of_useless (tree.absolute (directory ++ [projectFile])) useless with
    empty | ⟨cause, refused⟩
  · simp only [empty]
    rfl
  · simp only [refused]
    rfl

theorem projectIn_of_unchecked {bytes : List UInt8}
    (isThere : IsThere tree (directory ++ [projectFile]))
    (read : tree.readAt (directory ++ [projectFile]) = .ok bytes)
    (unchecked : UncheckedProject bytes) : ∃ fault, projectIn tree directory = .error fault := by
  rcases readSection_of_unchecked (tree.absolute (directory ++ [projectFile])) unchecked with
    ⟨fault, failed, other⟩
  refine ⟨fault, ?_⟩
  simp only [projectIn, fileAt_of_isThere isThere, read, failed, bind, Except.bind]
  cases fault with
  | misconfigured cause => exact absurd rfl (other cause)
  | _ => rfl

theorem offeredIn_of_noFile (noFile : HasNoFile tree directory) :
    offeredIn tree directory = projectIn tree directory := by
  rw [offeredIn, fileIn_eq_none_iff.mpr noFile]
  rfl

theorem Offers.offeredIn (offers : Offers tree directory place) :
    offeredIn tree directory = .ok (some place) := by
  cases offers with
  | file first =>
    rw [Config.offeredIn, fileIn_eq_some_iff.mpr first]
    rfl
  | project noFile place_eq isThere read has nonempty =>
    subst place_eq
    rw [offeredIn_of_noFile noFile]
    exact projectIn_of_hasSection isThere read has nonempty

theorem Passed.offeredIn (passed : Passed tree directory) :
    offeredIn tree directory = .ok none := by
  rw [offeredIn_of_noFile passed.noFile]
  rcases passed.noProject with absent | ⟨isThere, useless⟩
  · rw [projectIn, fileAt_eq_none_iff.mpr absent]
    rfl
  · exact projectIn_of_useless isThere useless

theorem Breaks.offeredIn (breaks : Breaks tree directory) :
    ∃ fault, offeredIn tree directory = .error fault := by
  cases breaks with
  | hidden hides =>
    rcases exists_fileIn_error_iff.mpr hides with ⟨fault, failed⟩
    refine ⟨fault, ?_⟩
    rw [Config.offeredIn, failed]
    rfl
  | blocked noFile blocks =>
    rcases exists_fileAt_error_iff.mpr blocks with ⟨fault, failed⟩
    refine ⟨fault, ?_⟩
    rw [offeredIn_of_noFile noFile, projectIn, failed]
    rfl
  | project noFile isThere read unchecked =>
    rw [offeredIn_of_noFile noFile]
    exact projectIn_of_unchecked isThere read unchecked

theorem offeredIn_eq_none_iff : offeredIn tree directory = .ok none ↔ Passed tree directory := by
  refine ⟨fun nothing => ?_, Passed.offeredIn⟩
  rcases directory_cases tree directory with ⟨place, offers⟩ | passed | breaks
  · cases nothing.symm.trans offers.offeredIn
  · exact passed
  · rcases breaks.offeredIn with ⟨fault, failed⟩
    cases nothing.symm.trans failed

theorem offeredIn_eq_some_iff :
    offeredIn tree directory = .ok (some place) ↔ Offers tree directory place := by
  refine ⟨fun found => ?_, Offers.offeredIn⟩
  rcases directory_cases tree directory with ⟨other, offers⟩ | passed | breaks
  · cases found.symm.trans offers.offeredIn
    exact offers
  · cases found.symm.trans passed.offeredIn
  · rcases breaks.offeredIn with ⟨fault, failed⟩
    cases found.symm.trans failed

theorem exists_offeredIn_error_iff :
    (∃ fault, offeredIn tree directory = .error fault) ↔ Breaks tree directory := by
  refine ⟨fun ⟨fault, failed⟩ => ?_, Breaks.offeredIn⟩
  rcases directory_cases tree directory with ⟨other, offers⟩ | passed | breaks
  · cases failed.symm.trans offers.offeredIn
  · cases failed.symm.trans passed.offeredIn
  · exact breaks

/-! ### The climb -/

variable {directories : List (List String)} {start : Path}

theorem exists_searchedFrom (tree : Tree) (start : Path) :
    ∃ directories, SearchedFrom tree start directories ∧
      find tree start = firstOf (offeredIn tree) directories := by
  unfold SearchedFrom find
  rcases tree.resolve start with _ | place
  · exact ⟨[], rfl, rfl⟩
  · exact ⟨withParents place, climb_withParents place, rfl⟩

/-- A search for a configuration fails: at a directory on the way, or when it comes to the home. -/
inductive SearchFails (tree : Tree) (directories : List (List String)) : Prop
  | way {directory : List String} (comes : ComesTo (Passed tree) directories directory)
      (breaks : Breaks tree directory)
  | noHome (passed : ∀ directory ∈ directories, Passed tree directory) (unknown : tree.home = none)
  | home {home : List String} (passed : ∀ directory ∈ directories, Passed tree directory)
      (known : tree.home = some home) (hides : HidesFile tree home)

variable (find_eq : find tree start = firstOf (offeredIn tree) directories)
include find_eq

theorem find_eq_none_iff :
    find tree start = .ok none ↔ ∀ directory ∈ directories, Passed tree directory := by
  rw [find_eq, firstOf_eq_none_iff fun _ => offeredIn_eq_none_iff]

theorem find_eq_some_iff :
    find tree start = .ok (some place) ↔
      ∃ directory, ComesTo (Passed tree) directories directory ∧ Offers tree directory place := by
  rw [find_eq, firstOf_eq_some_iff fun _ => offeredIn_eq_none_iff]
  simp only [offeredIn_eq_some_iff]

theorem exists_find_error_iff :
    (∃ fault, find tree start = .error fault) ↔
      ∃ directory, ComesTo (Passed tree) directories directory ∧ Breaks tree directory := by
  rw [find_eq, exists_firstOf_error_iff fun _ => offeredIn_eq_none_iff]
  simp only [exists_offeredIn_error_iff]

theorem discover_eq_some_iff :
    discover tree start = .ok (some place) ↔
      (∃ directory, ComesTo (Passed tree) directories directory ∧ Offers tree directory place) ∨
        (∀ directory ∈ directories, Passed tree directory) ∧
          ∃ home, tree.home = some home ∧ IsFirstFile tree home place := by
  rw [← find_eq_some_iff find_eq, ← find_eq_none_iff find_eq]
  simp only [← fileIn_eq_some_iff, discover]
  rcases find tree start with fault | _ | found
  · simp [bind, Except.bind]
  · rcases tree.home with _ | home <;> simp [bind, Except.bind]
  · simp [bind, Except.bind, pure, Except.pure]

theorem discover_eq_none_iff :
    discover tree start = .ok none ↔
      (∀ directory ∈ directories, Passed tree directory) ∧
        ∃ home, tree.home = some home ∧ HasNoFile tree home := by
  rw [← find_eq_none_iff find_eq]
  simp only [← fileIn_eq_none_iff, discover]
  rcases find tree start with fault | _ | found
  · simp [bind, Except.bind]
  · rcases tree.home with _ | home <;> simp [bind, Except.bind]
  · simp [bind, Except.bind, pure, Except.pure]

theorem exists_discover_error_iff :
    (∃ fault, discover tree start = .error fault) ↔ SearchFails tree directories := by
  constructor
  · rintro ⟨fault, failed⟩
    rcases bind_eq_error_iff.mp failed with unfound | ⟨_ | place, nothing, failed⟩
    · rcases (exists_find_error_iff find_eq).mp ⟨fault, unfound⟩ with ⟨directory, comes, breaks⟩
      exact .way comes breaks
    · have passed := (find_eq_none_iff find_eq).mp nothing
      rcases known : tree.home with _ | home
      · exact .noHome passed known
      · simp only [known] at failed
        exact .home passed known (exists_fileIn_error_iff.mp ⟨fault, failed⟩)
    · cases failed
  · intro fails
    cases fails with
    | way comes breaks =>
      rcases (exists_find_error_iff find_eq).mpr ⟨_, comes, breaks⟩ with ⟨fault, failed⟩
      exact ⟨fault, bind_eq_error_iff.mpr (.inl failed)⟩
    | noHome passed unknown =>
      have nothing := (find_eq_none_iff find_eq).mpr passed
      exact ⟨.noHome, bind_eq_error_iff.mpr (.inr ⟨none, nothing, by simp only [unknown]; rfl⟩)⟩
    | home passed known hides =>
      have nothing := (find_eq_none_iff find_eq).mpr passed
      rcases exists_fileIn_error_iff.mpr hides with ⟨fault, failed⟩
      exact
        ⟨fault, bind_eq_error_iff.mpr (.inr ⟨none, nothing, by simp only [known]; exact failed⟩)⟩

omit find_eq in
/-- The search ends in what the nearest directory offers that offers anything, or else in the first
configuration file of the home.  It fails where a directory on the way hides from the system what it
has, or has a project's file with a defect that nothing checks, and where the home is not known or
hides its files. -/
theorem discover_nearest (tree : Tree) (start : Path) :
    ∃ directories, SearchedFrom tree start directories ∧
      (∀ place, discover tree start = .ok (some place) ↔
        (∃ directory, ComesTo (Passed tree) directories directory ∧ Offers tree directory place) ∨
          (∀ directory ∈ directories, Passed tree directory) ∧
            ∃ home, tree.home = some home ∧ IsFirstFile tree home place) ∧
      (discover tree start = .ok none ↔
        (∀ directory ∈ directories, Passed tree directory) ∧
          ∃ home, tree.home = some home ∧ HasNoFile tree home) ∧
      ((∃ fault, discover tree start = .error fault) ↔ SearchFails tree directories) := by
  rcases exists_searchedFrom tree start with ⟨directories, searched, find_eq⟩
  exact ⟨directories, searched, fun place => discover_eq_some_iff find_eq,
    discover_eq_none_iff find_eq, exists_discover_error_iff find_eq⟩

end Search

section Stopped

/-- A project below the root with an entry for all its tools that is no table. -/
def toolNoTable : Tree where
  root := .directory [(".rxmd.toml", .file []),
    ("work", .directory [("pyproject.toml", .file "tool = 3\n".toUTF8.toList)])]
  work := ["work"]
  home := some ["home"]
  mount := "/r"

attribute [local instance] Host.standard

/-- Its file stops the search, although the root has a configuration file. -/
theorem discover_stops_at_tool :
    HasNoFile toolNoTable ["work"] ∧ IsFirstFile toolNoTable [] [".rxmd.toml"] ∧
      ∃ fault, discover toolNoTable (Path.ofText ".") = .error fault := by
  have noFile : HasNoFile toolNoTable ["work"] := by
    unfold HasNoFile IsAbsent
    decide +kernel
  have first : IsFirstFile toolNoTable [] [".rxmd.toml"] :=
    ⟨".rxmd.toml", ⟨[], _, rfl, List.forall_mem_nil _⟩, rfl, by unfold IsThere; decide +kernel⟩
  refine ⟨noFile, first, ?_⟩
  have nothing : (discover toolNoTable (Path.ofText ".")).toOption = none := by decide +kernel
  rcases found : discover toolNoTable (Path.ofText ".") with fault | place
  · exact ⟨fault, rfl⟩
  · rw [found] at nothing
    cases nothing

end Stopped

end Markflow.Config
