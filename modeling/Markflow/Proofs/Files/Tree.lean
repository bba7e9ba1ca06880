import Markflow.Files.Tree

/-!
# Writing to one file

A file that is written keeps all other files as they are (`Tree.readAt_writeAt_of_ne`).  The
directories on the way to it have to be there, which a tree checks before it writes; the proof
follows the way down, where every step leaves the entries of other names alone.

A zero character is the one fault of a path that is found before the tree is looked at
(`Tree.null_of_read`, `Tree.null_of_write`).
-/

namespace Markflow

namespace Entry

theorem at?_append (entry : Entry) (first second : List String) :
    entry.at? (first ++ second) = (entry.at? first).bind (·.at? second) := by
  induction first generalizing entry with
  | nil => rfl
  | cons name first ih =>
    cases entry with
    | file bytes => rfl
    | locked => rfl
    | sealed => rfl
    | directory entries =>
      rw [List.cons_append, at?, at?]
      rcases entries.lookup name with _ | child
      · rfl
      · exact ih child

/-- Whether a file can be put at a place: the directories above it are there and let the program
pass, and in its place no directory is and no file that may not be written. -/
def HasRoom : Entry → List String → Prop
  | file _, [] => True
  | directory _, [] => False
  | locked, _ => False
  | sealed, _ => False
  | file _, _ :: _ => False
  | directory entries, name :: place => match entries.lookup name with
    | some entry => entry.HasRoom place
    | none => place = []

/-- What a place has for reading: the bytes of a file, or the reason why there are none. -/
def contentAt (entry : Entry) (place : List String) : Except FileFault (List UInt8) :=
  match entry.at? place with
  | some (.file bytes) => .ok bytes
  | some .locked => .error .denied
  | some _ => .error .isDirectory
  | none => .error .notFound

@[simp]
theorem contentAt_directory_cons (entries : List (String × Entry)) (name : String)
    (place : List String) :
    (directory entries).contentAt (name :: place) =
      (entries.lookup name).elim (.error .notFound) (·.contentAt place) := by
  rw [contentAt, at?]
  rcases entries.lookup name with _ | child <;> rfl

theorem lookup_replace (entries : List (String × Entry)) (name other : String) (child : Entry) :
    (entries.map fun (first, old) => if first == name then (name, child) else (first, old)).lookup
      other =
      if other = name then (entries.lookup name).map fun _ => child else entries.lookup other := by
  induction entries with
  | nil => simp
  | cons entry entries ih =>
    rcases entry with ⟨first, old⟩
    rw [List.map_cons]
    dsimp only at ih ⊢
    by_cases isName : first = name
    · subst isName
      rw [if_pos (beq_self_eq_true first), List.lookup_cons, ih]
      by_cases isOther : other = first
      · simp only [isOther, if_true, List.lookup_cons_self, beq_self_eq_true, Option.map_some]
      · have passed : (other == first) = false := by simpa using isOther
        simp only [passed, if_neg isOther, List.lookup_cons]
    · have kept : (first == name) = false := by simpa using isName
      have missed : (name == first) = false := by simpa using Ne.symm isName
      rw [if_neg (by simp [kept]), List.lookup_cons, List.lookup_cons, List.lookup_cons, missed, ih]
      by_cases isOther : other = first
      · simp only [isOther, beq_self_eq_true, if_neg isName]
      · have passed : (other == first) = false := by simpa using isOther
        simp only [passed]

/-- The entries of a directory into which something is put. -/
theorem exists_put_directory (new : Entry) (name : String) (place : List String)
    (entries : List (String × Entry)) : ∃ changed, put new (name :: place) (directory entries) =
      directory changed ∧
      ∀ other, changed.lookup other = if other = name then
        some (put new place ((entries.lookup name).getD (directory [])))
          else entries.lookup other := by
  rcases found : entries.lookup name with _ | child
  · refine ⟨_, by simp only [put, found, Option.isSome_none, Bool.false_eq_true, if_false]; rfl, ?_⟩
    intro other
    rw [List.lookup_append]
    by_cases isName : other = name
    · simp [isName, found]
    · have differs : (other == name) = false := by simpa using isName
      simp [isName, List.lookup_cons, differs]
  · refine ⟨_, by simp only [put, found, Option.isSome_some, if_true]; rfl, ?_⟩
    intro other
    rw [lookup_replace, found]
    rfl

/-- A file that is put at a place changes what no other place has. -/
theorem contentAt_put_of_ne {entry : Entry} {bytes : List UInt8} {place other : List String}
    (room : entry.HasRoom place) (differs : other ≠ place) :
    (put (.file bytes) place entry).contentAt other = entry.contentAt other := by
  induction place generalizing entry other with
  | nil =>
    cases entry with
    | directory entries => exact room.elim
    | locked => exact room.elim
    | sealed => exact room.elim
    | file old =>
      cases other with
      | nil => exact absurd rfl differs
      | cons name other => rfl
  | cons name place ih =>
    cases entry with
    | file old => exact room.elim
    | locked => exact room.elim
    | sealed => exact room.elim
    | directory entries =>
      rcases exists_put_directory (.file bytes) name place entries with ⟨changed, put_eq, lookup_eq⟩
      rw [put_eq]
      cases other with
      | nil => rfl
      | cons first other =>
        rw [contentAt_directory_cons, contentAt_directory_cons, lookup_eq]
        split
        case isFalse => rfl
        case isTrue same =>
          subst same
          have below : other ≠ place := fun same => differs (congrArg _ same)
          simp only [HasRoom] at room
          rcases found : entries.lookup first with _ | child
          · rw [found] at room
            obtain rfl : place = [] := room
            rcases List.exists_cons_of_ne_nil below with ⟨next, rest, rfl⟩
            rfl
          · rw [found] at room
            exact ih room below

end Entry

namespace Tree

variable {tree after : Tree} {place other : List String} {bytes : List UInt8}

theorem readAt_eq (tree : Tree) (place : List String) :
    tree.readAt place = tree.root.contentAt place := rfl

theorem hasRoom_of_followFrom {start parts stop : List String} {entry : Entry}
    (followed : tree.followFrom start parts = .ok stop) (plain : ".." ∉ parts)
    (atStart : tree.root.at? start = some entry)
    (free : ∀ entries, tree.root.at? (start ++ parts) ≠ some (.directory entries))
    (unlocked : tree.root.at? (start ++ parts) ≠ some .locked)
    (unsealed : tree.root.at? (start ++ parts) ≠ some .sealed) : entry.HasRoom parts := by
  induction parts generalizing start entry with
  | nil =>
    cases entry with
    | file bytes => trivial
    | locked => exact absurd (by simpa using atStart) unlocked
    | sealed => exact absurd (by simpa using atStart) unsealed
    | directory entries => exact absurd (by simpa using atStart) (free entries)
  | cons part parts ih =>
    rw [List.mem_cons, not_or] at plain
    cases entry with
    | file bytes => simp [followFrom, atStart] at followed
    | locked => simp [followFrom, atStart] at followed
    | sealed => simp [followFrom, atStart] at followed
    | directory entries =>
      have isPart : (part == "..") = false := by simpa using Ne.symm plain.1
      simp only [followFrom, atStart, isPart, Bool.false_eq_true, if_false] at followed
      split at followed
      · cases followed
      have below : tree.root.at? (start ++ [part]) = entries.lookup part := by
        rw [Entry.at?_append, atStart]
        rcases found : entries.lookup part with _ | child <;> simp [Entry.at?, found]
      simp only [Entry.HasRoom]
      rcases found : entries.lookup part with _ | child
      · cases parts with
        | nil => rfl
        | cons next parts => simp [followFrom, below, found] at followed
      · exact ih followed plain.2 (below.trans found) (by simpa using free)
          (by simpa using unlocked)
          (by simpa using unsealed)

/-- A file is written where there is room for it. -/
theorem writeAt_eq_ok (written : tree.writeAt place bytes = .ok after) (plain : ".." ∉ place) :
    tree.root.HasRoom place ∧
      after = { tree with root := Entry.put (.file bytes) place tree.root } := by
  unfold writeAt checkAt at written
  rcases followed : tree.followFrom [] place with fault | stop
  · rw [followed] at written
    cases written
  · rw [followed] at written
    rcases there : tree.root.at? place with _ | ⟨old⟩ | _ | ⟨entries⟩ | _
    all_goals
      rw [there] at written
      cases written
    all_goals
      exact ⟨hasRoom_of_followFrom followed plain rfl (by simp [there]) (by simp [there])
        (by simp [there]), rfl⟩

/-- Writing a file keeps all other files as they are. -/
theorem readAt_writeAt_of_ne (written : tree.writeAt place bytes = .ok after) (plain : ".." ∉ place)
    (differs : other ≠ place) : after.readAt other = tree.readAt other := by
  rcases writeAt_eq_ok written plain with ⟨room, rfl⟩
  exact Entry.contentAt_put_of_ne room differs

theorem null_of_checkText {text : String} (failed : checkText text = .error .embeddedNull) :
    '\x00' ∈ text.toList := by
  unfold checkText at failed
  split at failed
  · next contains => simpa using contains
  · split at failed <;> cases failed

theorem followFrom_ne_null (start parts : List String) :
    tree.followFrom start parts ≠ .error .embeddedNull := by
  induction parts generalizing start with
  | nil => nofun
  | cons part parts ih =>
    unfold followFrom
    split
    · split
      · exact ih _
      · split
        · nofun
        · exact ih _
    all_goals nofun

theorem null_of_follow {path : Path} (failed : tree.follow path = .error .embeddedNull) :
    '\x00' ∈ path.text.toList := by
  unfold follow at failed
  rcases checked : checkText path.text with fault | _
  · rw [checked] at failed
    cases failed
    exact null_of_checkText checked
  · rw [checked] at failed
    dsimp only [bind, Except.bind] at failed
    split at failed
    · split at failed
      · exact absurd failed (followFrom_ne_null _ _)
      · cases failed
    · exact absurd failed (followFrom_ne_null _ _)

theorem readAt_ne_null (place : List String) : tree.readAt place ≠ .error .embeddedNull := by
  unfold readAt
  split <;> nofun

theorem writeAt_ne_null (place : List String) (bytes : List UInt8) :
    tree.writeAt place bytes ≠ .error .embeddedNull := by
  unfold writeAt checkAt
  rcases followed : tree.followFrom [] place with fault | stop
  · have other : fault ≠ .embeddedNull := fun same => followFrom_ne_null [] place (same ▸ followed)
    simpa [bind, Except.bind] using other
  · rcases there : tree.root.at? place with _ | ⟨_ | _ | _ | _⟩ <;> nofun

theorem null_of_read {path : Path} (failed : tree.read path = .error .embeddedNull) :
    '\x00' ∈ path.text.toList := by
  unfold read at failed
  rcases followed : tree.follow path with fault | place
  · rw [followed] at failed
    cases failed
    exact null_of_follow followed
  · rw [followed] at failed
    exact absurd failed (readAt_ne_null place)

theorem null_of_write {path : Path} (failed : tree.write path bytes = .error .embeddedNull) :
    '\x00' ∈ path.text.toList := by
  unfold write at failed
  rcases followed : tree.follow path with fault | place
  · rw [followed] at failed
    cases failed
    exact null_of_follow followed
  · rw [followed] at failed
    exact absurd failed (writeAt_ne_null place bytes)

end Tree

end Markflow
