import Markflow.Proofs.Pattern.Compilation
import Markflow.Proofs.Text.Case
import Mathlib.Data.Set.List

/-!
# What flags denote

Flags as they are given denote letters (`GivenFlags.Denotes`): a text its characters that are not
white space, a list what its items denote, and flags that are missing or empty the default.  They
are read exactly when each of these letters is that of a flag, and then as the flags with these
letters.  So it does not matter in which order the characters or the items stand or whether they are
repeated, and a text is read like the list of its characters, down to what it is refused for.
-/

namespace Markflow

/-- An item of a list spells the long name of a flag in any letter case, with white space around it
or without. -/
def SpellsName (item : String) (flag : Flag) : Prop :=
  Flag.ofName? (Text.lower (String.ofList (Text.strip item.toList))) = some flag

/-- An item of a list denotes the letter of the flag whose long name it spells, or else its
characters that are not white space. -/
inductive ItemDenotes (item : String) : Char → Prop
  | name {flag : Flag} (spells : SpellsName item flag) : ItemDenotes item flag.letter
  | letter {c : Char} (unnamed : ∀ flag, ¬ SpellsName item flag) (mem : c ∈ Text.strip item.toList)
      (ink : Text.isBlank c = false) : ItemDenotes item c

/-- The letters that flags denote as they are given. -/
inductive GivenFlags.Denotes : GivenFlags → Char → Prop
  | absent : Denotes .absent 'g'
  | emptyText : Denotes (.letters "") 'g'
  | emptyList : Denotes (.names []) 'g'
  | letter {text : String} {c : Char} (mem : c ∈ text.toList) (ink : Text.isBlank c = false) :
      Denotes (.letters text) c
  | item {items : List String} {item : String} {c : Char} (mem : item ∈ items)
      (denotes : ItemDenotes item c) :
      Denotes (.names items) c

/-- The letters of all flags in their order. -/
def flagLetters : List Char :=
  "gimsuxa".toList

namespace Flags

section Names

variable {name item : String} {flag : Flag} {c : Char}

theorem of_ofName? (named : Flag.ofName? name = some flag) :
    1 < name.toList.length ∧ ∀ c ∈ name.toList, Text.LowersFromAscii c := by
  unfold Flag.ofName? at named
  split at named
  case h_9 => cases named
  all_goals decide

/-- No long name has a letter that makes a difference between lowering all letters and lowering
those of ASCII. -/
theorem ofName?_lower (text : String) :
    Flag.ofName? (Text.lower text) =
      Flag.ofName? (String.ofList (text.toList.map Char.toLower)) := by
  apply Option.ext
  intro flag
  constructor
  · intro named
    rwa [(Text.lower_eq_iff (of_ofName? named).2).mp rfl]
  · intro named
    rwa [(Text.lower_eq_iff (of_ofName? named).2).mpr rfl]

theorem spellsName_iff :
    SpellsName item flag ↔
      Flag.ofName? (String.ofList ((Text.strip item.toList).map Char.toLower)) = some flag := by
  rw [SpellsName, ofName?_lower, String.toList_ofList]

/-- The letters that are read for an item. -/
def charsOf (item : String) : List Char :=
  match Flag.ofName? (String.ofList ((Text.strip item.toList).map Char.toLower)) with
  | some flag => [flag.letter]
  | none => Text.strip item.toList

theorem charsOf_of_name (spells : SpellsName item flag) : charsOf item = [flag.letter] := by
  rw [charsOf, spellsName_iff.mp spells]

theorem charsOf_of_unnamed (unnamed : ∀ flag, ¬ SpellsName item flag) :
    charsOf item = Text.strip item.toList := by
  rw [charsOf]
  split
  · next flag named => exact absurd (spellsName_iff.mpr named) (unnamed flag)
  · rfl

theorem itemLetters_text (item : String) : itemLetters (.text item) = .ok (charsOf item) := by
  rcases named : Flag.ofName? (String.ofList ((Text.strip item.toList).map Char.toLower)) with
    _ | flag
  · simp only [itemLetters, charsOf, named]
  · simp only [itemLetters, charsOf, named]

theorem itemDenotes_iff : ItemDenotes item c ↔ c ∈ charsOf item ∧ Text.isBlank c = false := by
  constructor
  · rintro (⟨spells⟩ | ⟨unnamed, mem, ink⟩)
    · rw [charsOf_of_name spells]
      exact ⟨List.mem_singleton_self _, isBlank_letter _⟩
    · rw [charsOf_of_unnamed unnamed]
      exact ⟨mem, ink⟩
  · rintro ⟨mem, ink⟩
    by_cases named : ∃ flag, SpellsName item flag
    · rcases named with ⟨flag, spells⟩
      rw [charsOf_of_name spells, List.mem_singleton] at mem
      rw [mem]
      exact .name spells
    · rw [not_exists] at named
      rw [charsOf_of_unnamed named] at mem
      exact .letter named mem ink

theorem strip_singleton (c : Char) : Text.strip [c] = [c].filter (!Text.isBlank ·) := by
  cases blank : Text.isBlank c <;> simp [Text.strip, Text.stripRight, Text.stripLeft, blank]

/-- An item that is one character is read as that character, unless it is white space. -/
theorem charsOf_singleton (c : Char) :
    charsOf (String.singleton c) = [c].filter (!Text.isBlank ·) := by
  have key_eq : Text.strip (String.singleton c).toList = [c].filter (!Text.isBlank ·) := by
    rw [String.toList_singleton, strip_singleton]
  rw [← key_eq]
  apply charsOf_of_unnamed
  intro flag spells
  have long := (of_ofName? (spellsName_iff.mp spells)).1
  rw [key_eq, String.toList_ofList, List.length_map] at long
  exact absurd (List.length_filter_le _ [c]) (Nat.not_le.mpr long)

end Names

section Letters

variable {letters : List Char} {flags : Flags} {fault : Fault}

theorem ofLetter?_eq_some_iff {c : Char} {flag : Flag} :
    Flag.ofLetter? c = some flag ↔ flag.letter = c := by
  constructor
  · intro denoted
    simpa using List.find?_some denoted
  · rintro rfl
    exact ofLetter?_letter flag

theorem mem_flagLetters {c : Char} : c ∈ flagLetters ↔ ∃ flag : Flag, flag.letter = c := by
  have letters_eq : flagLetters = Flag.all.map Flag.letter := by decide
  rw [letters_eq, List.mem_map]
  exact exists_congr fun flag => and_iff_right (mem_all flag)

theorem letter_injective : Function.Injective Flag.letter := by
  intro first second same
  apply Option.some_injective
  rw [← ofLetter?_letter first, ← ofLetter?_letter second, same]

theorem mem_chosen_of {wanted : List Flag} {flag : Flag} :
    flag ∈ (of wanted).chosen ↔ flag ∈ wanted := by
  rw [of, List.mem_filter, List.contains_iff_mem]
  exact and_iff_right (mem_all flag)

/-- Flags in normal form are told by which flags are among them. -/
theorem IsNormal.eq_of_mem_iff {others : Flags} (normal : flags.IsNormal)
    (normal' : others.IsNormal)
    (same : ∀ flag, flag ∈ flags.chosen ↔ flag ∈ others.chosen) : flags = others := by
  rw [← normal, ← normal', of, of, mk.injEq]
  apply List.filter_congr
  intro flag _
  rw [Bool.eq_iff_iff, List.contains_iff_mem, List.contains_iff_mem, same]

theorem ofLetters_eq_ok_iff_map : ofLetters letters = .ok flags ↔
    ∃ wanted : List Flag, letters.filter (!Text.isBlank ·) = wanted.map Flag.letter ∧
      of wanted = flags := by
  rw [ofLetters_eq_ok_iff]
  simp only [ofLetter?_eq_some_iff]
  apply exists_congr
  intro wanted
  apply and_congr_left
  intro _
  rw [← List.forall₂_eq_eq_eq, List.forall₂_map_right_iff]
  simp only [eq_comm]

/-- Letters are read where each that is not white space is the letter of a flag, and then as the
flags which have them. -/
theorem ofLetters_eq_ok_iff_mem : ofLetters letters = .ok flags ↔
    (∀ c ∈ letters, Text.isBlank c = false → c ∈ flagLetters) ∧ flags.IsNormal ∧
      ∀ flag, flag ∈ flags.chosen ↔ flag.letter ∈ letters := by
  have letter_mem_iff : ∀ flag : Flag, flag.letter ∈ letters.filter (!Text.isBlank ·) ↔
      flag.letter ∈ letters := by
    intro flag
    rw [List.mem_filter, isBlank_letter]
    exact and_iff_left rfl
  have chosen_iff : ∀ wanted : List Flag, letters.filter (!Text.isBlank ·) =
      wanted.map Flag.letter →
      ∀ flag, flag ∈ (of wanted).chosen ↔ flag.letter ∈ letters := by
    intro wanted letters_eq flag
    rw [mem_chosen_of, ← letter_mem_iff, letters_eq, List.mem_map_of_injective letter_injective]
  rw [ofLetters_eq_ok_iff_map]
  constructor
  · rintro ⟨wanted, letters_eq, rfl⟩
    refine ⟨?_, isNormal_of wanted, chosen_iff wanted letters_eq⟩
    intro c mem ink
    have denoted : c ∈ wanted.map Flag.letter := by
      rw [← letters_eq, List.mem_filter, ink]
      exact ⟨mem, rfl⟩
    rcases List.mem_map.mp denoted with ⟨flag, -, letter_eq⟩
    exact mem_flagLetters.mpr ⟨flag, letter_eq⟩
  · rintro ⟨supported, normal, chosen⟩
    have all_letters : letters.filter (!Text.isBlank ·) ∈ Set.range (List.map Flag.letter) := by
      rw [Set.range_list_map]
      intro c mem
      rw [List.mem_filter, Bool.not_eq_true'] at mem
      exact mem_flagLetters.mp (supported c mem.1 mem.2)
    rcases all_letters with ⟨wanted, letters_eq⟩
    refine ⟨wanted, letters_eq.symm, (isNormal_of wanted).eq_of_mem_iff normal fun flag => ?_⟩
    rw [chosen_iff wanted letters_eq.symm, chosen]

/-- Letters that are not read are refused for one of them. -/
theorem unsupported_of_ofLetters (failed : ofLetters letters = .error fault) :
    ∃ c ∈ letters, Text.isBlank c = false ∧ c ∉ flagLetters ∧
      fault = .pattern (.flags (.unsupported c)) := by
  rcases Config.exists_error_of_mapM (Config.map_eq_error_iff.mp failed) with ⟨c, c_mem, refused⟩
  rw [List.mem_filter, Bool.not_eq_true'] at c_mem
  split at refused
  · cases refused
  · next unknown =>
    cases refused
    refine ⟨c, c_mem.1, c_mem.2, ?_, rfl⟩
    intro supported
    rcases mem_flagLetters.mp supported with ⟨flag, letter_eq⟩
    rw [ofLetter?_eq_some_iff.mpr letter_eq] at unknown
    cases unknown

/-- White space between letters makes no difference. -/
theorem ofLetters_congr {others : List Char}
    (same : letters.filter (!Text.isBlank ·) = others.filter (!Text.isBlank ·)) :
    ofLetters letters = ofLetters others := by
  rw [ofLetters, ofLetters, same]

end Letters

section Read

variable {given : GivenFlags} {flags : Flags} {c : Char}

theorem lettersOf_names (items : List String) :
    lettersOf (GivenFlags.names items).value = .ok (items.flatMap charsOf) := by
  have each : (items.map Value.text).mapM itemLetters = .ok (items.map charsOf) := by
    apply mapM_eq_ok_iff.mpr
    rw [List.forall₂_map_left_iff, List.forall₂_map_right_iff, List.forall₂_same]
    exact fun item _ => itemLetters_text item
  rw [GivenFlags.value, lettersOf, each, List.flatMap_def]
  rfl

/-- The letters that are read for flags as they are given. -/
def charsOfGiven : GivenFlags → List Char
  | .absent => ['g']
  | .letters text => if text = "" then ['g'] else text.toList
  | .names items => if items = [] then ['g'] else items.flatMap charsOf

theorem read_eq_ofLetters (given : GivenFlags) :
    read given.value = ofLetters (charsOfGiven given) := by
  have default_eq : Except.ok default = ofLetters ['g'] := (ofLetters_letters [.everywhere]).symm
  cases given with
  | absent => exact default_eq
  | letters text =>
    by_cases empty : text = ""
    · rw [empty]
      exact default_eq
    · have isSet : (GivenFlags.letters text).value.isSet = true := bne_iff_ne.mpr empty
      rw [charsOfGiven, if_neg empty, read, if_pos isSet]
      rfl
  | names items =>
    by_cases empty : items = []
    · rw [empty]
      exact default_eq
    · have isSet : (GivenFlags.names items).value.isSet = true := by
        simpa [GivenFlags.value, Value.isSet] using empty
      rw [charsOfGiven, if_neg empty, read, if_pos isSet, lettersOf_names]
      rfl

theorem denotes_iff : given.Denotes c ↔ c ∈ charsOfGiven given ∧ Text.isBlank c = false := by
  have default_iff : c = 'g' ↔ c ∈ ['g'] ∧ Text.isBlank c = false := by
    rw [List.mem_singleton]
    exact ⟨fun same => ⟨same, same ▸ isBlank_letter .everywhere⟩, And.left⟩
  cases given with
  | absent =>
    rw [charsOfGiven, ← default_iff]
    exact ⟨fun | .absent => rfl, fun same => same ▸ .absent⟩
  | letters text =>
    by_cases empty : text = ""
    · subst empty
      rw [charsOfGiven, if_pos rfl, ← default_iff]
      exact ⟨fun | .emptyText => rfl, fun same => same ▸ .emptyText⟩
    · rw [charsOfGiven, if_neg empty]
      constructor
      · rintro (_ | _ | _ | ⟨mem, ink⟩)
        · exact absurd rfl empty
        · exact ⟨mem, ink⟩
      · rintro ⟨mem, ink⟩
        exact .letter mem ink
  | names items =>
    by_cases empty : items = []
    · subst empty
      rw [charsOfGiven, if_pos rfl, ← default_iff]
      exact ⟨fun | .emptyList => rfl, fun same => same ▸ .emptyList⟩
    · rw [charsOfGiven, if_neg empty, List.mem_flatMap]
      constructor
      · rintro (_ | _ | _ | _ | ⟨mem, denotes⟩)
        · exact absurd rfl empty
        · rcases itemDenotes_iff.mp denotes with ⟨c_mem, ink⟩
          exact ⟨⟨_, mem, c_mem⟩, ink⟩
      · rintro ⟨⟨item, mem, c_mem⟩, ink⟩
        exact .item mem (itemDenotes_iff.mpr ⟨c_mem, ink⟩)

theorem read_eq_ok_iff : read given.value = .ok flags ↔
    (∀ c, given.Denotes c → c ∈ flagLetters) ∧ flags.IsNormal ∧ ∀ flag, flag ∈ flags.chosen ↔
      given.Denotes flag.letter := by
  simp only [read_eq_ofLetters, ofLetters_eq_ok_iff_mem, denotes_iff, isBlank_letter,
    and_imp, and_true]

/-- What flags are read as depends on the letters that they denote only. -/
theorem read_eq_ok_congr {others : GivenFlags} (same : ∀ c, given.Denotes c ↔ others.Denotes c) :
    read given.value = .ok flags ↔ read others.value = .ok flags := by
  simp only [read_eq_ok_iff, same]

theorem exists_read_iff :
    (∃ flags, read given.value = .ok flags) ↔ ∀ c, given.Denotes c → c ∈ flagLetters := by
  constructor
  · rintro ⟨flags, read_eq⟩
    exact (read_eq_ok_iff.mp read_eq).1
  · classical
    intro supported
    refine ⟨of (Flag.all.filter (given.Denotes ·.letter)),
      read_eq_ok_iff.mpr ⟨supported, isNormal_of _, ?_⟩⟩
    intro flag
    rw [mem_chosen_of, List.mem_filter, decide_eq_true_eq]
    exact and_iff_right (mem_all flag)

theorem sublist_of_isNormal (normal : flags.IsNormal) :
    flags.letters.toList.Sublist flagLetters := by
  have letters_eq : flagLetters = Flag.all.map Flag.letter := by decide
  rw [letters, String.toList_ofList, ← normal, letters_eq]
  exact List.Sublist.map _ List.filter_sublist

theorem mem_letters_of_read (read_eq : read given.value = .ok flags) :
    c ∈ flags.letters.toList ↔ given.Denotes c := by
  rcases read_eq_ok_iff.mp read_eq with ⟨supported, -, chosen⟩
  rw [letters, String.toList_ofList, List.mem_map]
  constructor
  · rintro ⟨flag, mem, rfl⟩
    exact (chosen flag).mp mem
  · intro denotes
    rcases mem_flagLetters.mp (supported c denotes) with ⟨flag, rfl⟩
    exact ⟨flag, (chosen flag).mpr denotes, rfl⟩

theorem unsupported_of_read {fault : Fault} (failed : read given.value = .error fault) :
    ∃ c, given.Denotes c ∧ c ∉ flagLetters ∧ fault = .pattern (.flags (.unsupported c)) := by
  rw [read_eq_ofLetters] at failed
  rcases unsupported_of_ofLetters failed with ⟨c, mem, ink, refused⟩
  exact ⟨c, denotes_iff.mpr ⟨mem, ink⟩, refused⟩

theorem read_characters (text : String) :
    read (GivenFlags.letters text).value =
      read (GivenFlags.names (text.toList.map String.singleton)).value := by
  by_cases empty : text = ""
  · rw [empty]
    rfl
  · have items_ne : text.toList.map String.singleton ≠ [] := by
      rwa [ne_eq, List.map_eq_nil_iff, String.toList_eq_nil_iff]
    rw [read_eq_ofLetters, read_eq_ofLetters, charsOfGiven, if_neg empty, charsOfGiven,
      if_neg items_ne]
    apply ofLetters_congr
    have inked :
        (text.toList.map String.singleton).flatMap charsOf =
          text.toList.filter (!Text.isBlank ·) := by
      simp only [List.flatMap_map, charsOf_singleton, ← List.filter_flatMap,
        List.flatMap_singleton']
    rw [inked, List.filter_filter]
    simp only [Bool.and_self]

theorem denotes_letters_congr {text others : String}
    (same : ∀ c, c ∈ text.toList ↔ c ∈ others.toList) :
    (GivenFlags.letters text).Denotes c ↔ (GivenFlags.letters others).Denotes c := by
  have empty_iff : text = "" ↔ others = "" := by
    simp only [← String.toList_eq_nil_iff, List.eq_nil_iff_forall_not_mem, same]
  simp only [denotes_iff, charsOfGiven, empty_iff]
  split
  · rfl
  · rw [same]

theorem denotes_names_congr {items others : List String}
    (same : ∀ item, item ∈ items ↔ item ∈ others) :
    (GivenFlags.names items).Denotes c ↔ (GivenFlags.names others).Denotes c := by
  have empty_iff : items = [] ↔ others = [] := by
    simp only [List.eq_nil_iff_forall_not_mem, same]
  simp only [denotes_iff, charsOfGiven, empty_iff]
  split
  · rfl
  · simp only [List.mem_flatMap, same]

/-- Flags are read exactly when they denote letters of flags only, and they are refused for a letter
that is none.  What they are read as has the denoted letters, each once and in the order of all
flags.  So characters and items may be permuted and repeated, and a text is read like the list of
its characters. -/
theorem read_denoted :
    (∀ given : GivenFlags,
      ((∃ flags, read given.value = .ok flags) ↔ ∀ c, given.Denotes c → c ∈ flagLetters) ∧
        (∀ flags, read given.value = .ok flags →
          flags.letters.toList.Sublist flagLetters ∧ ∀ c, c ∈ flags.letters.toList ↔
            given.Denotes c) ∧
        ∀ fault, read given.value = .error fault →
          ∃ c, given.Denotes c ∧ c ∉ flagLetters ∧ fault = .pattern (.flags (.unsupported c))) ∧
    (∀ text others : String, (∀ c, c ∈ text.toList ↔ c ∈ others.toList) → ∀ flags,
      read (GivenFlags.letters text).value = .ok flags ↔
        read (GivenFlags.letters others).value = .ok flags) ∧
    (∀ items others : List String, (∀ item, item ∈ items ↔ item ∈ others) → ∀ flags,
      read (GivenFlags.names items).value = .ok flags ↔
        read (GivenFlags.names others).value = .ok flags) ∧
    ∀ text : String,
      read (GivenFlags.letters text).value =
        read (GivenFlags.names (text.toList.map String.singleton)).value := by
  refine ⟨fun given => ⟨exists_read_iff, ?_, ?_⟩, ?_, ?_, read_characters⟩
  · intro flags read_eq
    exact ⟨sublist_of_isNormal (read_eq_ok_iff.mp read_eq).2.1, fun c =>
      mem_letters_of_read read_eq⟩
  · exact fun fault failed => unsupported_of_read failed
  · exact fun text others same flags => read_eq_ok_congr fun c => denotes_letters_congr same
  · exact fun items others same flags => read_eq_ok_congr fun c => denotes_names_congr same

/-- A long name and letters with white space around them are read like their letters in another
order. -/
theorem read_denoted_mixed :
    read (GivenFlags.names [" Global ", "m i", "x", "x"]).value =
      .ok (of [.everywhere, .ignoreCase, .multiline, .verbose]) ∧
      (of [.everywhere, .ignoreCase, .multiline, .verbose]).letters.toList.Sublist flagLetters ∧
      (∀ c, c ∈ (of [.everywhere, .ignoreCase, .multiline, .verbose]).letters.toList ↔
        (GivenFlags.names [" Global ", "m i", "x", "x"]).Denotes c) ∧
      read (GivenFlags.names ["x", "m i", " Global "]).value =
        .ok (of [.everywhere, .ignoreCase, .multiline, .verbose]) := by
  have read_eq : read (GivenFlags.names [" Global ", "m i", "x", "x"]).value =
      .ok (of [.everywhere, .ignoreCase, .multiline, .verbose]) := rfl
  have same : ∀ item, item ∈ [" Global ", "m i", "x", "x"] ↔ item ∈ ["x", "m i", " Global "] := by
    intro item
    simp only [List.mem_cons, List.not_mem_nil, or_false]
    tauto
  have denoted := (read_denoted.1 _).2.1 _ read_eq
  exact ⟨read_eq, denoted.1, denoted.2, (read_denoted.2.2.1 _ _ same _).mp read_eq⟩

end Read

end Flags

end Markflow
