import Markflow.CommandLine.Listing
import Markflow.Proofs.Config.Disabling
import Markflow.Proofs.Text.Cuts

/-!
# Flags and their letters

The flags that a value denotes are in normal form, so they are read again from their own letters.
The one exception are the flags without any letter: they come of a value that is given and denotes
only white space, while the empty text counts as missing and stands for the default.  A definition
keeps the letters of its flags and reads them at each compilation, so it runs with the flags that it
shows, save for this exception.
-/

namespace Markflow

theorem mapM_eq_ok_iff {α β : Type} {f : α → Except Fault β} {items : List α} {results : List β} :
    items.mapM f = .ok results ↔
      List.Forall₂ (fun item result => f item = .ok result) items results := by
  induction items generalizing results with
  | nil => cases results <;> simp [pure, Except.pure]
  | cons item items ih =>
    rw [List.mapM_cons, Config.bind_eq_ok_iff]
    cases results with
    | nil =>
      constructor
      · rintro ⟨result, -, goesOn⟩
        rcases Config.bind_eq_ok_iff.mp goesOn with ⟨results, -, same⟩
        cases same
      · intro impossible
        cases impossible
    | cons result results =>
      rw [List.forall₂_cons, ← ih]
      constructor
      · rintro ⟨first, first_eq, goesOn⟩
        rcases Config.bind_eq_ok_iff.mp goesOn with ⟨others, others_eq, same⟩
        cases same
        exact ⟨first_eq, others_eq⟩
      · rintro ⟨first_eq, others_eq⟩
        exact ⟨result, first_eq, Config.bind_eq_ok_iff.mpr ⟨results, others_eq, rfl⟩⟩

namespace Flags

/-- Flags that stand each once and in the order of all flags. -/
def IsNormal (flags : Flags) : Prop :=
  of flags.chosen = flags

theorem isNormal_of (wanted : List Flag) : (of wanted).IsNormal := by
  simp only [IsNormal, of, mk.injEq]
  apply List.filter_congr
  intro flag mem
  simp [mem]

theorem mem_all (flag : Flag) : flag ∈ Flag.all := by
  cases flag <;> decide

theorem ofLetter?_letter (flag : Flag) : Flag.ofLetter? flag.letter = some flag := by
  cases flag <;> decide

theorem isBlank_letter (flag : Flag) : Text.isBlank flag.letter = false := by
  cases flag <;> decide

theorem chosen_of_eq_nil_iff {wanted : List Flag} : (of wanted).chosen = [] ↔ wanted = [] := by
  rw [of, List.filter_eq_nil_iff, List.eq_nil_iff_forall_not_mem]
  exact ⟨fun none flag => by simpa using none flag (mem_all flag), fun none flag _ => by
    simpa using none flag⟩

theorem letters_eq_empty_iff (flags : Flags) : flags.letters = "" ↔ flags.chosen = [] := by
  simp [letters, String.ext_iff]

/-- Letters denote flags when each that is not white space is the letter of one. -/
theorem ofLetters_eq_ok_iff {letters : List Char} {flags : Flags} :
    ofLetters letters = .ok flags ↔
      ∃ wanted, List.Forall₂ (fun letter flag => Flag.ofLetter? letter = some flag)
        (letters.filter (!Text.isBlank ·)) wanted ∧ of wanted = flags := by
  rw [ofLetters, ← bind_pure_comp, Config.bind_eq_ok_iff]
  apply exists_congr
  intro wanted
  rw [mapM_eq_ok_iff]
  apply and_congr
  · constructor
    · apply List.Forall₂.imp
      intro letter flag read_eq
      rcases denoted : Flag.ofLetter? letter with _ | other
      · simp [denoted] at read_eq
      · simpa [denoted] using read_eq
    · apply List.Forall₂.imp
      intro letter flag denoted
      rw [denoted]
  · constructor
    · intro same
      cases same
      rfl
    · rintro rfl
      rfl

/-- The letters of flags denote these flags. -/
theorem ofLetters_letters (flags : List Flag) :
    ofLetters (flags.map Flag.letter) = .ok (of flags) := by
  have allLetters : (flags.map Flag.letter).filter (!Text.isBlank ·) = flags.map Flag.letter := by
    apply List.filter_eq_self.mpr
    simp [isBlank_letter]
  refine ofLetters_eq_ok_iff.mpr ⟨flags, ?_, rfl⟩
  rw [allLetters, List.forall₂_map_left_iff, List.forall₂_same]
  exact fun flag _ => ofLetter?_letter flag

/-- Letters denote flags in normal form, and none exactly when they are all white space. -/
theorem of_ofLetters {letters : List Char} {flags : Flags} (read : ofLetters letters = .ok flags) :
    flags.IsNormal ∧ (flags.chosen = [] ↔ ∀ c ∈ letters, Text.isBlank c = true) := by
  rcases ofLetters_eq_ok_iff.mp read with ⟨wanted, denoted, rfl⟩
  refine ⟨isNormal_of wanted, chosen_of_eq_nil_iff.trans ?_⟩
  rw [← List.length_eq_zero_iff, ← denoted.length_eq, List.length_eq_zero_iff,
    List.filter_eq_nil_iff]
  simp

/-- A value that is given and denotes nothing but white space. -/
def OnlyBlanks (value : Value) : Prop :=
  value.isSet = true ∧ ∃ letters, lettersOf value = .ok letters ∧ ∀ c ∈ letters,
    Text.isBlank c = true

theorem of_read {value : Value} {flags : Flags} (read_eq : read value = .ok flags) :
    flags.IsNormal ∧ (flags.letters = "" ↔ OnlyBlanks value) := by
  unfold read at read_eq
  split at read_eq
  case isTrue given =>
    rcases Config.bind_eq_ok_iff.mp read_eq with ⟨letters, denoted, read_eq⟩
    rcases of_ofLetters read_eq with ⟨normal, none_iff⟩
    refine ⟨normal, (letters_eq_empty_iff flags).trans (none_iff.trans ?_)⟩
    constructor
    · exact fun blank => ⟨given, letters, denoted, blank⟩
    · rintro ⟨-, others, denoted', blank⟩
      cases denoted.symm.trans denoted'
      exact blank
  case isFalse missing =>
    cases read_eq
    refine ⟨isNormal_of _, ?_⟩
    constructor
    · intro noLetters
      exact absurd noLetters (by decide)
    · exact fun blank => absurd blank.1 missing

/-- Flags in normal form are read from their letters, save that no letters stand for the default. -/
theorem read_letters {flags : Flags} (normal : flags.IsNormal) :
    read (.text flags.letters) = .ok (if flags.letters = "" then default else flags) := by
  by_cases none : flags.letters = ""
  · rw [none]
    rfl
  · have given : (Value.text flags.letters).isSet = true := by simpa [Value.isSet] using none
    have denoted : lettersOf (.text flags.letters) = .ok (flags.chosen.map Flag.letter) := by
      simp [lettersOf, letters]
    rw [read, if_pos given, denoted, if_neg none]
    exact (ofLetters_letters flags.chosen).trans (congrArg _ normal)

theorem ite_default_eq_iff {flags : Flags} :
    (if flags.letters = "" then default else flags) = flags ↔ ¬ flags.letters = "" := by
  split
  case isTrue none =>
    refine iff_of_false ?_ (not_not_intro none)
    intro same
    rw [← same] at none
    exact absurd none (by decide)
  case isFalse some => exact iff_of_true rfl some

end Flags

namespace Pattern

/-- The source of a pattern between slashes and the flags that it is matched with. -/
def signature (pattern : Pattern) : String :=
  s!"/{pattern.source}/{pattern.flags.letters}"

theorem of_compile [Host] {source flags owner : Value} {pattern : Pattern}
    (compiled : compile source flags owner = .ok pattern) :
    source = .text pattern.source ∧ Flags.read flags = .ok pattern.flags := by
  unfold compile at compiled
  split at compiled
  case h_2 => cases compiled
  rcases read_eq : Flags.read flags with fault | chosen
  · rw [read_eq] at compiled
    split at compiled <;> simp_all
  · rw [read_eq] at compiled
    simp only [ofFlags] at compiled
    split at compiled
    · cases compiled
      exact ⟨rfl, rfl⟩
    all_goals cases compiled

end Pattern

namespace Definition

variable {ρ : Type}

theorem of_make {name pattern description usage flags tags : Value} {render : Render ρ}
    {d : Definition ρ}
    (made : make name pattern render description usage flags tags = .ok d) :
    Flags.read flags = .ok d.flags := by
  unfold make at made
  rcases read_eq : Flags.read flags with fault | chosen
  · rw [read_eq] at made
    split at made <;> simp_all
  · rw [read_eq] at made
    rcases Config.bind_eq_ok_iff.mp made with ⟨tags, -, same⟩
    cases same
    rfl

/-- An update without changes reads the flags of a definition from their letters. -/
theorem update_nothing (d : Definition ρ) (normal : d.flags.IsNormal) :
    d.update {} = .ok { d with flags := if d.flags.letters = "" then .default else d.flags } := by
  have again : d.update {} = make d.name d.pattern d.render d.description d.usage
      (.text d.flags.letters)
      (.list d.tags) := rfl
  rw [again, make, Flags.read_letters normal]
  rfl

/-- A compilation reads the flags of a definition from their letters. -/
theorem flags_of_compile [Host] {d : Definition ρ} (normal : d.flags.IsNormal)
    {pattern : Pattern} (compiled : d.compile = .ok pattern) :
    d.pattern = .text pattern.source ∧ pattern.flags = if d.flags.letters = "" then .default
      else d.flags := by
  rcases Pattern.of_compile compiled with ⟨source_eq, read_eq⟩
  rw [Flags.read_letters normal, Except.ok.injEq] at read_eq
  exact ⟨source_eq, read_eq.symm⟩

/-- What a definition is shown with, as text and in panels, in help and in the list of
transforms. -/
structure Shows (d : Definition ρ) (signature : String) : Prop where
  signature_eq : d.signature = signature
  help : ∀ level text, Help.markdownFeature level d = .ok text → signature.toList <:+: text.toList
  helpPanel : ∀ panel, Help.featurePanel d = .ok panel →
    ∃ run ∈ panel.body, signature.toList <:+: run.text.toList
  listing : ∀ text, CommandLine.Listing.printed (CommandLine.Listing.plainDetail d) = (text, none) →
    signature.toList <:+: text.toList
  listingPanel : ∀ panel, CommandLine.Listing.detailPanel d = .ok panel →
    ∃ run ∈ panel.body, signature.toList <:+: run.text.toList

/-- Lines that are printed up to the end are all in the text. -/
theorem infix_of_printed {lines : List (Except Fault String)} {text line : String}
    (printed : CommandLine.Listing.printed lines = (text, none)) (mem : .ok line ∈ lines) :
    line.toList <:+: text.toList := by
  induction lines generalizing text with
  | nil => cases mem
  | cons first lines ih =>
    cases first with
    | error fault => cases printed
    | ok here =>
      rcases more : CommandLine.Listing.printed lines with ⟨rest, fault⟩
      simp only [CommandLine.Listing.printed, more, Prod.mk.injEq] at printed
      rcases printed with ⟨rfl, rfl⟩
      rw [String.toList_append]
      rcases List.mem_cons.mp mem with same | mem
      · cases same
        exact Text.infix_append_right _ (List.infix_refl _)
      · exact Text.infix_append_left _ (ih more mem)

/-- What follows an optional step is reached with some value. -/
theorem exists_of_ite_bind {α β : Type} {condition : Prop} [Decidable condition]
    {first second : Except Fault α} {next : α → Except Fault β} {result : β}
    (done : (if condition then first >>= next else second >>= next) = .ok result) :
    ∃ value, next value = .ok result := by
  split at done
  all_goals
    rcases Config.bind_eq_ok_iff.mp done with ⟨value, -, goesOn⟩
    exact ⟨value, goesOn⟩

theorem shows_signature (d : Definition ρ) : d.Shows d.signature where
  signature_eq := rfl
  help := by
    intro level text shown
    unfold Help.markdownFeature at shown
    rcases exists_of_ite_bind shown with ⟨tags, same⟩
    cases same
    simp only [String.toList_append]
    apply Text.infix_append_left
    apply Text.infix_append_right
    apply Text.infix_append_right
    exact Text.infix_append_left _ (List.infix_refl _)
  helpPanel := by
    intro panel shown
    unfold Help.featurePanel at shown
    rcases exists_of_ite_bind shown with ⟨tags, same⟩
    cases same
    refine ⟨⟨.yellow, s!"  {d.signature}"⟩, by simp, ?_⟩
    simp only [String.toList_append]
    exact Text.infix_append_left _ (List.infix_refl _)
  listing := by
    intro text printed
    have inLine : d.signature.toList <:+: (s!"Pattern: {d.signature}\n").toList := by
      simp only [String.toList_append]
      exact Text.infix_append_right _ (Text.infix_append_left _ (List.infix_refl _))
    exact inLine.trans (infix_of_printed printed (by simp [CommandLine.Listing.plainDetail]))
  listingPanel := by
    intro panel shown
    rcases Config.bind_eq_ok_iff.mp shown with ⟨description, -, shown⟩
    rcases Config.bind_eq_ok_iff.mp shown with ⟨usage, -, shown⟩
    rcases exists_of_ite_bind shown with ⟨tags, same⟩
    cases same
    exact ⟨⟨.yellow, d.signature⟩, by simp, List.infix_refl _⟩

/-- A definition, as it is made, says which flags its pattern runs with, unless its flags were given
as nothing but white space: it then shows no flags, while an update of it has the default ones and
its pattern runs with these. -/
theorem make_keeps_flags [Host] :
    (∀ value flags, Flags.read value = .ok flags →
      (Flags.read (.text flags.letters) = .ok flags ↔ ¬ Flags.OnlyBlanks value)) ∧
    ∀ name pattern render description usage flags tags (d : Definition ρ),
      make name pattern render description usage flags tags = .ok d →
        (d.update {} = .ok d ↔ ¬ Flags.OnlyBlanks flags) ∧
        ∀ compiled, d.compile = .ok compiled →
          (compiled.flags = d.flags ↔ ¬ Flags.OnlyBlanks flags) ∧
          (d.Shows compiled.signature ↔ ¬ Flags.OnlyBlanks flags) := by
  -- Flags that are read are in normal form, so all parts come down to whether they have letters.
  constructor
  · intro value flags read_eq
    rcases Flags.of_read read_eq with ⟨normal, none_iff⟩
    rw [Flags.read_letters normal, Except.ok.injEq, Flags.ite_default_eq_iff, none_iff]
  · intro name pattern render description usage flags tags d made
    rcases Flags.of_read (of_make made) with ⟨normal, none_iff⟩
    constructor
    · rw [update_nothing d normal, Except.ok.injEq, ← none_iff, ← Flags.ite_default_eq_iff]
      exact ⟨congrArg Definition.flags, fun same => by rw [same]⟩
    · intro compiled compiled_eq
      rcases flags_of_compile normal compiled_eq with ⟨source_eq, flags_eq⟩
      have same_iff : compiled.flags = d.flags ↔ ¬ Flags.OnlyBlanks flags := by
        rw [flags_eq, Flags.ite_default_eq_iff, none_iff]
      refine ⟨same_iff, ?_⟩
      have signature_eq : compiled.signature = s!"/{d.pattern.shown}/{compiled.flags.letters}" := by
        rw [source_eq]
        rfl
      constructor
      · intro shows
        have letters_eq : d.flags.letters = compiled.flags.letters := by
          have same := shows.signature_eq.trans signature_eq
          simpa [signature, String.ext_iff, toString] using same
        rw [← none_iff]
        intro none
        rw [none] at letters_eq
        rw [flags_eq, if_pos none] at letters_eq
        exact absurd letters_eq (by decide)
      · intro given
        rw [signature_eq, same_iff.mpr given]
        exact shows_signature d

attribute [local instance] Host.standard

/-- Flags that are one space show as none, and as the default after an update and in the pattern. -/
theorem make_loses_flags :
    ∃ (d : Definition Empty) (compiled : Pattern),
      make (.text "mark") (.text "a") (.builtin .italic) (.text "") (.text "") (.text " ")
        (.list []) = .ok d ∧
        Flags.read (.text " ") = .ok d.flags ∧ Flags.read (.text d.flags.letters) ≠ .ok d.flags ∧
        d.update {} ≠ .ok d ∧ d.compile = .ok compiled ∧ compiled.flags ≠ d.flags ∧
        d.signature = "/a/" ∧ compiled.signature = "/a/g" := by
  let d : Definition Empty :=
    { name := .text "mark", pattern := .text "a", render := .builtin .italic, flags := ⟨[]⟩ }
  have shorter : d.flags ≠ .default := by decide
  have updated : d.update {} = .ok { d with flags := .default } := update_nothing d rfl
  let compiled : Pattern := ⟨"a", .default, ⟨.one ⟨[.code 97], false, .exact⟩, 0, []⟩⟩
  refine ⟨d, compiled, rfl, rfl, ?_, ?_, rfl, shorter.symm, by decide, by decide⟩
  · exact fun same => shorter (Except.ok.inj same).symm
  · rw [updated]
    exact fun same => shorter (congrArg Definition.flags (Except.ok.inj same)).symm

end Definition

end Markflow
