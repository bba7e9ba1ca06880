import Markflow.Proofs.Builtin.Conversion
import Markflow.Proofs.Passes.Blocks
import Markflow.Proofs.Text.BlankLines
import Markflow.Proofs.Text.Digits

/-!
# The scan for lists and quotes

What the passes of lists and quotes do to the lines of a text, said without their expressions.  Each
of them reads some lines: the items with a bullet, those with a number, or the quoted ones.  Lines
that are read and follow each other are replaced together, as many as there are, and all other lines
are copied (`RunScan`).  Lines are never joined or parted elsewhere, since the result is given line
by line as well.
-/

namespace Markflow.Builtin

/-- A line is some text behind at most three spaces. -/
def IsIndented (line behind : List Char) : Prop :=
  ∃ spaces, line = spaces ++ behind ∧ (∀ c ∈ spaces, c = ' ') ∧ spaces.length ≤ 3

/-- What stands behind the mark of an item: spaces and tabs, at least one, and a text that starts
with something else than white space. -/
def IsItem (behind item : List Char) : Prop :=
  ∃ gap c rest, behind = gap ++ c :: rest ∧ gap ≠ [] ∧ (∀ d ∈ gap, d = ' ' ∨ d = '\t') ∧
    Text.isBlank c = false ∧
    item = Text.strip (c :: rest)

/-- A line is an item with a bullet. -/
def IsBullet (line item : List Char) : Prop :=
  ∃ bullet behind, IsIndented line (bullet :: behind) ∧
    (bullet = '*' ∨ bullet = '+' ∨ bullet = '-') ∧ IsItem behind item

/-- A line is an item with a number of at most nine digits. -/
def IsNumber (line : List Char) (entry : Nat × List Char) : Prop :=
  ∃ digits mark behind, IsIndented line (digits ++ mark :: behind) ∧
    (∀ c ∈ digits, Text.isDigit c = true) ∧
    1 ≤ digits.length ∧ digits.length ≤ 9 ∧ (mark = '.' ∨ mark = ')') ∧ IsItem behind entry.2 ∧
    entry.1 = Text.digitsValue digits

/-- A line is quoted. -/
def IsQuote (line text : List Char) : Prop :=
  ∃ behind, IsIndented line ('>' :: behind) ∧ text = Text.strip behind

def bulletList (items : List (List Char)) : List (List Char) :=
  listLines "ul".toList [] items

def numberList : List (Nat × List Char) → List (List Char)
  | [] => []
  | (number, item) :: more => listLines "ol".toList (startText number) (item :: more.map (·.2))

def quoteLine (texts : List (List Char)) : List (List Char) :=
  ["<blockquote>".toList ++ Text.join [' '] (texts.filter (!·.isEmpty)) ++ "</blockquote>".toList]

/-- What a scan makes of some lines when it reads some of them and writes other lines for those that
follow each other. -/
inductive RunScan {α : Type} (Reads : List Char → α → Prop) (write : List α → List (List Char)) :
    List (List Char) → List (List Char) → Prop
  | done : RunScan Reads write [] []
  | run {run rest out : List (List Char)} {entries : List α} (run_ne : run ≠ [])
      (reads : List.Forall₂ Reads run entries)
      (ends : ∀ line ∈ rest.head?, ∀ entry, ¬ Reads line entry)
      (below : RunScan Reads write rest out) :
      RunScan Reads write (run ++ rest) (write entries ++ out)
  | copy {line : List Char} {more out : List (List Char)} (other : ∀ entry, ¬ Reads line entry)
      (below : RunScan Reads write more out) : RunScan Reads write (line :: more) (line :: out)

/-- A transform is a scan for lines that are read. -/
def ScansFor [Host] {α : Type} (kind : Builtin) (Reads : List Char → α → Prop)
    (write : List α → List (List Char)) : Prop :=
  ∀ (ρ σ : Type) (call : Caller ρ σ) (text : String) (state : σ),
    ∃ html, ((kind.definition : Definition ρ).apply call text).Gives state html state ∧
      ∀ result, RunScan Reads write (Text.lines text.toList) result ↔
        Text.lines html.toList = result

section RunScan

/-- A pass takes the lines that a scan reads and writes the same for them. -/
structure Takes {α : Type} (isMarked : List Char → Bool) (out : List (List Char) → List (List Char))
    (Reads : List Char → α → Prop) (write : List α → List (List Char)) : Prop where
  marked_iff : ∀ line, isMarked line = true ↔ ∃ entry, Reads line entry
  out_eq : ∀ run entries, run ≠ [] → List.Forall₂ Reads run entries → out run = write entries

variable {α : Type} {isMarked : List Char → Bool} {out : List (List Char) → List (List Char)}
  {Reads : List Char → α → Prop} {write : List α → List (List Char)}
  {ls result run rest : List (List Char)}

theorem exists_entries (reads : ∀ line ∈ run, ∃ entry, Reads line entry) :
    ∃ entries, List.Forall₂ Reads run entries := by
  induction run with
  | nil => exact ⟨[], .nil⟩
  | cons line run ih =>
    rcases reads line List.mem_cons_self with ⟨entry, first⟩
    rcases ih fun other mem => reads other (List.mem_cons_of_mem line mem) with ⟨entries, below⟩
    exact ⟨entry :: entries, .cons first below⟩

theorem map_eq_of_forall₂ {β : Type} {f : List Char → β} {g : α → β} {entries : List α}
    (same : ∀ line entry, Reads line entry → f line = g entry)
    (reads : List.Forall₂ Reads run entries) :
    run.map f = entries.map g := by
  induction reads with
  | nil => rfl
  | cons first below ih => rw [List.map_cons, List.map_cons, same _ _ first, ih]

variable (takes : Takes isMarked out Reads write)

include takes

theorem Takes.marked_of_forall₂ {entries : List α} (reads : List.Forall₂ Reads run entries) :
    ∀ line ∈ run, isMarked line = true := by
  induction reads with
  | nil =>
    intro line mem
    cases mem
  | cons first below ih =>
    intro line mem
    rcases List.mem_cons.mp mem with rfl | mem
    · exact (takes.marked_iff _).mpr ⟨_, first⟩
    · exact ih line mem

theorem Takes.marked_eq_false_iff (line : List Char) :
    isMarked line = false ↔ ∀ entry, ¬ Reads line entry := by
  rw [← Bool.not_eq_true, takes.marked_iff, not_exists]

theorem Takes.runScan_iff :
    RunScan Reads write ls result ↔ lineScan (runTake isMarked out) ls = result := by
  constructor
  · intro scan
    induction scan with
    | done => exact lineScan_nil _
    | run run_ne reads ends below ih =>
      have stops := fun line mem => (takes.marked_eq_false_iff line).mpr (ends line mem)
      rw [lineScan_runTake_append out run_ne (takes.marked_of_forall₂ reads) stops,
        takes.out_eq _ _ run_ne reads, ih]
    | copy other below ih =>
      rw [lineScan_runTake_cons out ((takes.marked_eq_false_iff _).mpr other), ih]
  · rintro rfl
    induction sized : ls.length using Nat.strongRecOn generalizing ls with
    | _ size ih =>
      rcases ls with _ | ⟨line, more⟩
      · rw [lineScan_nil]
        exact .done
      by_cases marked : isMarked line = true
      · have run_ne : (line :: more).takeWhile isMarked ≠ [] := by
          rw [List.takeWhile_cons_of_pos marked]
          exact List.cons_ne_nil _ _
        have run_all : ∀ other ∈ (line :: more).takeWhile isMarked, isMarked other = true :=
          fun other mem => List.mem_takeWhile_imp mem
        have stops : ∀ other ∈ ((line :: more).dropWhile isMarked).head?,
            isMarked other = false := by
          intro other mem
          have dropped := List.head?_dropWhile_not isMarked (line :: more)
          rw [Option.mem_def.mp mem] at dropped
          simpa using dropped
        have shorter : ((line :: more).dropWhile isMarked).length < size := by
          rw [List.dropWhile_cons_of_pos marked, ← sized, List.length_cons]
          exact Nat.lt_succ_of_le (List.dropWhile_suffix isMarked).length_le
        rcases exists_entries fun other mem => (takes.marked_iff other).mp (run_all other mem) with
          ⟨entries, reads⟩
        have ends := fun other mem => (takes.marked_eq_false_iff other).mp (stops other mem)
        have scan := RunScan.run run_ne reads ends (ih _ shorter rfl)
        rwa [← takes.out_eq _ _ run_ne reads, ← lineScan_runTake_append out run_ne run_all stops,
          List.takeWhile_append_dropWhile] at scan
      · have missed : isMarked line = false := by simpa using marked
        rw [lineScan_runTake_cons out missed]
        exact .copy ((takes.marked_eq_false_iff line).mp missed)
          (ih more.length (by rw [← sized]; exact Nat.lt_succ_self _) rfl)

omit takes in
theorem RunScan.newline_not_mem (scan : RunScan Reads write ls result)
    (inLine : ∀ line ∈ ls, '\n' ∉ line)
    (writes : ∀ run entries, List.Forall₂ Reads run entries → (∀ line ∈ run, '\n' ∉ line) →
      ∀ line ∈ write entries, '\n' ∉ line) : ∀ line ∈ result, '\n' ∉ line := by
  induction scan with
  | done => exact inLine
  | run run_ne reads ends below ih =>
    intro line mem
    rcases List.mem_append.mp mem with inRun | inRest
    · exact writes _ _ reads
        (fun other other_mem => inLine other (List.mem_append_left _ other_mem)) line inRun
    · exact ih (fun other other_mem => inLine other (List.mem_append_right _ other_mem)) line inRest
  | copy other below ih =>
    intro line mem
    rcases List.mem_cons.mp mem with rfl | inRest
    · exact inLine line List.mem_cons_self
    · exact ih (fun other other_mem => inLine other (List.mem_cons_of_mem _ other_mem)) line inRest

/-- A transform whose pass takes runs is a scan for the lines that are read. -/
theorem Takes.scansFor [Host] {kind : Builtin} (block : kind.isBlock = true)
    (take_eq : kind.blockTake = runTake isMarked out)
    (writes : ∀ run entries, List.Forall₂ Reads run entries → (∀ line ∈ run, '\n' ∉ line) →
      ∀ line ∈ write entries, '\n' ∉ line) : kind.ScansFor Reads write := by
  intro ρ σ call text state
  refine ⟨_, gives_apply call kind text state, ?_⟩
  intro result
  have scan :=
    takes.runScan_iff.mpr (Eq.refl (lineScan (runTake isMarked out) (Text.lines text.toList)))
  have inLine := scan.newline_not_mem (fun _ => Text.newline_not_mem_of_mem_lines) writes
  rw [← take_eq] at inLine
  rw [String.toList_ofList, lines_pass block inLine, take_eq]
  exact takes.runScan_iff

end RunScan

section Marks

variable {line behind item text : List Char} {entry : Nat × List Char}

theorem isIndented_iff (stops : Text.Stops (· == ' ') behind) :
    IsIndented line behind ↔ afterIndent? line = some behind := by
  constructor
  · rintro ⟨spaces, rfl, spaces_all, few⟩
    have passed : ∀ c ∈ spaces, (c == ' ') = true := by simpa using spaces_all
    rw [afterIndent?, Text.takeWhile_cut passed stops, Text.dropWhile_cut passed stops, if_pos few]
  · intro after
    refine ⟨_, eq_append_of_afterIndent? after, ?_, ?_⟩
    · intro c mem
      simpa using List.mem_takeWhile_imp mem
    · unfold afterIndent? at after
      split at after
      · assumption
      · cases after

theorem isItem_iff :
    IsItem behind item ↔ ∃ rest,
      afterGap? behind = some rest ∧ hasItem rest = true ∧ item = Text.strip rest := by
  constructor
  · rintro ⟨gap, c, rest, rfl, gap_ne, gap_all, ink, rfl⟩
    refine ⟨c :: rest, ?_, by simp [hasItem, ink], rfl⟩
    have passed : ∀ d ∈ gap, isSpaceOrTab d = true := fun d mem =>
      isSpaceOrTab_iff.mpr (gap_all d mem)
    have stops : Text.Stops isSpaceOrTab (c :: rest) := by
      rw [Text.stops_cons]
      by_contra gapped
      rw [isBlank_of_isSpaceOrTab (by simpa using gapped)] at ink
      cases ink
    rcases List.exists_cons_of_ne_nil gap_ne with ⟨d, gap, rfl⟩
    rw [List.cons_append, afterGap?, if_pos (passed d List.mem_cons_self),
      Text.dropWhile_cut (fun e mem => passed e (List.mem_cons_of_mem d mem)) stops]
  · rintro ⟨rest, after, starts, rfl⟩
    rcases behind with _ | ⟨d, behind⟩
    · cases after
    rw [afterGap?] at after
    split at after
    case isFalse => cases after
    case isTrue gapped =>
      rcases Option.some.inj after with rfl
      rcases rest_eq : behind.dropWhile isSpaceOrTab with _ | ⟨c, rest⟩
      · rw [rest_eq] at starts
        cases starts
      rw [rest_eq] at starts
      refine ⟨d :: behind.takeWhile isSpaceOrTab, c, rest, ?_, List.cons_ne_nil _ _, ?_, by
        simpa [hasItem] using starts, rfl⟩
      · rw [List.cons_append, ← rest_eq, List.takeWhile_append_dropWhile]
      · intro e mem
        rcases List.mem_cons.mp mem with rfl | inGap
        · exact isSpaceOrTab_iff.mp gapped
        · exact isSpaceOrTab_iff.mp (List.mem_takeWhile_imp inGap)

theorem IsItem.ne_nil (isItem : IsItem behind item) : item ≠ [] := by
  rcases isItem with ⟨gap, c, rest, -, -, -, ink, rfl⟩
  rw [← List.nil_append (c :: rest), Text.strip_append_cons ink]
  simp

theorem IsItem.subset (isItem : IsItem behind item) : item ⊆ behind := by
  rcases isItem with ⟨gap, c, rest, rfl, -, -, -, rfl⟩
  exact List.Subset.trans (Text.strip_subset _) (List.subset_append_right gap _)

theorem IsIndented.subset (indented : IsIndented line behind) : behind ⊆ line := by
  rcases indented with ⟨spaces, rfl, -, -⟩
  exact List.subset_append_right spaces behind

theorem isBullet_iff :
    IsBullet line item ↔ ∃ rest, afterBullet? line = some rest ∧ hasItem rest = true ∧
      item = Text.strip rest := by
  constructor
  · rintro ⟨bullet, behind, indented, isBullet, isItem⟩
    have stops : Text.Stops (· == ' ') (bullet :: behind) := by
      rcases isBullet with rfl | rfl | rfl <;> simp
    have after := (isIndented_iff stops).mp indented
    rcases isItem_iff.mp isItem with ⟨rest, gap, starts, item_eq⟩
    refine ⟨rest, ?_, starts, item_eq⟩
    rw [afterBullet?, after]
    simpa [or_assoc, isBullet] using gap
  · rintro ⟨rest, after, starts, item_eq⟩
    unfold afterBullet? at after
    split at after
    case h_2 => cases after
    case h_1 bullet behind indented =>
      split at after
      case isFalse => cases after
      case isTrue isBullet =>
        have marks : bullet = '*' ∨ bullet = '+' ∨ bullet = '-' := by
          simpa [or_assoc] using isBullet
        have stops : Text.Stops (· == ' ') (bullet :: behind) := by
          rcases marks with rfl | rfl | rfl <;> simp
        exact ⟨bullet, behind, (isIndented_iff stops).mpr indented, marks,
          isItem_iff.mpr ⟨rest, after, starts, item_eq⟩⟩

theorem isNumber_iff :
    IsNumber line entry ↔
      ∃ rest, afterNumber? line = some (entry.1, rest) ∧ hasItem rest = true ∧
        entry.2 = Text.strip rest := by
  have stops_of : ∀ {digits : List Char} (mark : Char) (behind : List Char),
      (∀ c ∈ digits, Text.isDigit c = true) →
      1 ≤ digits.length → Text.Stops (· == ' ') (digits ++ mark :: behind) := by
    intro digits mark behind digits_all least
    rcases List.exists_cons_of_ne_nil (List.length_pos_iff.mp least) with ⟨d, digits, rfl⟩
    rw [List.cons_append, Text.stops_cons, beq_eq_false_iff_ne]
    rintro rfl
    exact absurd (digits_all ' ' List.mem_cons_self) (by decide)
  constructor
  · rintro ⟨digits, mark, behind, indented, digits_all, least, most, isMark, isItem, number_eq⟩
    have after := (isIndented_iff (stops_of mark behind digits_all least)).mp indented
    rcases isItem_iff.mp isItem with ⟨rest, gap, starts, item_eq⟩
    have noDigit : Text.isDigit mark = false := by
      rcases isMark with rfl | rfl <;> decide
    exact
      ⟨rest,
        afterNumber?_eq_some.mpr ⟨digits, mark, behind, after, digits_all, noDigit, least, most,
          isMark, gap,
      number_eq⟩, starts, item_eq⟩
  · rintro ⟨rest, after, starts, item_eq⟩
    rcases afterNumber?_eq_some.mp after with
      ⟨digits, mark, behind, indented, digits_all, -, least, most, isMark, gap, number_eq⟩
    exact ⟨digits, mark, behind, (isIndented_iff (stops_of mark behind digits_all least)).mpr
      indented, digits_all, least, most, isMark, isItem_iff.mpr ⟨rest, gap, starts, item_eq⟩,
      number_eq⟩

theorem strip_cons_of_gap {c : Char} (gap : isSpaceOrTab c = true) (rest : List Char) :
    Text.strip (c :: rest) = Text.strip rest := by
  rw [Text.strip, Text.strip, Text.stripLeft,
    List.dropWhile_cons_of_pos (isBlank_of_isSpaceOrTab gap), Text.stripLeft]

/-- Whether or not a space or tab belongs to the mark of a quote makes no difference to what is left
of the line. -/
theorem isQuote_iff : IsQuote line text ↔
    isQuoted line = true ∧ text = Text.strip ((afterQuote? line).getD line) := by
  have stops : ∀ behind, Text.Stops (· == ' ') ('>' :: behind) := by simp
  have strip_eq : ∀ behind, afterIndent? line = some ('>' :: behind) →
      Text.strip ((afterQuote? line).getD line) = Text.strip behind := by
    intro behind indented
    rcases behind with _ | ⟨c, rest⟩
    · simp [afterQuote?, indented]
    · by_cases gap : isSpaceOrTab c = true <;> simp [afterQuote?, indented, gap, strip_cons_of_gap]
  constructor
  · rintro ⟨behind, indented, rfl⟩
    have after := (isIndented_iff (stops behind)).mp indented
    exact ⟨by simp [isQuoted, after], (strip_eq behind after).symm⟩
  · rintro ⟨quoted, rfl⟩
    rcases (Option.any_eq_true _ _).mp quoted with ⟨behind, after, quote⟩
    rcases behind with _ | ⟨c, behind⟩
    · cases quote
    have isMark : c = '>' := by simpa using quote
    rw [isMark] at after
    exact ⟨behind, (isIndented_iff (stops behind)).mpr after, strip_eq behind after⟩

end Marks

section Runs

theorem takes_bullets : Takes isBulleted bulletLines IsBullet bulletList where
  marked_iff line := by
    rw [isBulleted, Option.any_eq_true]
    constructor
    · rintro ⟨rest, after, starts⟩
      exact ⟨_, isBullet_iff.mpr ⟨rest, after, starts, rfl⟩⟩
    · rintro ⟨item, isBullet⟩
      rcases isBullet_iff.mp isBullet with ⟨rest, after, starts, -⟩
      exact ⟨rest, after, starts⟩
  out_eq run items _ reads := by
    have texts_eq : itemTexts afterBullet? run = items.map id := by
      refine map_eq_of_forall₂ ?_ reads
      intro line item isBullet
      rcases isBullet_iff.mp isBullet with ⟨rest, after, -, item_eq⟩
      rw [after, Option.getD_some, item_eq, id_eq]
    rw [bulletLines, texts_eq, List.map_id, bulletList]

theorem takes_numbers : Takes isNumbered numberLines IsNumber numberList where
  marked_iff line := by
    rw [isNumbered, Option.any_eq_true]
    constructor
    · rintro ⟨⟨number, rest⟩, after, starts⟩
      exact ⟨(number, Text.strip rest), isNumber_iff.mpr ⟨rest, after, starts, rfl⟩⟩
    · rintro ⟨entry, isNumber⟩
      rcases isNumber_iff.mp isNumber with ⟨rest, after, starts, -⟩
      exact ⟨(entry.1, rest), after, starts⟩
  out_eq run entries run_ne reads := by
    have texts_eq : itemTexts (fun line => (afterNumber? line).map (·.2)) run =
        entries.map (·.2) := by
      refine map_eq_of_forall₂ ?_ reads
      intro line entry isNumber
      rcases isNumber_iff.mp isNumber with ⟨rest, after, -, item_eq⟩
      simp only [after, Option.map_some, Option.getD_some, item_eq]
    cases reads with
    | nil => exact absurd rfl run_ne
    | @cons line entry run entries first below =>
      rcases isNumber_iff.mp first with ⟨rest, after, -, -⟩
      rw [numberLines, texts_eq, runStart, after]
      rfl

theorem takes_quotes : Takes isQuoted quoteLines IsQuote quoteLine where
  marked_iff line := by
    constructor
    · intro quoted
      exact ⟨_, isQuote_iff.mpr ⟨quoted, rfl⟩⟩
    · rintro ⟨text, isQuote⟩
      exact (isQuote_iff.mp isQuote).1
  out_eq run texts _ reads := by
    have texts_eq : itemTexts afterQuote? run = texts.map id := by
      refine map_eq_of_forall₂ ?_ reads
      intro line text isQuote
      rw [(isQuote_iff.mp isQuote).2, id_eq]
    rw [quoteLines, quoteTexts, texts_eq, List.map_id, quoteLine]

end Runs

section InLine

variable {run : List (List Char)} (inLine : ∀ line ∈ run, '\n' ∉ line)

include inLine

/-- What is read of the lines of a text holds no line feed. -/
theorem newline_not_mem_of_forall₂ {α : Type} {Reads : List Char → α → Prop} {entries : List α}
    (text : α → List Char)
    (inside : ∀ line entry, Reads line entry → text entry ⊆ line)
    (reads : List.Forall₂ Reads run entries) :
    ∀ entry ∈ entries, '\n' ∉ text entry := by
  induction reads with
  | nil =>
    intro entry mem
    cases mem
  | cons first below ih =>
    intro entry mem
    rcases List.mem_cons.mp mem with rfl | inRest
    · exact fun feed => inLine _ List.mem_cons_self (inside _ _ first feed)
    · exact ih (fun line line_mem => inLine line (List.mem_cons_of_mem _ line_mem)) entry inRest

theorem newline_not_mem_bulletList {items : List (List Char)}
    (reads : List.Forall₂ IsBullet run items) :
    ∀ line ∈ bulletList items, '\n' ∉ line := by
  apply not_mem_listLines (by decide) (by decide) List.not_mem_nil
  refine newline_not_mem_of_forall₂ inLine id ?_ reads
  rintro line item ⟨bullet, behind, indented, -, isItem⟩
  exact List.Subset.trans isItem.subset
    (List.Subset.trans (List.subset_cons_self bullet behind) indented.subset)

theorem newline_not_mem_numberList {entries : List (Nat × List Char)}
    (reads : List.Forall₂ IsNumber run entries) :
    ∀ line ∈ numberList entries, '\n' ∉ line := by
  have texts_in : ∀ entry ∈ entries, '\n' ∉ entry.2 := by
    refine newline_not_mem_of_forall₂ inLine Prod.snd ?_ reads
    rintro line entry ⟨digits, mark, behind, indented, -, -, -, -, isItem, -⟩
    have marked_subset := List.Subset.trans (List.subset_append_right digits (mark :: behind))
      indented.subset
    exact List.Subset.trans isItem.subset
      (List.Subset.trans (List.subset_cons_self mark behind) marked_subset)
  rcases entries with _ | ⟨⟨number, item⟩, more⟩
  · simp [numberList]
  · apply not_mem_listLines (by decide) (by decide)
      (not_mem_startText (by decide) (by decide) number)
    intro text mem
    have mem_texts : text ∈ ((number, item) :: more).map Prod.snd := mem
    rcases List.mem_map.mp mem_texts with ⟨entry, entry_mem, rfl⟩
    exact texts_in entry entry_mem

theorem newline_not_mem_quoteLine {texts : List (List Char)}
    (reads : List.Forall₂ IsQuote run texts) :
    ∀ line ∈ quoteLine texts, '\n' ∉ line := by
  have texts_in : ∀ text ∈ texts, '\n' ∉ text := by
    refine newline_not_mem_of_forall₂ inLine id ?_ reads
    rintro line text ⟨behind, indented, rfl⟩
    exact List.Subset.trans (Text.strip_subset behind)
      (List.Subset.trans (List.subset_cons_self '>' behind) indented.subset)
  intro line mem
  rcases List.mem_singleton.mp mem with rfl
  have joined_in : '\n' ∉ Text.join [' '] (texts.filter (!·.isEmpty)) :=
    Text.not_mem_join (by decide) fun text mem => texts_in text (List.mem_of_mem_filter mem)
  exact List.not_mem_append (List.not_mem_append (by decide) joined_in) (by decide)

end InLine

/-- The passes of lists and quotes are scans for items with a bullet, items with a number and quoted
lines.  Each item has a text. -/
theorem scans_for_marks [Host] :
    unorderedList.ScansFor IsBullet bulletList ∧ orderedList.ScansFor IsNumber numberList ∧
      blockquote.ScansFor IsQuote quoteLine ∧ (∀ line item, IsBullet line item → item ≠ []) ∧
      ∀ line entry, IsNumber line entry → entry.2 ≠ [] := by
  refine ⟨takes_bullets.scansFor rfl rfl ?_, takes_numbers.scansFor rfl rfl ?_,
    takes_quotes.scansFor rfl rfl ?_, ?_, ?_⟩
  · exact fun run items reads inLine => newline_not_mem_bulletList inLine reads
  · exact fun run entries reads inLine => newline_not_mem_numberList inLine reads
  · exact fun run texts reads inLine => newline_not_mem_quoteLine inLine reads
  · rintro line item ⟨bullet, behind, -, -, isItem⟩
    exact isItem.ne_nil
  · rintro line entry ⟨digits, mark, behind, -, -, -, -, -, isItem, -⟩
    exact isItem.ne_nil

end Markflow.Builtin
