import Markflow.Proofs.Builtin.Conversion
import Markflow.Proofs.Passes.Emphasis
import Markflow.Proofs.Passes.Headers
import Markflow.Proofs.Passes.Lists
import Markflow.Proofs.Pipeline.Splicing
import Markflow.Proofs.Text.Digits

/-!
# Why conversions succeed

A built-in transform relies on what its expression can match: the groups that it asks for are groups
of the expression, the digits of an item are a number, the hashes of a header are a level, and
strong emphasis has one of its two texts (`Builtin.Fits`).  Every match of a scan has this, whatever
text is scanned, so no render function fails and neither does a conversion (`convert_succeeds`).
-/

namespace Markflow

namespace Regex

variable {regex : Regex} {cursor : Cursor} {found : List Match}

/-- The matches of an expression that always moves on are matches at places of the text. -/
theorem Scans.findAt?_of_mem (consumes : regex.root.consumes = true)
    (scans : Scans regex false cursor found) :
    ∀ m ∈ found, ∃ before after, before.reverse ++ after = cursor.text ∧
      regex.findAt? before after = some m.found := by
  generalize still : false = moving at scans
  induction scans with
  | stop => simp
  | @next moving cursor m rest leftmost more ih =>
    subst still
    have text_eq := leftmost.text_eq
    rcases leftmost.found with ⟨skipped, leads, found⟩
    rw [Bool.false_and, m.start.eq_amid] at found
    rcases matchAt?_eq_some consumes found with ⟨start_eq, found_eq, nonempty, after, -, stop_eq⟩
    have moves : m.isEmpty = false := by
      rw [Match.isEmpty, start_eq, stop_eq]
      simpa using nonempty
    intro one one_mem
    rcases List.mem_cons.mp one_mem with rfl | later
    · exact ⟨_, _, text_eq.1, found_eq⟩
    · rw [← text_eq.2]
      exact ih moves.symm one later

end Regex

namespace Builtin

open Regex

/-- The names of the groups that the render function of a built-in transform asks for. -/
def asksFor : Builtin → List String
  | codeBlocks => ["lang", "code"]
  | headers => ["hashes", "text"]
  | inlineCode => ["code"]
  | images => ["url", "alt", "title"]
  | links => ["url", "title", "text"]
  | bold => ["combined", "text"]
  | italic | strikethrough | paragraphs => ["text"]
  | horizontalRule | unorderedList | orderedList | blockquote => []

/-- A render function sees of captures only the whole match and the groups that it asks for. -/
theorem render_congr (kind : Builtin) {first second : Captures} (full : first.full = second.full)
    (asked : ∀ name ∈ kind.asksFor, first.named name = second.named name) :
    kind.render first = kind.render second := by
  cases kind <;> simp_all [asksFor, render, renderCodeBlock, renderHeader, renderUnorderedList,
    renderOrderedList, renderBlockquote, renderInlineCode, renderImage, renderLink, renderBold,
    renderInside, renderParagraphs, titleAttribute, Captures.namedOrEmpty]

/-- A line starts with a number of one to nine decimal digits, and this number is read. -/
def StartsWithNumber (line : List Char) : Prop :=
  ∃ spaces digits mark text number item, line = spaces ++ digits ++ mark :: text ∧
    (∀ c ∈ spaces, c = ' ') ∧ spaces.length ≤ 3 ∧
    (∀ c ∈ digits, Text.isDigit c = true) ∧ 1 ≤ digits.length ∧ digits.length ≤ 9 ∧
      (mark = '.' ∨ mark = ')') ∧
    Text.readDecimal? digits = some number ∧ afterNumber? line = some (number, item)

/-- What the render function of a built-in transform relies on for the captures of a match. -/
def Fits : Builtin → Captures → Prop
  | headers, captures =>
    ∃ hashes, captures.named "hashes" = .ok hashes ∧ 1 ≤ hashes.length ∧ hashes.length ≤ 6
  | orderedList, captures =>
    StartsWithNumber captures.full.toList ∧
      ∀ line ∈ Text.lines captures.full.toList, Text.hasInk line = true → StartsWithNumber line
  | bold, captures =>
    ∃ combined text, captures.named "combined" = .ok combined ∧ captures.named "text" = .ok text ∧
      (combined ≠ "" ↔ text = "")
  | _, _ => True

theorem startsWithNumber_of_afterNumber? {line item : List Char} {number : Nat}
    (after : afterNumber? line = some (number, item)) : StartsWithNumber line := by
  obtain ⟨digits, mark, text, indented, digits_all, -, least, most, isMark, -, rfl⟩ :=
    afterNumber?_eq_some.mp after
  have spaces_all : ∀ c ∈ line.takeWhile (· == ' '), c = ' ' := by
    intro c mem
    simpa using List.mem_takeWhile_imp mem
  have few : (line.takeWhile (· == ' ')).length ≤ 3 := by
    unfold afterIndent? at indented
    split at indented
    · assumption
    · simp at indented
  have digits_ne : digits ≠ [] := List.length_pos_iff.mp least
  refine ⟨_, digits, mark, text, _, item, ?_, spaces_all, few, digits_all, least, most, isMark,
    Text.readDecimal?_eq_some digits_ne digits_all, after⟩
  simpa using eq_append_of_afterIndent? indented

variable {before after : List Char} {found : Found}

theorem length_hashes_of_findAt? (found_eq : headers.regex.findAt? before after = some found) :
    1 ≤ (found.group 1).length ∧ (found.group 1).length ≤ 6 := by
  obtain ⟨line, tail, rfl, line_all, line_stops⟩ := Text.exists_cut (· != '\n') after
  have closes : closesLine tail = true := by
    rcases tail with _ | ⟨c, tail⟩
    · rfl
    · simpa using line_stops
  have inLine : '\n' ∉ line := fun mem => by simpa using line_all _ mem
  rw [findAt?_headers closes inLine] at found_eq
  split at found_eq
  · obtain ⟨header, header_eq, rfl⟩ := Option.map_eq_some_iff.mp found_eq
    simp only [header?] at header_eq
    split at header_eq
    case isFalse => simp at header_eq
    case isTrue allowed =>
      obtain ⟨text, -, rfl⟩ := Option.map_eq_some_iff.mp header_eq
      simpa [Found.group, Node.allows] using allowed
  · simp at found_eq

theorem exists_run_of_findAt? (found_eq : orderedList.regex.findAt? before after = some found) :
    ∃ run ending, run ≠ [] ∧ (∀ line ∈ run, isNumbered line = true ∧ '\n' ∉ line) ∧
      (ending = [] ∨ ending = ['\n']) ∧ found.text = Text.join ['\n'] run ++ ending := by
  obtain ⟨line, more, lines_eq⟩ := List.exists_cons_of_ne_nil (Text.lines_ne_nil after)
  have inLine : ∀ other ∈ line :: more, '\n' ∉ other :=
    fun other mem => Text.newline_not_mem_of_mem_lines (lines_eq ▸ mem)
  have after_eq := Text.join_lines after
  rw [lines_eq, Text.join_cons] at after_eq
  have here := @Marks.findAt?_eq _ _ marks_orderedList orderedList.regex rfl rfl before line more
    (inLine line (by simp)) fun other mem => inLine other (by simp [mem])
  rw [after_eq, found_eq] at here
  split at here
  case isFalse => simp at here
  case isTrue numbered =>
    cases here
    refine ⟨line :: more.takeWhile isNumbered, _, by simp, ?_, ?_, rfl⟩
    · intro other mem
      rcases List.mem_cons.mp mem with rfl | later
      · exact ⟨numbered.2, inLine _ (by simp)⟩
      · exact ⟨List.mem_takeWhile_imp later,
          inLine other (List.mem_cons_of_mem _ (List.takeWhile_subset _ later))⟩
    · split
      · exact .inl rfl
      · exact .inr rfl

theorem startsWithNumber_of_findAt?
    (found_eq : orderedList.regex.findAt? before after = some found) :
    StartsWithNumber found.text ∧
      ∀ line ∈ Text.lines found.text, Text.hasInk line = true → StartsWithNumber line := by
  obtain ⟨run, ending, run_ne, numbered, ends, text_eq⟩ := exists_run_of_findAt? found_eq
  have starts : ∀ line ∈ run, ∃ number item, afterNumber? line = some (number, item) := by
    intro line mem
    obtain ⟨⟨number, item⟩, after, -⟩ := (Option.any_eq_true _ _).mp (numbered line mem).1
    exact ⟨number, item, after⟩
  have ink : ∀ line ∈ run, Text.hasInk line = true := fun line mem =>
    hasInk_of_isNumbered (numbered line mem).1
  have filtered : (Text.lines found.text).filter Text.hasInk = run := by
    obtain ⟨plain, ended⟩ := filter_lines_block run_ne (fun line mem => (numbered line mem).2) ink
    rcases ends with rfl | rfl
    · rw [text_eq, List.append_nil, plain]
    · rw [text_eq, ended]
  constructor
  · obtain ⟨line, more, rfl⟩ := List.exists_cons_of_ne_nil run_ne
    obtain ⟨number, item, after⟩ := starts line (by simp)
    obtain ⟨item, after⟩ := afterNumber?_append after (Text.lineTail more ++ ending)
    rw [text_eq, Text.join_cons, List.append_assoc]
    exact startsWithNumber_of_afterNumber? after
  · intro line mem hasInk
    obtain ⟨number, item, after⟩ := starts line (filtered ▸ List.mem_filter.mpr ⟨mem, hasInk⟩)
    exact startsWithNumber_of_afterNumber? after

theorem one_text_of_findAt? (found_eq : bold.regex.findAt? before after = some found) :
    found.group 1 ≠ [] ↔ found.group 2 = [] := by
  rcases findAt?_bold.mp found_eq with
    ⟨-, ⟨body, rest, -, isSpan, rfl⟩ | ⟨-, body, rest, -, isSpan, rfl⟩⟩
  · simpa [Found.group] using isSpan.shortest.nonempty
  · simpa [Found.group] using isSpan.shortest.nonempty

/-- The captures of every match of a scan are what the render function relies on. -/
theorem fits_of_mem_scan (kind : Builtin) (buffer : List Char) {m : Match}
    (m_mem : m ∈ kind.regex.scan buffer) :
    kind.Fits (.ofMatch kind.regex.names m) := by
  obtain ⟨before, after, -, found_eq⟩ :=
    (kind.regex.scans_scan buffer).findAt?_of_mem (consumes_regex kind) m m_mem
  cases kind with
  | headers =>
    exact ⟨_, named_ofMatch headers m "hashes" rfl, by
      simpa using length_hashes_of_findAt? found_eq⟩
  | orderedList =>
    have full_eq : (Captures.ofMatch orderedList.regex.names m).full.toList = m.found.text :=
      String.toList_ofList
    rw [Fits, full_eq]
    exact startsWithNumber_of_findAt? found_eq
  | bold =>
    refine ⟨_, _, named_ofMatch bold m "combined" rfl, named_ofMatch bold m "text" rfl, ?_⟩
    simpa using one_text_of_findAt? found_eq
  | _ => trivial

/-- With any options every text is converted.  The groups that a render function asks for are groups
of its pattern, and it sees nothing else of a match but the whole of it; every match that it can be
given, in whatever text, has what it relies on, and it gives a text for the match. -/
theorem convert_succeeds [Host] :
    (∀ options text, ∃ html, convert options (.text text) = .ok html) ∧
    ∀ (kind : Builtin) (ρ : Type), ∃ pattern, (kind.definition : Definition ρ).compile =
      .ok pattern ∧
      (∀ name ∈ kind.asksFor, name ∈ pattern.groupNames) ∧
      (∀ first second : Captures, first.full = second.full →
        (∀ name ∈ kind.asksFor, first.named name = second.named name) →
        kind.render first = kind.render second) ∧
      ∀ buffer, ∀ m ∈ pattern.findIn buffer,
        kind.Fits (pattern.capturesOf m) ∧ ∃ html,
          kind.render (pattern.capturesOf m) = .ok html := by
  refine ⟨fun options text => ⟨_, convert_text options text⟩, ?_⟩
  intro kind ρ
  refine ⟨_, compile_definition kind, ?_, fun first second => render_congr kind, ?_⟩
  · cases kind <;> decide
  · intro buffer m m_mem
    have scanned := (Pattern.sublist_scan _ buffer).subset m_mem
    exact ⟨fits_of_mem_scan kind buffer scanned, _, render_ofMatch kind m⟩

end Builtin

end Markflow
