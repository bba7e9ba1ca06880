import Markflow.Proofs.Builtin.Conversion
import Markflow.Proofs.Document.Code

/-!
# The scan for code spans

What the pass of code spans does to each line of a text, said without its expression.  From the
left, a run of backticks and the next run of as many become one code span, together with the content
in between; a run that is not followed by such a run is copied (`SpanScan`).
-/

namespace Markflow.Builtin

open Regex

/-- A text in which a run of backticks stands, with no further backtick on either side of it. -/
def HoldsRun (count : Nat) (text : List Char) : Prop :=
  ∃ front back, text = front ++ (tickRun count ++ back) ∧ front.getLast? ≠ some '\x60' ∧
    back.head? ≠ some '\x60'

/-- The code in a content is what stands between two spaces at its ends where this is not blank, and
the content as it is where it is not of that form. -/
inductive CodeIn : List Char → List Char → Prop
  | padded {code : List Char} (ink : Text.hasInk code = true) : CodeIn (' ' :: (code ++ [' '])) code
  | whole {content : List Char} (bare : ∀ code, content = ' ' :: (code ++ [' ']) →
      Text.hasInk code = false) :
      CodeIn content content

/-- What is written for the code of a code span. -/
def codeHtml (code : List Char) : List Char :=
  "<code>".toList ++ Escape.code code ++ "</code>".toList

/-- What a scan for code spans makes of a line. -/
inductive SpanScan : List Char → List Char → Prop
  | done : SpanScan [] []
  | keep {c : Char} {rest out : List Char} (other : c ≠ '\x60') (below : SpanScan rest out) :
      SpanScan (c :: rest) (c :: out)
  | span {count : Nat} {content code rest out : List Char} (pos : 0 < count)
      (content_ne : content ≠ [])
      (starts : content.head? ≠ some '\x60') (ends : content.getLast? ≠ some '\x60')
      (unpaired : ¬ HoldsRun count content)
      (apart : rest.head? ≠ some '\x60') (codeIn : CodeIn content code)
      (below : SpanScan rest out) :
      SpanScan (tickRun count ++ (content ++ (tickRun count ++ rest))) (codeHtml code ++ out)
  | copy {count : Nat} {rest out : List Char} (pos : 0 < count) (apart : rest.head? ≠ some '\x60')
      (unpaired : ¬ HoldsRun count rest) (below : SpanScan rest out) :
      SpanScan (tickRun count ++ rest) (tickRun count ++ out)

section Runs

variable {count : Nat} {text content code rest front back : List Char}

theorem head?_tickRun_append (pos : 0 < count) (text : List Char) :
    (tickRun count ++ text).head? = some '\x60' := by
  rcases Nat.exists_eq_add_one_of_ne_zero pos.ne' with ⟨less, rfl⟩
  rfl

theorem getLast?_append_tickRun (pos : 0 < count) (text : List Char) :
    (text ++ tickRun count).getLast? = some '\x60' := by
  rw [List.getLast?_append, tickRun, List.getLast?_replicate, if_neg pos.ne', Option.some_or]

theorem stops_iff_apart : Text.Stops (· == '\x60') text ↔ text.head? ≠ some '\x60' := by
  rcases text with _ | ⟨c, text⟩
  · simp
  · simp

theorem apart_append (front_apart : front.head? ≠ some '\x60')
    (back_apart : back.head? ≠ some '\x60') :
    (front ++ back).head? ≠ some '\x60' :=
  stops_iff_apart.mp ((stops_iff_apart.mpr front_apart).append (stops_iff_apart.mpr back_apart))

/-- Where a text without a backtick at its end goes on, a run that stands in it stands in the
whole. -/
theorem HoldsRun.exists_more (pos : 0 < count) (holds : HoldsRun count text)
    (ends : text.getLast? ≠ some '\x60') :
    ∃ content more, text = content ++ (tickRun count ++ more) ∧ content.getLast? ≠ some '\x60' ∧
      more ≠ [] ∧
      more.head? ≠ some '\x60' := by
  rcases holds with ⟨content, more, rfl, content_ends, more_apart⟩
  refine ⟨content, more, rfl, content_ends, ?_, more_apart⟩
  rintro rfl
  apply ends
  rw [List.append_nil]
  exact getLast?_append_tickRun pos content

/-- A run that stands in a text stands there for a first time. -/
theorem HoldsRun.exists_first (pos : 0 < count) (holds : HoldsRun count text) :
    ∃ content rest, text = content ++ (tickRun count ++ rest) ∧ content.getLast? ≠ some '\x60' ∧
      rest.head? ≠ some '\x60' ∧ ¬ HoldsRun count content := by
  rcases holds with ⟨front, back, rfl, front_ends, back_apart⟩
  induction sized : front.length using Nat.strongRecOn generalizing front back with
  | _ size ih =>
    by_cases earlier : HoldsRun count front
    · rcases earlier.exists_more pos front_ends with
        ⟨first, more, rfl, first_ends, more_ne, more_apart⟩
      have shorter : first.length < size := by
        have := List.length_pos_iff.mpr more_ne
        rw [← sized, List.length_append, List.length_append]
        omega
      have apart : (more ++ (tickRun count ++ back)).head? ≠ some '\x60' := by
        rcases List.exists_cons_of_ne_nil more_ne with ⟨c, others, rfl⟩
        exact more_apart
      rcases ih first.length shorter _ _ first_ends apart rfl with ⟨content, rest, split, firstRun⟩
      exact ⟨content, rest, by rw [← split]; simp, firstRun⟩
    · exact ⟨front, back, rfl, front_ends, back_apart, earlier⟩

/-- What the expression for code spans takes for a content. -/
theorem isCode_iff : IsCode count content rest ↔ 0 < count ∧ content ≠ [] ∧ '\n' ∉ content ∧
    content.head? ≠ some '\x60' ∧ content.getLast? ≠ some '\x60' ∧ rest.head? ≠ some '\x60' ∧
      ¬ HoldsRun count content := by
  have endsCode_iff : ∀ content rest, endsCode content rest = true ↔
      content.getLast? ≠ some '\x60' ∧ rest.head? ≠ some '\x60' := by
    intro content rest
    simp [endsCode]
  constructor
  · intro isCode
    rcases (endsCode_iff _ _).mp isCode.shortest.closed with ⟨ends, apart⟩
    refine ⟨isCode.pos, isCode.shortest.nonempty, isCode.newline_not_mem, isCode.starts,
      ends, apart, ?_⟩
    intro holds
    rcases holds.exists_more isCode.pos ends with
      ⟨front, more, rfl, front_ends, more_ne, more_apart⟩
    have front_ne : front ≠ [] := by
      rintro rfl
      exact isCode.starts (head?_tickRun_append isCode.pos more)
    have shorter : front.length < (front ++ (tickRun count ++ more)).length := by
      have := List.length_pos_iff.mpr more_ne
      rw [List.length_append, List.length_append]
      omega
    have early := isCode.shortest.least front (more ++ (tickRun count ++ rest)) (by simp)
      front_ne shorter
    have apart : (more ++ (tickRun count ++ rest)).head? ≠ some '\x60' := by
      rcases List.exists_cons_of_ne_nil more_ne with ⟨c, others, rfl⟩
      exact more_apart
    rw [(endsCode_iff _ _).mpr ⟨front_ends, apart⟩] at early
    cases early
  · rintro ⟨pos, content_ne, inLine, starts, ends, apart, unpaired⟩
    refine ⟨pos, starts, content_ne, ?_, (endsCode_iff _ _).mpr ⟨ends, apart⟩, ?_⟩
    · rw [passed_one]
      intro c mem
      rw [bne_iff_ne]
      rintro rfl
      exact inLine mem
    · intro shorter after same shorter_ne isShorter
      rw [← Bool.not_eq_true, endsCode_iff]
      rintro ⟨shorter_ends, after_apart⟩
      rcases Text.exists_more same (Nat.le_of_lt isShorter) with ⟨more, rfl, rest_eq⟩
      have more_ne : more ≠ [] := by
        rintro rfl
        simp at isShorter
      rcases Nat.lt_or_ge more.length count with isLess | isMore
      · -- What is left of the content lies in a run, so the content ends with a backtick.
        rcases Text.exists_more rest_eq (by rw [length_tickRun]; exact isLess.le) with
          ⟨others, run_eq, -⟩
        have more_all : ∀ c ∈ more, (c == '\x60') = true := by
          intro c mem
          apply tickRun_all count
          rw [run_eq]
          exact List.mem_append_left others mem
        apply ends
        rw [eq_tickRun more_all]
        exact getLast?_append_tickRun (List.length_pos_iff.mpr more_ne) shorter
      · rcases Text.exists_more rest_eq.symm (by rwa [length_tickRun]) with ⟨back, rfl, rfl⟩
        apply unpaired
        refine ⟨shorter, back, rfl, shorter_ends, ?_⟩
        rcases back with _ | ⟨c, back⟩
        · simp
        · exact after_apart

theorem hasInk_between (inner : List Char) :
    Text.hasInk (' ' :: (inner ++ [' '])) = Text.hasInk inner := by
  have blank : Text.isBlank ' ' = true := by decide
  simp [Text.hasInk, blank]

theorem isPadded_iff :
    (2 < content.length && content.head? == some ' ' && content.getLast? == some ' ' &&
      Text.hasInk content) = true ↔
      ∃ inner, content = ' ' :: (inner ++ [' ']) ∧ Text.hasInk inner = true := by
  constructor
  · intro padded
    simp only [Bool.and_eq_true, decide_eq_true_eq, beq_iff_eq] at padded
    rcases padded with ⟨⟨⟨long, starts⟩, ends⟩, ink⟩
    rcases content with _ | ⟨c, others⟩
    · cases starts
    cases starts
    rcases others.eq_nil_or_concat with rfl | ⟨inner, c, rfl⟩
    · simp at long
    · rw [List.concat_eq_append, ← List.cons_append, List.getLast?_concat] at ends
      cases ends
      rw [List.concat_eq_append, hasInk_between] at ink
      exact ⟨inner, by rw [List.concat_eq_append], ink⟩
  · rintro ⟨inner, rfl, ink⟩
    have inner_ne : inner ≠ [] := by
      rintro rfl
      cases ink
    have long := List.length_pos_iff.mpr inner_ne
    rw [hasInk_between, ink, ← List.cons_append, List.getLast?_concat]
    simpa using long

theorem codeIn_iff : CodeIn content code ↔ unpadded content = code := by
  rw [unpadded]
  constructor
  · rintro (⟨ink⟩ | ⟨bare⟩)
    · rw [if_pos (isPadded_iff.mpr ⟨code, rfl, ink⟩)]
      simp
    · rw [if_neg]
      intro padded
      rcases isPadded_iff.mp padded with ⟨inner, rfl, ink⟩
      rw [bare inner rfl] at ink
      cases ink
  · rintro rfl
    split
    case isTrue padded =>
      rcases isPadded_iff.mp padded with ⟨inner, rfl, ink⟩
      have inner_eq : ((' ' :: (inner ++ [' '])).drop 1).dropLast = inner := by simp
      rw [inner_eq]
      exact .padded ink
    case isFalse bare =>
      apply CodeIn.whole
      rintro inner rfl
      rw [← Bool.not_eq_true]
      intro ink
      exact bare (isPadded_iff.mpr ⟨inner, rfl, ink⟩)

end Runs

section Scan

variable {count : Nat} {before content line out rest tail : List Char}

theorem apart_of_closesLine (closes : closesLine tail = true) : tail.head? ≠ some '\x60' := by
  rcases tail with _ | ⟨c, tail⟩
  · simp
  · rw [closesLine_cons, beq_iff_eq] at closes
    subst closes
    simp

theorem rewrite_of_isCode (free : before.head? ≠ some '\x60') (isCode : IsCode count content rest) :
    inlineCode.regex.rewrite inlineCode.written before
      (tickRun count ++ (content ++ (tickRun count ++ rest))) =
      codeHtml (unpadded content) ++
        inlineCode.regex.rewrite inlineCode.written
          ((marked (tickRun count) content).reverse ++ before) rest := by
  let groups : List (Option (List Char)) := [some (tickRun count), some content]
  have found_eq :
      inlineCode.regex.findAt? before
        (Found.text ⟨marked (tickRun count) content, groups⟩ ++ rest) =
      some ⟨marked (tickRun count) content, groups⟩ :=
    findAt?_inlineCode.mpr ⟨free, count, content, rest, rfl, isCode, rfl⟩
  have written_eq :
      codeHtml (unpadded content) = inlineCode.written ⟨marked (tickRun count) content, groups⟩ :=
    (written_inlineCode _ _ _).symm
  rw [← marked_append, written_eq]
  exact rewrite_of_some (consumes_regex inlineCode) found_eq

/-- A piece of a line that begins before the end of the line ends before it. -/
theorem exists_more_of_closesLine {piece text : List Char} (inLine : '\n' ∉ piece)
    (closes : closesLine tail = true)
    (same : text ++ tail = piece ++ rest) : ∃ more, text = piece ++ more ∧ rest = more ++ tail := by
  rcases List.append_eq_append_iff.mp same with ⟨more, piece_eq, tail_eq⟩ | ⟨more, text_eq, rest_eq⟩
  · rcases more with _ | ⟨c, more⟩
    · rw [List.append_nil] at piece_eq
      rw [List.nil_append] at tail_eq
      exact ⟨[], by rw [List.append_nil, piece_eq], tail_eq.symm⟩
    · rw [tail_eq, List.cons_append, closesLine_cons, beq_iff_eq] at closes
      subst closes
      exact absurd (by simp [piece_eq]) inLine
  · exact ⟨more, text_eq, rest_eq⟩

theorem newline_not_mem_tickRun (count : Nat) : '\n' ∉ tickRun count :=
  fun mem => absurd (tickRun_all count _ mem) (by decide)

/-- A code span that begins before the end of a line ends before it. -/
theorem exists_rest_of_isCode (isCode : IsCode count content rest) (closes : closesLine tail = true)
    {text : List Char} (same : text ++ tail = content ++ (tickRun count ++ rest)) :
    ∃ more, text = content ++ (tickRun count ++ more) ∧ rest = more ++ tail := by
  rw [← List.append_assoc] at same
  have inLine := List.not_mem_append isCode.newline_not_mem (newline_not_mem_tickRun count)
  rcases exists_more_of_closesLine inLine closes same with ⟨more, rfl, rest_eq⟩
  exact ⟨more, List.append_assoc _ _ more, rest_eq⟩

theorem rewrite_of_unpaired (apart : rest.head? ≠ some '\x60') (unpaired : ¬ HoldsRun count rest)
    (closes : closesLine tail = true) :
    inlineCode.regex.rewrite inlineCode.written before (tickRun count ++ (rest ++ tail)) =
      tickRun count ++
        inlineCode.regex.rewrite inlineCode.written ((tickRun count).reverse ++ before)
          (rest ++ tail) := by
  apply rewrite_append_of_missed
  intro front c back split
  by_contra some_found
  rcases Option.ne_none_iff_exists'.mp some_found with ⟨found, found_eq⟩
  rcases findAt?_inlineCode.mp found_eq with ⟨free, count', content, after, after_eq, isCode, -⟩
  -- A match begins where the run begins.
  rcases front.eq_nil_or_concat with rfl | ⟨others, d, rfl⟩
  · have run_eq : c :: (back ++ (rest ++ tail)) = tickRun count ++ (rest ++ tail) := by
      rw [split]
      rfl
    have rest_apart := apart_append apart (apart_of_closesLine closes)
    have content_apart : (content ++ (tickRun count' ++ after)).head? ≠ some '\x60' := by
      rcases List.exists_cons_of_ne_nil isCode.shortest.nonempty with ⟨d, others, rfl⟩
      exact isCode.starts
    rw [run_eq, marked_append] at after_eq
    rcases Text.cut_unique (tickRun_all count) (stops_iff_apart.mpr rest_apart) (tickRun_all count')
      (stops_iff_apart.mpr content_apart) after_eq with ⟨runs, same⟩
    have counts : count = count' := by simpa [length_tickRun] using congrArg List.length runs
    subst counts
    rcases exists_rest_of_isCode isCode closes same with ⟨more, rfl, rfl⟩
    rcases isCode_iff.mp isCode with ⟨-, -, -, -, ends, after_apart, -⟩
    apply unpaired
    refine ⟨content, more, rfl, ends, ?_⟩
    intro more_starts
    rw [List.head?_append, more_starts] at after_apart
    exact after_apart rfl
  · have tick : d = '\x60' := by
      have mem : d ∈ tickRun count := by simp [split]
      simpa using tickRun_all count d mem
    rw [List.concat_eq_append, List.reverse_concat] at free
    exact free (by rw [tick]; rfl)

/-- What the pass of code spans writes for a line is what a scan makes of it. -/
theorem SpanScan.rewrite_eq (scan : SpanScan line out) (inLine : '\n' ∉ line)
    (closes : closesLine tail = true)
    (free : before.head? ≠ some '\x60' ∨ line.head? ≠ some '\x60') :
    inlineCode.regex.rewrite inlineCode.written before (line ++ tail) =
      out ++ inlineCode.regex.rewrite inlineCode.written (line.reverse ++ before) tail := by
  have free_of_run : ∀ {count : Nat} {before text : List Char}, 0 < count →
      before.head? ≠ some '\x60' ∨ (tickRun count ++ text).head? ≠ some '\x60' →
        before.head? ≠ some '\x60' := by
    intro count before text pos free
    exact free.resolve_right fun apart => apart (head?_tickRun_append pos text)
  induction scan generalizing before with
  | done => rfl
  | @keep c rest out other below ih =>
    have missed : inlineCode.regex.findAt? before (c :: (rest ++ tail)) = none := by
      apply findAt?_of_not_mark
      simpa [mark] using other.symm
    rw [List.cons_append, rewrite_of_none missed,
      ih (fun mem => inLine (List.mem_cons_of_mem c mem)) (.inl (by simpa using other))]
    simp
  | @span count content code rest out pos content_ne starts ends unpaired apart codeIn below ih =>
    have rest_inLine : '\n' ∉ rest := fun mem => inLine (by simp [mem])
    have content_inLine : '\n' ∉ content := fun mem => inLine (by simp [mem])
    have rest_apart := apart_append apart (apart_of_closesLine closes)
    have isCode :=
      isCode_iff.mpr ⟨pos, content_ne, content_inLine, starts, ends, rest_apart, unpaired⟩
    have written := rewrite_of_isCode (free_of_run pos free) isCode
    rw [ih rest_inLine (.inr apart), codeIn_iff.mp codeIn] at written
    simpa [marked] using written
  | @copy count rest out pos apart unpaired below ih =>
    have rest_inLine : '\n' ∉ rest := fun mem => inLine (by simp [mem])
    rw [List.append_assoc, rewrite_of_unpaired apart unpaired closes, ih rest_inLine (.inr apart)]
    simp

theorem exists_spanScan (line : List Char) : ∃ out, SpanScan line out := by
  induction sized : line.length using Nat.strongRecOn generalizing line with
  | _ size ih =>
    rcases Text.exists_cut (· == '\x60') line with ⟨run, rest, rfl, run_all, stops⟩
    have apart := stops_iff_apart.mp stops
    rw [eq_tickRun run_all] at sized ⊢
    generalize run.length = count at sized ⊢
    rw [List.length_append, length_tickRun] at sized
    rcases Nat.eq_zero_or_pos count with rfl | pos
    · rcases rest with _ | ⟨c, rest⟩
      · exact ⟨[], .done⟩
      · have other : c ≠ '\x60' := by simpa using apart
        rcases ih rest.length (by rw [← sized, List.length_cons]; omega) rest rfl with ⟨out, below⟩
        exact ⟨c :: out, .keep other below⟩
    by_cases paired : HoldsRun count rest
    · rcases paired.exists_first pos with ⟨content, more, rfl, ends, more_apart, unpaired⟩
      have content_ne : content ≠ [] := by
        rintro rfl
        exact apart (head?_tickRun_append pos more)
      have starts : content.head? ≠ some '\x60' := by
        rcases List.exists_cons_of_ne_nil content_ne with ⟨c, others, rfl⟩
        exact apart
      rw [List.length_append, List.length_append] at sized
      rcases ih more.length (by omega) more rfl with ⟨out, below⟩
      exact ⟨_, .span pos content_ne starts ends unpaired more_apart (codeIn_iff.mpr rfl) below⟩
    · rcases ih rest.length (by omega) rest rfl with ⟨out, below⟩
      exact ⟨_, .copy pos apart paired below⟩

theorem SpanScan.newline_not_mem (scan : SpanScan line out) (inLine : '\n' ∉ line) :
    '\n' ∉ out := by
  induction scan with
  | done => exact inLine
  | keep other below ih =>
    rcases List.ne_and_not_mem_of_not_mem_cons inLine with ⟨c_ne, rest_inLine⟩
    exact List.not_mem_cons_of_ne_of_not_mem c_ne (ih rest_inLine)
  | @span count content code rest out pos content_ne starts ends unpaired apart codeIn below ih =>
    have content_inLine : '\n' ∉ content := fun mem => inLine (by simp [mem])
    have code_inLine : '\n' ∉ code := by
      rw [← codeIn_iff.mp codeIn]
      exact newline_not_mem_unpadded content_inLine
    have html_inLine : '\n' ∉ codeHtml code := (sealed_codeSpan code_inLine).inLine
    exact List.not_mem_append html_inLine (ih fun mem => inLine (by simp [mem]))
  | @copy count rest out pos apart unpaired below ih =>
    have run_inLine : '\n' ∉ tickRun count := fun mem => inLine (by simp [mem])
    exact List.not_mem_append run_inLine (ih fun mem => inLine (by simp [mem]))

end Scan

/-- The pass of code spans writes a line for each line of a text. -/
theorem rewrite_lines {line : List Char} {more outs : List (List Char)}
    (scans : List.Forall₂ SpanScan (line :: more) outs)
    (inLine : ∀ other ∈ line :: more, '\n' ∉ other) {before : List Char}
    (free : before.head? ≠ some '\x60') :
    inlineCode.regex.rewrite inlineCode.written before (line ++ Text.lineTail more) =
      Text.join ['\n'] outs := by
  induction more generalizing line outs before with
  | nil =>
    rcases scans with _ | ⟨scan, none_left⟩
    cases none_left
    rw [scan.rewrite_eq (inLine line List.mem_cons_self) rfl (.inl free), Text.lineTail_nil,
      rewrite_nil, Text.join_cons]
    rfl
  | cons next more ih =>
    rcases scans with _ | @⟨_, out, _, outs, scan, scans⟩
    have more_inLine : ∀ other ∈ next :: more, '\n' ∉ other := fun other mem =>
      inLine other (List.mem_cons_of_mem line mem)
    have outs_ne : outs ≠ [] := by
      rintro rfl
      cases scans
    have missed : ∀ before text, inlineCode.regex.findAt? before ('\n' :: text) = none := by
      intro before text
      apply findAt?_of_not_mark
      simp [mark]
    rw [Text.lineTail_cons, scan.rewrite_eq (inLine line List.mem_cons_self) rfl (.inl free),
      rewrite_of_none (missed _ _), ih scans more_inLine (by simp), Text.join_cons,
      Text.lineTail_eq_cons_join outs_ne]

theorem exists_spanScans (ls : List (List Char)) : ∃ outs, List.Forall₂ SpanScan ls outs := by
  induction ls with
  | nil => exact ⟨[], .nil⟩
  | cons line more ih =>
    rcases exists_spanScan line with ⟨out, scan⟩
    rcases ih with ⟨outs, scans⟩
    exact ⟨out :: outs, .cons scan scans⟩

theorem newline_not_mem_of_spanScans {ls outs : List (List Char)}
    (scans : List.Forall₂ SpanScan ls outs)
    (inLine : ∀ line ∈ ls, '\n' ∉ line) : ∀ out ∈ outs, '\n' ∉ out := by
  induction scans with
  | nil => exact inLine
  | @cons line out ls outs scan scans ih =>
    intro other mem
    rcases List.mem_cons.mp mem with rfl | mem
    · exact scan.newline_not_mem (inLine line List.mem_cons_self)
    · exact ih (fun more inMore => inLine more (List.mem_cons_of_mem line inMore)) other mem

theorem lines_pass_of_spanScans {text : List Char} {outs : List (List Char)}
    (scans : List.Forall₂ SpanScan (Text.lines text) outs) :
    Text.lines (inlineCode.pass text) = outs := by
  have inLine : ∀ line ∈ Text.lines text, '\n' ∉ line := fun _ => Text.newline_not_mem_of_mem_lines
  have outs_inLine := newline_not_mem_of_spanScans scans inLine
  rcases List.exists_cons_of_ne_nil (Text.lines_ne_nil text) with ⟨line, more, lines_eq⟩
  have text_eq := Text.join_lines text
  rw [lines_eq] at scans inLine text_eq
  have outs_ne : outs ≠ [] := by
    rintro rfl
    cases scans
  rw [← text_eq, Text.join_cons, pass, rewrite_lines scans inLine (by simp),
    Text.lines_join outs_inLine outs_ne]

/-- A run of code spans scans each line of a text for code spans. -/
theorem apply_inlineCode [Host] {ρ σ : Type} (call : Caller ρ σ) (text : String) (state : σ) :
    ∃ html, ((inlineCode.definition : Definition ρ).apply call text).Gives state html state ∧
      ∀ result, List.Forall₂ SpanScan (Text.lines text.toList) result ↔
        Text.lines html.toList = result := by
  refine ⟨_, gives_apply call inlineCode text state, ?_⟩
  intro result
  rw [String.toList_ofList]
  constructor
  · exact lines_pass_of_spanScans
  · rintro rfl
    rcases exists_spanScans (Text.lines text.toList) with ⟨outs, scans⟩
    rwa [← lines_pass_of_spanScans scans] at scans

end Markflow.Builtin
