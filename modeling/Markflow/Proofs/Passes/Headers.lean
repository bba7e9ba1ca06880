import Markflow.Proofs.Builtin.Sets
import Markflow.Proofs.Passes.LineScan

/-!
# Headers

A header is a line of its own.  Behind its hashes and the spaces and tabs that follow them its text
goes as far as what is left is a trailer: spaces and tabs, with a group of hashes or without one.
-/

namespace Markflow.Builtin

open Regex Regex.Node

/-- Whether a text consists of spaces and tabs, with a group of hashes behind the first of them or
without one. -/
def isTrailer (text : List Char) : Bool :=
  let rest := text.dropWhile isSpaceOrTab
  rest.isEmpty || ((text.head?.any isSpaceOrTab && rest.head? == some '#') &&
    ((rest.dropWhile (· == '#')).dropWhile isSpaceOrTab).isEmpty)

/-- The text of a header without its trailer. -/
def headerContent : List Char → List Char
  | [] => []
  | c :: rest => if isTrailer rest then [c] else c :: headerContent rest

/-- The text of a header, given what follows its hashes.  Without content it is the last of several
spaces and tabs. -/
def headerText? (gap content : List Char) : Option (List Char) :=
  if gap = [] then none
  else if content ≠ [] then some (headerContent content)
  else if gap.dropLast = [] then none
  else gap.getLast?.map ([·])

/-- The hashes and the text of a line that is a header. -/
def header? (line : List Char) : Option (List Char × List Char) :=
  let hashes := line.takeWhile (· == '#')
  let rest := line.dropWhile (· == '#')
  if allows 1 (some 6) hashes.length then
    (headerText? (rest.takeWhile isSpaceOrTab) (rest.dropWhile isSpaceOrTab)).map fun text =>
      (hashes, text)
  else none

/-- Spaces and tabs up to the end of a line. -/
theorem ways_gap_lineEnd {before gap rest : List Char} {marks : List GroupMark}
    (passed : ∀ c ∈ gap, isSpaceOrTab c = true) (stops : Text.Stops isSpaceOrTab rest) :
    (seq (many gapSet) (anchor .lineEnd)).ways ⟨.amid before (gap ++ rest), marks⟩ =
      if closesLine rest then [⟨.amid (gap.reverse ++ before) rest, marks⟩] else [] := by
  rw [ways_seq, flatMap_many (by simpa using fun c holds => ne_newline_of_isSpaceOrTab holds)
    (by simpa using passed) (by simpa using stops), ways_lineEnd]

theorem isTrailer_cut {gap hashes gap' left : List Char}
    (gap_all : ∀ c ∈ gap, isSpaceOrTab c = true)
    (rest_stops : Text.Stops isSpaceOrTab (hashes ++ (gap' ++ left)))
    (hashes_all : ∀ c ∈ hashes, (c == '#') = true)
    (more_stops : Text.Stops (· == '#') (gap' ++ left))
    (gap'_all : ∀ c ∈ gap', isSpaceOrTab c = true) (left_stops : Text.Stops isSpaceOrTab left) :
    isTrailer (gap ++ (hashes ++ (gap' ++ left))) =
      ((hashes ++ (gap' ++ left)).isEmpty ||
        (!gap.isEmpty && !hashes.isEmpty && left.isEmpty)) := by
  rw [isTrailer, Text.dropWhile_cut gap_all rest_stops]
  rcases hashes with _ | ⟨c, hashes⟩
  · simp only [List.nil_append]
    generalize gap' ++ left = rest at more_stops
    rcases rest with _ | ⟨c, rest⟩
    · simp
    · have : c ≠ '#' := by simpa using more_stops
      simp [this]
  · obtain rfl : c = '#' := by simpa using hashes_all c (by simp)
    rw [Text.dropWhile_cut hashes_all more_stops, Text.dropWhile_cut gap'_all left_stops]
    rcases gap with _ | ⟨d, gap⟩
    · simp [isSpaceOrTab]
    · simp [gap_all d]

/-- A trailer, up to the end of the line. -/
theorem ways_trailer {before text tail : List Char} {marks : List GroupMark}
    (closes : closesLine tail = true) (inLine : '\n' ∉ text) :
    ((optional (seq (some1 gapSet) (some1 (only '#')))).ways
        ⟨.amid before (text ++ tail), marks⟩).flatMap
          (seq (many gapSet) (anchor .lineEnd)).ways =
      if isTrailer text then [⟨.amid (text.reverse ++ before) tail, marks⟩] else [] := by
  obtain ⟨gap, rest, rfl, gap_all, rest_stops⟩ := Text.exists_cut isSpaceOrTab text
  obtain ⟨hashes, more, rfl, hashes_all, more_stops⟩ := Text.exists_cut (· == '#') rest
  obtain ⟨gap', left, rfl, gap'_all, left_stops⟩ := Text.exists_cut isSpaceOrTab more
  have tail_stops : Text.Stops isSpaceOrTab tail := stops_of_closesLine isSpaceOrTab_newline closes
  have tail_stops' : Text.Stops (· == '#') tail := stops_of_closesLine (by decide) closes
  have trailed : ∀ before, (seq (many gapSet) (anchor .lineEnd)).ways
      ⟨.amid before (gap' ++ (left ++ tail)), marks⟩ =
        if left = [] then [⟨.amid (gap'.reverse ++ before) (left ++ tail), marks⟩] else [] := by
    intro before
    rw [ways_gap_lineEnd gap'_all (left_stops.append tail_stops),
      closesLine_append closes (by simp_all)]
    simp
  have hashed : ∀ before, ((some1 (only '#')).ways
      ⟨.amid before (hashes ++ (gap' ++ (left ++ tail))), marks⟩).flatMap
        (seq (many gapSet) (anchor .lineEnd)).ways =
      if hashes = [] ∨ left ≠ [] then []
      else [⟨.amid (gap'.reverse ++ (hashes.reverse ++ before)) (left ++ tail), marks⟩] := by
    intro before
    rw [flatMap_some1 _ (by simpa using hashes_all) (by simpa using more_stops.append tail_stops'),
      trailed]
    · by_cases none_left : left = [] <;> by_cases no_hashes :
        hashes = [] <;> simp [none_left, no_hashes]
    · intro before c after holds
      obtain rfl : c = '#' := by simpa using holds
      have stuck := @ways_gap_lineEnd before [] ('#' :: after) marks
        (by simp) (by simp [isSpaceOrTab])
      simpa using stuck
  have plain : (seq (many gapSet) (anchor .lineEnd)).ways
      ⟨.amid before (gap ++ (hashes ++ (gap' ++ (left ++ tail)))), marks⟩ =
        if hashes ++ (gap' ++ left) = [] then
          [⟨.amid (gap.reverse ++ before) (hashes ++ (gap' ++ (left ++ tail))), marks⟩]
            else [] := by
    have closed := @closesLine_append (hashes ++ (gap' ++ left)) _ closes (by simp_all)
    have stops := rest_stops.append tail_stops
    simp only [List.append_assoc] at closed stops
    rw [ways_gap_lineEnd gap_all stops, closed]
    simp
  have closed : ((seq (some1 gapSet) (some1 (only '#'))).ways
      ⟨.amid before (gap ++ (hashes ++ (gap' ++ (left ++ tail)))), marks⟩).flatMap
        (seq (many gapSet) (anchor .lineEnd)).ways =
      if gap = [] ∨ hashes = [] ∨ left ≠ [] then []
      else
        [⟨.amid (gap'.reverse ++ (hashes.reverse ++ (gap.reverse ++ before))) (left ++ tail),
          marks⟩] := by
    rw [ways_seq, List.flatMap_assoc, flatMap_some1 _ (by simpa using gap_all)
      (by simpa using rest_stops.append tail_stops), hashed]
    · by_cases no_gap : gap = [] <;> simp [no_gap]
    · intro before c after holds
      rw [ways_some1_of_stops (by simp; rintro rfl; exact absurd holds (by decide))]
      rfl
  rw [ways_optional rfl, List.flatMap_append]
  simp only [List.append_assoc, closed, List.flatMap_cons, List.flatMap_nil, plain]
  rw [isTrailer_cut gap_all rest_stops hashes_all more_stops gap'_all left_stops]
  rcases hashes with _ | ⟨c, hashes⟩ <;> rcases gap with _ | ⟨d, gap⟩ <;> rcases left with
    _ | ⟨e, left⟩ <;>
    simp_all

/-- What follows the hashes and the gap of a header. -/
def headerBody : Node :=
  sequence [group 2 (loop .lazy 1 none (one .allButNewline)),
    optional (seq (some1 gapSet) (some1 (only '#'))), many gapSet, anchor .lineEnd]

/-- The text of a header is the shortest beginning that a trailer follows. -/
theorem headerContent_spec {content : List Char} (nonempty : content ≠ []) :
    ∃ rest, content = headerContent content ++ rest ∧ headerContent content ≠ [] ∧
      isTrailer rest = true ∧
      ∀ text' rest', content = text' ++ rest' → text' ≠ [] →
        text'.length < (headerContent content).length → isTrailer rest' = false := by
  induction content with
  | nil => exact absurd rfl nonempty
  | cons c content ih =>
    by_cases trailer : isTrailer content
    · refine ⟨content, by simp [headerContent, trailer], by
        simp [headerContent, trailer], trailer, ?_⟩
      intro text' rest' _ text'_ne shorter
      simp only [headerContent, trailer, if_true, List.length_singleton] at shorter
      exact absurd (List.length_eq_zero_iff.mp (by omega)) text'_ne
    · have content_ne : content ≠ [] := by
        rintro rfl
        exact trailer rfl
      obtain ⟨rest, content_eq, _, rest_trailer, least⟩ := ih content_ne
      refine ⟨rest, ?_, by simp [headerContent, trailer], rest_trailer, ?_⟩
      · simpa [headerContent, trailer] using content_eq
      · intro text' rest' split text'_ne shorter
        obtain ⟨d, text', rfl⟩ := List.exists_cons_of_ne_nil text'_ne
        obtain ⟨rfl, rfl⟩ : c = d ∧ content = text' ++ rest' := by simpa using split
        by_cases only_one : text' = []
        · simpa [only_one] using trailer
        · exact least text' rest' rfl only_one (by simpa [headerContent, trailer] using shorter)

/-- The text of a header is part of the line. -/
theorem subset_of_header? {line hashes text : List Char}
    (header_eq : header? line = some (hashes, text)) : text ⊆ line := by
  have rest_subset : line.dropWhile (· == '#') ⊆ line := (List.dropWhile_suffix _).subset
  simp only [header?] at header_eq
  generalize line.dropWhile (· == '#') = rest at header_eq rest_subset
  split at header_eq
  case isFalse => cases header_eq
  rcases Option.map_eq_some_iff.mp header_eq with ⟨content, content_eq, same⟩
  cases same
  apply List.Subset.trans _ rest_subset
  unfold headerText? at content_eq
  split at content_eq
  · cases content_eq
  split at content_eq
  · next content_ne =>
    rcases headerContent_spec content_ne with ⟨trailer, split, -⟩
    cases content_eq
    intro c mem
    apply (List.dropWhile_suffix isSpaceOrTab).subset
    rw [split]
    exact List.mem_append_left trailer mem
  split at content_eq
  · cases content_eq
  · rcases Option.map_eq_some_iff.mp content_eq with ⟨last, last_eq, rfl⟩
    intro c mem
    rcases List.mem_singleton.mp mem with rfl
    exact List.takeWhile_subset _ (List.mem_of_getLast? last_eq)

theorem header?_cut {hashes gap content : List Char} (hashes_all : ∀ c ∈ hashes, (c == '#') = true)
    (hashes_stops : Text.Stops (· == '#') (gap ++ content))
    (gap_all : ∀ c ∈ gap, isSpaceOrTab c = true) (gap_stops : Text.Stops isSpaceOrTab content) :
    header? (hashes ++ (gap ++ content)) =
      if allows 1 (some 6) hashes.length then (headerText? gap content).map fun text =>
        (hashes, text) else none := by
  simp only [header?, Text.takeWhile_cut hashes_all hashes_stops,
    Text.dropWhile_cut hashes_all hashes_stops, Text.takeWhile_cut gap_all gap_stops,
    Text.dropWhile_cut gap_all gap_stops]

/-- What is read behind the hashes and the gap of a header. -/
theorem head?_ways_headerBody {before content tail : List Char} {mark : GroupMark}
    (closes : closesLine tail = true) (inLine : '\n' ∉ content) (nonempty : content ≠ []) :
    ∃ mark' : GroupMark, mark'.Holds (some (headerContent content)) ∧
      (headerBody.ways ⟨.amid before (content ++ tail), [mark, {}]⟩).head? =
        some ⟨.amid (content.reverse ++ before) tail, [mark, mark']⟩ := by
  obtain ⟨rest, content_eq, content_ne, trailer, least⟩ := headerContent_spec nonempty
  generalize headerContent content = text at content_eq content_ne trailer least ⊢
  subst content_eq
  have ends : ∀ text' rest' marks, text ++ rest = text' ++ rest' →
      ((optional (seq (some1 gapSet) (some1 (only '#')))).ways
        ⟨.amid (text'.reverse ++ before) (rest' ++ tail), marks⟩).flatMap
          (seq (many gapSet) (anchor .lineEnd)).ways =
      if isTrailer rest' then [⟨.amid ((text ++ rest).reverse ++ before) tail, marks⟩] else [] := by
    intro text' rest' marks split
    rw [ways_trailer closes (by simp_all), split]
    simp
  have steps : (headerBody.ways ⟨.amid before (text ++ rest ++ tail), [mark, {}]⟩).head? =
      (((loop .lazy 1 none (one .allButNewline)).ways ⟨.amid before (text ++ (rest ++ tail)),
        [mark, { opened := some (.amid before (text ++ rest ++ tail)) }]⟩).flatMap fun t =>
          ((optional (seq (some1 gapSet) (some1 (only '#')))).ways (t.leave 2)).flatMap
            (seq (many gapSet) (anchor .lineEnd)).ways).head? := by
    simp [headerBody, Node.sequence, ways_seq, ways_group, List.flatMap_map, State.enter]
  refine ⟨_, GroupMark.spans_amid before text (rest ++ tail), ?_⟩
  rw [steps, head?_flatMap_lazy_eq_some rfl (steps_one _) (by simp)]
  refine ⟨text, rest ++ tail, rfl, ?_, ?_, ?_, ?_⟩
  · rw [passed_one]
    intro c mem
    have : c ≠ '\n' := by
      rintro rfl
      exact inLine (by simp [mem])
    simpa using this
  · simpa [allows] using Nat.succ_le_of_lt (List.length_pos_iff.mpr content_ne)
  · simp [State.leave, ends text rest _ rfl, trailer]
  · intro text' rest' split _ allowed shorter
    obtain ⟨more, rfl, rfl⟩ := Text.exists_more split (by omega)
    have text'_ne : text' ≠ [] := by
      rintro rfl
      simp [allows] at allowed
    have missed := least text' (more ++ rest) (by simp) text'_ne shorter
    have stuck := fun marks => ends text' (more ++ rest) marks (by simp)
    simp only [missed, List.append_assoc, Bool.false_eq_true, if_false] at stuck
    exact stuck _

theorem ways_headerBody_of_closesLine {before tail : List Char} {marks : List GroupMark}
    (closes : closesLine tail = true) : headerBody.ways ⟨.amid before tail, marks⟩ = [] := by
  have stops : Text.Stops CharSet.allButNewline.holds tail := by
    simpa using @stops_of_closesLine (· != '\n') (by simp) _ closes
  simp [headerBody, Node.sequence, State.enter, ways_loop_of_stops _ 0 stops]

section Gap

variable {before gap tail : List Char} {mark : GroupMark}
    (gap_all : ∀ c ∈ gap, isSpaceOrTab c = true)
  (closes : closesLine tail = true)

include gap_all closes

/-- The gap of a header takes all spaces and tabs where something else follows. -/
theorem head?_ways_gap_content {content : List Char} (gap_ne : gap ≠ []) (content_ne : content ≠ [])
    (stops : Text.Stops isSpaceOrTab content) (inLine : '\n' ∉ content) :
    ∃ mark' : GroupMark, mark'.Holds (some (headerContent content)) ∧
      (((some1 gapSet).ways ⟨.amid before (gap ++ (content ++ tail)), [mark, {}]⟩).flatMap
        headerBody.ways).head? =
          some ⟨.amid (content.reverse ++ (gap.reverse ++ before)) tail, [mark, mark']⟩ := by
  obtain ⟨mark', spans, body⟩ := @head?_ways_headerBody (gap.reverse ++ before) _ _ mark closes
    inLine content_ne
  refine ⟨mark', spans, ?_⟩
  rw [some1, head?_flatMap_greedy_eq_some rfl (steps_one _) (by simp)]
  refine ⟨gap, content ++ tail, rfl, ?_, ?_, body, ?_⟩
  · rw [passed_one]
    simpa using gap_all
  · simpa [allows] using Nat.succ_le_of_lt (List.length_pos_iff.mpr gap_ne)
  · intro text' rest' split passed _ longer
    have gap_stops := stops.append (stops_of_closesLine isSpaceOrTab_newline closes)
    have := Text.length_le_of_stops gap_stops (by simpa using passed_one.mp passed) split
    omega

/-- Where nothing else follows, the gap of a header leaves its last character. -/
theorem head?_ways_gap_blank {front : List Char} {c : Char} (gap_eq : gap = front ++ [c])
    (front_ne : front ≠ []) :
    ∃ mark' : GroupMark, mark'.Holds (some [c]) ∧
      (((some1 gapSet).ways ⟨.amid before (gap ++ tail), [mark, {}]⟩).flatMap
        headerBody.ways).head? =
        some ⟨.amid (gap.reverse ++ before) tail, [mark, mark']⟩ := by
  subst gap_eq
  have c_ne := ne_newline_of_isSpaceOrTab (gap_all c (by simp))
  obtain ⟨mark', spans, body⟩ := @head?_ways_headerBody (front.reverse ++ before) [c] _ mark closes
    (by simpa using c_ne.symm) (by simp)
  refine ⟨mark', by simpa [headerContent, isTrailer] using spans, ?_⟩
  rw [some1, head?_flatMap_greedy_eq_some rfl (steps_one _) (by simp)]
  refine ⟨front, [c] ++ tail, by simp, ?_, ?_, by simpa using body, ?_⟩
  · rw [passed_one]
    simpa using fun d mem => gap_all d (by simp [mem])
  · simpa [allows] using Nat.succ_le_of_lt (List.length_pos_iff.mpr front_ne)
  · intro text' rest' split passed _ longer
    have stops := stops_of_closesLine isSpaceOrTab_newline closes
    have short := Text.length_le_of_stops stops (by simpa using passed_one.mp passed) split
    obtain ⟨rfl, rfl⟩ : front ++ [c] = text' ∧ tail = rest' := by
      simp only [List.length_append, List.length_singleton] at short
      exact List.append_inj split (by simp; omega)
    exact ways_headerBody_of_closesLine closes

/-- A single space or tab is no header's text. -/
theorem ways_gap_single {c : Char} (gap_eq : gap = [c]) {marks : List GroupMark} :
    ((some1 gapSet).ways ⟨.amid before (gap ++ tail), marks⟩).flatMap headerBody.ways = [] := by
  subst gap_eq
  rw [List.flatMap_eq_nil_iff]
  intro t t_mem
  obtain ⟨text, rest, split, passed, allowed, rfl⟩ :=
    (mem_ways_loop_of_steps (by simp) rfl (steps_one _) (by simp)).mp t_mem
  have stops := stops_of_closesLine isSpaceOrTab_newline closes
  have short := Text.length_le_of_stops stops (by simpa using passed_one.mp passed) split
  obtain ⟨rfl, rfl⟩ : [c] = text ∧ tail = rest := by
    simp only [allows, Option.all_none, Bool.and_true, decide_eq_true_eq] at allowed
    simp only [List.length_singleton] at short
    exact List.append_inj split (by simp; omega)
  exact ways_headerBody_of_closesLine closes

end Gap

/-- A header is read where a line starts, and it is the whole line. -/
theorem findAt?_headers {before line tail : List Char} (closes : closesLine tail = true)
    (inLine : '\n' ∉ line) :
    headers.regex.findAt? before (line ++ tail) =
      if opensLine before then
        (header? line).map fun header => ⟨line, [some header.1, some header.2]⟩
      else none := by
  by_cases opens : opensLine before = true
  · obtain ⟨hashes, rest, rfl, hashes_all, hashes_stops⟩ := Text.exists_cut (· == '#') line
    obtain ⟨gap, content, rfl, gap_all, gap_stops⟩ := Text.exists_cut isSpaceOrTab rest
    have tail_stops : Text.Stops (· == '#') tail := stops_of_closesLine (by decide) closes
    have ways_eq : headers.regex.root.ways
        (.begin (.amid before (hashes ++ (gap ++ content) ++ tail)) headers.regex.groupCount) =
          if allows 1 (some 6) hashes.length then
            ((some1 gapSet).ways ⟨.amid (hashes.reverse ++ before) (gap ++ (content ++ tail)),
              [⟨some (.amid before (hashes ++ (gap ++ (content ++ tail)))),
                some (.amid (hashes.reverse ++ before) (gap ++ (content ++ tail)))⟩,
                {}]⟩).flatMap headerBody.ways
          else [] := by
      have opened : headers.regex.root.ways
          (.begin (.amid before (hashes ++ (gap ++ content) ++ tail)) headers.regex.groupCount) =
            ((loop .greedy 1 (some 6) (lit '#')).ways ⟨.amid before
              (hashes ++ (gap ++ (content ++ tail))),
              [{ opened := some (.amid before (hashes ++ (gap ++ (content ++ tail)))) },
                {}]⟩).flatMap
                fun t => ((some1 gapSet).ways (t.leave 1)).flatMap headerBody.ways := by
        simp [regex, node, Node.sequence, headerBody, groupNames, State.begin, State.enter, opens,
          List.flatMap_map]
      rw [opened, lit, flatMap_loop_one (by simp) (by simp) _ (by simpa using hashes_all)
        (by simpa using hashes_stops.append tail_stops)]
      · rfl
      · intro before c after holds
        obtain rfl : c = '#' := by simpa using holds
        simp [State.leave, @ways_some1_of_stops gapSet _ _ ('#' :: after) (by simp [isSpaceOrTab])]
    rw [header?_cut hashes_all hashes_stops gap_all gap_stops, if_pos opens]
    by_cases allowed : allows 1 (some 6) hashes.length = true
    · simp only [allowed, if_true] at ways_eq ⊢
      have hashes_holds : GroupMark.Holds _ (some hashes) :=
        GroupMark.spans_amid before hashes (gap ++ (content ++ tail))
      by_cases no_gap : gap = []
      · subst no_gap
        have stuck : (some1 gapSet).ways ⟨.amid (hashes.reverse ++ before) (content ++ tail),
            [⟨some (.amid before (hashes ++ (content ++ tail))),
              some (.amid (hashes.reverse ++ before) (content ++ tail))⟩, {}]⟩ = [] :=
          ways_some1_of_stops
            (by simpa using gap_stops.append (stops_of_closesLine isSpaceOrTab_newline closes))
        rw [findAt?_eq_none_of_ways (by simpa [stuck] using ways_eq)]
        simp [headerText?]
      by_cases no_content : content = []
      · subst no_content
        obtain ⟨front, c, gap_eq⟩ : ∃ front c, gap = front ++ [c] :=
          ⟨_, _, (List.dropLast_concat_getLast no_gap).symm⟩
        by_cases no_front : front = []
        · rw [findAt?_eq_none_of_ways]
          · simp [headerText?, gap_eq, no_front]
          · simpa [ways_gap_single gap_all closes (by simpa [no_front] using gap_eq)] using ways_eq
        · obtain ⟨mark', holds, first⟩ := @head?_ways_gap_blank (hashes.reverse ++ before) _ _ _
            gap_all closes _ _ gap_eq no_front
          have found : headers.regex.findAt? before (hashes ++ (gap ++ []) ++ tail) =
              some ⟨hashes ++ (gap ++ []), [some hashes, some [c]]⟩ :=
            findAt?_of_head? (by simpa using (congrArg List.head? ways_eq).trans first)
              (.cons hashes_holds (.cons holds .nil)) rfl
          rw [found]
          simp [headerText?, gap_eq, no_front]
      · obtain ⟨mark', holds, first⟩ :=
          @head?_ways_gap_content (hashes.reverse ++ before) _ _ _ gap_all
          closes _ no_gap no_content gap_stops (by simp_all)
        have found : headers.regex.findAt? before (hashes ++ (gap ++ content) ++ tail) =
            some ⟨hashes ++ (gap ++ content), [some hashes, some (headerContent content)]⟩ :=
          findAt?_of_head? (by simpa using (congrArg List.head? ways_eq).trans first)
            (.cons hashes_holds (.cons holds .nil)) rfl
        rw [found]
        simp [headerText?, no_gap, no_content]
    · rw [if_neg allowed] at ways_eq ⊢
      exact findAt?_eq_none_of_ways ways_eq
  · rw [findAt?_of_lineStart rfl _ _ (by simpa using opens), if_neg opens]

/-- The line that is written for a header. -/
def headerHtml (hashes text : List Char) : List Char :=
  "<h".toList ++ Nat.toDigits 10 hashes.length ++ '>' :: text ++ "</h".toList ++
    Nat.toDigits 10 hashes.length ++ ['>']

/-- The pass over headers at a line. -/
def headerTake : Take :=
  fun line _ => (header? line).map fun header => ([headerHtml header.1 header.2], 0)

theorem scansLines_headers : ScansLines headers.regex headers.written headerTake where
  consumes := consumes_regex headers
  noBreak := by
    intro before after
    have nothing := @findAt?_headers before [] ('\n' :: after) (by simp) (by simp)
    simpa [header?, allows] using nothing
  missed := by
    intro before line more opens line_in _ missed
    apply findAt?_within_line (findAt?_of_lineStart rfl) line_in
    rw [findAt?_headers (closesLine_lineTail more) line_in, if_pos opens]
    simpa [headerTake] using missed
  nonempty := by
    rintro line more out count taken
    obtain ⟨header, _, rfl, _⟩ : ∃ header, header? line = some header ∧
        [headerHtml header.1 header.2] = out ∧ 0 = count := by
      simpa [headerTake] using taken
    simp
  taken := by
    rintro before line more out count opens line_in _ taken
    obtain ⟨header, header_eq, rfl, rfl⟩ : ∃ header, header? line = some header ∧
        [headerHtml header.1 header.2] = out ∧ 0 = count := by
      simpa [headerTake] using taken
    refine ⟨_, by
      rw [findAt?_headers (closesLine_lineTail more) line_in, if_pos opens, header_eq]; rfl,
        .inl ⟨?_, ?_⟩⟩
    · simp [Text.join]
    · simp [written_of_render (render_headers _), headerHtml, Text.join, Found.group]

end Markflow.Builtin
