import Markflow.Proofs.Builtin.Conversion
import Markflow.Proofs.Passes.Blocks
import Markflow.Proofs.Text.Digits

/-!
# The scan for headers

What the pass of headers does to the lines of a text, said without its expression.  Each line is
changed on its own (`HeaderLine`).  A line with one to six hashes, a gap of spaces and tabs, and
some content is a header, and its text is the content without the spaces and tabs around it and
without a group of hashes behind it.

A line whose gap is all there is behind the hashes has no content.  The expression demands a
character for the text all the same, and takes the last one of the gap for it when the gap has
another one.  Such a hollow line becomes a header whose text is a single space or tab.
-/

namespace Markflow.Builtin

open Regex.Node

/-- A text consists of spaces and tabs. -/
def IsGap (text : List Char) : Prop :=
  ∀ c ∈ text, c = ' ' ∨ c = '\t'

/-- A text is a group of hashes with spaces and tabs before them. -/
def IsGroup (text : List Char) : Prop :=
  ∃ gap hashes, text = gap ++ hashes ∧ gap ≠ [] ∧ IsGap gap ∧ hashes ≠ [] ∧ ∀ c ∈ hashes, c = '#'

/-- A text neither begins nor ends with a space or tab, and there is something in it. -/
structure IsTrimmed (text : List Char) : Prop where
  nonempty : text ≠ []
  begins : ∀ c ∈ text.head?, ¬ (c = ' ' ∨ c = '\t')
  ends : ∀ c ∈ text.getLast?, ¬ (c = ' ' ∨ c = '\t')

/-- The text of some content: what is left without the spaces and tabs around it and one group of
hashes behind it, if it ends with a group. -/
def IsTextOf (content text : List Char) : Prop :=
  IsTrimmed text ∧ ∃ leading closing ending, content = leading ++ (text ++ (closing ++ ending)) ∧
    IsGap leading ∧
    IsGap ending ∧
      (IsGroup closing ∨ (closing = [] ∧ ∀ front group, text = front ++ group → ¬ IsGroup group))

/-- A line begins with one to six hashes. -/
structure HasHashes (line hashes behind : List Char) : Prop where
  split : line = hashes ++ behind
  all : ∀ c ∈ hashes, c = '#'
  least : 1 ≤ hashes.length
  most : hashes.length ≤ 6

/-- A line is a header. -/
def IsHeader (line hashes content : List Char) : Prop :=
  ∃ gap, HasHashes line hashes (gap ++ content) ∧ gap ≠ [] ∧ IsGap gap ∧ ¬ IsGap content

/-- A line is a hollow header, whose gap has a last character and another one. -/
def IsHollow (line hashes : List Char) (last : Char) : Prop :=
  ∃ gap, HasHashes line hashes (gap ++ [last]) ∧ gap ≠ [] ∧ IsGap (gap ++ [last])

/-- What the scan for headers makes of a line. -/
inductive HeaderLine : List Char → List Char → Prop
  | header {line hashes content text : List Char} (isHeader : IsHeader line hashes content)
      (isText : IsTextOf content text) : HeaderLine line (headerHtml hashes text)
  | hollow {line hashes : List Char} {last : Char} (isHollow : IsHollow line hashes last) :
      HeaderLine line (headerHtml hashes [last])
  | copy {line : List Char} (noHeader : ∀ hashes content, ¬ IsHeader line hashes content)
      (notHollow : ∀ hashes last, ¬ IsHollow line hashes last) : HeaderLine line line

section Trailer

variable {text gap group closing ending : List Char}

theorem isGap_iff : IsGap text ↔ ∀ c ∈ text, isSpaceOrTab c = true := by
  simp only [IsGap, isSpaceOrTab_iff]

theorem IsGap.append {other : List Char} (isGap : IsGap text) (isGap' : IsGap other) :
    IsGap (text ++ other) := by
  intro c mem
  rcases List.mem_append.mp mem with inText | inOther
  · exact isGap c inText
  · exact isGap' c inOther

theorem isTrimmed_iff :
    IsTrimmed text ↔
      text ≠ [] ∧ Text.Stops isSpaceOrTab text ∧ Text.Stops isSpaceOrTab text.reverse := by
  have noGap : ∀ c, isSpaceOrTab c = false ↔ ¬ (c = ' ' ∨ c = '\t') := by
    intro c
    rw [← isSpaceOrTab_iff, Bool.not_eq_true]
  simp only [Text.Stops, List.head?_reverse, noGap]
  constructor
  · intro trimmed
    exact ⟨trimmed.nonempty, trimmed.begins, trimmed.ends⟩
  · rintro ⟨nonempty, begins, ends⟩
    exact ⟨nonempty, begins, ends⟩

/-- What ends with something else than a space or tab is no gap. -/
theorem not_isGap_of_stops (text_ne : text ≠ []) (ends : Text.Stops isSpaceOrTab text.reverse) :
    ¬ IsGap text := by
  intro isGap
  rcases List.eq_nil_or_concat text with rfl | ⟨front, c, rfl⟩
  · exact text_ne rfl
  · rw [List.concat_eq_append, List.reverse_concat, Text.stops_cons] at ends
    rw [isGap_iff.mp isGap c (by simp)] at ends
    cases ends

theorem IsGroup.stops (isGroup : IsGroup group) : Text.Stops isSpaceOrTab group.reverse := by
  rcases isGroup with ⟨gap, hashes, rfl, -, -, hashes_ne, hashes_all⟩
  rcases List.eq_nil_or_concat hashes with rfl | ⟨front, c, rfl⟩
  · exact absurd rfl hashes_ne
  · have isHash : c = '#' := hashes_all c (by simp)
    simp [isHash, isSpaceOrTab]

theorem IsGroup.exists_cons (isGroup : IsGroup group) :
    ∃ c rest, group = c :: rest ∧ isSpaceOrTab c = true := by
  rcases isGroup with ⟨gap, hashes, rfl, gap_ne, isGap, -, -⟩
  rcases List.exists_cons_of_ne_nil gap_ne with ⟨c, gap, rfl⟩
  exact ⟨c, gap ++ hashes, rfl, isGap_iff.mp isGap c List.mem_cons_self⟩

theorem stops_append_gap (gap_ne : gap ≠ []) (isGap : IsGap gap) (front : List Char) :
    Text.Stops (· == '#') (front ++ gap).reverse := by
  rcases List.eq_nil_or_concat gap with rfl | ⟨gap, c, rfl⟩
  · exact absurd rfl gap_ne
  · rcases isGap c (by simp) with rfl | rfl <;> simp

/-- A trailer is spaces and tabs behind a group or behind nothing. -/
theorem isTrailer_iff :
    isTrailer text = true ↔
      ∃ closing ending, text = closing ++ ending ∧ (closing = [] ∨ IsGroup closing) ∧
        IsGap ending := by
  constructor
  · intro trailer
    rcases Text.exists_cut isSpaceOrTab text with ⟨gap, rest, rfl, gap_all, rest_stops⟩
    rcases Text.exists_cut (· == '#') rest with ⟨hashes, more, rfl, hashes_all, more_stops⟩
    rcases Text.exists_cut isSpaceOrTab more with ⟨ending, left, rfl, ending_all, left_stops⟩
    rw [isTrailer_cut gap_all rest_stops hashes_all more_stops ending_all left_stops] at trailer
    by_cases nothing : hashes ++ (ending ++ left) = []
    · exact ⟨[], gap, by simp [nothing], .inl rfl, isGap_iff.mpr gap_all⟩
    · have closed : gap ≠ [] ∧ hashes ≠ [] ∧ left = [] := by
        simpa [List.isEmpty_iff, nothing, and_assoc] using trailer
      refine ⟨gap ++ hashes, ending, by simp [closed.2.2], .inr ?_, isGap_iff.mpr ending_all⟩
      exact ⟨gap, hashes, rfl, closed.1, isGap_iff.mpr gap_all, closed.2.1, by
        simpa using hashes_all⟩
  · rintro ⟨closing, ending, rfl, closes, isEnding⟩
    have ending_all := isGap_iff.mp isEnding
    rcases closes with rfl | ⟨gap, hashes, rfl, gap_ne, isGap, hashes_ne, hashes_all⟩
    · have cut := @isTrailer_cut ending [] [] [] ending_all (by simp) (by simp) (by simp)
        (by simp) (by simp)
      simpa using cut
    · have rest_stops : Text.Stops isSpaceOrTab (hashes ++ (ending ++ [])) := by
        rcases List.exists_cons_of_ne_nil hashes_ne with ⟨c, more, rfl⟩
        have isHash : c = '#' := hashes_all c List.mem_cons_self
        simp [isHash, isSpaceOrTab]
      have more_stops : Text.Stops (· == '#') (ending ++ []) := by
        rcases ending with _ | ⟨c, more⟩
        · simp
        · rcases isEnding c List.mem_cons_self with rfl | rfl <;> simp
      have cut := isTrailer_cut (isGap_iff.mp isGap) rest_stops (by simpa using hashes_all)
        more_stops ending_all
        Text.stops_nil
      have filled : gap.isEmpty = false ∧ hashes.isEmpty = false := by
        simpa using ⟨gap_ne, hashes_ne⟩
      simpa [filled] using cut

theorem isTrailer_cons {c : Char} (isSpace : isSpaceOrTab c = true)
    (trailer : isTrailer text = true) :
    isTrailer (c :: text) = true := by
  have longer : ∀ gap, IsGap gap → IsGap (c :: gap) := fun gap isGap =>
    isGap_iff.mpr (List.forall_mem_cons.mpr ⟨isSpace, isGap_iff.mp isGap⟩)
  rcases isTrailer_iff.mp trailer with ⟨closing, ending, rfl, closes, isEnding⟩
  rcases closes with rfl | ⟨gap, hashes, rfl, -, isGap, hashes_ne, hashes_all⟩
  · exact isTrailer_iff.mpr ⟨[], c :: ending, rfl, .inl rfl, longer ending isEnding⟩
  · have isGroup : IsGroup (c :: gap ++ hashes) :=
      ⟨c :: gap, hashes, rfl, List.cons_ne_nil c gap, longer gap isGap, hashes_ne, hashes_all⟩
    exact isTrailer_iff.mpr ⟨c :: gap ++ hashes, ending, rfl, .inr isGroup, isEnding⟩

/-- A trailer does not begin before the end of a text, unless with a group that the text ends
with. -/
theorem isTrailer_append_eq_false (text_ne : text ≠ [])
    (ends : Text.Stops isSpaceOrTab text.reverse)
    (isEnding : IsGap ending) (closes : IsGroup closing ∨ (closing = [] ∧ ¬ IsGroup text)) :
    isTrailer (text ++ (closing ++ ending)) = false := by
  have whole_ends : Text.Stops isSpaceOrTab (text ++ closing).reverse := by
    rw [List.reverse_append]
    rcases closes with isGroup | ⟨rfl, -⟩
    · exact isGroup.stops.append ends
    · exact ends
  by_contra trailer
  rcases isTrailer_iff.mp (Bool.not_eq_false _ ▸ trailer) with
    ⟨closing', ending', split, closes', isEnding'⟩
  have ends' : Text.Stops isSpaceOrTab closing'.reverse := by
    rcases closes' with rfl | isGroup
    · simp
    · exact isGroup.stops
  rw [← List.append_assoc] at split
  rcases Text.cut_unique_end whole_ends (isGap_iff.mp isEnding) ends' (isGap_iff.mp isEnding')
    split with ⟨whole_eq, -⟩
  rcases closes' with rfl | isGroup'
  · exact text_ne (List.append_eq_nil_iff.mp whole_eq).1
  rcases closes with ⟨gap, hashes, rfl, gap_ne, isGap, -, hashes_all⟩ | ⟨rfl, noGroup⟩
  · -- The groups have the same hashes, so the text is part of the gap before them.
    rcases isGroup' with ⟨gap', hashes', rfl, gap'_ne, isGap', -, hashes'_all⟩
    rw [← List.append_assoc] at whole_eq
    have gap_eq :=
      (Text.cut_unique_end (stops_append_gap gap_ne isGap text) (by simpa using hashes_all)
      (stops_append_gap gap'_ne isGap' []) (by simpa using hashes'_all) whole_eq).1
    rw [List.nil_append] at gap_eq
    have inGap : IsGap text := fun c mem => isGap' c (gap_eq ▸ List.mem_append_left gap mem)
    exact not_isGap_of_stops text_ne ends inGap
  · rw [List.append_nil] at whole_eq
    exact noGroup (whole_eq ▸ isGroup')

end Trailer

section Content

variable {content text : List Char}

/-- Nothing but the shortest beginning that a trailer follows is the text of a header. -/
theorem headerContent_eq {rest : List Char} (text_ne : text ≠ []) (trailer : isTrailer rest = true)
    (least : ∀ front back, text = front ++ back → front ≠ [] → back ≠ [] →
      isTrailer (back ++ rest) = false) :
    headerContent (text ++ rest) = text := by
  have content_ne : text ++ rest ≠ [] := List.append_ne_nil_of_left_ne_nil text_ne rest
  rcases headerContent_spec content_ne with ⟨rest', split, text'_ne, trailer', least'⟩
  rcases Nat.lt_trichotomy (headerContent (text ++ rest)).length text.length with
    shorter | same | longer
  · rcases Text.exists_more split (Nat.le_of_lt shorter) with ⟨back, text_eq, rest_eq⟩
    have back_ne : back ≠ [] := by
      rintro rfl
      rw [List.append_nil] at text_eq
      exact absurd (congrArg List.length text_eq) (Nat.ne_of_gt shorter)
    rw [rest_eq, least _ back text_eq text'_ne back_ne] at trailer'
    cases trailer'
  · exact (List.append_inj split same.symm).1.symm
  · rw [least' text rest rfl text_ne longer] at trailer
    cases trailer

/-- The text of some content that begins behind a gap. -/
theorem isTextOf_iff {gap : List Char} (isGap : IsGap gap)
    (begins : Text.Stops isSpaceOrTab content)
    (content_ne : content ≠ []) :
    IsTextOf (gap ++ content) text ↔ headerContent content = text := by
  constructor
  · rintro ⟨trimmed, leading, closing, ending, split, isLeading, isEnding, closes⟩
    rcases isTrimmed_iff.mp trimmed with ⟨text_ne, text_begins, text_ends⟩
    have stops : Text.Stops isSpaceOrTab (text ++ (closing ++ ending)) :=
      (Text.stops_append_iff text_ne).mpr text_begins
    rcases Text.cut_unique (isGap_iff.mp isGap) begins (isGap_iff.mp isLeading) stops split with
      ⟨-, rfl⟩
    apply headerContent_eq text_ne
    · refine isTrailer_iff.mpr ⟨closing, ending, rfl, ?_, isEnding⟩
      rcases closes with isGroup | ⟨rfl, -⟩
      · exact .inr isGroup
      · exact .inl rfl
    · rintro front back rfl front_ne back_ne
      rw [List.reverse_append, Text.stops_append_iff (by simpa using back_ne)] at text_ends
      apply isTrailer_append_eq_false back_ne text_ends isEnding
      rcases closes with isGroup | ⟨rfl, noGroup⟩
      · exact .inl isGroup
      · exact .inr ⟨rfl, noGroup front back rfl⟩
  · rintro rfl
    rcases headerContent_spec content_ne with ⟨rest, split, text_ne, trailer, least⟩
    generalize headerContent content = text at split text_ne least
    subst split
    have text_begins := (Text.stops_append_iff text_ne).mp begins
    rcases isTrailer_iff.mp trailer with ⟨closing, ending, rfl, closes, isEnding⟩
    have earlier : ∀ front back, text = front ++ back → back ≠ [] → ¬ Text.Stops isSpaceOrTab back →
        isTrailer (back ++ (closing ++ ending)) = false := by
      rintro front back rfl back_ne opens
      have front_ne : front ≠ [] := by
        rintro rfl
        exact opens text_begins
      apply least front _ (List.append_assoc front back _) front_ne
      rw [List.length_append]
      exact Nat.lt_add_of_pos_right (List.length_pos_iff.mpr back_ne)
    refine ⟨isTrimmed_iff.mpr ⟨text_ne, text_begins, ?_⟩, gap, closing, ending, rfl, isGap,
      isEnding, ?_⟩
    · rcases List.eq_nil_or_concat text with rfl | ⟨front, c, rfl⟩
      · exact absurd rfl text_ne
      · rw [List.concat_eq_append, List.reverse_concat, Text.stops_cons]
        by_contra isSpace
        rw [Bool.not_eq_false] at isSpace
        have stuck := earlier front [c] (List.concat_eq_append) (List.cons_ne_nil c [])
          (by simp [isSpace])
        rw [List.singleton_append, isTrailer_cons isSpace trailer] at stuck
        cases stuck
    · rcases closes with rfl | isGroup
      · right
        refine ⟨rfl, ?_⟩
        intro front group text_eq isGroup
        rcases isGroup.exists_cons with ⟨c, more, rfl, isSpace⟩
        have stuck :=
          earlier front (c :: more) text_eq (List.cons_ne_nil c more) (by simp [isSpace])
        rw [List.nil_append, isTrailer_iff.mpr ⟨c :: more, ending, rfl, .inr isGroup, isEnding⟩]
          at stuck
        cases stuck
      · exact .inl isGroup

end Content

section Line

variable {line hashes behind content text result : List Char}

theorem HasHashes.allows_length (hasHashes : HasHashes line hashes behind) :
    allows 1 (some 6) hashes.length = true := by
  simp [allows, hasHashes.least, hasHashes.most]

theorem HasHashes.header?_eq {gap : List Char} (hasHashes : HasHashes line hashes (gap ++ content))
    (gap_ne : gap ≠ []) (isGap : IsGap gap) (stops : Text.Stops isSpaceOrTab content) :
    header? line = (headerText? gap content).map fun text => (hashes, text) := by
  have gap_stops : Text.Stops (· == '#') (gap ++ content) := by
    rcases List.exists_cons_of_ne_nil gap_ne with ⟨c, more, rfl⟩
    rcases isGap c List.mem_cons_self with rfl | rfl <;> simp
  rw [hasHashes.split, header?_cut (by simpa using hasHashes.all) gap_stops (isGap_iff.mp isGap)
    stops, if_pos hasHashes.allows_length]

theorem IsHeader.header?_eq (isHeader : IsHeader line hashes content) :
    ∃ text, header? line = some (hashes, text) ∧ ∀ other, IsTextOf content other ↔
      text = other := by
  rcases isHeader with ⟨gap, hasHashes, gap_ne, isGap, filled⟩
  rcases Text.exists_cut isSpaceOrTab content with ⟨leading, content, rfl, leading_all, stops⟩
  have isLeading := isGap_iff.mpr leading_all
  have content_ne : content ≠ [] := by
    rintro rfl
    exact filled (by simpa using isLeading)
  have whole_ne : gap ++ leading ≠ [] := List.append_ne_nil_of_left_ne_nil gap_ne leading
  rw [← List.append_assoc] at hasHashes
  refine ⟨headerContent content, ?_, fun other => isTextOf_iff isLeading stops content_ne⟩
  rw [hasHashes.header?_eq whole_ne (isGap.append isLeading) stops, headerText?, if_neg whole_ne,
    if_pos content_ne]
  rfl

theorem IsHollow.header?_eq {last : Char} (isHollow : IsHollow line hashes last) :
    header? line = some (hashes, [last]) := by
  rcases isHollow with ⟨gap, hasHashes, gap_ne, isGap⟩
  have whole_ne : gap ++ [last] ≠ [] := List.append_ne_nil_of_left_ne_nil gap_ne [last]
  rw [← List.append_nil (gap ++ [last])] at hasHashes
  rw [hasHashes.header?_eq whole_ne isGap Text.stops_nil]
  simp [headerText?, gap_ne]

theorem isHeader_or_isHollow (header_eq : header? line = some (hashes, text)) :
    (∃ content, IsHeader line hashes content) ∨ ∃ last, IsHollow line hashes last := by
  rcases Text.exists_cut (· == '#') line with ⟨hashes', rest, rfl, hashes_all, hashes_stops⟩
  rcases Text.exists_cut isSpaceOrTab rest with ⟨gap, content, rfl, gap_all, gap_stops⟩
  rw [header?_cut hashes_all hashes_stops gap_all gap_stops] at header_eq
  split at header_eq
  case isFalse => cases header_eq
  case isTrue allowed =>
    rcases Option.map_eq_some_iff.mp header_eq with ⟨text', text_eq, same⟩
    cases same
    have bounds : 1 ≤ hashes.length ∧ hashes.length ≤ 6 := by simpa [allows] using allowed
    have hasHashes : HasHashes (hashes ++ (gap ++ content)) hashes (gap ++ content) :=
      ⟨rfl, by simpa using hashes_all, bounds.1, bounds.2⟩
    have gap_ne : gap ≠ [] := by
      rintro rfl
      cases text_eq
    rw [headerText?, if_neg gap_ne] at text_eq
    by_cases content_ne : content ≠ []
    · left
      refine ⟨content, gap, hasHashes, gap_ne, isGap_iff.mpr gap_all, ?_⟩
      rcases List.exists_cons_of_ne_nil content_ne with ⟨c, more, rfl⟩
      intro isGap
      rw [Text.stops_cons, isGap_iff.mp isGap c List.mem_cons_self] at gap_stops
      cases gap_stops
    · right
      rw [if_neg content_ne] at text_eq
      split at text_eq
      · cases text_eq
      · next front_ne =>
        have gap_eq := List.dropLast_concat_getLast gap_ne
        rw [not_not.mp content_ne, List.append_nil] at hasHashes
        refine ⟨gap.getLast gap_ne, gap.dropLast, ?_, front_ne, ?_⟩
        · rw [gap_eq, not_not.mp content_ne, List.append_nil]
          exact hasHashes
        · rw [gap_eq]
          exact isGap_iff.mpr gap_all

/-- What the pass writes for a line. -/
def headerOut (line : List Char) : List Char :=
  (header? line).elim line fun header => headerHtml header.1 header.2

theorem headerOut_of_some (header_eq : header? line = some (hashes, text)) :
    headerOut line = headerHtml hashes text := by
  rw [headerOut, header_eq, Option.elim_some]

theorem headerOut_of_none (header_eq : header? line = none) : headerOut line = line := by
  rw [headerOut, header_eq, Option.elim_none]

theorem headerLine_iff : HeaderLine line result ↔ headerOut line = result := by
  constructor
  · rintro (⟨isHeader, isText⟩ | isHollow | ⟨noHeader, notHollow⟩)
    · rcases isHeader.header?_eq with ⟨text, header_eq, text_iff⟩
      rw [headerOut_of_some header_eq, (text_iff _).mp isText]
    · exact headerOut_of_some isHollow.header?_eq
    · apply headerOut_of_none
      rcases header_eq : header? line with _ | ⟨hashes, text⟩
      · rfl
      · rcases isHeader_or_isHollow header_eq with ⟨content, isHeader⟩ | ⟨last, isHollow⟩
        · exact absurd isHeader (noHeader hashes content)
        · exact absurd isHollow (notHollow hashes last)
  · rintro rfl
    rcases header_eq : header? line with _ | ⟨hashes, text⟩
    · rw [headerOut_of_none header_eq]
      apply HeaderLine.copy
      · intro hashes content isHeader
        rcases isHeader.header?_eq with ⟨text, some_eq, -⟩
        rw [header_eq] at some_eq
        cases some_eq
      · intro hashes last isHollow
        have some_eq := isHollow.header?_eq
        rw [header_eq] at some_eq
        cases some_eq
    · rw [headerOut_of_some header_eq]
      rcases isHeader_or_isHollow header_eq with ⟨content, isHeader⟩ | ⟨last, isHollow⟩
      · rcases isHeader.header?_eq with ⟨text', some_eq, text_iff⟩
        rw [header_eq] at some_eq
        cases some_eq
        exact .header isHeader ((text_iff text).mpr rfl)
      · have some_eq := isHollow.header?_eq
        rw [header_eq] at some_eq
        cases some_eq
        exact .hollow isHollow

theorem newline_not_mem_headerOut (inLine : '\n' ∉ line) : '\n' ∉ headerOut line := by
  rcases header_eq : header? line with _ | ⟨hashes, text⟩
  · rwa [headerOut_of_none header_eq]
  · have text_in : '\n' ∉ text := fun mem => inLine (subset_of_header? header_eq mem)
    have level_in : '\n' ∉ Nat.toDigits 10 hashes.length :=
      Text.not_mem_toDigits (by decide) hashes.length
    rw [headerOut_of_some header_eq, headerHtml]
    simp [level_in, text_in]

theorem lineScan_headers (ls : List (List Char)) :
    lineScan headers.blockTake ls = ls.map headerOut := by
  induction ls with
  | nil => exact lineScan_nil _
  | cons line more ih =>
    have take_eq : headers.blockTake line more = (header? line).map fun header =>
        ([headerHtml header.1 header.2], 0) := rfl
    rcases header_eq : header? line with _ | ⟨hashes, text⟩
    · rw [header_eq, Option.map_none] at take_eq
      rw [lineScan_of_none take_eq, List.map_cons, headerOut_of_none header_eq, ih]
    · rw [header_eq, Option.map_some] at take_eq
      rw [lineScan_of_some take_eq, List.map_cons, headerOut_of_some header_eq, List.drop_zero, ih]
      rfl

theorem lines_pass_headers (text : List Char) :
    Text.lines (headers.pass text) = (Text.lines text).map headerOut := by
  rw [← lineScan_headers]
  apply lines_pass rfl
  rw [lineScan_headers]
  intro line mem
  rcases List.mem_map.mp mem with ⟨source, source_mem, rfl⟩
  exact newline_not_mem_headerOut (Text.newline_not_mem_of_mem_lines source_mem)

end Line

/-- A run of headers changes each line of a text on its own, as the scan for headers does. -/
theorem apply_headers [Host] {ρ σ : Type} (call : Caller ρ σ) (text : String) (state : σ) :
    ∃ html, ((headers.definition : Definition ρ).apply call text).Gives state html state ∧
      ∀ result, List.Forall₂ HeaderLine (Text.lines text.toList) result ↔
        Text.lines html.toList = result := by
  refine ⟨_, gives_apply call headers text state, ?_⟩
  intro result
  have same : HeaderLine = fun line result => headerOut line = result := by
    funext line result
    exact propext headerLine_iff
  rw [String.toList_ofList, lines_pass_headers, same, ← List.forall₂_map_left_iff,
    List.forall₂_eq_eq_eq]

attribute [local instance] Host.standard

/-- Behind one hash two spaces make a header, though they are no content. -/
theorem apply_headers_hollow :
    ((headers.definition : Definition Empty).apply noCaller "#  ").Gives () "<h1> </h1>" () ∧
      ∀ hashes content, ¬ IsHeader "#  ".toList hashes content := by
  constructor
  · have html_eq : headers.pass "#  ".toList = "<h1> </h1>".toList := by decide +kernel
    have gives := gives_apply noCaller headers "#  " ()
    rwa [html_eq, String.ofList_toList] at gives
  · rintro hashes content ⟨gap, ⟨split, -, least, -⟩, -, -, filled⟩
    rcases List.exists_cons_of_ne_nil (List.length_pos_iff.mp least) with ⟨c, more, rfl⟩
    have behind : [' ', ' '] = more ++ (gap ++ content) := (List.cons.inj split).2
    apply filled
    intro d mem
    have isSpace : d ∈ [' ', ' '] := by
      rw [behind]
      exact List.mem_append_right more (List.mem_append_right gap mem)
    exact .inl (by simpa using isSpace)

end Markflow.Builtin
