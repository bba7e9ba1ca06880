import Markflow.Proofs.Passes.CodeSpans
import Markflow.Proofs.Pattern.OneScan
import Markflow.Proofs.Text.Case
import Markflow.Proofs.Text.Digits

/-!
# Spelling names out by substitution

The two passes that spell names out do what replacing the matches of two expressions does.  An
expression finds a short spelling with all backslashes before it, which stand in pairs, so no match
begins behind a backslash: what it misses before a run of backslashes it misses in the whole run
(`rewrite_backslashes`).  That one pass spells out groups and the other references matters only
where it is shown that they are such passes (`SpellsOut`).
-/

namespace Markflow

open Regex Regex.Node

namespace Spelling

/-- The characters that names start with. -/
def startSet : CharSet :=
  ⟨[.range 0x41 0x5A, .range 0x61 0x7A, .code 0x5F], false, .exact⟩

/-- The characters that names go on with. -/
def restSet : CharSet :=
  ⟨[.range 0x41 0x5A, .range 0x61 0x7A, .range 0x30 0x39, .code 0x5F], false, .exact⟩

/-- A name. -/
def nameNode : Node :=
  seq (one startSet) (Builtin.many restSet)

/-- Pairs of backslashes. -/
def pairsNode : Node :=
  loop .greedy 0 none (seq (Builtin.lit '\\') (Builtin.lit '\\'))

/-- A short spelling with an opener of three characters, behind pairs of backslashes. -/
def shortSpelling (first second third : Char) : Regex where
  root := seq (behind false 1 (Builtin.lit '\\')) (seq (group 1 pairsNode) (seq (Builtin.lit first)
    (seq (Builtin.lit second)
      (seq (Builtin.lit third) (seq (group 2 nameNode) (Builtin.lit '>'))))))
  groupCount := 2
  names := []

theorem read?_groups [Host] :
    Regex.read? {} "(?<!\\\\)((?:\\\\\\\\)*)\\(\\?<([A-Za-z_][A-Za-z0-9_]*)>".toList =
    .ok (shortSpelling '(' '?' '<') :=
  read?_of_scant (by decide +kernel)

theorem read?_references [Host] :
    Regex.read? {} "(?<!\\\\)((?:\\\\\\\\)*)\\\\k<([A-Za-z_][A-Za-z0-9_]*)>".toList =
    .ok (shortSpelling '\\' 'k' '<') :=
  read?_of_scant (by decide +kernel)

section Sets

theorem holds_range {first last : Nat} {c : Char} :
    (SetItem.range first last).holds .exact c = true ↔ first ≤ c.toNat ∧ c.toNat ≤ last := by
  simp [SetItem.holds]

theorem holds_lowLine (c : Char) : (SetItem.code 0x5F).holds .exact c = (c == '_') :=
  toNat_beq_toNat c '_'

@[simp]
theorem holds_startSet : startSet.holds = isNameStart := by
  funext c
  rw [Bool.eq_iff_iff]
  simp [startSet, CharSet.holds, isNameStart, Text.isAsciiLetter_iff, holds_range,
    holds_lowLine, or_assoc]

@[simp]
theorem holds_restSet : restSet.holds = isNameRest := by
  funext c
  rw [Bool.eq_iff_iff]
  simp [restSet, CharSet.holds, isNameRest, Text.isAsciiLetter_iff, Text.isAsciiDigit_iff,
    holds_range, holds_lowLine, or_assoc]

end Sets

section Languages

theorem reads_lit (c : Char) : (Builtin.lit c).Reads {[c]} := by
  intro before after marks t
  rw [Builtin.mem_ways_lit]
  constructor
  · rintro ⟨rest, rfl, rfl⟩
    exact ⟨[c], rest, rfl, rfl, rfl⟩
  · rintro ⟨_, rest, rfl, rfl, rfl⟩
    exact ⟨rest, rfl, rfl⟩

theorem reads_nameNode : nameNode.Reads {name | IsName name} := by
  apply ((reads_one startSet).seq (Builtin.reads_run 0 restSet)).congr
  intro name
  refine Language.mem_mul.trans ?_
  rw [holds_startSet, holds_restSet]
  constructor
  · rintro ⟨_, ⟨c, starts, rfl⟩, rest, ⟨goesOn, -⟩, rfl⟩
    exact ⟨c, rest, rfl, starts, goesOn⟩
  · rintro ⟨c, rest, rfl, starts, goesOn⟩
    exact ⟨[c], ⟨c, starts, rfl⟩, rest, ⟨goesOn, Nat.zero_le _⟩, rfl⟩

theorem reads_pairsNode :
    pairsNode.Reads {text | ∃ count, Even count ∧ text = List.replicate count '\\'} := by
  have pair : (seq (Builtin.lit '\\') (Builtin.lit '\\')).Reads {List.replicate 2 '\\'} := by
    apply ((reads_lit '\\').seq (reads_lit '\\')).congr
    intro text
    rw [Language.mem_mul]
    constructor
    · rintro ⟨_, rfl, _, rfl, rfl⟩
      rfl
    · rintro rfl
      exact ⟨_, rfl, _, rfl, rfl⟩
  apply (pair.star rfl).congr
  intro text
  rw [Language.mem_kstar]
  constructor
  · rintro ⟨parts, rfl, parts_eq⟩
    refine ⟨parts.length * 2, even_two.mul_left _, ?_⟩
    rw [← List.flatten_replicate_replicate, ← List.eq_replicate_of_mem parts_eq]
  · rintro ⟨_, ⟨half, rfl⟩, rfl⟩
    refine ⟨List.replicate half (List.replicate 2 '\\'), ?_, fun part mem =>
      List.eq_of_mem_replicate mem⟩
    rw [List.flatten_replicate_replicate, Nat.mul_two]

end Languages

section Matches

variable {first second third : Char} {opener before after name rest : List Char}
    {count : Nat} {t : State}

/-- Backslashes, an opener, a name and a closing angle bracket. -/
def escapedSpelling (opener : List Char) (count : Nat) (name : List Char) : List Char :=
  List.replicate count '\\' ++ (opener ++ (name ++ ['>']))

theorem escapedSpelling_append : escapedSpelling opener count name ++ rest =
    List.replicate count '\\' ++ (opener ++ (name ++ '>' :: rest)) := by
  simp [escapedSpelling]

theorem of_mem_ways_root
    (mem : t ∈ (shortSpelling first second third).root.ways ⟨.amid before after, [{}, {}]⟩) :
    before.head? ≠ some '\\' ∧ ∃ count name rest,
      after = escapedSpelling [first, second, third] count name ++ rest ∧
      Even count ∧ IsName name ∧ ∃ groups,
        List.Forall₂ GroupMark.Holds groups [some (List.replicate count '\\'), some name] ∧
          t = ⟨.amid ((escapedSpelling [first, second, third] count name).reverse ++ before) rest,
            groups⟩ := by
  rw [shortSpelling, Builtin.ways_seq_behind_false_lit] at mem
  split at mem
  · cases mem
  · next free =>
    rcases (Builtin.mem_ways_seq_group_of_reads reads_pairsNode).mp mem with
      ⟨_, opened, rfl, ⟨count, even, rfl⟩, mem⟩
    rcases Builtin.mem_ways_seq_lit.mp mem with ⟨_, rfl, mem⟩
    rcases Builtin.mem_ways_seq_lit.mp mem with ⟨_, rfl, mem⟩
    rcases Builtin.mem_ways_seq_lit.mp mem with ⟨_, rfl, mem⟩
    rcases (Builtin.mem_ways_seq_group_of_reads reads_nameNode).mp mem with
      ⟨name, _, rfl, named, mem⟩
    rcases Builtin.mem_ways_lit.mp mem with ⟨rest, rfl, rfl⟩
    have escapes_hold := GroupMark.spans_amid before (List.replicate count '\\')
      (first :: second :: third :: (name ++ '>' :: rest))
    have name_holds :=
      GroupMark.spans_amid
        (third :: second :: first :: ((List.replicate count '\\').reverse ++ before)) name
      ('>' :: rest)
    refine ⟨free, count, name, rest, ?_, even, named, _, .cons escapes_hold (.cons name_holds .nil),
      ?_⟩
    · rw [escapedSpelling_append]
      rfl
    · simp [escapedSpelling]

theorem exists_mem_ways_root (free : before.head? ≠ some '\\') (even : Even count)
    (named : IsName name) :
    ∃ t, t ∈ (shortSpelling first second third).root.ways
      ⟨.amid before (escapedSpelling [first, second, third] count name ++ rest), [{}, {}]⟩ := by
  rw [shortSpelling, Builtin.ways_seq_behind_false_lit, if_neg free, escapedSpelling_append]
  exact
    ⟨_, (Builtin.mem_ways_seq_group_of_reads reads_pairsNode).mpr ⟨_, _, rfl, ⟨count, even, rfl⟩,
    Builtin.mem_ways_seq_lit.mpr ⟨_, rfl,
      Builtin.mem_ways_seq_lit.mpr ⟨_, rfl, Builtin.mem_ways_seq_lit.mpr ⟨_, rfl,
      (Builtin.mem_ways_seq_group_of_reads reads_nameNode).mpr ⟨name, _, rfl, named,
        Builtin.mem_ways_lit.mpr ⟨rest, rfl, rfl⟩⟩⟩⟩⟩⟩⟩

/-- At the earlier of two places behind pairs of backslashes, the second character of a short
spelling would be one. -/
theorem count_le {count' : Nat} {front back : List Char} (unescaping : second ≠ '\\')
    (even : Even count)
    (even' : Even count')
    (same : List.replicate count '\\' ++ front =
      List.replicate count' '\\' ++ first :: second :: back) :
    count ≤ count' := by
  rcases even with ⟨half, rfl⟩
  rcases even' with ⟨half', rfl⟩
  by_contra longer
  obtain ⟨less, rfl⟩ : ∃ less, half = half' + (less + 1) := Nat.exists_eq_add_of_lt (by omega)
  have count_eq : half' + (less + 1) + (half' + (less + 1)) =
      half' + half' + (less + less + 1 + 1) := by omega
  rw [count_eq, List.replicate_add, List.append_assoc, List.append_cancel_left_eq,
    List.replicate_succ, List.replicate_succ] at same
  exact unescaping (List.cons.inj (List.cons.inj same).2).1.symm

/-- A text has one beginning at most that is a short spelling behind pairs of backslashes. -/
theorem escapedSpelling_unique {count' : Nat} {name' rest' : List Char} (unescaping : second ≠ '\\')
    (even : Even count) (even' : Even count') (named : IsName name) (named' : IsName name')
    (same : escapedSpelling [first, second, third] count name ++ rest =
      escapedSpelling [first, second, third] count' name' ++ rest') :
      count = count' ∧ name = name' := by
  rw [escapedSpelling_append, escapedSpelling_append] at same
  obtain rfl : count = count' :=
    Nat.le_antisymm (count_le unescaping even even' same) (count_le unescaping even' even same.symm)
  have spelled_eq := List.append_cancel_left (List.append_cancel_left same)
  have closes : ∀ rest, Text.Stops isNameRest ('>' :: rest) := fun rest =>
    Text.stops_cons.mpr (by decide)
  exact
    ⟨rfl, (Text.cut_unique named.goesOn (closes rest) named'.goesOn (closes rest') spelled_eq).1⟩

/-- A short spelling is found behind all backslashes that stand before it, where they are even. -/
theorem findAt?_shortSpelling {found : Found} (unescaping : second ≠ '\\') :
    (shortSpelling first second third).findAt? before after = some found ↔
      before.head? ≠ some '\\' ∧
      ∃ count name rest, after = escapedSpelling [first, second, third] count name ++ rest ∧
        Even count ∧ IsName name ∧
        found =
          ⟨escapedSpelling [first, second, third] count name,
            [some (List.replicate count '\\'), some name]⟩ := by
  have shape : ∀ {found after}, (shortSpelling first second third).findAt? before after =
      some found →
      before.head? ≠ some '\\' ∧ ∃ count name rest,
        after = escapedSpelling [first, second, third] count name ++ rest ∧
        Even count ∧ IsName name ∧
          found =
            ⟨escapedSpelling [first, second, third] count name,
              [some (List.replicate count '\\'), some name]⟩ := by
    intro found after found_eq
    rcases Option.map_eq_some_iff.mp found_eq with ⟨t, t_eq, -⟩
    rcases of_mem_ways_root (List.mem_of_head? t_eq) with
      ⟨free, count, name, rest, rfl, even, named, groups, holds, rfl⟩
    refine ⟨free, count, name, rest, rfl, even, named, ?_⟩
    exact Option.some.inj (found_eq.symm.trans (findAt?_of_head? t_eq holds rfl))
  refine ⟨shape, ?_⟩
  rintro ⟨free, count, name, rest, rfl, even, named, rfl⟩
  rcases @exists_mem_ways_root first second third before name rest count free even named with
    ⟨t, t_mem⟩
  rcases exists_findAt?_of_mem t_mem with ⟨found, found_eq⟩
  rcases shape found_eq with ⟨-, count', name', rest', same, even', named', rfl⟩
  rcases escapedSpelling_unique unescaping even even' named named' same with ⟨rfl, rfl⟩
  exact found_eq

end Matches

section Passes

variable {first second third : Char} {opener before text rest : List Char}
    {spelled pass : List Char → List Char}
  {write : Found → List Char}

/-- A text starts with a short spelling behind pairs of backslashes. -/
def OpensEscaped (opener text : List Char) : Prop :=
  ∃ count name rest, text = escapedSpelling opener count name ++ rest ∧ Even count ∧ IsName name

/-- A pass spells out the names behind an opener, and it keeps all other characters and the
backslashes before them. -/
structure SpellsOut (opener : List Char) (spelled pass : List Char → List Char) : Prop where
  named : ∀ {count name rest}, Even count → IsName name →
    pass (escapedSpelling opener count name ++ rest) =
      List.replicate count '\\' ++ (spelled name ++ pass rest)
  kept : ∀ {count c rest}, c ≠ '\\' →
    ¬ OpensEscaped opener (List.replicate count '\\' ++ c :: rest) →
    pass (List.replicate count '\\' ++ c :: rest) = List.replicate count '\\' ++ c :: pass rest
  backslashes : ∀ count, pass (List.replicate count '\\') = List.replicate count '\\'

theorem exists_backslashes_before (text : List Char) :
    ∃ count rest, text = List.replicate count '\\' ++ rest ∧ rest.head? ≠ some '\\' := by
  rcases Text.exists_cut (· == '\\') text with ⟨run, rest, rfl, run_all, stops⟩
  refine ⟨run.length, rest, ?_, fun first_eq => ?_⟩
  · rw [← List.eq_replicate_of_mem fun c mem => beq_iff_eq.mp (run_all c mem)]
  · exact absurd (stops _ first_eq) (by decide)

theorem findAt?_behind_backslash (unescaping : second ≠ '\\') :
    (shortSpelling first second third).findAt? ('\\' :: before) text = none := by
  rw [Option.eq_none_iff_forall_ne_some]
  intro found found_eq
  exact ((findAt?_shortSpelling unescaping).mp found_eq).1 rfl

/-- Where nothing is found before backslashes, they are kept, and nothing is found behind them. -/
theorem rewrite_backslashes (write : Found → List Char) {count : Nat} (unescaping : second ≠ '\\')
    (missed :
      (shortSpelling first second third).findAt? before (List.replicate count '\\' ++ rest) =
        none) :
    (shortSpelling first second third).rewrite write before (List.replicate count '\\' ++ rest) =
      List.replicate count '\\' ++
        (shortSpelling first second third).rewrite write (List.replicate count '\\' ++ before)
          rest ∧
    (shortSpelling first second third).findAt? (List.replicate count '\\' ++ before) rest =
      none := by
  induction count generalizing before with
  | zero => exact ⟨rfl, missed⟩
  | succ count ih =>
    have below := @ih ('\\' :: before) (findAt?_behind_backslash unescaping)
    have one_more :
        List.replicate count '\\' ++ '\\' :: before =
          List.replicate (count + 1) '\\' ++ before := by
      rw [List.replicate_succ', List.append_assoc, List.singleton_append]
    rw [one_more] at below
    rw [List.replicate_succ, List.cons_append] at missed ⊢
    rw [rewrite_of_none missed, below.1]
    exact ⟨rfl, below.2⟩

/-- Replacing what the expression of a short spelling matches is a pass that spells it out. -/
theorem rewrite_shortSpelling (spells : SpellsOut [first, second, third] spelled pass)
    (unescaping : second ≠ '\\')
    (writes : ∀ count name text, write ⟨text, [some (List.replicate count '\\'), some name]⟩ =
      List.replicate count '\\' ++ spelled name) (free : before.head? ≠ some '\\') :
    (shortSpelling first second third).rewrite write before text = pass text := by
  induction sized : text.length using Nat.strongRecOn generalizing before text with
  | _ size ih =>
    subst sized
    rcases found_eq : (shortSpelling first second third).findAt? before text with _ | found
    · -- Nothing begins here or behind one of the backslashes, so these and the character behind
      -- them are kept.
      rcases exists_backslashes_before text with ⟨count, rest, rfl, apart⟩
      rcases rewrite_backslashes write unescaping found_eq with ⟨kept, missed⟩
      rcases rest with _ | ⟨c, rest⟩
      · rw [kept, rewrite_nil, List.append_nil, spells.backslashes]
      · have unescaped : c ≠ '\\' := fun same => apart (congrArg some same)
        have shorter : rest.length < (List.replicate count '\\' ++ c :: rest).length := by
          rw [List.length_append, List.length_cons]
          omega
        have below := @ih rest.length shorter (c :: (List.replicate count '\\' ++ before)) rest
          (fun same => unescaped (Option.some.inj same)) rfl
        have notOpens :
            ¬ OpensEscaped [first, second, third] (List.replicate count '\\' ++ c :: rest) := by
          rintro ⟨count', name, more, text_eq, even, named⟩
          have again :=
            (findAt?_shortSpelling unescaping).mpr ⟨free, count', name, more, text_eq,
              even, named, rfl⟩
          cases found_eq.symm.trans again
        rw [kept, rewrite_of_none missed, below, spells.kept unescaped notOpens]
    · -- A match ends with an angle bracket, so behind it a match can begin again.
      rcases (findAt?_shortSpelling unescaping).mp found_eq with
        ⟨-, count, name, rest, text_eq, even, named, found_is⟩
      have found_text : found.text = escapedSpelling [first, second, third] count name := by
        rw [found_is]
      rw [← found_text] at text_eq
      subst text_eq
      have shorter : rest.length < (found.text ++ rest).length := by
        simp only [found_text, escapedSpelling, List.length_append, List.length_cons]
        omega
      have closed : (found.text.reverse ++ before).head? ≠ some '\\' := by
        simp [found_text, escapedSpelling]
      have below := @ih rest.length shorter _ rest closed rfl
      rw [rewrite_of_some rfl found_eq, below, found_text, spells.named even named, found_is,
        writes, List.append_assoc]

theorem copiesPairs_expandGroups : CopiesPairs (expandGroups false) :=
  fun _ => expandGroups_escape

theorem copiesPairs_expandReferences : CopiesPairs (expandReferences false false) :=
  fun _ => expandReferences_of_not_opens (not_opens_reference (by decide))

/-- An opener behind pairs of backslashes. -/
theorem OpensEscaped.of_opens {count : Nat} (even : Even count) (opens : Opens opener text) :
    OpensEscaped opener (List.replicate count '\\' ++ text) := by
  rcases opens with ⟨name, rest, named, rfl⟩
  exact ⟨count, name, rest, escapedSpelling_append.symm, even, named⟩

theorem spellsOut_groups :
    SpellsOut ['(', '?', '<'] (fun name => '(' :: '?' :: 'P' :: '<' :: (name ++ ['>']))
      (expandGroups false) where
  named := by
    intro count name rest even named
    rw [escapedSpelling_append, copiesPairs_expandGroups.of_even even, List.append_cancel_left_eq]
    refine (expandGroups_spelling named).trans ?_
    simp
  kept := by
    intro count c rest unescaping notOpens
    rcases Nat.even_or_odd count with even | odd
    · have other : ¬ Opens ['(', '?', '<'] (c :: rest) := fun opens =>
        notOpens (.of_opens even opens)
      rw [copiesPairs_expandGroups.of_even even, expandGroups_of_not_opens unescaping other]
    · exact copiesPairs_expandGroups.of_odd odd expandGroups_escape
  backslashes := copiesPairs_expandGroups.alone rfl rfl

theorem spellsOut_references :
    SpellsOut ['\\', 'k', '<'] (fun name => '(' :: '?' :: 'P' :: '=' :: (name ++ [')']))
      (expandReferences false false) where
  named := by
    intro count name rest even named
    rw [escapedSpelling_append, copiesPairs_expandReferences.of_even even,
      List.append_cancel_left_eq]
    refine (expandReferences_spelling named).trans ?_
    simp
  kept := by
    intro count c rest unescaping notOpens
    rcases Nat.even_or_odd count with even | ⟨half, rfl⟩
    · rw [copiesPairs_expandReferences.of_even even, expandReferences_other unescaping]
    · have other : ¬ Opens ['\\', 'k', '<'] ('\\' :: c :: rest) := by
        intro opens
        have opensEscaped := OpensEscaped.of_opens (even_two_mul half) opens
        rw [List.replicate_succ', List.append_assoc] at notOpens
        exact notOpens opensEscaped
      exact copiesPairs_expandReferences.of_odd ⟨half, rfl⟩ (expandReferences_of_not_opens other)
  backslashes := copiesPairs_expandReferences.alone rfl rfl

end Passes

section Substitution

/-- A text with the matches of an expression replaced. -/
def substitute (regex : Regex) (output : Match → String) (text : List Char) : List Char :=
  splice (.atStart text) ((regex.scan text).map fun found => (found, output found))

/-- The text of a group of a match, empty for an unset group. -/
def groupText (found : Match) (index : Nat) : String :=
  (found.groups[index - 1]?.join).getD ""

/-- The first group of a match, and the second between two texts. -/
def framed (opening closing : String) (found : Match) : String :=
  groupText found 1 ++ opening ++ groupText found 2 ++ closing

/-- What `framed` writes, for the texts of a match. -/
def framedText (opening closing : String) (found : Found) : List Char :=
  (found.groups[0]?.join).getD [] ++
    (opening.toList ++ ((found.groups[1]?.join).getD [] ++ closing.toList))

theorem toList_groupText (found : Match) (index : Nat) :
    (groupText found index).toList = (found.found.groups[index - 1]?.join).getD [] := by
  rw [groupText, Match.found, List.getElem?_map]
  rcases found.groups[index - 1]? with _ | _ | text <;> rfl

theorem toList_framed (opening closing : String) (found : Match) :
    (framed opening closing found).toList = framedText opening closing found.found := by
  simp [framed, framedText, toList_groupText]

theorem substitute_shortSpelling {first second third : Char} {pass spelled : List Char → List Char}
    {opening closing : String} (spells : SpellsOut [first, second, third] spelled pass)
    (unescaping : second ≠ '\\')
    (spelled_eq : ∀ name, spelled name = opening.toList ++ (name ++ closing.toList))
    (text : List Char) :
    substitute (shortSpelling first second third) (framed opening closing) text = pass text := by
  have splices : substitute (shortSpelling first second third) (framed opening closing) text = _ :=
    splice_scan rfl (toList_framed opening closing) text
  rw [splices]
  apply rewrite_shortSpelling spells unescaping
  · intro count name text
    rw [spelled_eq]
    rfl
  · decide

/-- Spelling names out replaces the matches of one expression after those of another, and it is one
scan from left to right.  Spelling them out again changes nothing, and look-behinds and long
spellings are kept wherever they stand.  A short spelling is spelled out where an even number of
backslashes stands before it. -/
theorem expand_one_scan [Host] :
    (∃ groups references : Regex,
      Regex.read? {} "(?<!\\\\)((?:\\\\\\\\)*)\\(\\?<([A-Za-z_][A-Za-z0-9_]*)>".toList =
        .ok groups ∧
      Regex.read? {} "(?<!\\\\)((?:\\\\\\\\)*)\\\\k<([A-Za-z_][A-Za-z0-9_]*)>".toList =
        .ok references ∧
      ∀ text,
        expand text =
        substitute references (framed "(?P=" ")") (substitute groups (framed "(?P<" ">") text)) ∧
    (∀ text result, expand text = result ↔ Spelled text result) ∧
    (∀ text, expand (expand text) = expand text) ∧
    (∀ piece front back, IsLong piece →
      expand (front ++ (piece ++ back)) = expand front ++ (piece ++ expand back)) ∧
    ∀ before name rest count, before.getLast? ≠ some '\\' → IsName name →
      expand (before ++ (List.replicate count '\\' ++ '(' :: '?' :: '<' :: (name ++ '>' :: rest))) =
        expand before ++ (List.replicate count '\\' ++
          ((if Even count then ['(', '?', 'P', '<'] else ['(', '?', '<']) ++
            (name ++ '>' :: expand rest))) ∧
      expand
        (before ++ (List.replicate count '\\' ++ '\\' :: 'k' :: '<' :: (name ++ '>' :: rest))) =
        expand before ++ (List.replicate count '\\' ++
          if Even count then '(' :: '?' :: 'P' :: '=' :: (name ++ ')' :: expand rest)
          else '\\' :: 'k' :: '<' :: (name ++ '>' :: expand rest)) := by
  refine ⟨⟨_, _, read?_groups, read?_references, ?_⟩, fun _ _ => spelled_iff.symm,
    expand_expand, ?_, ?_⟩
  · intro text
    rw [substitute_shortSpelling spellsOut_groups (by decide) (fun _ => rfl),
      substitute_shortSpelling spellsOut_references (by decide) (fun _ => rfl)]
    rfl
  · exact fun piece front back long => expand_long long front back
  · exact fun before name rest count complete named =>
      ⟨expand_group_behind named complete count, expand_reference_behind named complete count⟩

attribute [local instance] Host.standard

/-- After three backslashes the short spelling of a group is kept, and a reference behind it is
spelled out. -/
theorem expand_one_scan_escaped :
    ['a'].getLast? ≠ some '\\' ∧ IsName ['b'] ∧ expand "a\\\\\\(?<b>\\k<b>".toList =
      "a\\\\\\(?<b>(?P=b)".toList := by
  have complete : ['a'].getLast? ≠ some '\\' := by decide
  have named : IsName ['b'] := ⟨'b', [], rfl, by decide, by decide⟩
  have kept := (expand_one_scan.2.2.2.2 ['a'] ['b'] "\\k<b>".toList 3 complete named).1
  exact ⟨complete, named, kept.trans (by decide)⟩

end Substitution

end Spelling

end Markflow
