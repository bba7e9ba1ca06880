import Markflow.Proofs.Passes.Fences
import Markflow.Proofs.Passes.Headers
import Markflow.Proofs.Passes.Lists
import Markflow.Proofs.Passes.Paragraphs
import Markflow.Proofs.Passes.Rules

/-!
# Block passes

The passes of all block transforms are passes over lines.  A line is taken by one of them only when
what follows its indentation starts with certain characters (`Builtin.leads`), and blocks that blank
lines separate are passed over one by one (`Turns`).
-/

namespace Markflow

namespace Builtin

/-- The place of a built-in transform in the order in which they run. -/
def rank (kind : Builtin) : Nat :=
  all.idxOf kind

theorem rank_injective {first second : Builtin} (same : first.rank = second.rank) :
    first = second := by
  revert same
  cases first <;> cases second <;> decide

/-- When each pass takes a text to its next stage, all passes take it to its last. -/
theorem foldl_pass_of_stages {stage : Nat → List Char}
    (step : ∀ kind : Builtin, kind.pass (stage kind.rank) = stage (kind.rank + 1)) :
    all.foldl (fun text kind => kind.pass text) (stage 0) = stage all.length := by
  have stages : ∀ later earlier : List Builtin, all = earlier ++ later →
      later.foldl (fun text kind => kind.pass text) (stage earlier.length) = stage all.length := by
    intro later
    induction later with
    | nil =>
      intro earlier split
      rw [split, List.append_nil]
      rfl
    | cons kind later ih =>
      intro earlier split
      have rank_eq : kind.rank = earlier.length := by
        have nodup : (earlier ++ kind :: later).Nodup := split ▸ by decide
        have fresh : kind ∉ earlier := fun inEarlier =>
          (List.nodup_append.mp nodup).2.2 kind inEarlier kind (by simp) rfl
        rw [rank, split, List.idxOf_append_of_notMem fresh, List.idxOf_cons_self, Nat.add_zero]
      rw [List.foldl_cons, ← rank_eq, step kind, rank_eq]
      simpa using ih (earlier ++ [kind]) (by simpa using split)
  exact stages all [] rfl

/-- Whether a built-in transform is for blocks. -/
def isBlock (kind : Builtin) : Bool :=
  kind.isLinewise || kind == paragraphs

/-- The pass of a block transform at a line. -/
def blockTake : Builtin → Take
  | codeBlocks => fenceTake
  | headers => headerTake
  | horizontalRule => ruleTake
  | unorderedList => runTake isBulleted bulletLines
  | orderedList => runTake isNumbered numberLines
  | blockquote => runTake isQuoted quoteLines
  | paragraphs => runTake Text.hasInk (wrapLines [])
  | _ => fun _ _ => none

theorem scansLines_blockTake {kind : Builtin} (block : kind.isBlock = true) :
    ScansLines kind.regex kind.written kind.blockTake := by
  cases kind with
  | codeBlocks => exact scansLines_codeBlocks
  | headers => exact scansLines_headers
  | horizontalRule => exact scansLines_horizontalRule
  | unorderedList => exact scansLines_unorderedList
  | orderedList => exact scansLines_orderedList
  | blockquote => exact scansLines_blockquote
  | paragraphs => exact scansLines_paragraphs
  | _ => simp [isBlock, isLinewise] at block

/-- The pass of a block transform goes over the lines of a text. -/
theorem pass_eq_lineScan {kind : Builtin} (block : kind.isBlock = true) (text : List Char) :
    kind.pass text = Text.join ['\n'] (lineScan kind.blockTake (Text.lines text)) :=
  (scansLines_blockTake block).rewrite_eq text

/-- The lines of a text after the pass of a block transform, when those that it writes hold no line
feed. -/
theorem lines_pass {kind : Builtin} (block : kind.isBlock = true) {text : List Char}
    (inLine : ∀ line ∈ lineScan kind.blockTake (Text.lines text), '\n' ∉ line) :
    Text.lines (kind.pass text) = lineScan kind.blockTake (Text.lines text) := by
  rw [pass_eq_lineScan block]
  exact Text.lines_join inLine
    ((scansLines_blockTake block).lineScan_ne_nil (Text.lines_ne_nil text))

/-- The first character of a line behind its indentation. -/
def lead? (line : List Char) : Option Char :=
  (afterIndent? line).bind List.head?

/-- The characters that a line may start with that is taken by a block transform. -/
def leads : Builtin → Char → Bool
  | codeBlocks, c => c == '\x60'
  | headers, c => c == '#'
  | horizontalRule, c => c == '-' || c == '*' || c == '_'
  | unorderedList, c => c == '*' || c == '+' || c == '-'
  | orderedList, c => Text.isDigit c
  | blockquote, c => c == '>'
  | paragraphs, _ => true
  | _, _ => false

theorem lead?_cons {c : Char} (line : List Char) (noSpace : c ≠ ' ') :
    lead? (c :: line) = some c := by
  simp [lead?, afterIndent?, noSpace]

/-- A line is not taken by a transform whose lines start otherwise. -/
theorem blockTake_of_lead? {kind : Builtin} {line : List Char} {c : Char}
    (lead : lead? line = some c)
    (other : kind.leads c = false) (more : List (List Char)) : kind.blockTake line more = none := by
  obtain ⟨text, indented⟩ : ∃ text, afterIndent? line = some (c :: text) := by
    rcases indented : afterIndent? line with _ | _ | ⟨d, text⟩
    · simp [lead?, indented] at lead
    · simp [lead?, indented] at lead
    · obtain rfl : d = c := by simpa [lead?, indented] using lead
      exact ⟨text, rfl⟩
  have startsWith : ∀ d rest, line = d :: rest → d ≠ ' ' → d = c := by
    rintro d rest rfl noSpace
    simpa [lead?_cons rest noSpace] using lead
  cases kind with
  | codeBlocks =>
    rcases ticks : afterTicks? line with _ | rest
    · simp [blockTake, fenceTake, fenceInfo?, ticks]
    · unfold afterTicks? at ticks
      split at ticks
      · have := startsWith _ _ rfl (by decide)
        simp [leads, ← this] at other
      · simp at ticks
  | headers =>
    rcases line with _ | ⟨d, rest⟩
    · simp [blockTake, headerTake, header?, Regex.Node.allows]
    · by_cases hash : d = '#'
      · have := startsWith d rest rfl (by simp [hash])
        simp [leads, ← this, hash] at other
      · simp [blockTake, headerTake, header?, Regex.Node.allows, hash]
  | horizontalRule =>
    have stops : ∀ mark, c ≠ mark → isRuleRun mark 3 (c :: text) = false := by
      intro mark differs
      simp [isRuleRun, differs]
    simp only [leads, Bool.or_eq_false_iff, beq_eq_false_iff_ne] at other
    simp [blockTake, ruleTake, isRule, indented, stops '-' other.1.1, stops '*' other.1.2,
      stops '_' other.2]
  | unorderedList =>
    have : ¬ ((c == '*' || c == '+' || c == '-') = true) := by simpa [leads] using other
    simp [blockTake, runTake, isBulleted, afterBullet?, indented, this]
  | orderedList =>
    have : Text.isDigit c = false := other
    simp [blockTake, runTake, isNumbered, afterNumber?, indented, this]
  | blockquote =>
    have : c ≠ '>' := by simpa [leads] using other
    simp [blockTake, runTake, isQuoted, indented, this]
  | paragraphs => simp [leads] at other
  | _ => rfl

/-- A blank line is not taken. -/
theorem blockTake_nil (kind : Builtin) (more : List (List Char)) :
    kind.blockTake [] more = none := by
  cases kind <;> rfl

end Builtin

/-- A pass over lines makes other lines of a block, and it goes on behind it.  Nothing follows the
block or a blank line does. -/
def Turns (take : Take) (block out : List (List Char)) : Prop :=
  ∀ rest, (rest = [] ∨ ∃ others, rest = [] :: others) →
    lineScan take (block ++ rest) = out ++ lineScan take rest

namespace Turns

variable {take : Take}

theorem of_missed {block : List (List Char)}
    (missed : ∀ line ∈ block, ∀ more, take line more = none) :
    Turns take block block := by
  intro rest _
  induction block with
  | nil => rfl
  | cons line more ih =>
    rw [List.cons_append, lineScan_of_none (missed line (by simp) _), ih fun other mem =>
      missed other (by simp [mem])]
    rfl

theorem of_taken {line : List Char} {more out : List (List Char)}
    (taken : ∀ rest, (rest = [] ∨ ∃ others, rest = [] :: others) →
      take line (more ++ rest) = some (out, more.length)) :
    Turns take (line :: more) out := by
  intro rest closed
  rw [List.cons_append, lineScan_of_some (taken rest closed), List.drop_left]

/-- A block of marked lines is taken as a whole. -/
theorem of_marked {isMarked : List Char → Bool} (out : List (List Char) → List (List Char))
    (not_nil : isMarked [] = false) {run : List (List Char)} (run_ne : run ≠ [])
    (marked : ∀ line ∈ run, isMarked line = true) : Turns (runTake isMarked out) run (out run) := by
  intro rest closed
  apply lineScan_runTake_append out run_ne marked
  rcases closed with rfl | ⟨others, rfl⟩
  · simp
  · simpa using not_nil

end Turns

/-- Blocks, one below the other with a blank line between them. -/
def stack (blocks : List (List (List Char))) : List (List Char) :=
  List.intercalate [[]] blocks

theorem stack_cons_cons (block next : List (List Char)) (more : List (List (List Char))) :
    stack (block :: next :: more) = block ++ [] :: stack (next :: more) := by
  simp [stack, List.intercalate_cons_cons]

/-- A pass over lines goes over blocks one by one. -/
theorem lineScan_stack {take : Take} (blank : ∀ more, take [] more = none)
    {blocks outs : List (List (List Char))}
    (turns : List.Forall₂ (Turns take) blocks outs) :
    lineScan take (stack blocks) = stack outs := by
  induction turns with
  | nil => simp [stack]
  | @cons block out blocks outs first more ih =>
    cases more with
    | nil => simpa [stack] using first [] (.inl rfl)
    | cons second more =>
      rw [stack_cons_cons, stack_cons_cons, first _ (.inr ⟨_, rfl⟩), lineScan_of_none (blank _), ih]

/-- Blocks as a text. -/
theorem join_stack {blocks : List (List (List Char))} (nonempty : ∀ block ∈ blocks, block ≠ []) :
    Text.join ['\n'] (stack blocks) = Text.join ['\n', '\n'] (blocks.map (Text.join ['\n'])) := by
  induction blocks with
  | nil => rfl
  | cons block more ih =>
    rcases more with _ | ⟨next, more⟩
    · simp [stack, Text.join]
    · have stack_ne : stack (next :: more) ≠ [] := by
        obtain ⟨line, others, rfl⟩ := List.exists_cons_of_ne_nil (nonempty next (by simp))
        rcases more with _ | ⟨second, more⟩ <;> simp [stack, List.intercalate_cons_cons]
      rw [stack_cons_cons, Text.join_append (nonempty block (by simp)), Text.lineTail_cons,
        Text.lineTail_eq_cons_join stack_ne, ih fun other mem => nonempty other (by simp [mem])]
      simp [Text.join]

end Markflow
