import Markflow.Proofs.Pattern.Letters
import Markflow.Proofs.Pipeline.Failure
import Markflow.Proofs.Regex.Scanning

/-!
# What replacing matches makes of a text

A pass renders the matches of a scan from left to right and puts the outputs in their place.
`Text.patch` says what comes out, in terms of the text and the offsets of the matches alone: the
parts of the text between the matches with the outputs between them.  So the outputs are not looked
at again, a text without a match stays as it is, and a match that is rendered as itself changes
nothing (`replaces_matches`).
-/

namespace Markflow

/-- A text from an offset on, with outputs in place of spans of it. -/
def Text.patch (text : List Char) (place : Nat) : List ((Nat × Nat) × String) → List Char
  | [] => text.drop place
  | ((start, stop), output) ::
      more => text.extract place start ++ output.toList ++ patch text stop more

namespace Regex.Cursor

theorem after_eq_drop (c : Cursor) : c.after = c.text.drop c.offset := by
  simp [Cursor.text, c.offset_eq]

theorem between_eq_extract (c d : Cursor) : c.between d = c.text.extract c.offset d.offset := by
  rw [between, after_eq_drop, List.extract]

end Regex.Cursor

variable {text : List Char}

/-- The text of a match is that of its span. -/
theorem Match.text_eq_extract {m : Match} (start_eq : m.start.text = text) :
    m.text = String.ofList (text.extract m.span.1 m.span.2) := by
  rw [Match.text, Regex.Cursor.between_eq_extract, start_eq]
  rfl

theorem splice_eq_patch {place : Regex.Cursor} {edits : List (Match × String)}
    (place_eq : place.text = text) (within : ∀ edit ∈ edits, edit.1.stop.text = text) :
    splice place edits =
      Text.patch text place.offset (edits.map fun edit => (edit.1.span, edit.2)) := by
  induction edits generalizing place with
  | nil => rw [splice, List.map_nil, Text.patch, place.after_eq_drop, place_eq]
  | cons edit edits ih =>
    rw [List.forall_mem_cons] at within
    rw [splice, List.map_cons, Match.span, Text.patch, ih within.1 within.2,
      place.between_eq_extract, place_eq]

theorem drop_eq_extract_append {place start stop : Nat} (toStart : place ≤ start)
    (toStop : start ≤ stop) :
    text.drop place = text.extract place start ++ text.extract start stop ++ text.drop stop := by
  have rest (low high : Nat) (ordered : low ≤ high) :
      text.drop low = text.extract low high ++ text.drop high := by
    rw [List.extract, ← Nat.add_sub_of_le ordered, ← List.drop_drop, Nat.add_sub_cancel_left,
      List.take_append_drop]
  rw [List.append_assoc, ← rest start stop toStop, ← rest place start toStart]

/-- Spans that are replaced by what stands there leave the text as it is. -/
theorem patch_self {place : Nat} {found : List Match} (apart : found.Pairwise Match.Before)
    (ahead : ∀ m ∈ found, place ≤ m.start.offset ∧ m.start.offset ≤ m.stop.offset ∧
      m.start.text = text) :
    Text.patch text place ((found.map Match.span).zip (found.map Match.text)) =
      text.drop place := by
  induction found generalizing place with
  | nil => rfl
  | cons m found ih =>
    rw [List.forall_mem_cons] at ahead
    rw [List.pairwise_cons] at apart
    rcases ahead with ⟨⟨behind, ordered, start_eq⟩, later⟩
    rw [drop_eq_extract_append behind ordered, ← @ih m.stop.offset apart.2]
    · simp only [List.map_cons, List.zip_cons_cons, Text.patch, Match.text_eq_extract start_eq,
        String.toList_ofList, Match.span]
    · intro other other_mem
      exact ⟨(apart.1 other other_mem).1, (later other other_mem).2⟩

namespace Pattern

theorem findIn_eq_take (pattern : Pattern) (text : List Char) :
    pattern.findIn text =
      if pattern.flags.has .everywhere then pattern.regex.scan text
        else (pattern.regex.scan text).take 1 := by
  rw [findIn, Regex.scanOnce_eq_take, isGlobal]

theorem sublist_scan (pattern : Pattern) (text : List Char) :
    (pattern.findIn text).Sublist (pattern.regex.scan text) := by
  rw [findIn_eq_take]
  split
  · exact .refl _
  · exact List.take_sublist 1 _

/-- The matches that are replaced stand in the text, one before the other. -/
theorem findIn_within (pattern : Pattern) (text : List Char) :
    (pattern.findIn text).Pairwise Match.Before ∧ ∀ m ∈ pattern.findIn text,
      m.start.offset ≤ m.stop.offset ∧ m.start.text = text ∧ m.stop.text = text := by
  have scans := pattern.regex.scans_scan text
  refine ⟨scans.pairwise_before.sublist (pattern.sublist_scan text), ?_⟩
  intro m m_mem
  have within := scans.within m ((pattern.sublist_scan text).subset m_mem)
  simpa using within.2

variable {σ : Type} {output : Captures → Action σ String} {text : String}

/-- A pattern replaces its matches as `Text.patch` does when they are rendered in turn. -/
theorem runOn_replace (pattern : Pattern) {outputs : List String} {traced left : Traced σ}
    (inTurn : Action.InTurn output ((pattern.findIn text.toList).map pattern.capturesOf) outputs
      traced left) :
    (pattern.replace output text).runOn traced = (.ok (String.ofList (Text.patch text.toList 0
      (((pattern.findIn text.toList).map Match.span).zip outputs)),
      (pattern.findIn text.toList).length), left) := by
  have spliced : splice (.atStart text.toList) ((pattern.findIn text.toList).zip outputs) =
      Text.patch text.toList 0 (((pattern.findIn text.toList).map Match.span).zip outputs) := by
    rw [splice_eq_patch (Regex.Cursor.text_atStart _), List.zip_map_left]
    · rfl
    · rintro ⟨m, written⟩ edit_mem
      exact ((pattern.findIn_within text.toList).2 m (List.of_mem_zip edit_mem).1).2.2
  have rendered := inTurn.runOn_mapM
  rw [List.mapM_map] at rendered
  simp only [replace, bind_pure_comp, Action.runOn_map]
  rw [show (fun one => output (pattern.capturesOf one)) = output ∘ pattern.capturesOf from
    rfl, rendered, Except.map, spliced]

end Pattern

variable {σ : Type} {output : Captures → Action σ String}

/-- What is put in place of a match when the render function gives texts. -/
theorem Definition.output_eq_of_texts {ρ : Type} {call : Caller ρ σ} {d : Definition ρ}
    (gives : ∀ captures, d.callRender call captures = .text <$> output captures) :
    d.output call = output := by
  funext captures
  rw [Definition.output, gives, bind_map_left, bind_pure]

section

variable [Host]

/-- A definition with a pattern does what the pattern does, and makes a record of it. -/
theorem Definition.runOn_apply {ρ : Type} {call : Caller ρ σ} {d : Definition ρ} {pattern : Pattern}
    {text replaced : String} {count : Nat} {traced left : Traced σ}
    (compiles : d.compile = .ok pattern) (given : d.lacksRender = false)
    (ran : (pattern.replace (d.output call) text).runOn traced = (.ok (replaced, count), left)) :
    (d.apply call text).runOn traced = (.ok replaced, { left with records := left.records ++
      [⟨.debug, .pipeline, s!"Transform '{d.name.shown}' replaced {count} match(es)"⟩] }) := by
  rw [apply_eq given compiles, Action.runOn_bind, ran]
  simp [Action.runOn_map, Except.map]

open Markflow.Action in
/-- What a pattern that can be read makes of a text whose matches are rendered as texts.  The
matches are those of a scan, or the first of them when the flags do not ask for all; they stand in
the text one before the other, and the captures of each have its span and its text.  Each is
rendered once, from left to right.  The result has the outputs in place of the spans and all other
text as it was.  A transform with the pattern gives the same. -/
theorem Pattern.replaces_matches {source flags owner : Value} {pattern : Pattern}
    (compiled : Pattern.compile source flags owner = .ok pattern) (text : String) {σ : Type}
    (output : Captures → Action σ String)
    (renders : ∀ m ∈ pattern.findIn text.toList, ∀ traced, ∃ written left,
      (output (pattern.capturesOf m)).runOn traced = (.ok written, left)) (traced : Traced σ) :
    ∃ all found outputs left replaced,
      Flags.read flags = .ok pattern.flags ∧
      Regex.Scans pattern.regex false (.atStart text.toList) all ∧
      found = pattern.findIn text.toList ∧
      found = (if pattern.flags.has .everywhere then all else all.take 1) ∧
      found.Pairwise Match.Before ∧
      (∀ m ∈ found, m.start.offset ≤ m.stop.offset ∧ m.stop.offset ≤ text.length ∧
        (pattern.capturesOf m).start = m.start.offset ∧
          (pattern.capturesOf m).stop = m.stop.offset ∧
        (pattern.capturesOf m).full =
          String.ofList (text.toList.extract m.start.offset m.stop.offset)) ∧
      InTurn output (found.map pattern.capturesOf) outputs traced left ∧
      replaced = String.ofList (Text.patch text.toList 0 ((found.map Match.span).zip outputs)) ∧
      (pattern.replace output text).runOn traced = (.ok (replaced, found.length), left) ∧
      (∀ {ρ : Type} (call : Caller ρ σ) (d : Definition ρ), d.compile = .ok pattern →
        d.lacksRender = false →
        (∀ captures, d.callRender call captures = .text <$> output captures) →
        ∃ records, (d.apply call text).runOn traced = (.ok replaced, ⟨left.state, records⟩)) ∧
      (found = [] → replaced = text) ∧
      (outputs = found.map (fun m => (pattern.capturesOf m).full) → replaced = text) := by
  obtain ⟨outputs, left, inTurn⟩ : ∃ outputs left,
      InTurn output ((pattern.findIn text.toList).map pattern.capturesOf) outputs traced left :=
    exists_inTurn (by simpa using renders) traced
  have ran := pattern.runOn_replace inTurn
  have ⟨apart, within⟩ := pattern.findIn_within text.toList
  refine ⟨_, _, outputs, left, _, (of_compile compiled).2, pattern.regex.scans_scan text.toList,
    rfl, pattern.findIn_eq_take text.toList, apart, ?_, inTurn, rfl, ran, ?_, ?_, ?_⟩
  · intro m m_mem
    rcases within m m_mem with ⟨ordered, start_eq, stop_eq⟩
    have inside := m.stop.offset_add_ahead
    rw [stop_eq, String.length_toList] at inside
    exact ⟨ordered, by omega, rfl, rfl, Match.text_eq_extract start_eq⟩
  · intro ρ call d compiles given gives
    rw [← Definition.output_eq_of_texts gives] at ran
    exact ⟨_, Definition.runOn_apply compiles given ran⟩
  · intro none_found
    rw [none_found]
    exact String.ofList_toList
  · intro same
    rw [same]
    simp only [Pattern.capturesOf, Captures.ofMatch]
    rw [patch_self apart, List.drop_zero, String.ofList_toList]
    intro m m_mem
    exact ⟨Nat.zero_le _, (within m m_mem).1, (within m m_mem).2.1⟩

end

attribute [local instance] Host.standard

/-- An empty match counts directly behind another match, but not where an empty one was found
before: of the text axb the expression x* takes the spans 0–0, 1–2, 2–2 and 3–3, whose numbers stand
in their place. -/
theorem Pattern.replaces_matches_empty :
    let pattern : Pattern :=
      ⟨"x*", .default, ⟨.loop .greedy 0 none (.one (.single .exact 'x'.toNat)), 0, []⟩⟩
    let count : Captures → Action Nat String := fun _ => do
      let n ← Action.state
      Action.setState (n + 1)
      return toString n
    Pattern.compile (.text "x*") (.text "g") .null = .ok pattern ∧
    (∀ m ∈ pattern.findIn "axb".toList, ∀ traced, ∃ written left,
      (count (pattern.capturesOf m)).runOn traced = (.ok written, left)) ∧
    ∃ outputs left, (pattern.findIn "axb".toList).map Match.span =
      [(0, 0), (1, 2), (2, 2), (3, 3)] ∧
      Action.InTurn count ((pattern.findIn "axb".toList).map pattern.capturesOf)
        outputs ⟨0, []⟩ left ∧
      (pattern.replace count "axb").runOn ⟨0, []⟩ = (.ok ("0a12b3", 4), left) := by
  intro pattern count
  have compiles : Pattern.compile (.text "x*") (.text "g") .null = .ok pattern := by rfl
  have counts : ∀ m ∈ pattern.findIn "axb".toList, ∀ traced, ∃ written left,
      (count (pattern.capturesOf m)).runOn traced = (.ok written, left) :=
    fun m m_mem traced => ⟨_, _, rfl⟩
  have spans : (pattern.findIn "axb".toList).map Match.span = [(0, 0), (1, 2), (2, 2), (3, 3)] := by
    rfl
  have number : (pattern.findIn "axb".toList).length = 4 := by rfl
  have numbered :
      (((pattern.findIn "axb".toList).map pattern.capturesOf).mapM count).runOn ⟨0, []⟩ =
      (.ok ["0", "1", "2", "3"], ⟨4, []⟩) := by rfl
  rcases Pattern.replaces_matches compiles "axb" count counts ⟨0, []⟩ with
    ⟨all, found, outputs, left, replaced, -, -, rfl, -, -, -, inTurn, rfl, ran, -⟩
  cases inTurn.runOn_mapM.symm.trans numbered
  rw [spans, number] at ran
  exact ⟨compiles, counts, _, _, spans, inTurn, ran⟩

end Markflow
