import Markflow.Proofs.Document.BlockHtml
import Markflow.Proofs.Scans.Fences
import Markflow.Proofs.Text.Returns

/-!
# Line endings

The passes of code blocks, lists, quotes and paragraphs go in step over a text and over the same
text with carriage returns at the ends of its lines (`TakesAlike`).  None of the tests that decide
how long a run of lines is finds a carriage return behind a line, and the texts of items and
paragraphs are stripped of it.  It stays in lines that are copied and goes out of code with the line
feed behind it.
-/

namespace Markflow

namespace Escape

open Text (withoutReturns)

theorem withoutReturns_encode {table : Table} (noReturn : ∀ entry ∈ table, '\r' ∉ entry.2)
    (free : table.lookup '\r' = none) (text : List Char) :
    withoutReturns (encode table text) = encode table (withoutReturns text) := by
  induction text with
  | nil => rfl
  | cons c text ih =>
    rw [encode_cons, Text.withoutReturns_append, ih]
    by_cases isReturn : c = '\r'
    · subst isReturn
      rw [spelled_of_none free]
      rfl
    · have bare : '\r' ∉ spelled table c := by
        rcases spelled_cases table c with mem | ⟨-, plain⟩
        · exact noReturn _ mem
        · simpa [plain] using Ne.symm isReturn
      rw [Text.withoutReturns_eq_self bare, Text.withoutReturns_cons isReturn, encode_cons]

theorem withoutReturns_mergeReturns (text : List Char) :
    withoutReturns (mergeReturns text) = withoutReturns text := by
  fun_induction mergeReturns text with
  | case1 rest ih =>
    have feed : ∀ text, withoutReturns ('\n' :: text) = '\n' :: withoutReturns text :=
      Text.withoutReturns_cons (by decide)
    rw [Text.withoutReturns_return, feed, feed, ih]
  | case2 c rest apart ih =>
    by_cases isReturn : c = '\r'
    · rw [isReturn, Text.withoutReturns_return, Text.withoutReturns_return, ih]
    · rw [Text.withoutReturns_cons isReturn, Text.withoutReturns_cons isReturn, ih]
  | case3 => rfl

/-- Carriage returns can be deleted before code is escaped or behind it. -/
theorem withoutReturns_code (text : List Char) :
    withoutReturns (code text false) = code (withoutReturns text) false := by
  have merged : mergeReturns (withoutReturns text) = withoutReturns text := by
    have kept := mergeReturns_append (Text.return_not_mem_withoutReturns text) []
    rwa [List.append_nil, mergeReturns, List.append_nil] at kept
  rw [code_false_eq_encode, code_false_eq_encode, merged,
    withoutReturns_encode (by decide) (by decide),
    withoutReturns_mergeReturns]

theorem return_not_mem_attributeValue {text : List Char} (bare : '\r' ∉ text) :
    '\r' ∉ attributeValue text := by
  have kept : withoutReturns (attributeValue text) = attributeValue text := by
    rw [attributeValue, flatMap_markup_html, withoutReturns_encode (by decide) (by decide),
      Text.withoutReturns_eq_self bare]
  rw [← kept]
  exact Text.return_not_mem_withoutReturns _

end Escape

namespace Builtin

open Text (Returned withoutReturns)

/-- What is taken at a line does not depend on the carriage returns at the ends of lines; what is
written may keep them. -/
def TakesAlike (take : Take) : Prop :=
  ∀ line other more others, Returned line other → List.Forall₂ Returned more others →
    (take other others).map (Prod.map (List.map withoutReturns) id) = take line more

/-- Two passes over lines go in step. -/
theorem lineScan_of_takesAlike {take : Take} (alike : TakesAlike take)
    {ls others : List (List Char)}
    (returned : List.Forall₂ Returned ls others) :
    (lineScan take others).map withoutReturns = lineScan take ls := by
  fun_induction lineScan take ls generalizing others with
  | case1 =>
    cases returned
    rw [lineScan_nil, List.map_nil]
  | case2 line more missed ih =>
    cases returned with
    | cons first below =>
      have missed' := alike _ _ _ _ first below
      rw [missed, Option.map_eq_none_iff] at missed'
      rw [lineScan_of_none missed', List.map_cons, first.withoutReturns, ih below]
  | case3 line more out count taken ih =>
    cases returned with
    | cons first below =>
      have taken' := alike _ _ _ _ first below
      rw [taken, Option.map_eq_some_iff] at taken'
      rcases taken' with ⟨⟨written, count'⟩, taken', same⟩
      cases same
      rw [lineScan_of_some taken', List.map_append]
      exact congrArg _ (ih (List.forall₂_drop count' below))

/-- A run of lines is taken as long as the same run with carriage returns. -/
theorem takeWhile_returned {test : List Char → Bool}
    (unread : ∀ line, '\r' ∉ line → test (line ++ ['\r']) = test line)
    {ls others : List (List Char)} (returned : List.Forall₂ Returned ls others) :
    List.Forall₂ Returned (ls.takeWhile test) (others.takeWhile test) := by
  induction returned with
  | nil => exact .nil
  | @cons line other more others first below ih =>
    rw [List.takeWhile_cons, List.takeWhile_cons, first.congr _ unread]
    split
    · exact .cons first ih
    · exact .nil

theorem takesAlike_runTake {isMarked : List Char → Bool}
    {write : List (List Char) → List (List Char)}
    (unread : ∀ line, '\r' ∉ line → isMarked (line ++ ['\r']) = isMarked line)
    (alike : ∀ run others, List.Forall₂ Returned run others →
      (write others).map withoutReturns = write run) :
    TakesAlike (runTake isMarked write) := by
  intro line other more others first below
  have run := takeWhile_returned unread below
  rw [runTake, runTake, first.congr _ unread]
  split
  · rw [Option.map_some, Prod.map, alike _ _ (.cons first run), run.length_eq]
    rfl
  · rfl

section Marks

theorem afterIndent?_return (line : List Char) :
    afterIndent? (line ++ ['\r']) = (afterIndent? line).map (· ++ ['\r']) := by
  rw [afterIndent?, afterIndent?, Text.takeWhile_concat (by decide),
    Text.dropWhile_concat (by decide)]
  split <;> rfl

theorem afterGap?_return (text : List Char) :
    afterGap? (text ++ ['\r']) = (afterGap? text).map (· ++ ['\r']) := by
  rcases text with _ | ⟨c, text⟩
  · rfl
  · rw [List.cons_append, afterGap?, afterGap?, Text.dropWhile_concat (by decide)]
    split <;> rfl

theorem afterBullet?_return (line : List Char) :
    afterBullet? (line ++ ['\r']) = (afterBullet? line).map (· ++ ['\r']) := by
  rw [afterBullet?, afterBullet?, afterIndent?_return]
  rcases afterIndent? line with _ | _ | ⟨c, text⟩
  · rfl
  · rfl
  · dsimp only [Option.map_some, List.cons_append]
    rw [afterGap?_return]
    split <;> rfl

theorem afterNumber?_return (line : List Char) :
    afterNumber? (line ++ ['\r']) = (afterNumber? line).map (Prod.map id (· ++ ['\r'])) := by
  rw [afterNumber?, afterNumber?, afterIndent?_return]
  rcases afterIndent? line with _ | text
  · rfl
  · dsimp only [Option.map_some]
    rw [Text.takeWhile_concat (by decide)]
    rcases Text.exists_cut Text.isDigit text with ⟨digits, back, rfl, passed, stops⟩
    rw [Text.takeWhile_cut passed stops, List.append_assoc, List.drop_left, List.drop_left]
    split
    · rcases back with _ | ⟨c, back⟩
      · rfl
      · dsimp only [List.cons_append]
        rw [afterGap?_return]
        split
        · cases afterGap? back <;> rfl
        · rfl
    · rfl

theorem afterQuote?_return (line : List Char) :
    afterQuote? (line ++ ['\r']) = (afterQuote? line).map (· ++ ['\r']) := by
  rw [afterQuote?, afterQuote?, afterIndent?_return]
  rcases afterIndent? line with _ | _ | ⟨c, _ | ⟨d, text⟩⟩
  · rfl
  · rfl
  · by_cases quote : c = '>'
    · rw [quote]
      rfl
    · simp [quote]
  · by_cases quote : c = '>'
    · by_cases gap : isSpaceOrTab d = true <;> simp [quote, gap]
    · simp [quote]

theorem isBulleted_return (line : List Char) : isBulleted (line ++ ['\r']) = isBulleted line := by
  rw [isBulleted, isBulleted, afterBullet?_return]
  rcases afterBullet? line with _ | _ | ⟨c, rest⟩ <;> rfl

theorem isNumbered_return (line : List Char) : isNumbered (line ++ ['\r']) = isNumbered line := by
  rw [isNumbered, isNumbered, afterNumber?_return]
  rcases afterNumber? line with _ | ⟨number, _ | ⟨c, rest⟩⟩ <;> rfl

theorem isQuoted_return (line : List Char) : isQuoted (line ++ ['\r']) = isQuoted line := by
  rw [isQuoted, isQuoted, afterIndent?_return]
  rcases afterIndent? line with _ | _ | ⟨c, rest⟩ <;> rfl

end Marks

section Runs

variable {run others : List (List Char)}

theorem itemTexts_returned {after? : List Char → Option (List Char)}
    (behind : ∀ line, after? (line ++ ['\r']) = (after? line).map (· ++ ['\r']))
    (returned : List.Forall₂ Returned run others) :
    itemTexts after? others = itemTexts after? run := by
  apply Text.map_returned _ _ returned
  intro line _
  rw [behind]
  cases after? line <;> exact Text.strip_concat (by decide) _

theorem return_not_mem_itemTexts {after? : List Char → Option (List Char)}
    (suffix : ∀ line rest, after? line = some rest → rest <:+ line)
    (bare : ∀ line ∈ run, '\r' ∉ line) :
    ∀ item ∈ itemTexts after? run, '\r' ∉ item := by
  intro item mem
  rcases exists_of_mem_itemTexts suffix mem with ⟨line, line_mem, subset⟩
  exact fun inItem => bare line line_mem (subset inItem)

theorem map_withoutReturns_bulletLines (returned : List.Forall₂ Returned run others) :
    (bulletLines others).map withoutReturns = bulletLines run := by
  have bare := return_not_mem_itemTexts (fun _ _ => suffix_of_afterBullet?)
    (Text.return_not_mem_of_returned returned)
  rw [bulletLines, bulletLines, itemTexts_returned afterBullet?_return returned]
  exact Text.map_withoutReturns_eq_self
    (not_mem_listLines (by decide) (by decide) List.not_mem_nil bare)

theorem runStart_returned (returned : List.Forall₂ Returned run others) :
    runStart others = runStart run := by
  cases returned with
  | nil => rfl
  | cons first below =>
    apply first.congr fun line => runStart (line :: _)
    intro line _
    rw [runStart, runStart, afterNumber?_return]
    cases afterNumber? line <;> rfl

theorem return_not_mem_runStart (run : List (List Char)) : '\r' ∉ runStart run := by
  cases run with
  | nil => exact List.not_mem_nil
  | cons line more =>
    rw [runStart]
    split
    · exact not_mem_startText (by decide) (by decide) _
    · exact List.not_mem_nil

theorem map_withoutReturns_numberLines (returned : List.Forall₂ Returned run others) :
    (numberLines others).map withoutReturns = numberLines run := by
  have behind : ∀ line, (afterNumber? (line ++ ['\r'])).map (·.2) =
      ((afterNumber? line).map (·.2)).map (· ++ ['\r']) := by
    intro line
    rw [afterNumber?_return]
    cases afterNumber? line <;> rfl
  have bare :=
    return_not_mem_itemTexts suffix_of_afterNumber? (Text.return_not_mem_of_returned returned)
  rw [numberLines, numberLines, itemTexts_returned behind returned, runStart_returned returned]
  exact Text.map_withoutReturns_eq_self
    (not_mem_listLines (by decide) (by decide) (return_not_mem_runStart run) bare)

theorem map_withoutReturns_quoteLines (returned : List.Forall₂ Returned run others) :
    (quoteLines others).map withoutReturns = quoteLines run := by
  have bare :=
    return_not_mem_itemTexts suffix_of_afterQuote? (Text.return_not_mem_of_returned returned)
  have text_bare : '\r' ∉ Text.join [' '] (quoteTexts run) :=
    Text.not_mem_join (by decide) fun text mem => bare text (List.mem_of_mem_filter mem)
  rw [quoteLines, quoteLines, quoteTexts, itemTexts_returned afterQuote?_return returned,
    ← quoteTexts]
  apply Text.map_withoutReturns_eq_self
  intro line mem
  rcases List.mem_singleton.mp mem with rfl
  simp [text_bare]

end Runs

section Paragraphs

variable {run others pending : List (List Char)}

theorem afterTagName?_concat {name : List Char} {c : Char}
    (out : ∀ letter ∈ name, (Regex.CharSet.single .unicode letter.toNat).holds c = false)
    (text : List Char) :
    afterTagName? name (text ++ [c]) = (afterTagName? name text).map (· ++ [c]) := by
  induction name generalizing text with
  | nil => rfl
  | cons letter name ih =>
    rcases text with _ | ⟨d, text⟩
    · rw [List.nil_append, afterTagName?, if_neg (by simp [out letter List.mem_cons_self])]
      rfl
    · rw [List.cons_append, afterTagName?, afterTagName?, ih fun e mem =>
        out e (List.mem_cons_of_mem letter mem)]
      split <;> rfl

theorem startsWithBlockTag_return (text : List Char) :
    startsWithBlockTag (text ++ ['\r']) = startsWithBlockTag text := by
  have out : ∀ tag ∈ blockTags, ∀ letter ∈ tag.toList,
      (Regex.CharSet.single .unicode letter.toNat).holds '\r' = false := by
    decide +kernel
  rw [Bool.eq_iff_iff, startsWithBlockTag, startsWithBlockTag, List.any_eq_true, List.any_eq_true]
  apply exists_congr
  intro tag
  apply and_congr_right
  intro mem
  rw [afterTagName?_concat (out tag mem)]
  rcases afterTagName? tag.toList text with _ | _ | ⟨c, rest⟩ <;> rfl

theorem isBlockLine_return (line : List Char) :
    isBlockLine (line ++ ['\r']) = isBlockLine line := by
  fun_cases isBlockLine line with
  | case1 rest text_eq =>
    rw [isBlockLine, Text.dropWhile_concat (by decide), text_eq]
    rfl
  | case2 rest text_eq =>
    rw [isBlockLine, Text.dropWhile_concat (by decide), text_eq]
    exact startsWithBlockTag_return rest
  | case3 rest noComment noSlash text_eq =>
    rw [isBlockLine, Text.dropWhile_concat (by decide), text_eq, ← startsWithBlockTag_return,
      List.cons_append]
    -- The carriage return completes neither the opening of a comment nor that of a closing tag.
    split
    · next comment_eq =>
      rcases rest with _ | ⟨c, _ | ⟨d, _ | ⟨e, rest⟩⟩⟩ <;> simp at comment_eq
      rcases comment_eq with ⟨rfl, rfl, rfl, -⟩
      exact absurd rfl (noComment rest)
    · next slash_eq =>
      rcases rest with _ | ⟨c, rest⟩ <;> simp at slash_eq
      rcases slash_eq with ⟨rfl, -⟩
      exact absurd rfl (noSlash rest)
    · next same => rw [List.tail_eq_of_cons_eq same]
    · next other => exact absurd rfl (other _)
  | case4 noComment noSlash noTag =>
    rw [isBlockLine, Text.dropWhile_concat (by decide)]
    rcases text_eq : line.dropWhile isSpaceOrTab with _ | ⟨c, rest⟩
    · rfl
    · have other : c ≠ '<' := by
        rintro rfl
        exact noTag rest text_eq
      simp [other]

theorem map_withoutReturns_wrapLines (returned : List.Forall₂ Returned run others)
    (bare : ∀ line ∈ pending, '\r' ∉ line) :
    (wrapLines pending others).map withoutReturns = wrapLines pending run := by
  have paragraph_eq : ∀ pending : List (List Char), (∀ line ∈ pending, '\r' ∉ line) →
      (paragraphLine pending).map withoutReturns = paragraphLine pending := fun _ bare =>
    Text.map_withoutReturns_eq_self (not_mem_paragraphLine (by decide) bare)
  induction returned generalizing pending with
  | nil => exact paragraph_eq pending bare
  | @cons line other run others first below ih =>
    rw [wrapLines, wrapLines, first.congr isBlockLine fun line _ => isBlockLine_return line,
      first.congr Text.strip fun line _ => Text.strip_concat (by decide) line]
    split
    · rw [List.map_append, List.map_cons, paragraph_eq pending bare, first.withoutReturns,
        ih fun _ none => absurd none List.not_mem_nil]
    · apply ih
      intro text mem
      rcases List.mem_append.mp mem with isWaiting | joins
      · exact bare text isWaiting
      · rcases List.mem_singleton.mp joins with rfl
        exact fun mem => first.bare (Text.strip_subset line mem)

end Paragraphs

section Fences

variable {line info : List Char} {code others : List (List Char)}

theorem afterTicks?_return (line : List Char) :
    afterTicks? (line ++ ['\r']) = (afterTicks? line).map (· ++ ['\r']) := by
  rcases ticks : afterTicks? line with _ | rest
  · rw [Option.map_none, Option.eq_none_iff_forall_not_mem]
    intro rest mem
    have line_eq := afterTicks?_eq_some.mp mem
    have ticks_line : "```".toList <+: line := by
      rcases List.prefix_concat_iff.mp ⟨rest, line_eq.symm⟩ with whole | within
      · have none_there : '\r' ∉ "```".toList := by decide
        rw [whole] at none_there
        exact absurd List.mem_concat_self none_there
      · exact within
    rcases ticks_line with ⟨text, rfl⟩
    cases ticks
  · rw [afterTicks?_eq_some.mp ticks]
    rfl

theorem endsFence_return {rest : List Char} (bare : '\r' ∉ rest) :
    endsFence (rest ++ ['\r']) = endsFence rest := by
  rw [endsFence, endsFence, Text.dropWhile_concat (by decide)]
  rcases text_eq : rest.dropWhile isSpaceOrTab with _ | ⟨c, text⟩
  · rfl
  · have other : c ≠ '\r' := by
      rintro rfl
      exact bare ((List.dropWhile_suffix _).subset (text_eq ▸ List.mem_cons_self))
    have differs : (c == '\r') = false := by simpa using other
    simp [differs]

theorem isCodeLine_return (line : List Char) (bare : '\r' ∉ line) :
    isCodeLine (line ++ ['\r']) = isCodeLine line := by
  rw [isCodeLine, isCodeLine, isFenceEnd, isFenceEnd, afterTicks?_return]
  rcases ticks : afterTicks? line with _ | rest
  · rfl
  · rw [afterTicks?_eq_some.mp ticks] at bare
    have rest_bare : '\r' ∉ rest := fun mem => bare (List.mem_append_right _ mem)
    rw [Option.map_some, Option.any_some, Option.any_some, endsFence_return rest_bare]

theorem fenceInfo?_return (line : List Char) (bare : '\r' ∉ line) :
    fenceInfo? (line ++ ['\r']) = fenceInfo? line := by
  rw [fenceInfo?, fenceInfo?, afterTicks?_return]
  rcases ticks : afterTicks? line with _ | rest
  · rfl
  · rw [afterTicks?_eq_some.mp ticks] at bare
    have rest_bare : '\r' ∉ (rest.dropWhile isSpaceOrTab).dropWhile infoSet.holds := by
      have isSuffix :=
        (List.dropWhile_suffix infoSet.holds).trans (List.dropWhile_suffix (l := rest) isSpaceOrTab)
      exact fun mem => bare (List.mem_append_right _ (isSuffix.subset mem))
    dsimp only [Option.map_some, Option.bind_some]
    rw [Text.dropWhile_concat (by decide), Text.dropWhile_concat (by decide),
      Text.takeWhile_concat (by decide), endsFence_return rest_bare]

theorem withoutReturns_dropReturn (text : List Char) :
    withoutReturns (dropReturn text) = withoutReturns text := by
  unfold dropReturn
  split
  · next ends =>
    rcases List.getLast?_eq_some_iff.mp ends with ⟨front, rfl⟩
    simp
  · rfl

theorem dropReturn_eq_self {text : List Char} (bare : '\r' ∉ text) : dropReturn text = text := by
  unfold dropReturn
  split
  · next ends => exact absurd (List.mem_of_getLast? ends) bare
  · rfl

/-- Code whose lines end with carriage returns is written as the code without them, but for carriage
returns. -/
theorem withoutReturns_codeLine (info_bare : '\r' ∉ info)
    (returned : List.Forall₂ Returned code others) :
    withoutReturns (codeLine info others) = codeLine info code := by
  have code_bare : '\r' ∉ Text.join ['\n'] code :=
    Text.not_mem_join (by decide) (Text.return_not_mem_of_returned returned)
  have class_bare : '\r' ∉ classText info := by
    by_cases plain : info = []
    · rw [classText, if_pos plain]
      exact List.not_mem_nil
    · rw [classText, if_neg plain]
      have value_bare := Escape.return_not_mem_attributeValue info_bare
      exact List.not_mem_append (List.not_mem_append (by decide) value_bare) (by decide)
  have escaped : withoutReturns (Escape.code (dropReturn (Text.join ['\n'] others)) false) =
      Escape.code (dropReturn (Text.join ['\n'] code)) false := by
    rw [Escape.withoutReturns_code, withoutReturns_dropReturn, Text.withoutReturns_join,
      Text.map_withoutReturns returned, dropReturn_eq_self code_bare]
  have opening_bare : '\r' ∉ "<pre><code".toList ++ classText info :=
    List.not_mem_append (by decide) class_bare
  have closing_bare : '\r' ∉ "</code></pre>".toList := by decide
  have bracket : withoutReturns ('>' :: Escape.code (dropReturn (Text.join ['\n'] others)) false) =
      '>' :: Escape.code (dropReturn (Text.join ['\n'] code)) false := by
    rw [Text.withoutReturns_cons (by decide), escaped]
  have within := Text.withoutReturns_between opening_bare closing_bare
    ('>' :: Escape.code (dropReturn (Text.join ['\n'] others)) false)
  rw [bracket] at within
  exact within

theorem takesAlike_fenceTake : TakesAlike fenceTake := by
  intro line other more others first below
  -- The same line closes the fence, or none does and it is left as it is.
  have run := takeWhile_returned isCodeLine_return below
  have all_eq : others.all isCodeLine = more.all isCodeLine := by
    have map_eq := congrArg (·.all id) (Text.map_returned _ isCodeLine_return below)
    simpa only [List.all_map, Function.id_comp] using map_eq
  rw [fenceTake, fenceTake, first.congr _ fenceInfo?_return, all_eq]
  rcases info_eq : fenceInfo? line with _ | info
  · rfl
  · have info_bare : '\r' ∉ info := by
      rcases fenceInfo?_eq_some.mp info_eq with ⟨-, -, -, -, -, -, isInfo, -⟩
      exact fun mem => absurd (holds_infoSet_iff.mpr (isInfo _ mem)) (by decide)
    rw [Option.bind_some, Option.bind_some]
    split
    · rfl
    · rw [fenceHtml_ended, fenceHtml_ended, Option.map_some, Prod.map, List.map_singleton,
        withoutReturns_codeLine info_bare run, run.length_eq]
      rfl

end Fences

/-- The transforms for runs of lines. -/
def forRuns : List Builtin :=
  [codeBlocks, unorderedList, orderedList, blockquote, paragraphs]

theorem takesAlike_blockTake {kind : Builtin} (isForRuns : kind ∈ forRuns) :
    TakesAlike kind.blockTake := by
  cases kind with
  | codeBlocks => exact takesAlike_fenceTake
  | unorderedList =>
    exact takesAlike_runTake (fun line _ => isBulleted_return line) fun _ _ =>
      map_withoutReturns_bulletLines
  | orderedList =>
    exact takesAlike_runTake (fun line _ => isNumbered_return line) fun _ _ =>
      map_withoutReturns_numberLines
  | blockquote =>
    exact takesAlike_runTake (fun line _ => isQuoted_return line) fun _ _ =>
      map_withoutReturns_quoteLines
  | paragraphs =>
    apply takesAlike_runTake fun line _ => Text.hasInk_concat (by decide) line
    intro run others returned
    exact map_withoutReturns_wrapLines returned fun _ none => absurd none List.not_mem_nil
  | _ => simp [forRuns] at isForRuns

/-- A pass for runs of lines does the same to a text whose lines, in whatever number, end with
carriage returns. -/
theorem withoutReturns_pass {kind : Builtin} (isForRuns : kind ∈ forRuns) {text other : List Char}
    (returned : List.Forall₂ Returned (Text.lines text) (Text.lines other)) :
    withoutReturns (kind.pass other) = kind.pass text := by
  have block : kind.isBlock = true := by
    revert isForRuns
    cases kind <;> decide
  rw [pass_eq_lineScan block, pass_eq_lineScan block, Text.withoutReturns_join,
    lineScan_of_takesAlike (takesAlike_blockTake isForRuns) returned]

/-- Line endings do not matter to the transforms for runs of lines: a text with a carriage return
before each line feed becomes what the text becomes, but for the carriage returns. -/
theorem apply_withReturns [Host] {ρ σ : Type} (call : Caller ρ σ) {kind : Builtin}
    (isForRuns : kind ∈ forRuns) {text : String} (bare : '\r' ∉ text.toList) (state : σ) :
    ∃ html other, ((kind.definition : Definition ρ).apply call text).Gives state html state ∧
      ((kind.definition : Definition ρ).apply call
        (String.ofList (Text.withReturns text.toList))).Gives state other state ∧
      withoutReturns other.toList = html.toList := by
  refine ⟨_, _, gives_apply call kind text state, gives_apply call kind _ state, ?_⟩
  rw [String.toList_ofList, String.toList_ofList, String.toList_ofList]
  exact withoutReturns_pass isForRuns (Text.returned_lines bare)

attribute [local instance] Host.standard

/-- The code of a fence and the line that closes it have carriage returns at their ends. -/
theorem apply_withReturns_fence :
    codeBlocks ∈ forRuns ∧ '\r' ∉ "```\n*a*\n\n```\nb".toList ∧
      ∃ html other,
        ((codeBlocks.definition : Definition Empty).apply noCaller "```\n*a*\n\n```\nb").Gives
        () html () ∧
        ((codeBlocks.definition : Definition Empty).apply noCaller
          (String.ofList (Text.withReturns "```\n*a*\n\n```\nb".toList))).Gives () other () ∧
        withoutReturns other.toList = html.toList := by
  have isForRuns : codeBlocks ∈ forRuns := by decide
  have bare : '\r' ∉ "```\n*a*\n\n```\nb".toList := by decide
  exact ⟨isForRuns, bare, apply_withReturns noCaller isForRuns bare ()⟩

end Builtin

end Markflow
