import Markflow.Escape
import Markflow.Proofs.Text.Cuts

/-!
# Decoding escaped text

Escaping writes some characters as references and all others as they are (`encode`).  It runs in
stages, each over the text of the one before it.  No stage finds any of its characters in the
references written so far, so the stages come down to a single one with all of their references
(`encode_encode`).

A text that looks like a reference is read back as it was because the ampersand has a reference as
well: behind escaping, every ampersand opens a reference that was written, and one pass over the
result gives back the text (`decode_encode`).
-/

namespace Markflow.Escape

/-- Characters with the references that they are written as. -/
abbrev Table := List (Char × List Char)

def entities (quote : Bool) : Table :=
  [('&', "&amp;".toList), ('<', "&lt;".toList), ('>', "&gt;".toList)] ++
    if quote then [('"', "&quot;".toList), ('\'', "&#x27;".toList)] else []

def markups : Table :=
  [('*', "&#42;".toList), ('_', "&#95;".toList), ('~', "&#126;".toList), ('\x60', "&#96;".toList),
    ('[', "&#91;".toList), (']', "&#93;".toList), ('!', "&#33;".toList)]

def lineFeeds : Table :=
  [('\n', "&#10;".toList)]

def spelled (table : Table) (c : Char) : List Char :=
  (table.lookup c).getD [c]

/-- Writes a text with the references of a table. -/
def encode (table : Table) (text : List Char) : List Char :=
  text.flatMap (spelled table)

/-- Reads a text in a single pass, which goes on behind each reference. -/
def decode (table : Table) : List Char → List Char
  | [] => []
  | c :: rest => match table.find? (·.2.isPrefixOf (c :: rest)) with
    | some entry => entry.1 :: decode table (rest.drop (entry.2.length - 1))
    | none => c :: decode table rest
termination_by text => text.length
decreasing_by all_goals simp; try omega

/-- A text with a line feed for each carriage return and line feed. -/
def mergeReturns : List Char → List Char
  | '\r' :: '\n' :: rest => '\n' :: mergeReturns rest
  | c :: rest => c :: mergeReturns rest
  | [] => []

/-- The references of a table can be told apart.  They open with an ampersand, which is written as a
reference, and hold none of the characters of the table behind it. -/
structure Readable (table : Table) : Prop where
  ampersand : (table.lookup '&').isSome = true
  opens : ∀ entry ∈ table, entry.2.head? = some '&'
  plain : ∀ entry ∈ table, ∀ other ∈ table, other.1 ∉ entry.2.tail
  apart : ∀ entry ∈ table, ∀ other ∈ table, entry.2 <+: other.2 → entry = other

/-- A text is escaped: some characters are missing, every ampersand opens a reference of the table,
and reading it gives the source. -/
structure Escaped (table : Table) (barred source text : List Char) : Prop where
  without : ∀ c ∈ barred, c ∉ text
  opens : ∀ front back, text = front ++ '&' :: back → ∃ entry ∈ table, entry.2 <+: '&' :: back
  decoded : decode table text = source

section Encode

variable {table first second : Table} {c : Char} {text : List Char}

theorem encode_cons (table : Table) (c : Char) (text : List Char) :
    encode table (c :: text) = spelled table c ++ encode table text :=
  List.flatMap_cons

@[simp]
theorem spelled_nil (c : Char) : spelled [] c = [c] := rfl

@[simp]
theorem spelled_cons (d : Char) (reference : List Char) (table : Table) (c : Char) :
    spelled ((d, reference) :: table) c = if c == d then reference else spelled table c := by
  rw [spelled, List.lookup_cons]
  cases c == d <;> rfl

theorem spelled_of_none (missing : table.lookup c = none) : spelled table c = [c] := by
  rw [spelled, missing, Option.getD_none]

theorem mem_of_lookup {reference : List Char} (found : table.lookup c = some reference) :
    (c, reference) ∈ table := by
  rcases List.lookup_eq_some_iff.mp found with ⟨before, after, rfl, -⟩
  simp

/-- A character is written as its reference, or it has none and is written as it is. -/
theorem spelled_cases (table : Table) (c : Char) :
    (c, spelled table c) ∈ table ∨ (table.lookup c = none ∧ spelled table c = [c]) := by
  rcases found : table.lookup c with _ | reference
  · exact .inr ⟨rfl, spelled_of_none found⟩
  · left
    rw [spelled, found, Option.getD_some]
    exact mem_of_lookup found

theorem encode_of_none (missing : ∀ c ∈ text, table.lookup c = none) :
    encode table text = text := by
  induction text with
  | nil => rfl
  | cons c text ih =>
    rw [encode_cons, spelled_of_none (missing c List.mem_cons_self), ih fun d mem =>
      missing d (List.mem_cons_of_mem c mem)]
    rfl

/-- A stage that does not change the references of the stage before it adds its own to them. -/
theorem encode_encode (stays : ∀ entry ∈ first, ∀ c ∈ entry.2, second.lookup c = none)
    (text : List Char) :
    encode second (encode first text) = encode (first ++ second) text := by
  have each : ∀ c, encode second (spelled first c) = spelled (first ++ second) c := by
    intro c
    rcases found : first.lookup c with _ | reference
    · rw [spelled_of_none found, spelled, List.lookup_append, found, Option.none_or]
      exact List.flatMap_singleton _ c
    · have both : spelled (first ++ second) c = spelled first c := by
        simp [spelled, List.lookup_append, found]
      rw [both, spelled, found, Option.getD_some]
      exact encode_of_none (stays _ (mem_of_lookup found))
  induction text with
  | nil => rfl
  | cons c text ih => rw [encode_cons, encode_cons, ← each, ← ih, encode, List.flatMap_append,
      ← encode, ← encode]

end Encode

section Readable

variable {table : Table} (readable : Readable table)

include readable

theorem Readable.lookup_ampersand_ne {c : Char} (missing : table.lookup c = none) : c ≠ '&' := by
  rintro rfl
  have known := readable.ampersand
  rw [missing] at known
  cases known

theorem Readable.exists_reference {entry : Char × List Char} (mem : entry ∈ table) :
    ∃ name, entry.2 = '&' :: name ∧ ∀ other ∈ table, other.1 ∉ name := by
  rcases List.head?_eq_some_iff.mp (readable.opens entry mem) with ⟨name, reference_eq⟩
  refine ⟨name, reference_eq, ?_⟩
  intro other other_mem
  have out := readable.plain entry mem other other_mem
  rwa [reference_eq, List.tail_cons] at out

/-- At a reference the pass finds this reference and no other. -/
theorem Readable.find?_append {entry : Char × List Char} (mem : entry ∈ table) (rest : List Char) :
    table.find? (·.2.isPrefixOf (entry.2 ++ rest)) = some entry := by
  rcases found : table.find? (·.2.isPrefixOf (entry.2 ++ rest)) with _ | other
  · have missed := List.find?_eq_none.mp found entry mem
    simp at missed
  · have other_mem := List.mem_of_find?_eq_some found
    have isPrefix : other.2 <+: entry.2 ++ rest := by simpa using List.find?_some found
    rcases List.prefix_or_prefix_of_prefix isPrefix (List.prefix_append entry.2 rest) with
      shorter | longer
    · rw [found, readable.apart other other_mem entry mem shorter]
    · rw [found, readable.apart entry mem other other_mem longer]

theorem Readable.find?_cons {c : Char} (other : c ≠ '&') (rest : List Char) :
    table.find? (·.2.isPrefixOf (c :: rest)) = none := by
  rw [List.find?_eq_none]
  intro entry mem
  rcases readable.exists_reference mem with ⟨name, reference_eq, -⟩
  simp [reference_eq, other.symm]

theorem Readable.decode_append {entry : Char × List Char} (mem : entry ∈ table) (rest : List Char) :
    decode table (entry.2 ++ rest) = entry.1 :: decode table rest := by
  rcases readable.exists_reference mem with ⟨name, reference_eq, -⟩
  have found := readable.find?_append mem rest
  rw [reference_eq, List.cons_append] at found ⊢
  rw [decode, found]
  simp [reference_eq]

theorem Readable.decode_cons {c : Char} (other : c ≠ '&') (rest : List Char) :
    decode table (c :: rest) = c :: decode table rest := by
  rw [decode, readable.find?_cons other rest]

theorem Readable.decode_encode (text : List Char) : decode table (encode table text) = text := by
  induction text with
  | nil => rw [encode, List.flatMap_nil, decode]
  | cons c text ih =>
    rw [encode_cons]
    rcases spelled_cases table c with mem | ⟨missing, plain⟩
    · rw [readable.decode_append mem, ih]
    · rw [plain, List.singleton_append, readable.decode_cons (readable.lookup_ampersand_ne missing),
        ih]

theorem Readable.opens_of_encode {text front back : List Char}
    (split : encode table text = front ++ '&' :: back) :
    ∃ entry ∈ table, entry.2 <+: '&' :: back := by
  induction text generalizing front with
  | nil => simp [encode] at split
  | cons c text ih =>
    rw [encode_cons] at split
    rcases spelled_cases table c with mem | ⟨missing, plain⟩
    · rcases readable.exists_reference mem with ⟨name, reference_eq, name_plain⟩
      have opening : spelled table c = '&' :: name := reference_eq
      rw [opening, List.cons_append] at split
      rcases front with _ | ⟨d, front⟩
      · -- The ampersand is the one that the reference opens with.
        rcases List.cons.inj split with ⟨-, rfl⟩
        refine ⟨_, mem, ?_⟩
        rw [opening]
        exact List.prefix_append ('&' :: name) _
      · rcases List.cons.inj split with ⟨-, below⟩
        rcases List.append_eq_append_iff.mp below with ⟨more, -, rest_eq⟩ | ⟨more, name_eq, back_eq⟩
        · exact ih rest_eq
        · rcases more with _ | ⟨e, more⟩
          · exact @ih [] back_eq.symm
          · rcases List.cons.inj back_eq with ⟨rfl, -⟩
            rcases Option.isSome_iff_exists.mp readable.ampersand with ⟨reference, found⟩
            exact absurd (by simp [name_eq]) (name_plain _ (mem_of_lookup found))
    · rw [plain, List.singleton_append] at split
      rcases front with _ | ⟨d, front⟩
      · rcases List.cons.inj split with ⟨rfl, -⟩
        exact absurd rfl (readable.lookup_ampersand_ne missing)
      · exact ih (List.cons.inj split).2

/-- No character of the table but the ampersand is left. -/
theorem Readable.not_mem_encode {c : Char} (other : c ≠ '&')
    (known : (table.lookup c).isSome = true) (text : List Char) : c ∉ encode table text := by
  rcases Option.isSome_iff_exists.mp known with ⟨reference, found⟩
  intro mem
  rcases List.mem_flatMap.mp mem with ⟨d, -, inSpelled⟩
  rcases spelled_cases table d with d_mem | ⟨missing, plain⟩
  · rcases readable.exists_reference d_mem with ⟨name, reference_eq, name_plain⟩
    have opening : spelled table d = '&' :: name := reference_eq
    rw [opening] at inSpelled
    rcases List.mem_cons.mp inSpelled with rfl | inName
    · exact other rfl
    · exact name_plain _ (mem_of_lookup found) inName
  · rw [plain] at inSpelled
    rcases List.mem_singleton.mp inSpelled with rfl
    rw [missing] at found
    cases found

theorem Readable.escaped {barred : List Char}
    (known : ∀ c ∈ barred, c ≠ '&' ∧ (table.lookup c).isSome = true)
    (text : List Char) : Escaped table barred text (encode table text) where
  without c mem := readable.not_mem_encode (known c mem).1 (known c mem).2 text
  opens _ _ split := readable.opens_of_encode split
  decoded := readable.decode_encode text

end Readable

section Stages

theorem html_eq_encode (text : List Char) (quote : Bool) :
    html text quote = encode (entities quote) text := by
  have each : entity quote = spelled (entities quote) := by
    funext c
    cases quote
    · simp only [entity, entities, Bool.false_and, Bool.false_eq_true, if_false, List.append_nil,
        spelled_cons, spelled_nil]
    · simp only [entity, entities, Bool.true_and, if_true, List.cons_append, List.nil_append,
        spelled_cons, spelled_nil]
  rw [html, each, encode]

theorem markup_eq_spelled : markup = spelled markups := by
  funext c
  simp only [markup, markups, spelled_cons, spelled_nil]

theorem flatMap_markup_html (text : List Char) (quote : Bool) :
    (html text quote).flatMap markup = encode (entities quote ++ markups) text := by
  have stays : ∀ entry ∈ entities quote, ∀ c ∈ entry.2, markups.lookup c = none := by
    cases quote <;> decide
  rw [html_eq_encode, markup_eq_spelled, ← encode, encode_encode stays]

theorem lineBreaks_eq_encode (text : List Char) :
    lineBreaks text = encode lineFeeds (mergeReturns text) := by
  fun_induction lineBreaks text with
  | case1 rest ih =>
    rw [ih, mergeReturns, encode_cons]
    rfl
  | case2 rest ih =>
    rw [ih, mergeReturns, encode_cons]
    · rfl
    · simp
  | case3 c rest noReturn noFeed ih =>
    rw [ih, mergeReturns, encode_cons]
    · rw [lineFeeds, spelled_cons, if_neg (by simpa using noFeed)]
      rfl
    · exact noReturn
  | case4 => rfl

theorem mergeReturns_cons {c : Char} {rest : List Char}
    (apart : c = '\r' → rest.head? ≠ some '\n') :
    mergeReturns (c :: rest) = c :: mergeReturns rest := by
  rw [mergeReturns]
  rintro rest rfl rfl
  exact apart rfl rfl

theorem mergeReturns_append {front : List Char} (noReturn : '\r' ∉ front) (text : List Char) :
    mergeReturns (front ++ text) = front ++ mergeReturns text := by
  induction front with
  | nil => rfl
  | cons c front ih =>
    have other : c ≠ '\r' := (List.ne_of_not_mem_cons noReturn).symm
    rw [List.cons_append, mergeReturns_cons fun same => absurd same other,
      ih (List.not_mem_of_not_mem_cons noReturn)]
    rfl

/-- Carriage returns can be merged before or behind a stage that leaves them and line feeds
alone. -/
theorem mergeReturns_encode {table : Table} (readable : Readable table)
    (noReturn : ∀ entry ∈ table, '\r' ∉ entry.2)
    (free : ∀ c ∈ ['\r', '\n'], table.lookup c = none) (text : List Char) :
    mergeReturns (encode table text) = encode table (mergeReturns text) := by
  have kept : ∀ c ∈ ['\r', '\n'], spelled table c = [c] := fun c mem => spelled_of_none (free c mem)
  fun_induction mergeReturns text with
  | case1 rest ih =>
    rw [encode_cons, encode_cons, encode_cons, kept '\r' (by simp), kept '\n' (by simp), ← ih]
    rfl
  | case2 c rest noFeed ih =>
    rw [encode_cons, encode_cons, ← ih]
    rcases spelled_cases table c with mem | ⟨missing, plain⟩
    · exact mergeReturns_append (noReturn _ mem) _
    · rw [plain]
      apply mergeReturns_cons
      intro isReturn feed
      rcases rest with _ | ⟨d, rest⟩
      · cases feed
      · -- A line feed is not written for another character.
        rw [encode_cons] at feed
        rcases spelled_cases table d with d_mem | ⟨-, d_plain⟩
        · rcases readable.exists_reference d_mem with ⟨name, reference_eq, -⟩
          have opening : spelled table d = '&' :: name := reference_eq
          rw [opening] at feed
          cases feed
        · rw [d_plain] at feed
          rcases Option.some.inj feed with rfl
          exact noFeed rest isReturn rfl
  | case3 => rfl

theorem readable_entities (quote : Bool) : Readable (entities quote) := by
  cases quote <;> constructor <;> decide

theorem readable_markups (quote : Bool) : Readable (entities quote ++ markups) := by
  cases quote <;> constructor <;> decide

theorem readable_lineFeeds : Readable (entities false ++ markups ++ lineFeeds) := by
  constructor <;> decide

theorem code_false_eq_encode (text : List Char) :
    code text false = encode (entities false ++ markups ++ lineFeeds) (mergeReturns text) := by
  have stays : ∀ entry ∈ entities false ++ markups, ∀ c ∈ entry.2, lineFeeds.lookup c = none := by
    decide
  have merged := mergeReturns_encode (readable_markups false) (by decide) (by decide) text
  rw [← encode_encode stays, ← merged, ← lineBreaks_eq_encode, ← flatMap_markup_html]
  rfl

end Stages

section Escaped

theorem escaped_html (text : List Char) (quote : Bool) :
    Escaped (entities quote) (if quote then "<>\"'".toList else "<>".toList) text
      (html text quote) := by
  rw [html_eq_encode]
  apply (readable_entities quote).escaped
  cases quote <;> decide

theorem escaped_attributeValue (text : List Char) :
    Escaped (entities true ++ markups) "<>\"'*_~\x60[]!".toList text (attributeValue text) := by
  rw [attributeValue, flatMap_markup_html]
  exact (readable_markups true).escaped (by decide) text

theorem escaped_code (text : List Char) :
    Escaped (entities false ++ markups) "<>*_~\x60[]!".toList text (code text true) := by
  have code_eq : code text true = (html text false).flatMap markup := rfl
  rw [code_eq, flatMap_markup_html]
  exact (readable_markups false).escaped (by decide) text

theorem escaped_code_line (text : List Char) :
    Escaped (entities false ++ markups ++ lineFeeds) "<>*_~\x60[]!\n".toList (mergeReturns text)
      (code text false) := by
  rw [code_false_eq_encode]
  exact readable_lineFeeds.escaped (by decide) (mergeReturns text)

theorem Escaped.injective {table : Table} {barred : List Char} {escape : List Char → List Char}
    (escaped : ∀ text, Escaped table barred text (escape text)) : Function.Injective escape :=
  Function.LeftInverse.injective fun text => (escaped text).decoded

end Escaped

/-- Escaping leaves out the characters that it is to hide, and each ampersand of the result opens
one of its references.  Reading these in a single pass gives back the text, but for the carriage
returns before the line feeds of code on one line.  So no two texts are escaped alike, unless as
code on one line. -/
theorem escaping_reversible :
    (∀ text quote, Escaped (entities quote) (if quote then "<>\"'".toList else "<>".toList) text
      (html text quote)) ∧
      (∀ text, Escaped (entities true ++ markups) "<>\"'*_~\x60[]!".toList text
        (attributeValue text)) ∧
      (∀ text, Escaped (entities false ++ markups) "<>*_~\x60[]!".toList text (code text true)) ∧
      (∀ text, Escaped (entities false ++ markups ++ lineFeeds) "<>*_~\x60[]!\n".toList
        (mergeReturns text) (code text false)) ∧
      (∀ quote, Function.Injective fun text => html text quote) ∧
        Function.Injective attributeValue ∧
      Function.Injective fun text => code text true := by
  refine ⟨escaped_html, escaped_attributeValue, escaped_code, escaped_code_line, ?_, ?_, ?_⟩
  · intro quote
    exact Escaped.injective fun text => escaped_html text quote
  · exact Escaped.injective escaped_attributeValue
  · exact Escaped.injective escaped_code

end Markflow.Escape
