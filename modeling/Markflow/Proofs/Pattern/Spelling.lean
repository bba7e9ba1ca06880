import Markflow.Pattern.Compiled
import Markflow.Proofs.Regex.Respelled
import Markflow.Proofs.Regex.Room

/-!
# Spelling names out

A pattern whose expression is read as it is written is read to the same expression after its names
are spelled out, where no short spelling of a group stands in a set and none of a reference in a
comment.  Spelling names out there changes what is read: a set gets one more member and a comment
ends early.
-/

namespace Markflow

namespace Spelling

section Names

variable {text name rest : List Char} {c : Char}

/-- A text starts with a name and a closing angle bracket. -/
theorem opensName_iff : opensName text = true ↔ ∃ c name rest, isNameStart c = true ∧
    (∀ d ∈ name, isNameRest d = true) ∧ text = c :: (name ++ '>' :: rest) := by
  rcases text with _ | ⟨c, text⟩
  · simp [opensName]
  · rw [opensName, Bool.and_eq_true, beq_iff_eq]
    constructor
    · rintro ⟨starts, closes⟩
      rcases List.head?_eq_some_iff.mp closes with ⟨rest, rest_eq⟩
      refine ⟨c, text.takeWhile isNameRest, rest, starts, fun d mem =>
        List.mem_takeWhile_imp mem, ?_⟩
      rw [← rest_eq, List.takeWhile_append_dropWhile]
    · rintro ⟨c, name, rest, starts, goesOn, same⟩
      cases same
      refine ⟨starts, ?_⟩
      rw [List.dropWhile_append_of_pos goesOn, List.dropWhile_cons_of_neg (by decide)]
      rfl

theorem expandGroups_cons {escaped : Bool} (opener : c ≠ '(') (backslash : c ≠ '\\') :
    expandGroups escaped (c :: text) = c :: expandGroups false text := by
  rw [expandGroups]
  · intro rest same
    cases same
    exact absurd rfl opener
  · intro same
    exact absurd same backslash

theorem expandReferences_cons {escaped inName : Bool} (closer : c ≠ '>') (backslash : c ≠ '\\') :
    expandReferences escaped inName (c :: text) = c :: expandReferences false inName text := by
  rw [expandReferences]
  · intro rest same
    cases same
    exact absurd rfl backslash
  · intro same
    exact absurd same backslash
  · intro same
    exact absurd same closer

theorem expandReferences_other {escaped : Bool} (backslash : c ≠ '\\') :
    expandReferences escaped false (c :: text) = c :: expandReferences false false text := by
  by_cases closer : c = '>'
  · subst closer
    rw [expandReferences, if_neg Bool.false_ne_true]
  · exact expandReferences_cons closer backslash

theorem ne_of_isNameRest {d : Char} (goesOn : isNameRest c = true) (other : isNameRest d = false) :
    c ≠ d := by
  rintro rfl
  rw [goesOn] at other
  cases other

theorem isNameRest_of_isNameStart (starts : isNameStart c = true) : isNameRest c = true := by
  rw [isNameStart, Bool.or_eq_true] at starts
  rw [isNameRest, Bool.or_eq_true, Bool.or_eq_true]
  rcases starts with letter | line
  · exact .inl (.inl letter)
  · exact .inr line

theorem expandGroups_name {escaped : Bool} (goesOn : ∀ d ∈ name, isNameRest d = true) :
    expandGroups escaped (name ++ '>' :: rest) = name ++ '>' :: expandGroups false rest := by
  induction name generalizing escaped with
  | nil => exact expandGroups_cons (by decide) (by decide)
  | cons c name ih =>
    have named := goesOn c List.mem_cons_self
    rw [List.cons_append, expandGroups_cons (ne_of_isNameRest named (by decide))
      (ne_of_isNameRest named (by decide)), ih fun d mem => goesOn d (List.mem_cons_of_mem c mem),
      List.cons_append]

theorem expandGroups_named {escaped : Bool} (starts : isNameStart c = true)
    (goesOn : ∀ d ∈ name, isNameRest d = true) :
    expandGroups escaped (c :: (name ++ '>' :: rest)) =
      c :: (name ++ '>' :: expandGroups false rest) := by
  have named := isNameRest_of_isNameStart starts
  rw [expandGroups_cons (ne_of_isNameRest named (by decide)) (ne_of_isNameRest named (by decide)),
    expandGroups_name goesOn]

/-- The closing bracket of a name that is being copied becomes a parenthesis. -/
theorem expandReferences_name {escaped inName : Bool} (goesOn : ∀ d ∈ name, isNameRest d = true) :
    expandReferences escaped inName (name ++ '>' :: rest) =
      name ++ (if inName then ')' else '>') :: expandReferences false false rest := by
  induction name generalizing escaped with
  | nil =>
    rw [List.nil_append, List.nil_append, expandReferences]
    cases inName <;> rfl
  | cons c name ih =>
    have named := goesOn c List.mem_cons_self
    rw [List.cons_append,
      expandReferences_cons (ne_of_isNameRest named (by decide))
        (ne_of_isNameRest named (by decide)),
      ih fun d mem => goesOn d (List.mem_cons_of_mem c mem), List.cons_append]

theorem expandReferences_named {escaped inName : Bool} (starts : isNameStart c = true)
    (goesOn : ∀ d ∈ name, isNameRest d = true) :
    expandReferences escaped inName (c :: (name ++ '>' :: rest)) =
      c :: (name ++ (if inName then ')' else '>') :: expandReferences false false rest) := by
  have named := isNameRest_of_isNameStart starts
  rw [expandReferences_cons (ne_of_isNameRest named (by decide))
    (ne_of_isNameRest named (by decide)), expandReferences_name goesOn]

/-- Spelling groups out changes no first character. -/
theorem head?_expandGroups (escaped : Bool) (text : List Char) :
    (expandGroups escaped text).head? = text.head? := by
  fun_cases expandGroups escaped text <;> rfl

theorem expandGroups_cons_eq (escaped : Bool) (c : Char) (text : List Char) :
    ∃ more, expandGroups escaped (c :: text) = c :: more :=
  List.head?_eq_some_iff.mp (head?_expandGroups escaped (c :: text))

theorem expandGroups_eq_cons {escaped : Bool} (opener : c ≠ '(') (backslash : c ≠ '\\')
    (text_eq : expandGroups escaped text = c :: rest) :
    ∃ rest', text = c :: rest' ∧ rest = expandGroups false rest' := by
  rcases text with _ | ⟨d, text⟩
  · cases text_eq
  · rcases expandGroups_cons_eq escaped d text with ⟨more, more_eq⟩
    obtain rfl : d = c := by
      rw [more_eq] at text_eq
      exact (List.cons.inj text_eq).1
    rw [expandGroups_cons opener backslash] at text_eq
    exact ⟨text, rfl, (List.cons.inj text_eq).2.symm⟩

theorem head?_dropWhile_expandGroups {escaped : Bool} :
    ((expandGroups escaped text).dropWhile isNameRest).head? =
      (text.dropWhile isNameRest).head? := by
  induction text generalizing escaped with
  | nil => rfl
  | cons c text ih =>
    by_cases named : isNameRest c = true
    · rw [expandGroups_cons (ne_of_isNameRest named (by decide))
        (ne_of_isNameRest named (by decide)), List.dropWhile_cons_of_pos named,
        List.dropWhile_cons_of_pos named, ih]
    · rcases expandGroups_cons_eq escaped c text with ⟨more, more_eq⟩
      rw [more_eq, List.dropWhile_cons_of_neg named, List.dropWhile_cons_of_neg named]
      rfl

/-- What follows the start of a short spelling is a name after groups are spelled out where it was
one before. -/
theorem opensName_expandGroups {escaped : Bool} :
    opensName (expandGroups escaped text) = opensName text := by
  rcases text with _ | ⟨c, text⟩
  · rfl
  · by_cases starts : isNameStart c = true
    · have named := isNameRest_of_isNameStart starts
      rw [expandGroups_cons (ne_of_isNameRest named (by decide))
        (ne_of_isNameRest named (by decide)), opensName,
        opensName, head?_dropWhile_expandGroups]
    · rcases expandGroups_cons_eq escaped c text with ⟨more, more_eq⟩
      rw [more_eq, opensName, opensName, Bool.eq_false_iff.mpr starts, Bool.false_and,
        Bool.false_and]

/-- A backslash stays where it does not begin a reference. -/
theorem expandReferences_backslash {escaped : Bool}
    (other : ∀ rest, text = 'k' :: '<' :: rest → (!escaped && opensName rest) = false) :
    expandReferences escaped false ('\\' :: text) =
      '\\' :: expandReferences (!escaped) false text := by
  by_cases starts : ∃ rest, text = 'k' :: '<' :: rest
  · rcases starts with ⟨rest, rfl⟩
    rw [expandReferences, other rest rfl, if_neg Bool.false_ne_true,
      expandReferences_other (by decide), expandReferences_other (by decide)]
  · rw [expandReferences]
    intro rest same
    exact starts ⟨rest, same⟩

end Names

section Ends

variable {text : List Char} {escaped : Bool} {c : Char}

/-- Whether a text ends with a backslash that escapes nothing yet. -/
inductive Ends : List Char → Bool → Prop
  | whole {text : List Char}
      (cut : ∀ more, Regex.Token.split (text ++ more) =
        Regex.Token.split text ++ Regex.Token.split more) :
      Ends text false
  | escaping {text : List Char}
      (cut : ∀ more, Regex.Token.split (text ++ more) =
        Regex.Token.split text ++ Regex.Token.split more) :
      Ends (text ++ ['\\']) true

theorem split_other (other : c ≠ '\\') :
    Regex.Token.split (c :: text) = .plain c :: Regex.Token.split text := by
  rw [Regex.Token.split]
  · intro same
    cases same
    exact absurd rfl other
  · intro d rest same
    exact absurd same other

theorem Ends.other (ends : Ends text escaped) (other : c ≠ '\\') : Ends (text ++ [c]) false := by
  cases ends with
  | whole cut =>
    refine .whole fun more => ?_
    rw [List.append_assoc, cut, cut, List.singleton_append, split_other other, split_other other,
      List.append_assoc]
    rfl
  | escaping cut =>
    refine .whole fun more => ?_
    rw [List.append_assoc, List.append_assoc, List.append_assoc, cut, cut, List.append_assoc]
    rfl

theorem Ends.backslash (ends : Ends text escaped) : Ends (text ++ ['\\']) (!escaped) := by
  cases ends with
  | whole cut => exact .escaping cut
  | escaping cut =>
    refine .whole fun more => ?_
    rw [List.append_assoc, List.append_assoc, List.append_assoc, cut, cut, List.append_assoc]
    rfl

theorem Ends.cut (ends : Ends text false) (more : List Char) :
    Regex.Token.split (text ++ more) = Regex.Token.split text ++ Regex.Token.split more := by
  cases ends with
  | whole cut => exact cut more

theorem split_plain {front rest : List Char} (plain : ∀ c ∈ front, c ≠ '\\') :
    Regex.Token.split (front ++ rest) = front.map .plain ++ Regex.Token.split rest := by
  induction front with
  | nil => rfl
  | cons c front ih =>
    rw [List.cons_append, split_other (plain c List.mem_cons_self),
      ih fun d mem => plain d (List.mem_cons_of_mem c mem)]
    rfl

theorem split_named {c closer : Char} {name rest : List Char} (starts : isNameStart c = true)
    (goesOn : ∀ d ∈ name, isNameRest d = true) (closes : closer ≠ '\\') :
    Regex.Token.split (c :: (name ++ closer :: rest)) =
      (c :: (name ++ [closer])).map .plain ++ Regex.Token.split rest := by
  have plain : ∀ d ∈ c :: (name ++ [closer]), d ≠ '\\' := by
    intro d mem
    rcases List.mem_cons.mp mem with rfl | inRest
    · exact ne_of_isNameRest (isNameRest_of_isNameStart starts) (by decide)
    · rcases List.mem_append.mp inRest with inName | isCloser
      · exact ne_of_isNameRest (goesOn d inName) (by decide)
      · rwa [List.mem_singleton.mp isCloser]
  rw [← split_plain plain]
  simp

end Ends

variable [Host]

section Expansion

variable {mode : Regex.Mode} {pattern : List Char} {regex : Regex}

/-- The short spellings of groups stand in no set of the pattern, which would be missing its end in
what stands before them, and those of references in no comment. -/
structure IsPlain (mode : Regex.Mode) (pattern : List Char) : Prop where
  groups : ∀ before rest, pattern = before ++ '(' :: '?' :: '<' :: rest → opensName rest = true →
    ∀ position, Regex.read? mode before ≠ .error (.malformed ⟨.unterminatedSet, position⟩)
  references : ∀ before rest, pattern = before ++ '\\' :: 'k' :: '<' :: rest →
    opensName rest = true →
    ∀ position, Regex.read? mode before ≠ .error (.malformed ⟨.unterminatedComment, position⟩)

section Steps

variable {before name rest : List Char} {c : Char}

theorem read?_group (ends : Ends before false) (starts : isNameStart c = true)
    (goesOn : ∀ d ∈ name, isNameRest d = true)
    (reads : Regex.read? mode (before ++ '(' :: '?' :: '<' :: c :: (name ++ '>' :: rest)) =
      .ok regex)
    (unspoiled : ∀ position, Regex.read? mode before ≠
      .error (.malformed ⟨.unterminatedSet, position⟩)) :
    Regex.read? mode (before ++ '(' :: '?' :: 'P' :: '<' :: c :: (name ++ '>' :: rest)) =
      .ok regex := by
  refine Regex.read?_respelled (.group starts goesOn (Regex.Token.split rest)) ends.cut ?_ ?_
    reads unspoiled
  · rw [split_other (by decide), split_other (by decide), split_other (by decide),
      split_named starts goesOn (by decide)]
    rfl
  · rw [split_other (by decide), split_other (by decide), split_other (by decide),
      split_other (by decide), split_named starts goesOn (by decide)]
    rfl

theorem read?_reference (ends : Ends before false) (starts : isNameStart c = true)
    (goesOn : ∀ d ∈ name, isNameRest d = true)
    (reads : Regex.read? mode (before ++ '\\' :: 'k' :: '<' :: c :: (name ++ '>' :: rest)) =
      .ok regex)
    (unspoiled : ∀ position, Regex.read? mode before ≠
      .error (.malformed ⟨.unterminatedComment, position⟩)) :
    Regex.read? mode (before ++ '(' :: '?' :: 'P' :: '=' :: c :: (name ++ ')' :: rest)) =
      .ok regex := by
  refine Regex.read?_respelled (.reference starts goesOn (Regex.Token.split rest)) ends.cut ?_ ?_
    reads unspoiled
  · rw [Regex.Token.split, split_other (by decide), split_named starts goesOn (by decide)]
    rfl
  · rw [split_other (by decide), split_other (by decide), split_other (by decide),
      split_other (by decide), split_named starts goesOn (by decide)]
    rfl

end Steps

theorem read?_expand_from (reads : Regex.read? mode pattern = .ok regex)
    (plain : IsPlain mode pattern) {escaped : Bool}
    {before text : List Char} (pattern_eq : pattern = before ++ text) (ends : Ends before escaped) :
    Regex.read? mode (before ++ expandReferences escaped false (expandGroups escaped text)) =
      .ok regex := by
  -- The text before stays as it was written, so each spelling is replaced with everything behind it
  -- replaced already.
  fun_induction expandGroups escaped text generalizing before with
  | case1 escaped rest opens ih =>
    rw [Bool.and_eq_true, Bool.not_eq_true'] at opens
    rcases opens with ⟨rfl, opens⟩
    have passed := ((ends.other (by decide : '(' ≠ '\\')).other (by decide : '?' ≠ '\\')).other
      (by decide : '<' ≠ '\\')
    have below := ih (by simpa using pattern_eq) passed
    rcases opensName_iff.mp opens with ⟨c, name, more, starts, goesOn, rfl⟩
    rw [expandGroups_named starts goesOn] at below ⊢
    rw [expandReferences_named starts goesOn] at below
    rw [expandReferences_other (by decide), expandReferences_other (by decide),
      expandReferences_other (by decide), expandReferences_other (by decide),
      expandReferences_named starts goesOn]
    exact read?_group ends starts goesOn (by simpa using below)
      (plain.groups before _ pattern_eq opens)
  | case2 escaped rest other ih =>
    have passed := ((ends.other (by decide : '(' ≠ '\\')).other (by decide : '?' ≠ '\\')).other
      (by decide : '<' ≠ '\\')
    have below := ih (by simpa using pattern_eq) passed
    rw [expandReferences_other (by decide), expandReferences_other (by decide),
      expandReferences_other (by decide)]
    simpa using below
  | case3 escaped rest ih =>
    have below := ih (by simpa using pattern_eq) ends.backslash
    by_cases begins : ∃ more, expandGroups (!escaped) rest = 'k' :: '<' :: more ∧
      (!escaped && opensName more) = true
    · rcases begins with ⟨more, text_eq, opens⟩
      rcases expandGroups_eq_cons (by decide) (by decide) text_eq with ⟨rest, rfl, more_eq⟩
      rcases expandGroups_eq_cons (by decide) (by decide) more_eq.symm with ⟨rest, rfl, rfl⟩
      have start_eq :
          expandReferences escaped false ('\\' :: expandGroups (!escaped) ('k' :: '<' :: rest)) =
          '(' :: '?' :: 'P' :: '=' :: expandReferences false true (expandGroups false rest) := by
        rw [text_eq, expandReferences, if_pos opens]
      rw [Bool.and_eq_true, Bool.not_eq_true', opensName_expandGroups] at opens
      rcases opens with ⟨rfl, opens⟩
      -- The character behind the backslash is escaped for the rest, where the reference keeps its
      -- short spelling.
      rw [start_eq]
      rw [text_eq, expandReferences_other (by decide), expandReferences_other (by decide)] at below
      rcases opensName_iff.mp opens with ⟨c, name, more, starts, goesOn, rfl⟩
      rw [expandGroups_named starts goesOn, expandReferences_named starts goesOn] at below ⊢
      exact read?_reference ends starts goesOn (by simpa using below)
        (plain.references before _ pattern_eq opens)
    · rw [expandReferences_backslash]
      · simpa using below
      · intro more text_eq
        rw [Bool.eq_false_iff]
        intro opens
        exact begins ⟨more, text_eq, opens⟩
  | case4 escaped c rest noGroup noBackslash ih =>
    have below := ih (by simpa using pattern_eq) (ends.other noBackslash)
    rw [expandReferences_other noBackslash]
    simpa using below
  | case5 escaped =>
    rw [expandReferences]
    rwa [← pattern_eq]

/-- An expression is read in the same way after its names are spelled out. -/
theorem read?_expand (reads : Regex.read? mode pattern = .ok regex) (plain : IsPlain mode pattern) :
    Regex.read? mode (expand pattern) = .ok regex := by
  have start : Ends [] false := .whole fun _ => rfl
  exact read?_expand_from reads plain (List.nil_append pattern).symm start

end Expansion

end Spelling

namespace Pattern

/-- A pattern whose expression is read as it is written matches what that expression matches, with
the same groups, where no short spelling of a group stands in a set and none of a reference in a
comment. -/
theorem ofFlags_keeps_regex [Host] {source : String} {flags : Flags} {regex : Regex}
    (owner : Value)
    (reads : Regex.read? flags.mode source.toList = .ok regex)
    (plain : Spelling.IsPlain flags.mode source.toList) :
    ∃ pattern, ofFlags source flags owner = .ok pattern ∧ pattern.regex = regex ∧
      ∀ text, pattern.findIn text = if flags.has .everywhere then regex.scan text
        else regex.scanOnce text := by
  refine ⟨{ source, flags, regex }, ?_, rfl, fun _ => rfl⟩
  rw [ofFlags, Spelling.read?_expand reads plain]

attribute [local instance] Host.standard

/-- A short spelling of a group in a comment is spelled out, and the pattern matches what it did. -/
theorem ofFlags_keeps_regex_comment :
    ∃ (flags : Flags) (regex : Regex) (pattern : Pattern), Regex.read? flags.mode "b#(?<a>".toList =
      .ok regex ∧
      Spelling.expand "b#(?<a>".toList = "b#(?P<a>".toList ∧
        ofFlags "b#(?<a>" flags .null = .ok pattern ∧
        pattern.regex = regex ∧
          ∀ text, pattern.findIn text = if flags.has .everywhere then regex.scan text
            else regex.scanOnce text := by
  let flags : Flags := .of [.everywhere, .verbose]
  let regex : Regex := ⟨.one ⟨[.code 98], false, .exact⟩, 0, []⟩
  have reads : Regex.read? flags.mode "b#(?<a>".toList = .ok regex :=
    Regex.read?_of_scant (by decide +kernel)
  have plain : Spelling.IsPlain flags.mode "b#(?<a>".toList := by
    constructor
    · intro before rest pattern_eq opens position refused
      have before_eq : before = "b#".toList := by
        rcases before with _ | ⟨c₀, _ | ⟨c₁, _ | ⟨c₂, before⟩⟩⟩
        · simp at pattern_eq
        · simp at pattern_eq
        · cases pattern_eq
          rfl
        · have behind : "?<a>".toList = before ++ '(' :: '?' :: '<' :: rest := by
            simp only [List.cons_append] at pattern_eq
            exact (List.cons.inj (List.cons.inj (List.cons.inj pattern_eq).2).2).2
          have mem : '(' ∈ "?<a>".toList := behind ▸ List.mem_append_right before List.mem_cons_self
          exact absurd mem (by decide)
      have readable : Regex.read? flags.mode "b#".toList = .ok regex :=
        Regex.read?_of_scant (by decide +kernel)
      rw [before_eq, readable] at refused
      cases refused
    · intro before rest pattern_eq
      have mem : '\\' ∈ "b#(?<a>".toList :=
        pattern_eq ▸ List.mem_append_right before List.mem_cons_self
      exact absurd mem (by decide)
  rcases ofFlags_keeps_regex .null reads plain with ⟨pattern, compiled, same, finds⟩
  exact ⟨flags, regex, pattern, reads, by decide, compiled, same, finds⟩

/-- A short spelling of a group in a set adds a member to the set. -/
theorem ofFlags_changes_regex :
    ∃ (regex : Regex) (pattern : Pattern), Regex.read? Flags.default.mode "[(?<a>]".toList =
      .ok regex ∧
      ofFlags "[(?<a>]" .default .null = .ok pattern ∧ (regex.scan "P".toList).map Match.span = [] ∧
        (pattern.findIn "P".toList).map Match.span = [(0, 1)] := by
  let regex : Regex :=
    ⟨.one ⟨[.code 40, .code 63, .code 60, .code 97, .code 62], false, .exact⟩, 0, []⟩
  let wider : Regex :=
    ⟨.one ⟨[.code 40, .code 63, .code 80, .code 60, .code 97, .code 62], false, .exact⟩, 0, []⟩
  have reads : Regex.read? Flags.default.mode "[(?<a>]".toList = .ok regex :=
    Regex.read?_of_scant (by decide +kernel)
  have expanded : Regex.read? Flags.default.mode (Spelling.expand "[(?<a>]".toList) = .ok wider :=
    Regex.read?_of_scant (by decide +kernel)
  let pattern : Pattern := { source := "[(?<a>]", flags := .default, regex := wider }
  refine ⟨regex, pattern, reads, ?_, by decide +kernel, by decide +kernel⟩
  rw [ofFlags, expanded]

/-- The long spelling of a reference closes the comment in which the short one stands. -/
example : (Regex.read? Flags.default.mode "(?#\\k<a>)b".toList).toOption.isSome = true ∧
    (Regex.read? Flags.default.mode (Spelling.expand "(?#\\k<a>)b".toList)).toOption = none := by
  decide +kernel

end Pattern

end Markflow
