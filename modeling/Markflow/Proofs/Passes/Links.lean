import Markflow.Proofs.Passes.Inline
import Markflow.Proofs.Regex.Languages

/-!
# Links and images

A link is a text in square brackets and a target in parentheses, an image is the same behind an
exclamation mark.  The target is a URL with a title, or without one.  Each of the parts ends where
its characters end, so there is one way to read a link at most.
-/

namespace Markflow.Builtin

open Regex Regex.Node

section Parts

variable {before after : List Char} {marks : List GroupMark} {next : Node} {t : State}

theorem mem_ways_lit {c : Char} :
    t ∈ (lit c).ways ⟨.amid before after, marks⟩ ↔ ∃ rest,
      after = c :: rest ∧ t = ⟨.amid (c :: before) rest, marks⟩ := by
  rcases after with _ | ⟨d, after⟩
  · simp
  · by_cases same : d = c <;> simp [same]

theorem mem_ways_seq_lit {c : Char} :
    t ∈ (seq (lit c) next).ways ⟨.amid before after, marks⟩ ↔
      ∃ rest, after = c :: rest ∧ t ∈ next.ways ⟨.amid (c :: before) rest, marks⟩ := by
  rcases after with _ | ⟨d, after⟩
  · simp
  · by_cases same : d = c <;> simp [same]

theorem mem_ways_optional {body : Node} (consumes : body.consumes = true) {s : State} :
    t ∈ (optional body).ways s ↔ t ∈ body.ways s ∨ t = s := by
  rw [ways_optional consumes, List.mem_append, List.mem_singleton]

theorem reads_run (least : Nat) (set : CharSet) :
    (loop .greedy least none (one set)).Reads
      {text | (∀ c ∈ text, set.holds c = true) ∧ least ≤ text.length} := by
  intro before after marks t
  rw [mem_ways_loop_of_steps (by simp) rfl (steps_one _) (by simp)]
  simp only [passed_one, allows, Option.all_none, Bool.and_true, decide_eq_true_eq]
  constructor
  · rintro ⟨text, rest, after_eq, passed, enough, t_eq⟩
    exact ⟨text, rest, after_eq, ⟨passed, enough⟩, t_eq⟩
  · rintro ⟨text, rest, after_eq, ⟨passed, enough⟩, t_eq⟩
    exact ⟨text, rest, after_eq, passed, enough, t_eq⟩

/-- A group notes what its body passes over. -/
theorem mem_ways_seq_group_of_reads {index : Nat} {body : Node} {language : Language Char}
    (reads : body.Reads language) :
    t ∈ (seq (group index body) next).ways ⟨.amid before after, marks⟩ ↔
      ∃ text rest, after = text ++ rest ∧ text ∈ language ∧
        t ∈ next.ways ⟨.amid (text.reverse ++ before) rest, marks.modify (index - 1) fun _ =>
          ⟨some (.amid before (text ++ rest)), some (.amid (text.reverse ++ before) rest)⟩⟩ := by
  have entered : State.enter ⟨.amid before after, marks⟩ index =
      ⟨.amid before after, (State.enter ⟨.amid before after, marks⟩ index).marks⟩ := rfl
  rw [ways_seq, ways_group, List.flatMap_map, List.mem_flatMap, entered]
  constructor
  · rintro ⟨u, u_mem, t_mem⟩
    rcases reads.mp u_mem with ⟨text, rest, rfl, inLanguage, rfl⟩
    rw [leave_enter] at t_mem
    exact ⟨text, rest, rfl, inLanguage, t_mem⟩
  · rintro ⟨text, rest, rfl, inLanguage, t_mem⟩
    refine ⟨_, reads.mpr ⟨text, rest, rfl, inLanguage, rfl⟩, ?_⟩
    rwa [leave_enter]

theorem mem_ways_seq_group {index least : Nat} {set : CharSet} :
    t ∈ (seq (group index (loop .greedy least none (one set))) next).ways ⟨.amid before after,
      marks⟩ ↔
      ∃ text rest, after = text ++ rest ∧ (∀ c ∈ text, set.holds c = true) ∧ least ≤ text.length ∧
        t ∈ next.ways ⟨.amid (text.reverse ++ before) rest, marks.modify (index - 1) fun _ =>
          ⟨some (.amid before (text ++ rest)), some (.amid (text.reverse ++ before) rest)⟩⟩ := by
  rw [mem_ways_seq_group_of_reads (reads_run least set)]
  constructor
  · rintro ⟨text, rest, after_eq, ⟨passed, enough⟩, t_mem⟩
    exact ⟨text, rest, after_eq, passed, enough, t_mem⟩
  · rintro ⟨text, rest, after_eq, passed, enough, t_mem⟩
    exact ⟨text, rest, after_eq, ⟨passed, enough⟩, t_mem⟩

/-- A group takes all characters of its set where what follows refuses them. -/
theorem ways_seq_group_of_stops {index least : Nat} {set : CharSet}
    (refused : ∀ before c after marks, set.holds c = true →
      next.ways ⟨.amid before (c :: after), marks⟩ = [])
    {text rest : List Char} (passed : ∀ c ∈ text, set.holds c = true)
    (stops : Text.Stops set.holds rest) (enough : least ≤ text.length) :
    (seq (group index (loop .greedy least none (one set))) next).ways ⟨.amid before (text ++ rest),
      marks⟩ =
      next.ways ⟨.amid (text.reverse ++ before) rest, marks.modify (index - 1) fun _ =>
        ⟨some (.amid before (text ++ rest)), some (.amid (text.reverse ++ before) rest)⟩⟩ := by
  have entered : State.enter ⟨.amid before (text ++ rest), marks⟩ index =
      ⟨.amid before (text ++ rest),
        (State.enter ⟨.amid before (text ++ rest), marks⟩ index).marks⟩ := rfl
  rw [ways_seq, ways_group, List.flatMap_map, entered,
    flatMap_loop_one (by simp) (by simp) _ passed stops]
  · rw [if_pos (by simpa [allows] using enough), leave_enter]
  · intro before c after holds
    exact refused before c after _ holds

end Parts

/-- Whether a character can stand in the URL of a link. -/
def isUrlChar (c : Char) : Bool :=
  c != ')' && !Text.isBlank c

/-- The characters of a URL. -/
def urlSet : CharSet :=
  ⟨[.code 0x29, .kind .blank false true], true, .exact⟩

@[simp]
theorem holds_urlSet : urlSet.holds = isUrlChar := by
  funext x
  have close : (x.toNat == 0x29) = (x == ')') := toNat_beq_toNat x ')'
  simp [urlSet, isUrlChar, CharSet.holds, SetItem.holds, CharKind.holds, close, bne, Bool.not_or]

/-- The title of a link, with what stands before it and its quotes. -/
def titleNode : Node :=
  sequence [some1 gapSet, lit '"', group 3 (many (allBut '"')), lit '"']

/-- The target of a link. -/
def targetNode : Node :=
  seq (lit '(') (seq (group 2 (some1 urlSet)) (seq (optional titleNode) (lit ')')))

/-- A text is a target with a URL and a title. -/
inductive IsTarget (url : List Char) :
    (title : Option (List Char)) → (text : List Char) → Prop where
  | plain (url_ne : url ≠ []) (url_all : ∀ c ∈ url, isUrlChar c = true) :
      IsTarget url none ('(' :: (url ++ [')']))
  | titled (url_ne : url ≠ []) (url_all : ∀ c ∈ url, isUrlChar c = true) {gap title : List Char}
      (gap_ne : gap ≠ []) (gap_all : ∀ c ∈ gap, isSpaceOrTab c = true) (noQuote : '"' ∉ title) :
      IsTarget url (some title) ('(' :: (url ++ (gap ++ '"' :: (title ++ ['"', ')']))))

theorem IsTarget.url_spec {url text : List Char} {title : Option (List Char)}
    (isTarget : IsTarget url title text) :
    url ≠ [] ∧ ∀ c ∈ url, isUrlChar c = true := by
  cases isTarget with
  | plain url_ne url_all => exact ⟨url_ne, url_all⟩
  | titled url_ne url_all => exact ⟨url_ne, url_all⟩

section Target

variable {before after : List Char} {mark mark' : GroupMark} {t : State}

theorem isUrlChar_of_isSpaceOrTab {c : Char} (gap : isSpaceOrTab c = true) :
    isUrlChar c = false := by
  rcases isSpaceOrTab_iff.mp gap with rfl | rfl <;> decide

theorem mem_ways_titleNode :
    t ∈ titleNode.ways ⟨.amid before after, [mark, mark', {}]⟩ ↔
      ∃ gap title rest, after = gap ++ '"' :: (title ++ '"' :: rest) ∧ gap ≠ [] ∧
        (∀ c ∈ gap, isSpaceOrTab c = true) ∧
        '"' ∉ title ∧
          t = ⟨.amid ('"' :: (title.reverse ++ '"' :: (gap.reverse ++ before))) rest, [mark, mark',
          ⟨some (.amid ('"' :: (gap.reverse ++ before)) (title ++ '"' :: rest)),
            some (.amid (title.reverse ++ '"' :: (gap.reverse ++ before)) ('"' :: rest))⟩]⟩ := by
  rw [show titleNode =
    seq (some1 gapSet) (seq (lit '"') (seq (group 3 (many (allBut '"'))) (lit '"'))) from rfl,
    ways_seq, List.mem_flatMap]
  constructor
  · rintro ⟨u, u_mem, t_mem⟩
    obtain ⟨gap, rest, rfl, passed, allowed, rfl⟩ :=
      (mem_ways_loop_of_steps (by simp) rfl (steps_one _) (by simp)).mp u_mem
    obtain ⟨quoted, rfl, behindQuote⟩ := mem_ways_seq_lit.mp t_mem
    obtain ⟨title, closing, rfl, title_all, _, behindTitle⟩ := mem_ways_seq_group.mp behindQuote
    obtain ⟨rest, rfl, rfl⟩ := mem_ways_lit.mp behindTitle
    refine ⟨gap, title, rest, rfl, ?_, by simpa using passed_one.mp passed, ?_, rfl⟩
    · rintro rfl
      simp [allows] at allowed
    · exact fun mem => by simpa using title_all _ mem
  · rintro ⟨gap, title, rest, rfl, gap_ne, gap_all, noQuote, rfl⟩
    refine ⟨_, (mem_ways_loop_of_steps (by simp) rfl (steps_one _) (by simp)).mpr
      ⟨gap, _, rfl, passed_one.mpr (by simpa using gap_all), ?_, rfl⟩, mem_ways_seq_lit.mpr ⟨_, rfl,
        mem_ways_seq_group.mpr ⟨title, '"' :: rest, rfl, ?_, by
          simp, mem_ways_lit.mpr ⟨rest, rfl, rfl⟩⟩⟩⟩
    · simpa [allows] using Nat.succ_le_of_lt (List.length_pos_iff.mpr gap_ne)
    · intro c mem
      have : c ≠ '"' := by
        rintro rfl
        exact noQuote mem
      simpa using this

theorem of_mem_ways_targetNode (mem : t ∈ targetNode.ways ⟨.amid before after, [mark, {}, {}]⟩) :
    ∃ url title text rest, after = text ++ rest ∧ IsTarget url title text ∧
      ∃ second third : GroupMark, second.Holds (some url) ∧ third.Holds title ∧
        t = ⟨.amid (text.reverse ++ before) rest, [mark, second, third]⟩ := by
  obtain ⟨opened, rfl, behindOpen⟩ := mem_ways_seq_lit.mp mem
  obtain ⟨url, other, rfl, url_all, enough, behindUrl⟩ := mem_ways_seq_group.mp behindOpen
  have url_ne : url ≠ [] := List.length_pos_iff.mp enough
  have url_holds := GroupMark.spans_amid ('(' :: before) url other
  obtain ⟨u, u_mem, closed⟩ := List.mem_flatMap.mp behindUrl
  rcases (mem_ways_optional rfl).mp u_mem with titled | rfl
  · obtain ⟨gap, title, closing, rfl, gap_ne, gap_all, noQuote, rfl⟩ := mem_ways_titleNode.mp titled
    obtain ⟨rest, rfl, rfl⟩ := mem_ways_lit.mp closed
    have title_holds :=
      GroupMark.spans_amid ('"' :: (gap.reverse ++ (url.reverse ++ '(' :: before))) title
      ('"' :: ')' :: rest)
    exact ⟨url, some title, _, rest, by
      simp, .titled url_ne (by simpa using url_all) gap_ne gap_all noQuote, _, _,
      url_holds, title_holds, by simp⟩
  · obtain ⟨rest, rfl, rfl⟩ := mem_ways_lit.mp closed
    exact ⟨url, none, _, rest, by
      simp, .plain url_ne (by simpa using url_all), _, _, url_holds, rfl, by simp⟩

theorem exists_mem_ways_targetNode {url text rest : List Char} {title : Option (List Char)}
    (isTarget : IsTarget url title text) :
    ∃ t, t ∈ targetNode.ways ⟨.amid before (text ++ rest), [mark, {}, {}]⟩ := by
  have url_in : ∀ {other : List Char}, url ≠ [] → (∀ c ∈ url, isUrlChar c = true) →
      (∀ second, ∃ t, t ∈ (seq (optional titleNode) (lit ')')).ways
        ⟨.amid (url.reverse ++ '(' :: before) other, [mark, second, {}]⟩) →
        ∃ t, t ∈ targetNode.ways ⟨.amid before ('(' :: (url ++ other)), [mark, {}, {}]⟩ := by
    intro other url_ne url_all behindUrl
    obtain ⟨t, t_mem⟩ := behindUrl _
    exact
      ⟨t,
        mem_ways_seq_lit.mpr ⟨_, rfl,
          mem_ways_seq_group.mpr ⟨url, other, rfl, by simpa using url_all,
      List.length_pos_iff.mpr url_ne, t_mem⟩⟩⟩
  have closed : ∀ before rest marks, (⟨.amid (')' :: before) rest, marks⟩ : State) ∈
      (lit ')').ways ⟨.amid before (')' :: rest), marks⟩ :=
    fun before rest marks => mem_ways_lit.mpr ⟨rest, rfl, rfl⟩
  cases isTarget with
  | plain url_ne url_all =>
    simp only [List.cons_append, List.append_assoc, List.nil_append]
    exact url_in url_ne url_all fun second =>
      ⟨_, List.mem_flatMap.mpr ⟨_, (mem_ways_optional rfl).mpr (.inr rfl), closed _ rest _⟩⟩
  | @titled url_ne url_all gap title gap_ne gap_all noQuote =>
    simp only [List.cons_append, List.append_assoc, List.nil_append]
    refine url_in url_ne url_all fun second => ?_
    have inTitle := (@mem_ways_titleNode (url.reverse ++ '(' :: before) _ mark second _).mpr
      ⟨gap, title, ')' :: rest, rfl, gap_ne, gap_all, noQuote, rfl⟩
    exact ⟨_, List.mem_flatMap.mpr ⟨_, (mem_ways_optional rfl).mpr (.inl inTitle), closed _ rest _⟩⟩

end Target

/-- A text has one beginning at most that is a target. -/
theorem IsTarget.unique {url url' text text' rest rest' : List Char}
    {title title' : Option (List Char)}
    (first : IsTarget url title text) (second : IsTarget url' title' text')
    (same : text ++ rest = text' ++ rest') :
    url = url' ∧ title = title' ∧ text = text' := by
  have close : ∀ more, Text.Stops isUrlChar (')' :: more) := fun more => by simp [isUrlChar]
  have stops_gap : ∀ {gap more : List Char}, gap ≠ [] → (∀ c ∈ gap, isSpaceOrTab c = true) →
      Text.Stops isUrlChar (gap ++ more) := by
    intro gap more gap_ne gap_all
    obtain ⟨c, gap, rfl⟩ := List.exists_cons_of_ne_nil gap_ne
    simpa using isUrlChar_of_isSpaceOrTab (gap_all c (by simp))
  have quote : ∀ more, Text.Stops isSpaceOrTab ('"' :: more) := fun more => by simp [isSpaceOrTab]
  have noGap : ∀ {gap more more' : List Char}, gap ≠ [] → (∀ c ∈ gap, isSpaceOrTab c = true) →
      gap ++ more ≠ ')' :: more' := by
    intro gap more more' gap_ne gap_all same
    obtain ⟨c, gap, rfl⟩ := List.exists_cons_of_ne_nil gap_ne
    obtain rfl : c = ')' := by simpa using (List.cons.inj same).1
    exact absurd (gap_all ')' (by simp)) (by decide)
  cases first with
  | plain url_ne url_all =>
    cases second with
    | plain url_ne' url_all' =>
      obtain ⟨rfl, _⟩ := Text.cut_unique url_all (close _) url_all' (close _) (by simpa using same)
      exact ⟨rfl, rfl, rfl⟩
    | titled url_ne' url_all' gap_ne' gap_all' noQuote' =>
      obtain ⟨_, other⟩ :=
        Text.cut_unique url_all (close rest) url_all' (stops_gap gap_ne' gap_all')
          (by simpa using same)
      exact absurd other.symm (noGap gap_ne' gap_all')
  | @titled url_ne url_all gap title gap_ne gap_all noQuote =>
    cases second with
    | plain url_ne' url_all' =>
      obtain ⟨_, other⟩ := Text.cut_unique url_all (stops_gap gap_ne gap_all) url_all' (close rest')
        (by simpa using same)
      exact absurd other (noGap gap_ne gap_all)
    | @titled url_ne' url_all' gap' title' gap_ne' gap_all' noQuote' =>
      obtain ⟨rfl, other⟩ :=
        Text.cut_unique url_all (stops_gap gap_ne gap_all) url_all' (stops_gap gap_ne' gap_all')
        (by simpa using same)
      obtain ⟨rfl, quoted⟩ := Text.cut_unique gap_all (quote _) gap_all' (quote _) other
      have inTitle : ∀ {title : List Char}, '"' ∉ title → ∀ c ∈ title, (c != '"') = true := by
        intro title noQuote c mem
        have : c ≠ '"' := by
          rintro rfl
          exact noQuote mem
        simpa using this
      obtain ⟨rfl, _⟩ := Text.cut_unique (inTitle noQuote) (by simp) (inTitle noQuote') (by simp)
        (List.cons.inj quoted).2
      exact ⟨rfl, rfl, rfl⟩

/-- A text in square brackets and a target. -/
def linkText (label target : List Char) : List Char :=
  '[' :: (label ++ ']' :: target)

/-- A text of at least some characters in square brackets and a target. -/
def linkNode (least : Nat) : Node :=
  seq (lit '[')
    (seq (group 1 (loop .greedy least none (one (allBut ']')))) (seq (lit ']') targetNode))

/-- The parts of a link. -/
structure IsLink (label url : List Char) (title : Option (List Char)) (target : List Char) :
    Prop where
  noBracket : ']' ∉ label
  isTarget : IsTarget url title target

section Link

variable {before after : List Char}

theorem of_mem_ways_linkNode {least : Nat} {t : State}
    (mem : t ∈ (linkNode least).ways ⟨.amid before after, [{}, {}, {}]⟩) :
    ∃ label url title target rest, after = linkText label target ++ rest ∧ least ≤ label.length ∧
      IsLink label url title target ∧ ∃ groups,
        List.Forall₂ GroupMark.Holds groups [some label, some url, title] ∧
        t = ⟨.amid ((linkText label target).reverse ++ before) rest, groups⟩ := by
  obtain ⟨opened, rfl, behindOpen⟩ := mem_ways_seq_lit.mp mem
  obtain ⟨label, closed, rfl, label_all, enough, behindLabel⟩ := mem_ways_seq_group.mp behindOpen
  have label_holds := GroupMark.spans_amid ('[' :: before) label closed
  obtain ⟨other, rfl, behindClose⟩ := mem_ways_seq_lit.mp behindLabel
  obtain ⟨url, title, target, rest, rfl, isTarget, second, third, url_holds, title_holds, rfl⟩ :=
    of_mem_ways_targetNode behindClose
  refine ⟨label, url, title, target, rest, by simp [linkText], enough, ⟨?_, isTarget⟩, _,
    .cons label_holds (.cons url_holds (.cons title_holds .nil)), by simp [linkText]⟩
  exact fun mem => by simpa using label_all _ mem

theorem exists_mem_ways_linkNode {least : Nat} {label url target rest : List Char}
    {title : Option (List Char)}
    (enough : least ≤ label.length) (isLink : IsLink label url title target) :
    ∃ t,
      t ∈ (linkNode least).ways ⟨.amid before (linkText label target ++ rest), [{}, {}, {}]⟩ := by
  have label_all : ∀ c ∈ label, (allBut ']').holds c = true := by
    intro c mem
    have : c ≠ ']' := by
      rintro rfl
      exact isLink.noBracket mem
    simpa using this
  obtain ⟨t, t_mem⟩ := exists_mem_ways_targetNode isLink.isTarget
  refine ⟨t, ?_⟩
  rw [show linkText label target ++ rest = '[' :: (label ++ ']' :: (target ++ rest)) by
    simp [linkText]]
  exact mem_ways_seq_lit.mpr ⟨_, rfl, mem_ways_seq_group.mpr ⟨label, _, rfl, label_all, enough,
    mem_ways_seq_lit.mpr ⟨_, rfl, t_mem⟩⟩⟩

/-- A text has one beginning at most that is a link. -/
theorem IsLink.unique {label url target rest label' url' target' rest' : List Char}
    {title title' : Option (List Char)}
    (first : IsLink label url title target) (second : IsLink label' url' title' target')
    (same : linkText label target ++ rest = linkText label' target' ++ rest') :
    label = label' ∧ url = url' ∧ title = title' ∧ target = target' := by
  have inLabel : ∀ {label : List Char}, ']' ∉ label → ∀ c ∈ label, (c != ']') = true := by
    intro label noBracket c mem
    have : c ≠ ']' := by
      rintro rfl
      exact noBracket mem
    simpa using this
  obtain ⟨rfl, targets⟩ :=
    Text.cut_unique (inLabel first.noBracket) (by simp) (inLabel second.noBracket) (by simp)
    (show label ++ ']' :: (target ++ rest) = label' ++ ']' :: (target' ++ rest') by
      simpa [linkText] using same)
  exact ⟨rfl, first.isTarget.unique second.isTarget (List.cons.inj targets).2⟩

/-- A link is read where no exclamation mark stands before it. -/
theorem findAt?_links {found : Found} :
    links.regex.findAt? before after = some found ↔
      before.head? ≠ some '!' ∧ ∃ label url title target rest,
        after = linkText label target ++ rest ∧ label ≠ [] ∧
        IsLink label url title target ∧
          found = ⟨linkText label target, [some label, some url, title]⟩ := by
  have ways_eq :
      ∀ after, links.regex.root.ways (.begin (.amid before after) links.regex.groupCount) =
      if before.head?.any (only '!').holds then []
        else (linkNode 1).ways ⟨.amid before after, [{}, {}, {}]⟩ :=
    fun after => ways_seq_behind_false _
  have free_iff : before.head?.any (only '!').holds = false ↔ before.head? ≠ some '!' := by
    rcases before with _ | ⟨c, before⟩ <;> simp
  have shape : ∀ {found after}, links.regex.findAt? before after = some found →
      before.head? ≠ some '!' ∧ ∃ label url title target rest,
        after = linkText label target ++ rest ∧ label ≠ [] ∧
        IsLink label url title target ∧
          found = ⟨linkText label target, [some label, some url, title]⟩ := by
    intro found after found_eq
    obtain ⟨t, t_eq, _⟩ := Option.map_eq_some_iff.mp found_eq
    have t_mem := List.mem_of_head? t_eq
    rw [ways_eq] at t_mem
    split at t_mem
    · simp at t_mem
    · next free =>
      obtain ⟨label, url, title, target, rest, rfl, enough, isLink, groups, holds, rfl⟩ :=
        of_mem_ways_linkNode t_mem
      refine ⟨free_iff.mp (by simpa using free), label, url, title, target, rest, rfl,
        List.length_pos_iff.mp enough, isLink, ?_⟩
      have again := findAt?_of_head? t_eq holds rfl
      exact Option.some.inj (found_eq.symm.trans again)
  refine ⟨shape, ?_⟩
  rintro ⟨free, label, url, title, target, rest, rfl, label_ne, isLink, rfl⟩
  obtain ⟨t, t_mem⟩ := @exists_mem_ways_linkNode before 1 label url target rest title
    (List.length_pos_iff.mpr label_ne) isLink
  obtain ⟨found, found_eq⟩ := links.regex.exists_findAt?_of_mem
    (show t ∈ _ by rw [ways_eq, if_neg (by simpa using free_iff.mpr free)]; exact t_mem)
  obtain ⟨_, label', url', title', target', rest', same, _, isLink', rfl⟩ := shape found_eq
  obtain ⟨rfl, rfl, rfl, rfl⟩ := isLink.unique isLink' same
  exact found_eq

/-- An image is read at every exclamation mark that a link follows, whose text may be empty. -/
theorem findAt?_images {found : Found} :
    images.regex.findAt? before after = some found ↔
      ∃ label url title target rest, after = '!' :: linkText label target ++ rest ∧
        IsLink label url title target ∧
        found = ⟨'!' :: linkText label target, [some label, some url, title]⟩ := by
  have root_eq : images.regex.root = seq (lit '!') (linkNode 0) := rfl
  have shape : ∀ {found after}, images.regex.findAt? before after = some found →
      ∃ label url title target rest, after = '!' :: linkText label target ++ rest ∧
        IsLink label url title target ∧
        found = ⟨'!' :: linkText label target, [some label, some url, title]⟩ := by
    intro found after found_eq
    obtain ⟨t, t_eq, _⟩ := Option.map_eq_some_iff.mp found_eq
    have t_mem := List.mem_of_head? t_eq
    rw [root_eq] at t_mem
    obtain ⟨after, rfl, behindMark⟩ := mem_ways_seq_lit.mp t_mem
    obtain ⟨label, url, title, target, rest, rfl, _, isLink, groups, holds, rfl⟩ :=
      of_mem_ways_linkNode behindMark
    refine ⟨label, url, title, target, rest, rfl, isLink, ?_⟩
    have again := @findAt?_of_head? images.regex before ('!' :: linkText label target) rest
      _ _ (by simpa using t_eq) holds rfl
    exact Option.some.inj (found_eq.symm.trans again)
  refine ⟨shape, ?_⟩
  rintro ⟨label, url, title, target, rest, rfl, isLink, rfl⟩
  obtain ⟨t, t_mem⟩ := @exists_mem_ways_linkNode ('!' :: before) 0 label url target rest title
    (by simp) isLink
  obtain ⟨found, found_eq⟩ := images.regex.exists_findAt?_of_mem
    (show t ∈ _ by rw [root_eq]; exact mem_ways_seq_lit.mpr ⟨_, rfl, t_mem⟩)
  obtain ⟨label', url', title', target', rest', same, isLink', rfl⟩ := shape found_eq
  obtain ⟨rfl, rfl, rfl, rfl⟩ := isLink.unique isLink' (List.cons.inj same).2
  exact found_eq

end Link

/-- The HTML of a link. -/
theorem written_links (text label url : List Char) (title : Option (List Char)) :
    links.written ⟨text, [some label, some url, title]⟩ =
      "<a href=\"".toList ++ Escape.attributeValue url ++ '"' :: titleText (title.getD []) ++
        '>' :: label ++
        "</a>".toList :=
  written_of_render (render_links _)

/-- The HTML of an image. -/
theorem written_images (text label url : List Char) (title : Option (List Char)) :
    images.written ⟨text, [some label, some url, title]⟩ =
      "<img src=\"".toList ++ Escape.attributeValue url ++ "\" alt=\"".toList ++
        Escape.attributeValue label ++
        '"' :: titleText (title.getD []) ++ ['>'] :=
  written_of_render (render_images _)

end Markflow.Builtin
