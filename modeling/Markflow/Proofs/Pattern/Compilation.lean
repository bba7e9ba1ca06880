import Markflow.Proofs.Config.Unchecked
import Markflow.Proofs.Regex.Refusals

/-!
# What compiling a pattern comes to

A text and flags of any form that a caller may give either make a pattern or fail with a fault of
patterns that carries the text, its owner and the cause (`Underlies`).  A few causes are not carried
by such a fault, and each has its reason in the expression (`Bare`): modes that exclude each other,
a repetition that is too large, one with more digits than are read, and groups inside each other, or
more than groups, for which there is no room.
-/

namespace Markflow

/-- Flags as they are given with a pattern. -/
inductive GivenFlags where
  | absent
  | letters (text : String)
  | names (items : List String)
  deriving DecidableEq, Repr

/-- The value of flags that are given. -/
def GivenFlags.value : GivenFlags → Value
  | absent => .null
  | letters text => .text text
  | names items => .list (items.map .text)

namespace Pattern

/-- The tokens of the expression that is read for a source. -/
def expression (source : String) : List Regex.Token :=
  Regex.Token.split (Spelling.expand source.toList)

section Compilation

variable {source : String} {given : GivenFlags} {owner : Value}

/-- A fault of a pattern carries what the flags or the expression were refused for. -/
inductive Underlies [Host] (source : String) (given : GivenFlags) (owner : Value) :
    PatternFault → Prop
  | flags {cause : FlagFault} (unread : Flags.read given.value = .error (.pattern (.flags cause))) :
      Underlies source given owner (.flagsOf cause (.text source) owner)
  | expression {flags : Flags} {problem : Regex.Malformed}
      (read : Flags.read given.value = .ok flags)
      (refused : Regex.read? flags.mode (Spelling.expand source.toList) =
        .error (.malformed problem)) :
      Underlies source given owner (.malformed problem source flags owner)

/-- The faults of a compilation that are no faults of patterns. -/
inductive Bare [Host] (source : String) (given : GivenFlags) : Fault → Prop
  | clashingModes {flags : Flags} (read : Flags.read given.value = .ok flags)
      (unicode : Regex.SetsFlag (expression source) 'u')
      (ascii : flags.has .ascii = true ∨ Regex.SetsFlag (expression source) 'a') :
      Bare source given .clashingModes
  | repeatTooLarge (large : Regex.HasLargeBounds (expression source)) :
      Bare source given .repeatTooLarge
  | tooLong {count : Nat} (long : Regex.HasLongBounds count (expression source)) :
      Bare source given (.excess (.digits count))
  | tooDeep (deep : Regex.HasDeepGroups (expression source)) : Bare source given (.excess .calls)
  | tooTall {flags : Flags} (read : Flags.read given.value = .ok flags)
      (tall : Regex.HasTallRoot (expression source) flags.mode) :
      Bare source given (.excess .calls)

theorem isIterable_of_given (given : GivenFlags) :
    given.value.isSet = true → given.value.isIterable = true := by
  cases given with
  | absent => exact fun isSet => isSet
  | _ => exact fun _ => rfl

theorem flags_read_or_refused (given : GivenFlags) :
    (∃ flags, Flags.read given.value = .ok flags) ∨ ∃ cause,
      Flags.read given.value = .error (.pattern (.flags cause)) := by
  rcases read : Flags.read given.value with fault | flags
  · rcases Config.flagFault_or_noItems_of_read read with ⟨cause, rfl⟩ | ⟨isSet, noItems⟩
    · exact .inr ⟨cause, rfl⟩
    · cases noItems.symm.trans (isIterable_of_given given isSet)
  · exact .inl ⟨flags, rfl⟩

/-- A source and flags that are given make a pattern, or they fail with a fault that tells the
source, its owner and the cause.  Few causes make a fault of another kind, and the expression has
what they say. -/
theorem compile_source [Host] (source : String) (given : GivenFlags) (owner : Value) :
    (∃ pattern, compile (.text source) given.value owner = .ok pattern ∧ pattern.source = source ∧
        Flags.read given.value = .ok pattern.flags ∧
          Regex.read? pattern.flags.mode (Spelling.expand source.toList) = .ok pattern.regex) ∨
      (∃ fault, compile (.text source) given.value owner = .error (.pattern fault) ∧
        fault.pattern = .text source ∧ fault.owner = owner ∧ Underlies source given owner fault) ∨
      ∃ fault, compile (.text source) given.value owner = .error fault ∧
        Bare source given fault := by
  rcases flags_read_or_refused given with ⟨flags, read⟩ | ⟨cause, unread⟩
  · have compile_eq : compile (.text source) given.value owner = ofFlags source flags owner := by
      simp only [compile, read]
    rw [compile_eq, ofFlags]
    rcases reads : Regex.read? flags.mode (Spelling.expand source.toList) with refusal | regex
    · cases Regex.justified_of_read? reads with
      | malformed problem => exact .inr (.inl ⟨_, rfl, rfl, rfl, .expression read reads⟩)
      | repeatTooLarge large => exact .inr (.inr ⟨_, rfl, .repeatTooLarge large⟩)
      | clashingModes unicode ascii =>
        exact .inr (.inr ⟨_, rfl, .clashingModes read unicode ascii⟩)
      | tooLong long => exact .inr (.inr ⟨_, rfl, .tooLong long⟩)
      | tooDeep deep => exact .inr (.inr ⟨_, rfl, .tooDeep deep⟩)
      | tooTall tall => exact .inr (.inr ⟨_, rfl, .tooTall read tall⟩)
    · exact .inl ⟨_, rfl, rfl, read, reads⟩
  · have compile_eq : compile (.text source) given.value owner =
        .error (.pattern (.flagsOf cause (.text source) owner)) := by
      simp only [compile, unread]
    exact .inr (.inl ⟨_, compile_eq, rfl, rfl, .flags unread⟩)

attribute [local instance] Host.standard

/-- Flags for ASCII and an expression that asks for Unicode are refused with a fault of no
pattern. -/
theorem compile_clashes :
    compile (.text "(?u)x") (GivenFlags.letters "a").value .null = .error .clashingModes := by
  have read : Flags.read (GivenFlags.letters "a").value = .ok (.of [.ascii]) := rfl
  have refused : Regex.read? (Flags.of [.ascii]).mode (Spelling.expand "(?u)x".toList) =
      .error .clashingModes := by
    decide +kernel
  simp only [compile, read, ofFlags, refused]

end Compilation

end Pattern

end Markflow
