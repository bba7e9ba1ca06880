import Markflow.Proofs.Config.Unchecked

/-!
# What nothing checks in a configuration file

A configuration that is given or found is read from the bytes of a file.  What is wrong with the
file is reported, save for bytes that are no text, for a project's file whose tools are no table,
and for what is beyond a limit of a reader or makes it fail in a way of its own (`UncheckedFile`);
and it may be that the system does not even tell whether there is a file
(`misconfigured_or_unchecked_of_load`).
-/

namespace Markflow.Config

theorem decode_cases (bytes : List UInt8) :
    (∃ cause, Text.Utf8.decode bytes = .error cause ∧ decode bytes = .error (.undecodable cause)) ∨
      ∃ characters, Text.Utf8.decode bytes = .ok characters ∧ decode bytes = .ok characters := by
  unfold decode
  rcases Text.Utf8.decode bytes with cause | characters
  · exact .inl ⟨cause, rfl, rfl⟩
  · exact .inr ⟨characters, rfl, rfl⟩

/-- What reading data has come to is a value, or malformed text, or a failure that is passed on. -/
theorem parsed_cases {α : Type} (outcome : Except ReadFault α) :
    (∃ value, outcome = .ok value ∧ parsed outcome = .ok (some value)) ∨
      (outcome = .error .malformed ∧ parsed outcome = .ok none) ∨
      ∃ cause fault, outcome = .error cause ∧ cause ≠ .malformed ∧ parsed outcome = .error fault ∧
        ∀ misconfigured, fault ≠ .misconfigured misconfigured := by
  rcases outcome with cause | value
  · cases cause with
    | malformed => exact .inr (.inl ⟨rfl, rfl⟩)
    | excess cause => exact .inr (.inr ⟨_, _, rfl, nofun, rfl, nofun⟩)
    | raised kind message => exact .inr (.inr ⟨_, _, rfl, nofun, rfl, nofun⟩)
  · exact .inl ⟨value, rfl, rfl⟩

variable [Host]

/-- The file of a project with a defect that nothing checks. -/
inductive UncheckedProject (bytes : List UInt8) : Prop
  | undecodable {cause : Text.Undecodable} (fails : Text.Utf8.decode bytes = .error cause)
  | unread {characters : List Char} {cause : ReadFault}
    (decoded : Text.Utf8.decode bytes = .ok characters)
    (fails : Toml.read characters = .error cause) (unforeseen : cause ≠ .malformed)
  | tool {characters : List Char} {data : Entries} {value : Value}
    (decoded : Text.Utf8.decode bytes = .ok characters) (read : Toml.read characters = .ok data)
    (given : data.find? "tool" = some value) (noTable : ∀ entries, value ≠ .table entries)

/-- A configuration file with a defect that nothing checks. -/
inductive UncheckedFile [Libraries] (bytes : List UInt8) : Prop
  | toml (unchecked : UncheckedProject bytes)
  | json {characters : List Char} {cause : ReadFault}
    (decoded : Text.Utf8.decode bytes = .ok characters)
    (fails : Json.read (Text.unifyBreaks characters) = .error cause)
    (unforeseen : cause ≠ .malformed)
  | yaml {cause : ReadFault} (fails : Libraries.yaml bytes = .error cause)
    (unforeseen : cause ≠ .malformed)

variable {fault : Fault} {bytes : List UInt8} {tree : Tree}

theorem misconfigured_or_unchecked_of_readSection {path : String}
    (failed : readSection path bytes = .error fault) :
    (∃ cause, fault = .misconfigured cause) ∨ UncheckedProject bytes := by
  unfold readSection at failed
  rcases decode_cases bytes with ⟨cause, undecoded, -⟩ | ⟨characters, decoded, decode_eq⟩
  · exact .inr (.undecodable undecoded)
  simp only [decode_eq, bind, Except.bind] at failed
  rcases parsed_cases (Toml.read characters) with
    ⟨data, read, parsed_eq⟩ | ⟨-, parsed_eq⟩ | ⟨cause, _, unread, unforeseen, -, -⟩
  · rw [parsed_eq] at failed
    rcases given : data.find? "tool" with _ | value
    · simp only [given, Option.getD_none] at failed
      cases failed
    · cases value with
      | table tools =>
        simp only [given, Option.getD_some] at failed
        split at failed <;> cases failed
        exact .inl ⟨_, rfl⟩
      | _ => exact .inr (.tool decoded read given nofun)
  · rw [parsed_eq] at failed
    cases failed
    exact .inl ⟨_, rfl⟩
  · exact .inr (.unread decoded unread unforeseen)

variable [Libraries]

theorem unchecked_of_readValue {format : FileFormat}
    (failed : readValue format bytes = .error fault) :
    UncheckedFile bytes := by
  unfold readValue at failed
  cases format with
  | toml =>
    rcases decode_cases bytes with ⟨cause, undecoded, -⟩ | ⟨characters, decoded, decode_eq⟩
    · exact .toml (.undecodable undecoded)
    rcases parsed_cases (Toml.read characters) with
      ⟨data, -, parsed_eq⟩ | ⟨-, parsed_eq⟩ | ⟨cause, _, unread, unforeseen, -, -⟩
    · simp only [decode_eq, parsed_eq, bind, Except.bind] at failed
      cases failed
    · simp only [decode_eq, parsed_eq, bind, Except.bind] at failed
      cases failed
    · exact .toml (.unread decoded unread unforeseen)
  | yaml =>
    rcases parsed_cases (Libraries.yaml bytes) with
      ⟨data, -, parsed_eq⟩ | ⟨-, parsed_eq⟩ | ⟨cause, _, unread, unforeseen, -, -⟩
    · cases parsed_eq.symm.trans failed
    · cases parsed_eq.symm.trans failed
    · exact .yaml unread unforeseen
  | json =>
    rcases decode_cases bytes with ⟨cause, undecoded, -⟩ | ⟨characters, decoded, decode_eq⟩
    · exact .toml (.undecodable undecoded)
    simp only [decode_eq, bind, Except.bind] at failed
    rcases parsed_cases (Json.read (Text.unifyBreaks characters)) with
      ⟨data, -, parsed_eq⟩ | ⟨-, parsed_eq⟩ | ⟨cause, _, unread, unforeseen, -, -⟩
    · cases parsed_eq.symm.trans failed
    · cases parsed_eq.symm.trans failed
    · exact .json decoded unread unforeseen

theorem misconfigured_or_unchecked_of_readTable {format : FileFormat} {path : String}
    (failed : readTable format path bytes = .error fault) :
    (∃ cause, fault = .misconfigured cause) ∨ UncheckedFile bytes := by
  rcases bind_eq_error_iff.mp failed with unread | ⟨value, -, failed⟩
  · exact .inr (unchecked_of_readValue unread)
  · split at failed <;> cases failed <;> exact .inl ⟨_, rfl⟩

theorem misconfigured_or_unchecked_of_readFile {path : Path} {shown : String}
    (failed : readFile path shown bytes = .error fault) :
    (∃ cause, fault = .misconfigured cause) ∨ UncheckedFile bytes := by
  unfold readFile at failed
  split at failed
  · exact (misconfigured_or_unchecked_of_readSection failed).imp_right .toml
  · dsimp only at failed
    split at failed
    · exact misconfigured_or_unchecked_of_readTable failed
    · cases failed
      exact .inl ⟨_, rfl⟩

omit [Host] [Libraries] in
/-- Where an origin leads to. -/
def Origin.target (tree : Tree) : Origin → Except FileFault (List String)
  | given path => tree.follow (Path.ofText path)
  | found place => tree.reach place

theorem misconfigured_or_unchecked_of_readTarget {path : Path} {shown : String}
    {target : Except FileFault (List String)}
    (failed : readTarget tree path shown target = .error fault) :
    (∃ cause, fault = .misconfigured cause) ∨ (∃ cause, tree.isFile target = .error cause) ∨
      ∃ bytes, target >>= tree.readAt = .ok bytes ∧ UncheckedFile bytes := by
  unfold readTarget at failed
  split at failed
  · next cause blocked => exact .inr (.inl ⟨cause, blocked⟩)
  · cases failed
    exact .inl ⟨_, rfl⟩
  · split at failed
    · next bytes read =>
      exact (misconfigured_or_unchecked_of_readFile failed).imp_right fun bad =>
        .inr ⟨bytes, read, bad⟩
    · cases failed
      exact .inl ⟨_, rfl⟩

theorem misconfigured_or_unchecked_of_load {origin : Origin}
    (failed : origin.load tree = .error fault) :
    (∃ cause, fault = .misconfigured cause) ∨
      (∃ cause, tree.isFile (origin.target tree) = .error cause) ∨
      ∃ bytes, origin.target tree >>= tree.readAt = .ok bytes ∧ UncheckedFile bytes := by
  cases origin with
  | given path => exact misconfigured_or_unchecked_of_readTarget failed
  | found place => exact misconfigured_or_unchecked_of_readTarget failed

end Markflow.Config
