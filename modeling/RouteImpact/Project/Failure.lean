namespace RouteImpact

/-!
# What an analysis cannot recover from

Missing files, unreadable files and stores that refuse are expected and have
their own answers.  These faults have none and end an operation.
-/

/-- A fault that ends an operation. -/
inductive Failure where
  /-- A pattern of the project's ignore file has no meaning. -/
  | badPattern
  /-- A path holds the character that ends names. -/
  | nulInPath
  /-- A persisted number is too large for its place. -/
  | outOfRange
  /-- A persisted file is named by a list or a record. -/
  | compoundName
  /-- A persisted graph does not name everything by texts. -/
  | untyped
  /-- A number of a configuration file has more digits than are read. -/
  | tooManyDigits
  /-- Files are to be processed in batches of none. -/
  | emptyBatch
  /-- A path has a name that is too long to ask for. -/
  | nameTooLong
deriving Repr, DecidableEq

/-- What a fault has ended, as far as it had come. -/
structure Halted (α : Type) where
  failure : Failure
  left : α

end RouteImpact
