/-
  What can go wrong, by cause, and how it is worded.
-/
import EntitySql.ValueType

namespace EntitySql

/-- Why a key does not fit the key properties of an entity. -/
inductive KeyFault where
  /-- A part is named that is no key property. -/
  | notAKey (name : String)
  /-- A key property has no part. -/
  | missing (name : String)
  /-- A single value cannot stand for several key properties. -/
  | compositeRequired (keys : Nat)
deriving DecidableEq

/-- Wording of the fault. -/
def KeyFault.message : KeyFault → String
  | .notAKey name => "`" ++ name ++ "` is not a key"
  | .missing name => "missing a value for `" ++ name ++ "`"
  | .compositeRequired keys =>
    "a composite value is required for the " ++ toString keys ++ " keys"

/-- Why a window of rows cannot be asked for. -/
inductive WindowFault where
  /-- Pages count from one and hold at least one row. -/
  | notPositive (page rows : UInt64)
  /-- A set holds at least one row. -/
  | noRows
  /-- The rows before the page cannot be counted in 64 bits. -/
  | outOfRange (page rows : UInt64)
  /-- A bound has no signed form of 64 bits. -/
  | tooWide (bound : UInt64)
deriving DecidableEq

/-- Wording of the fault. -/
def WindowFault.message : WindowFault → String
  | .notPositive page rows =>
    "page must be at least 1 and results per page positive, got page " ++ toString page.toNat ++
      " of " ++ toString rows.toNat
  | .noRows => "max results must be positive"
  | .outOfRange page rows =>
    "page " ++ toString page.toNat ++ " of " ++ toString rows.toNat ++ " rows is out of range"
  | .tooWide bound => toString bound.toNat ++ " does not fit a BIGINT"

/-- What was asked for and is not offered. -/
inductive Unsupported where
  /-- A key with parts has no single value. -/
  | compositeValue
  /-- The entity has no key that the database generates. -/
  | noIdentity (entity : String)
  /-- The result sets of one statement cannot be told apart. -/
  | resultSets
  /-- Something else, in the words of whoever refused it. -/
  | other (message : String)
deriving DecidableEq

/-- Wording of the refusal. -/
def Unsupported.message : Unsupported → String
  | .compositeValue => "A composite key cannot be converted into a single value"
  | .noIdentity entity => "Entity `" ++ entity ++ "` has no identity key"
  | .resultSets => "This executor cannot read several result sets from one statement"
  | .other message => message

/-- Failures found before a statement is sent, or while its results are handed out. -/
inductive QueryError where
  /-- The entity has no table. -/
  | unknownEntity (entity : String)
  /-- The entity has no such property. -/
  | unknownProperty (entity property : String)
  /-- The property has no column. -/
  | ignoredProperty (entity property : String)
  /-- The entity has no key property. -/
  | noKeys (entity : String)
  /-- A key property has no value. -/
  | missingKeyValue (entity property : String)
  /-- A key does not fit the key properties. -/
  | keyMismatch (entity : String) (fault : KeyFault)
  /-- Lists can be compared for equality only. -/
  | listOperator
  /-- A deletion without a condition would delete every row. -/
  | emptyPredicate (entity : String)
  /-- A window needs an order. -/
  | missingSort (entity : String)
  /-- A window of rows cannot be asked for. -/
  | invalidWindow (fault : WindowFault)
  /-- The entity has no column to update. -/
  | nothingToUpdate (entity : String)
  /-- Every result set was handed out. -/
  | noMoreResults
  /-- The next result set is one of another entity. -/
  | resultSetMismatch (expected requested : String)
  /-- What was asked for is not offered. -/
  | unsupported (what : Unsupported)
deriving DecidableEq

/-- Wording of the failure. -/
def QueryError.message : QueryError → String
  | .unknownEntity entity => "No class map could be resolved for entity `" ++ entity ++ "`"
  | .unknownProperty entity property =>
    "Property `" ++ property ++ "` is not mapped by entity `" ++ entity ++ "`"
  | .ignoredProperty entity property =>
    "Property `" ++ property ++ "` of entity `" ++ entity ++ "` is ignored and has no column"
  | .noKeys entity => "Entity `" ++ entity ++ "` does not declare any key property"
  | .missingKeyValue entity property =>
    "Key property `" ++ property ++ "` of entity `" ++ entity ++ "` has no value"
  | .keyMismatch entity fault =>
    "The key does not match the key properties of entity `" ++ entity ++ "`: " ++ fault.message
  | .listOperator => "Operator must be set to Eq for Enumerable types"
  | .emptyPredicate entity =>
    "Refusing to delete from `" ++ entity ++ "` without a predicate, this would remove every row"
  | .missingSort entity =>
    "Sort cannot be empty when paging `" ++ entity ++ "`, the row order would be undefined"
  | .invalidWindow fault => "Invalid paging window: " ++ fault.message
  | .nothingToUpdate entity => "Entity `" ++ entity ++ "` has no column that can be updated"
  | .noMoreResults => "All the result sets have already been read"
  | .resultSetMismatch expected requested =>
    "The next result set was declared for `" ++ expected ++ "` but `" ++ requested ++
      "` was requested"
  | .unsupported what => what.message

/-- Why a text cannot be read as a value of a type. -/
inductive UnreadableCause where
  /-- It is no integer of 64 bits. -/
  | integer (fault : IntegerFault)
  /-- It is no decimal. -/
  | decimal
  /-- It is no date or time. -/
  | time
  /-- It is no identifier. -/
  | uuid
deriving DecidableEq

/-- Wording of the cause; other causes than those of integers have a tag only. -/
def UnreadableCause.message : UnreadableCause → String
  | .integer fault => fault.message
  | .decimal => "<decimal>"
  | .time => "<time>"
  | .uuid => "<uuid>"

/-- Everything that can go wrong. -/
inductive Error where
  /-- A failure found by this library. -/
  | query (e : QueryError)
  /-- A value is of no kind that the type accepts. -/
  | mismatch (value : Value) (target : ValueType)
  /-- An integer is not one of the type. -/
  | outOfRange (i : Int) (target : IntegerType)
  /-- A whole decimal is no integer of 64 bits. -/
  | decimalTooWide (d : Decimal)
  /-- A binary number is no decimal. -/
  | floatTooWide (x : Binary64)
  /-- A text cannot be read as a value of the type. -/
  | unreadable (text : String) (target : ValueType) (cause : UnreadableCause)
  /-- Bytes are not as many as those of an identifier. -/
  | uuidLength
  /-- A value cannot be a key. -/
  | notAKey (value : Value)
  /-- An entity has no property of that name. -/
  | noProperty (entity property : String)
  /-- A cell could not be stored in its property. -/
  | reading (label entity property : String) (cause : Error)
  /-- An insertion did not answer the identity. -/
  | identityMissing (entity : String)
  /-- A count did not answer a number. -/
  | countMissing
  /-- A batch answered another number of result sets than it holds statements. -/
  | setCount (expected returned : Nat)
  /-- A row has a label without a value. -/
  | shortRow
  /-- Counts of changed rows add up to more than 64 bits hold. -/
  | countOverflow
  /-- A failure of a collaborator, in its own words. -/
  | external (message : String)

namespace Error

/-- Wording of a failure without what caused it. -/
def message : Error → String
  | .query e => e.message
  | .mismatch value target =>
    "Cannot convert " ++ value.describe ++ " to " ++
      (match target with
       | .sharedText => ValueType.text.label
       | target => target.label)
  | .outOfRange i target => "Value " ++ toString i ++ " is out of range for " ++ target.label
  | .decimalTooWide d => "Value " ++ d.text ++ ": Decimal does not fit into i64"
  | .floatTooWide x => "Value " ++ x.text ++ ": f64 does not fit into Decimal"
  | .unreadable text target _ =>
    "Cannot parse `" ++ text ++ "` as " ++
      (match target with
       | .decimal => "Decimal"
       | .uuid => "Uuid"
       | target => target.label)
  | .uuidLength => UnreadableCause.uuid.message
  | .notAKey (.decimal d) => "Decimal " ++ d.text ++ " cannot be used as a key"
  | .notAKey value => value.describe ++ " cannot be used as a key"
  | .noProperty entity property => entity ++ " has no property " ++ property
  | .reading label entity property _ =>
    "While reading column `" ++ label ++ "` into `" ++ entity ++ "." ++ property ++ "`"
  | .identityMissing entity =>
    "The identity of `" ++ entity ++ "` was not returned after the insert"
  | .countMissing => "The count query did not return a number"
  | .setCount expected returned =>
    "Expected " ++ toString expected ++ " result sets, the batch returned " ++ toString returned
  | .shortRow => "A labeled column has no value"
  | .countOverflow => "The counts of changed rows do not fit into u64 together"
  | .external message => message

/-- Wording of the causes, the nearest first. -/
def causes : Error → List String
  | .unreadable _ _ cause => [cause.message]
  | .reading _ _ _ cause => cause.message :: cause.causes
  | _ => []

/-- Wording of a failure with all its causes. -/
def fullMessage (e : Error) : String := ": ".intercalate (e.message :: e.causes)

/-- The failure of this library that an error is, or that caused it. -/
def query? : Error → Option QueryError
  | .query e => some e
  | .reading _ _ _ cause => cause.query?
  | _ => none

end Error

end EntitySql
