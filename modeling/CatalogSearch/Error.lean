import CatalogSearch.Binary64.Decimal
import CatalogSearch.Field
import CatalogSearch.Geometry.Shape
import CatalogSearch.Json.Decoder
import CatalogSearch.Json.Printer

/-!
# What can go wrong with a search

Every error names its cause. The words for it are in `SearchError.message` alone.
-/

namespace CatalogSearch

/-- A stage of a search that a deployment can switch off. -/
inductive Capability where
  /-- Counting the matches. -/
  | context
  /-- Choosing the fields of records. -/
  | fields
  /-- Choosing the order. -/
  | sort
  /-- Filtering by properties. -/
  | query
deriving DecidableEq

/-- The name of a capability. -/
def Capability.name : Capability → String
  | context => "context"
  | fields => "fields"
  | sort => "sort"
  | query => "query"

/-- A failure of a store. -/
inductive StoreError where
  /-- The store could not be reached. -/
  | unavailable (cause : String)
  /-- The store was reached but failed. -/
  | execution (cause : String)
deriving DecidableEq

/-- Why a datetime filter is refused. -/
inductive TemporalFault where
  | notATimestamp (text : String) (error : Timestamp.ReadError)
  | bothEndsOpen
  | startAfterEnd
deriving DecidableEq

/-- Why a spatial filter is refused. -/
inductive SpatialFault where
  | wrongLength (length : Nat)
  | notFinite
  | inverted (bounds : Bounds)
deriving DecidableEq

/-- Why a continuation token is refused. -/
inductive TokenFault where
  | empty
  | tooLong
  | notBase64
  | malformed
  | otherOrder
  | wrongLength (values keys : Nat)
  | wrongType (field : Field)
deriving DecidableEq

/-- Why the body of a request is refused. -/
inductive BodyFault where
  /-- The content type is missing or is not that of JSON. -/
  | contentType
  | text (fault : Json.Fault)
deriving DecidableEq

/-- Why a parameter is refused. -/
inductive ParameterFault where
  | bbox
  | intersects
  | query
  | limit (raw : String)
  /-- An entry of a list of fields is a sign alone. -/
  | noField (parameter entry : String)
  | body (fault : BodyFault)
deriving DecidableEq

/-- An error of a search. -/
inductive SearchError where
  | unknownField (field : String)
  | unsupportedOperator (field operator : String)
  | typeMismatch (field : String) (expected : FieldType) (value : Json)
  | invalidTemporalRange (value : String) (fault : TemporalFault)
  | invalidSpatialFilter (fault : SpatialFault)
  | invalidToken (fault : TokenFault)
  | limitOutOfRange (limit max : Nat)
  | duplicateSortField (field : String)
  | capabilityDisabled (capability : Capability)
  | invalidParameter (fault : ParameterFault)
  | itemNotFound (id : String)
  | collectionNotFound (id : String)
  | storeUnavailable (cause : String)
  | storeExecution (cause : String)

namespace SearchError

/-- The error of a search whose store failed. -/
def ofStore : StoreError → SearchError
  | .unavailable cause => storeUnavailable cause
  | .execution cause => storeExecution cause

/-- Whether the request itself is at fault, so that repeating it cannot succeed. -/
def isClientError : SearchError → Bool
  | itemNotFound _ | collectionNotFound _ | storeUnavailable _ | storeExecution _ => false
  | _ => true

end SearchError

/-! ## Words -/

/-- The most bytes that a continuation token may have. -/
def maxTokenBytes : Nat := 4096

/-- The reason in the words of a message. -/
def TemporalFault.message : TemporalFault → String
  | notATimestamp text error => s!"'{text}' is not an RFC 3339 timestamp ({error.message})"
  | bothEndsOpen => "both ends of the interval are open"
  | startAfterEnd => "interval start is after its end"

/-- The reason in the words of a message. -/
def SpatialFault.message : SpatialFault → String
  | wrongLength length => s!"bbox needs 4 values, got {length}"
  | notFinite => "bbox bounds must be finite numbers"
  | inverted bounds =>
    let texts := bounds.toList.map fun x => String.ofList (Binary64.Layout.quoted.render x)
    "bbox [" ++ ", ".intercalate texts ++ "] has min greater than max"

/-- The reason in the words of a message. -/
def TokenFault.message : TokenFault → String
  | empty => "token is empty"
  | tooLong => s!"token is longer than {maxTokenBytes} bytes"
  | notBase64 => "token is not base64url"
  | malformed => "malformed token payload"
  | otherOrder => "token was issued for a different sort order"
  | wrongLength values keys => s!"token carries {values} values for a {keys}-key order"
  | wrongType field => s!"value for '{field.name}' is not a {field.type.name}"

/-- The reason in the words of a message. -/
def BodyFault.message : BodyFault → String
  | contentType => "Expected request with \x60Content-Type"
  | text .malformed => "Failed to parse the request body as JSON"
  | text .mistyped => "Failed to deserialize the JSON body into the target type"

/-- The parameter and the reason in the words of a message. -/
def ParameterFault.message : ParameterFault → String
  | bbox => "invalid parameter 'bbox': invalid float literal"
  | intersects => "invalid parameter 'intersects'"
  | query => "invalid parameter 'query'"
  | limit raw => s!"invalid parameter 'limit': '{raw}' is not a positive integer"
  | noField parameter entry => s!"invalid parameter '{parameter}': '{entry}' names no field"
  | body fault => "invalid parameter 'body': " ++ fault.message

/-- The words for an error. -/
def SearchError.message : SearchError → String
  | unknownField field => s!"unknown field '{field}'"
  | unsupportedOperator field operator =>
    s!"unsupported operator '{operator}' on field '{field}'"
      ++ " (expected one of eq, ne, lt, le, gt, ge)"
  | typeMismatch field expected value =>
    s!"value {value.render} for field '{field}' is not a valid {expected.name}"
  | invalidTemporalRange value fault => s!"invalid datetime '{value}': {fault.message}"
  | invalidSpatialFilter fault => s!"invalid spatial filter: {fault.message}"
  | invalidToken fault => s!"invalid pagination token: {fault.message}"
  | limitOutOfRange limit max => s!"limit {limit} is out of range (expected 1..={max})"
  | duplicateSortField field => s!"sort field '{field}' appears more than once"
  | capabilityDisabled capability => s!"the {capability.name} capability is disabled"
  | invalidParameter fault => fault.message
  | itemNotFound id => s!"item '{id}' not found"
  | collectionNotFound id => s!"collection '{id}' not found"
  | storeUnavailable cause => s!"store unavailable: {cause}"
  | storeExecution cause => s!"store execution failed: {cause}"

end CatalogSearch
