import Cosmosh.Library.JsonRoundTrip

/-! # Metadata of audit events

Before an event is stored, what stands under a sensitive name is replaced, and metadata that
serializes to too many bytes gives way to a preview of its text.
-/

namespace Audit

open Library Library.CodeUnits Library.Json

def AUDIT_MAX_METADATA_BYTES : Nat := 8 * 1024

def AUDIT_REDACTION_PLACEHOLDER : CodeUnits := ofAscii ['[', 'R', 'E', 'D', 'A', 'C', 'T', 'E', 'D', ']']

def MAX_STRING_LENGTH : Nat := 2 ^ 29 - 24

def privateWord : CodeUnits := ofAscii "private".toList

/-- The alternatives of the pattern but `private\s*key`. -/
def sensitiveWords : List CodeUnits :=
  ["password", "passphrase", "private_key", "token", "secret", "credential", "authorization"].map
    fun word => ofAscii word.toList

def startsSensitive (text : CodeUnits) : Bool :=
  sensitiveWords.any (·.isPrefixOf text) ||
    ((stripStart privateWord text).map fun rest => (ofAscii "key".toList).isPrefixOf (rest.dropWhile isWhitespace)).getD
      false

/-- `SENSITIVE_METADATA_KEY_PATTERN.test` -/
def isSensitiveName (name : CodeUnits) : Bool := (toAsciiLower name).tails.any startsSensitive

variable {ν : Type}

def isSensitiveKey : Option CodeUnits → Bool
  | some key => key ≠ [] && isSensitiveName key
  | none => false

def prototypeName : CodeUnits := ofAscii "__proto__".toList

mutual

def redactSensitiveValue (key : Option CodeUnits) (value : Json ν) : Json ν :=
  if isSensitiveKey key then .string AUDIT_REDACTION_PLACEHOLDER
  else
    match value with
    | .array items => .array (redactItems items)
    | .object fields => .object (redactFields fields)
    | value => value

def redactItems : List (Json ν) → List (Json ν)
  | [] => []
  | item :: items => redactSensitiveValue none item :: redactItems items

def redactFields : List (CodeUnits × Json ν) → List (CodeUnits × Json ν)
  | [] => []
  | (nestedKey, nestedValue) :: fields =>
    if nestedKey = prototypeName then redactFields fields
    else (nestedKey, redactSensitiveValue (some nestedKey) nestedValue) :: redactFields fields

end

section

variable (numbers : NumberText ν)

/-- `JSON.stringify`, which fails where the text would be too long for a string. -/
def serialize (value : Json ν) : Option CodeUnits :=
  if (stringify numbers value).length ≤ MAX_STRING_LENGTH then some (stringify numbers value) else none

def noticeField (notice : CodeUnits) : CodeUnits × Json ν := (ofAscii "notice".toList, .string notice)

def truncatedNotice : CodeUnits := ofAscii "metadata-truncated".toList

def originalBytesField (fullSize : Nat) : CodeUnits × Json ν := (ofAscii "originalBytes".toList, .number (numbers.ofNat fullSize))

def bareNotice (fullSize : Nat) : Json ν := .object [noticeField truncatedNotice, originalBytesField numbers fullSize]

def previewNotice (fullSize : Nat) (preview : CodeUnits) : Json ν :=
  .object [noticeField truncatedNotice, originalBytesField numbers fullSize, (ofAscii "preview".toList, .string preview)]

/-- What is left of the loop over `iteration`. -/
def shrinkPreview (fullSize maxBytes : Nat) : Nat → CodeUnits → CodeUnits
  | 0, _ => stringify numbers (bareNotice numbers fullSize)
  | iterations + 1, preview =>
    let payloadJson := stringify numbers (previewNotice numbers fullSize preview)
    if byteLength payloadJson ≤ maxBytes then payloadJson
    else
      let preview := preview.take (preview.length * 3 / 4)
      if preview.length = 0 then stringify numbers (bareNotice numbers fullSize)
      else shrinkPreview fullSize maxBytes iterations preview

def truncateSerializedMetadata (serializedMetadata : CodeUnits) (maxBytes : Nat) : CodeUnits :=
  let targetBudget := max 256 (min maxBytes AUDIT_MAX_METADATA_BYTES)
  shrinkPreview numbers (byteLength serializedMetadata) maxBytes 12 (serializedMetadata.take targetBudget)

structure SanitizedMetadataResult (ν : Type) where
  metadataJson : CodeUnits
  metadataValue : Json ν

def fallbackValue : Json ν := .object [noticeField (ofAscii "metadata-serialization-failed".toList)]

def serializationFailed : SanitizedMetadataResult ν := ⟨stringify numbers fallbackValue, fallbackValue⟩

structure Metadata (ν : Type) where
  value : Json ν
  distinct : value.Distinct

def sourceValue : Option (Metadata ν) → Json ν
  | none => .object []
  | some metadata =>
    match metadata.value with
    | .null => .object []
    | value => value

def normalizedValue (metadata : Option (Metadata ν)) : Json ν :=
  match redactSensitiveValue none (sourceValue metadata) with
  | .object fields => .object fields
  | sanitizedValue => .object [(ofAscii "value".toList, sanitizedValue)]

def sanitizeAuditMetadata (metadata : Option (Metadata ν)) (maxBytes : Nat) : SanitizedMetadataResult ν :=
  match serialize numbers (normalizedValue metadata) with
  | none => serializationFailed numbers
  | some serialized =>
    if byteLength serialized ≤ maxBytes then ⟨serialized, normalizedValue metadata⟩
    else
      let truncatedJson := truncateSerializedMetadata numbers serialized maxBytes
      match parse numbers truncatedJson with
      | none => serializationFailed numbers
      | some truncatedValue => ⟨truncatedJson, truncatedValue⟩

end

mutual

inductive SameBesideSecrets : Json ν → Json ν → Prop
  | same (value : Json ν) : SameBesideSecrets value value
  | array {left right : List (Json ν)} (items : SameItems left right) : SameBesideSecrets (.array left) (.array right)
  | object {left right : List (CodeUnits × Json ν)} (fields : SameFields left right) :
    SameBesideSecrets (.object left) (.object right)

inductive SameItems : List (Json ν) → List (Json ν) → Prop
  | nil : SameItems [] []
  | cons {left right : Json ν} {lefts rights : List (Json ν)} (item : SameBesideSecrets left right)
    (items : SameItems lefts rights) : SameItems (left :: lefts) (right :: rights)

inductive SameFields : List (CodeUnits × Json ν) → List (CodeUnits × Json ν) → Prop
  | nil : SameFields [] []
  | secret {name : CodeUnits} (left right : Json ν) {lefts rights : List (CodeUnits × Json ν)}
    (sensitive : isSensitiveName name = true) (fields : SameFields lefts rights) :
    SameFields ((name, left) :: lefts) ((name, right) :: rights)
  | cons {name : CodeUnits} {left right : Json ν} {lefts rights : List (CodeUnits × Json ν)}
    (value : SameBesideSecrets left right) (fields : SameFields lefts rights) :
    SameFields ((name, left) :: lefts) ((name, right) :: rights)

end

end Audit
