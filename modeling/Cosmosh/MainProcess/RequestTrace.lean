import Cosmosh.Library.JsonRoundTrip
import Cosmosh.Library.Utf16

/-! # What the trace of a request tells

A body is recorded after what stands under secret names, and what looks like a path under the name of a local one, was
replaced.
-/

namespace MainProcess.RequestTrace

open Library Library.CodeUnits Library.Json

variable {ν : Type}

def MAX_TRACE_BODY_BYTES : Nat := 64 * 1024

def REDACTED_VALUE : CodeUnits := ofAscii "[REDACTED]".toList

def REDACTED_PATH_VALUE : CodeUnits := ofAscii "[REDACTED_LOCAL_PATH]".toList

def secretWords : List CodeUnits :=
  ["authorization", "credential", "password", "passphrase", "privatekey", "secret", "token"].map fun word => ofAscii word.toList

/-- `SECRET_KEY_PATTERN.test` -/
def isSecretKey (key : CodeUnits) : Bool := (toAsciiLower key).tails.any fun text => secretWords.any (·.isPrefixOf text)

def localPathNames : List CodeUnits :=
  ["localpath", "localfilepath", "localdirectory", "localdestinationpath"].map fun name => ofAscii name.toList

/-- `LOCAL_PATH_KEY_PATTERN.test` -/
def isLocalPathKey (pathKey : CodeUnits) : Bool :=
  localPathNames.any fun name => decide (toAsciiLower pathKey = name) || (0x2e :: name).isSuffixOf (toAsciiLower pathKey)

def isLetter (u : Nat) : Bool := (0x41 ≤ u && u ≤ 0x5a) || (0x61 ≤ u && u ≤ 0x7a)

/-- `WINDOWS_ABSOLUTE_PATH_PATTERN.test` -/
def isWindowsAbsolutePath : CodeUnits → Bool
  | letter :: 0x3a :: separator :: _ => isLetter letter && (separator == 0x5c || separator == 0x2f)
  | _ => false

/-- `POSIX_ABSOLUTE_PATH_PATTERN.test` -/
def isPosixAbsolutePath (value : CodeUnits) : Bool :=
  (["/Users/", "/home/", "/tmp/", "/var/", "/Volumes/"].map fun root => ofAscii root.toList).any (·.isPrefixOf value)

def shouldRedactLocalPath (pathKey value : CodeUnits) : Bool :=
  if !isLocalPathKey pathKey then false else isWindowsAbsolutePath value || isPosixAbsolutePath value

def indexPath (pathKey : CodeUnits) (index : Nat) : CodeUnits := pathKey ++ 0x2e :: digits index

def childPath (pathKey key : CodeUnits) : CodeUnits := if pathKey = [] then key else pathKey ++ 0x2e :: key

mutual

def sanitizeTraceValue (pathKey : CodeUnits) : Json ν → Json ν
  | .string value => .string (if shouldRedactLocalPath pathKey value then REDACTED_PATH_VALUE else value)
  | .array items => .array (sanitizeItems pathKey 0 items)
  | .object fields => .object (sanitizeFields pathKey fields)
  | value => value

def sanitizeItems (pathKey : CodeUnits) (index : Nat) : List (Json ν) → List (Json ν)
  | [] => []
  | item :: items => sanitizeTraceValue (indexPath pathKey index) item :: sanitizeItems pathKey (index + 1) items

def sanitizeFields (pathKey : CodeUnits) : List (CodeUnits × Json ν) → List (CodeUnits × Json ν)
  | [] => []
  | (key, childValue) :: fields =>
    (key, if isSecretKey key then .string REDACTED_VALUE else sanitizeTraceValue (childPath pathKey key) childValue) ::
      sanitizeFields pathKey fields

end

inductive TraceBodyKind
  | empty
  | json
  | text
  deriving DecidableEq

structure BackendRequestTraceBody (ν : Type) where
  kind : TraceBodyKind
  sizeBytes : Nat
  truncated : Bool
  value : Json ν

variable (numbers : NumberText ν)

def truncateUtf8 (value : CodeUnits) (maxBytes : Nat) : CodeUnits := Utf16.ofBytes ((Utf16.toBytes value).take maxBytes)

def serialized : Json ν → CodeUnits
  | .string text => text
  | value => stringify numbers value

def boundTraceBody (kind : TraceBodyKind) (value : Json ν) : BackendRequestTraceBody ν :=
  let sizeBytes := byteLength (serialized numbers value)
  if sizeBytes ≤ MAX_TRACE_BODY_BYTES then ⟨kind, sizeBytes, false, value⟩
  else ⟨.text, sizeBytes, true, .string (truncateUtf8 (serialized numbers value) MAX_TRACE_BODY_BYTES)⟩

def emptyBody : BackendRequestTraceBody ν := ⟨.empty, 0, false, .null⟩

def toTraceBody : Option (Json ν) → BackendRequestTraceBody ν
  | none => emptyBody
  | some value => boundTraceBody numbers .json (sanitizeTraceValue [] value)

def toResponseSummaryTraceBody (responseText : CodeUnits) : BackendRequestTraceBody ν :=
  let sizeBytes := byteLength responseText
  ⟨.text, sizeBytes, decide (sizeBytes > MAX_TRACE_BODY_BYTES),
    .string (ofAscii "[non-json response omitted, ".toList ++ digits sizeBytes ++ ofAscii " bytes]".toList)⟩

def toResponseTraceBody (responseText : Option CodeUnits) : BackendRequestTraceBody ν :=
  match responseText with
  | none | some [] => emptyBody
  | some text =>
    match parse numbers text with
    | some value => boundTraceBody numbers .json (sanitizeTraceValue [] value)
    | none => toResponseSummaryTraceBody text

abbrev Difference := Bool → CodeUnits → CodeUnits → CodeUnits → Prop

mutual

inductive SameBeside (differ : Difference) : Bool → CodeUnits → Json ν → Json ν → Prop
  | same (isLocal : Bool) (pathKey : CodeUnits) (value : Json ν) : SameBeside differ isLocal pathKey value value
  | string {isLocal : Bool} {pathKey left right : CodeUnits} (h : differ isLocal pathKey left right) :
    SameBeside differ isLocal pathKey (.string left) (.string right)
  | array {isLocal : Bool} {pathKey : CodeUnits} {left right : List (Json ν)} (items : SameItems differ isLocal pathKey 0 left right) :
    SameBeside differ isLocal pathKey (.array left) (.array right)
  | object {isLocal : Bool} {pathKey : CodeUnits} {left right : List (CodeUnits × Json ν)} (fields : SameFields differ isLocal pathKey left right) :
    SameBeside differ isLocal pathKey (.object left) (.object right)

inductive SameItems (differ : Difference) : Bool → CodeUnits → Nat → List (Json ν) → List (Json ν) → Prop
  | nil (isLocal : Bool) (pathKey : CodeUnits) (index : Nat) : SameItems differ isLocal pathKey index [] []
  | cons {isLocal : Bool} {pathKey : CodeUnits} {index : Nat} {left right : Json ν} {lefts rights : List (Json ν)}
    (item : SameBeside differ isLocal (indexPath pathKey index) left right) (items : SameItems differ isLocal pathKey (index + 1) lefts rights) :
    SameItems differ isLocal pathKey index (left :: lefts) (right :: rights)

inductive SameFields (differ : Difference) : Bool → CodeUnits → List (CodeUnits × Json ν) → List (CodeUnits × Json ν) → Prop
  | nil (isLocal : Bool) (pathKey : CodeUnits) : SameFields differ isLocal pathKey [] []
  | secret {isLocal : Bool} {pathKey key : CodeUnits} (left right : Json ν) {lefts rights : List (CodeUnits × Json ν)}
    (hSecret : isSecretKey key = true) (fields : SameFields differ isLocal pathKey lefts rights) :
    SameFields differ isLocal pathKey ((key, left) :: lefts) ((key, right) :: rights)
  | cons {isLocal : Bool} {pathKey key : CodeUnits} {left right : Json ν} {lefts rights : List (CodeUnits × Json ν)}
    (value : SameBeside differ (isLocal || isLocalPathKey (childPath pathKey key)) (childPath pathKey key) left right)
    (fields : SameFields differ isLocal pathKey lefts rights) :
    SameFields differ isLocal pathKey ((key, left) :: lefts) ((key, right) :: rights)

end

def IsAbsolutePath (value : CodeUnits) : Prop := value.head? = some 0x2f ∨ isWindowsAbsolutePath value = true ∨ [0x5c, 0x5c] <+: value

def LocalPaths : Difference := fun isLocal _ left right => isLocal = true ∧ IsAbsolutePath left ∧ IsAbsolutePath right

def Redacted : Difference := fun _ pathKey left right => shouldRedactLocalPath pathKey left = true ∧ shouldRedactLocalPath pathKey right = true

abbrev DiffersInSecrets (left right : Json ν) : Prop := SameBeside LocalPaths false [] left right

abbrev DiffersInRedacted (left right : Json ν) : Prop := SameBeside Redacted false [] left right

mutual

theorem sanitizeTraceValue_same {isLocal : Bool} {pathKey : CodeUnits} {left right : Json ν} (h : SameBeside Redacted isLocal pathKey left right) :
    sanitizeTraceValue pathKey left = sanitizeTraceValue pathKey right := by
  cases h with
  | same => rfl
  | string h => simp only [sanitizeTraceValue, h.1, h.2, if_true]
  | array items => rw [sanitizeTraceValue, sanitizeTraceValue, sanitizeItems_same items]
  | object fields => rw [sanitizeTraceValue, sanitizeTraceValue, sanitizeFields_same fields]

theorem sanitizeItems_same {isLocal : Bool} {pathKey : CodeUnits} {index : Nat} {left right : List (Json ν)}
    (h : SameItems Redacted isLocal pathKey index left right) : sanitizeItems pathKey index left = sanitizeItems pathKey index right := by
  cases h with
  | nil => rfl
  | cons item items => rw [sanitizeItems, sanitizeItems, sanitizeTraceValue_same item, sanitizeItems_same items]

theorem sanitizeFields_same {isLocal : Bool} {pathKey : CodeUnits} {left right : List (CodeUnits × Json ν)}
    (h : SameFields Redacted isLocal pathKey left right) : sanitizeFields pathKey left = sanitizeFields pathKey right := by
  cases h with
  | nil => rfl
  | secret left right hSecret fields => rw [sanitizeFields, sanitizeFields, if_pos hSecret, if_pos hSecret, sanitizeFields_same fields]
  | cons value fields => rw [sanitizeFields, sanitizeFields, sanitizeTraceValue_same value, sanitizeFields_same fields]

end

theorem absolute_ne_redacted {value : CodeUnits} (h : IsAbsolutePath value) : value ≠ REDACTED_PATH_VALUE := by
  rintro rfl
  revert h
  rw [IsAbsolutePath]
  decide

theorem redacted_of_same {isLocal : Bool} {pathKey left right : CodeUnits} (h : LocalPaths isLocal pathKey left right) (hDiffer : left ≠ right)
    (hSame : (if shouldRedactLocalPath pathKey left then REDACTED_PATH_VALUE else left) =
      if shouldRedactLocalPath pathKey right then REDACTED_PATH_VALUE else right) : Redacted isLocal pathKey left right := by
  obtain ⟨-, hLeft, hRight⟩ := h
  split at hSame
  · rename_i hRedacted
    split at hSame
    · rename_i hRedacted'
      exact ⟨hRedacted, hRedacted'⟩
    · exact absurd hSame.symm (absolute_ne_redacted hRight)
  · split at hSame
    · exact absurd hSame (absolute_ne_redacted hLeft)
    · exact absurd hSame hDiffer

mutual

theorem sameBeside_redacted {isLocal : Bool} {pathKey : CodeUnits} {left right : Json ν} (h : SameBeside LocalPaths isLocal pathKey left right)
    (hSame : sanitizeTraceValue pathKey left = sanitizeTraceValue pathKey right) : SameBeside Redacted isLocal pathKey left right := by
  cases h with
  | same => exact .same _ _ _
  | @string _ _ left right h =>
    by_cases hEqual : left = right
    · rw [hEqual]
      exact .same _ _ _
    · exact .string (redacted_of_same h hEqual (Json.string.inj hSame))
  | array items => exact .array (sameItems_redacted items (Json.array.inj hSame))
  | object fields => exact .object (sameFields_redacted fields (Json.object.inj hSame))

theorem sameItems_redacted {isLocal : Bool} {pathKey : CodeUnits} {index : Nat} {left right : List (Json ν)}
    (h : SameItems LocalPaths isLocal pathKey index left right) (hSame : sanitizeItems pathKey index left = sanitizeItems pathKey index right) :
    SameItems Redacted isLocal pathKey index left right := by
  cases h with
  | nil => exact .nil _ _ _
  | cons item items =>
    obtain ⟨hItem, hItems⟩ := List.cons.inj hSame
    exact .cons (sameBeside_redacted item hItem) (sameItems_redacted items hItems)

theorem sameFields_redacted {isLocal : Bool} {pathKey : CodeUnits} {left right : List (CodeUnits × Json ν)}
    (h : SameFields LocalPaths isLocal pathKey left right) (hSame : sanitizeFields pathKey left = sanitizeFields pathKey right) :
    SameFields Redacted isLocal pathKey left right := by
  cases h with
  | nil => exact .nil _ _
  | secret left right hSecret fields => exact .secret left right hSecret (sameFields_redacted fields (List.cons.inj hSame).2)
  | @cons _ _ key left right _ _ value fields =>
    obtain ⟨hField, hFields⟩ := List.cons.inj hSame
    have hRest := sameFields_redacted fields hFields
    by_cases hSecret : isSecretKey key = true
    · exact .secret left right hSecret hRest
    · have hValue := (Prod.mk.inj hField).2
      rw [if_neg hSecret, if_neg hSecret] at hValue
      exact .cons (sameBeside_redacted value hValue) hRest

end

theorem truncated_boundTraceBody (kind : TraceBodyKind) (value : Json ν) :
    (boundTraceBody numbers kind value).truncated = decide (MAX_TRACE_BODY_BYTES < byteLength (serialized numbers value)) := by
  rw [boundTraceBody]
  split
  · rename_i hShort
    exact (decide_eq_false (by omega)).symm
  · rename_i hLong
    exact (decide_eq_true (by omega)).symm

theorem boundTraceBody_whole {kind : TraceBodyKind} {value : Json ν} (h : (boundTraceBody numbers kind value).truncated = false) :
    (boundTraceBody numbers kind value).value = value := by
  rw [truncated_boundTraceBody, decide_eq_false_iff_not] at h
  rw [boundTraceBody, if_pos (by omega)]

theorem boundTraceBody_inj {kind kind' : TraceBodyKind} {value value' : Json ν}
    (h : boundTraceBody numbers kind value = boundTraceBody numbers kind' value') (hWhole : (boundTraceBody numbers kind value).truncated = false) :
    value = value' := by
  have hValue := boundTraceBody_whole numbers hWhole
  rw [h] at hWhole hValue
  exact hValue.symm.trans (boundTraceBody_whole numbers hWhole)

structure Conceals (left right : Json ν) (leftBody rightBody : BackendRequestTraceBody ν) : Prop where
  alike : DiffersInRedacted left right → leftBody = rightBody
  only : leftBody = rightBody → DiffersInRedacted left right ∨ leftBody.truncated = true

theorem boundTraceBody_conceals {left right : Json ν} (h : DiffersInSecrets left right) :
    Conceals left right (boundTraceBody numbers .json (sanitizeTraceValue [] left)) (boundTraceBody numbers .json (sanitizeTraceValue [] right)) := by
  refine ⟨fun hRedacted => by rw [sanitizeTraceValue_same hRedacted], fun hSame => ?_⟩
  cases hWhole : (boundTraceBody numbers .json (sanitizeTraceValue [] left)).truncated with
  | true => exact .inr rfl
  | false => exact .inl (sameBeside_redacted h (boundTraceBody_inj numbers hSame hWhole))

theorem toResponseTraceBody_of_parse {text : CodeUnits} {value : Json ν} (h : parse numbers text = some value) :
    toResponseTraceBody numbers (some text) = boundTraceBody numbers .json (sanitizeTraceValue [] value) := by
  cases text with
  | nil => cases h
  | cons u text => simp only [toResponseTraceBody, h]

theorem trace_conceals {left right : Json ν} (h : DiffersInSecrets left right) :
    Conceals left right (toTraceBody numbers (some left)) (toTraceBody numbers (some right)) ∧
      ∀ leftText rightText, parse numbers leftText = some left → parse numbers rightText = some right →
        Conceals left right (toResponseTraceBody numbers (some leftText)) (toResponseTraceBody numbers (some rightText)) := by
  refine ⟨boundTraceBody_conceals numbers h, fun leftText rightText hLeft hRight => ?_⟩
  rw [toResponseTraceBody_of_parse numbers hLeft, toResponseTraceBody_of_parse numbers hRight]
  exact boundTraceBody_conceals numbers h

def localPathBody (path : String) : Json Int := .object [(ofAscii "localPath".toList, .string (ofAscii path.toList))]

theorem localPathBody_differs {left right : String} (hLeft : IsAbsolutePath (ofAscii left.toList)) (hRight : IsAbsolutePath (ofAscii right.toList)) :
    DiffersInSecrets (localPathBody left) (localPathBody right) := by
  refine .object (.cons (.string ⟨?_, hLeft, hRight⟩) (.nil _ _))
  decide

theorem root_path_is_recorded : DiffersInSecrets (localPathBody "/root/a") (localPathBody "/root/b") ∧
    toTraceBody integers (some (localPathBody "/root/a")) ≠ toTraceBody integers (some (localPathBody "/root/b")) := by
  refine ⟨localPathBody_differs (.inl rfl) (.inl rfl), fun hSame => ?_⟩
  have hValue := congrArg BackendRequestTraceBody.value hSame
  revert hValue
  decide

theorem home_path_is_concealed : Conceals (localPathBody "/home/a") (localPathBody "C:/b")
      (toTraceBody integers (some (localPathBody "/home/a"))) (toTraceBody integers (some (localPathBody "C:/b"))) ∧
    ∀ leftText rightText, parse integers leftText = some (localPathBody "/home/a") → parse integers rightText = some (localPathBody "C:/b") →
      Conceals (localPathBody "/home/a") (localPathBody "C:/b") (toResponseTraceBody integers (some leftText))
        (toResponseTraceBody integers (some rightText)) := trace_conceals integers (localPathBody_differs (.inl rfl) (.inr (.inl (by decide))))

end MainProcess.RequestTrace
