import Kvy.General.JsObject
import Kvy.General.Text
import Kvy.Wire.Session

/-!
# Transcript lines

What the envelope mapper reads from a line of a Claude Code transcript. Only the keys of a
line are validated when it is parsed, so every reader here accepts any JSON: a property is
absent on anything that is not an object, and reading a property of `null` throws. Terminal
output recorded in a transcript carries escape sequences and wrapping, which are cleaned away.
-/

namespace Kvy.Cli.Claude

open General Wire

/-! ## Terminal output -/

/-- What follows an escape sequence at the head: `ANSI_ESCAPE_SEQUENCE`. -/
def skipAnsiEscape : List Char → Option (List Char)
  | '\x1b' :: '[' :: rest =>
    let parameters := rest.dropWhile (fun char => '0' ≤ char && char ≤ '?')
    match parameters.dropWhile (fun char => ' ' ≤ char && char ≤ '/') with
    | final :: left => if '@' ≤ final && final ≤ '~' then some left else none
    | [] => none
  | _ => none

/-- What follows a marker whose escape character was lost: `ORPHANED_ANSI_MARKER`. -/
def skipOrphanedMarker : List Char → Option (List Char)
  | '[' :: rest =>
    let inMarker (char : Char) : Bool := char.isDigit || char == ';'
    match rest.dropWhile inMarker with
    | 'm' :: left =>
      if ((rest.takeWhile inMarker).splitOn ';').all (fun group => !group.isEmpty) then some left
      else none
    | _ => none
  | _ => none

/-- `normalizeTranscriptText`. -/
def normalizeTranscriptText (text : List Char) : List Char :=
  let plain := Text.removeMatches skipAnsiEscape text.length text
  let unmarked := Text.removeMatches skipOrphanedMarker plain.length plain
  Text.trim (Text.collapseSpaces false unmarked)

/-! ## Lines -/

/-- A property that is a string and not empty. -/
def nonEmptyString : Option Json → Option String
  | some (.str text) => if text = "" then none else some text
  | _ => none

/-- The `type` of a line or of a content block. -/
def typeOf (value : Json) : Option String := Schema.string (value.field? "type")

/-- Reading a property of `null` throws. -/
def isNull : Json → Bool
  | .null => true
  | _ => false

/-- A flag counts only when it is `true`. -/
def isTrue : Option Json → Bool
  | some (.bool value) => value
  | _ => false

/-- `pickUuid`. -/
def pickUuid (message : Json) : Option String := nonEmptyString (message.field? "uuid")

/-- `pickParentUuid`. -/
def pickParentUuid (message : Json) : Option String :=
  nonEmptyString (message.field? "parentUuid") <|> nonEmptyString (message.field? "parentUUID")

/-- `isSidechainMessage`. -/
def isSidechainMessage (message : Json) : Bool := isTrue (message.field? "isSidechain")

/-- `isMetaMessage`. -/
def isMetaMessage (message : Json) : Bool := isTrue (message.field? "isMeta")

/-- `isCompactSummaryMessage`. -/
def isCompactSummaryMessage (message : Json) : Bool := isTrue (message.field? "isCompactSummary")

/-- `extractLocalCommandStdout`. -/
def extractLocalCommandStdout (content : String) : Option (List Char) :=
  (Text.between? "<local-command-stdout>".toList "</local-command-stdout>".toList
    content.toList).map Text.trim

/-- `isLocalCommandInvocation`. -/
def isLocalCommandInvocation (content : String) : Bool :=
  (Text.between? "<command-name>".toList "</command-name>".toList content.toList).isSome

/-- `pickUsage`: the input and the output tokens. -/
def pickUsage (message : Json) : Option (Decimal × Decimal) := do
  let usage ← (message.field? "message").bind (Json.field? "usage")
  return (← Schema.number (usage.field? "input_tokens"), ← Schema.number (usage.field? "output_tokens"))

/-- `pickExplicitProviderSubagent`. -/
def pickExplicitProviderSubagent (message : Json) : Option String :=
  nonEmptyString (message.field? "parent_tool_use_id") <|>
    nonEmptyString (message.field? "parentToolUseId")

/-- `pickMessageContent`. -/
def pickMessageContent (message : Json) : Option Json :=
  (message.field? "message").bind (Json.field? "content")

/-- `pickContentBlocks`. -/
def pickContentBlocks (message : Json) : List Json :=
  match pickMessageContent message with
  | some (.arr blocks) => blocks
  | _ => []

/-- `normalizePrompt`, absent when nothing is left. -/
def normalizePrompt (prompt : String) : Option String :=
  let normalized := Text.trimString prompt
  if normalized = "" then none else some normalized

/-- `pickSidechainRootPrompt`. -/
def pickSidechainRootPrompt (message : Json) : Option String :=
  if typeOf message = some "user" then
    (Schema.string (pickMessageContent message)).bind normalizePrompt
  else none

/-- `pickTaskPrompt`. -/
def pickTaskPrompt (input : Option Json) : Option String :=
  (Schema.string (input.bind (Json.field? "prompt"))).bind normalizePrompt

/-- `toToolArgs`. -/
def toToolArgs : Option Json → Json
  | some (.obj fields) => .obj fields
  | some input => .obj [("input", input)]
  | none => .obj []

/-- `toolTitle`. -/
def toolTitle (name : String) (input : Option Json) : String :=
  match Schema.string (input.bind (Json.field? "description")) with
  | some description =>
    if (normalizePrompt description).isNone then name ++ " call"
    else if 80 < (codeUnits description).length then
      String.ofList (Text.firstUnits 77 description.toList) ++ "..."
    else description
  | none => name ++ " call"

/-- `RISK_BY_TOOL_NAME`. -/
def riskByToolName : List (String × ToolRisk) :=
  [("Bash", .exec), ("Edit", .write), ("Write", .write), ("MultiEdit", .write),
    ("NotebookEdit", .write), ("Read", .read), ("Grep", .read), ("Glob", .read), ("LS", .read),
    ("WebFetch", .network), ("WebSearch", .network)]

/-- What the table of risks returns for a name. -/
inductive PickedRisk where
  | absent
  | risk (risk : ToolRisk)
  | inherited

/-- `pickRisk`. An inherited property is no risk, but it is not absent either. -/
def pickRisk (name : String) : PickedRisk :=
  match riskByToolName.lookup name with
  | some risk => .risk risk
  | none => if (inheritedProperties.lookup name).isSome then .inherited else .absent

/-- `MAX_INLINE_IMAGE_BYTES`. -/
def maxInlineImageBytes : Nat := 256 * 1024

/-- `IMAGE_EXTENSION_BY_MEDIA_TYPE`. -/
def imageExtensionByMediaType : List (String × String) :=
  [("image/png", "png"), ("image/jpeg", "jpg"), ("image/gif", "gif"), ("image/webp", "webp")]

/-- `imageFileName`; an inherited property is written as text. -/
def imageFileName (mediaType : String) : String :=
  "image." ++
    match imageExtensionByMediaType.lookup mediaType, inheritedProperties.lookup mediaType with
    | some extension, _ => extension
    | none, some (some function) => "function " ++ function ++ "() \x7b [native code] \x7d"
    | none, some none => "[object Object]"
    | none, none => "png"

/-- `approxBase64Bytes`. -/
def approxBase64Bytes (base64 : String) : Nat := (codeUnits base64).length * 3 / 4

/-- `pickImageSource`: the media type and the data. -/
def pickImageSource (block : Json) : Option (String × String) := do
  let source ← block.field? "source"
  if Schema.string (source.field? "type") = some "base64" then
    return (← Schema.string (source.field? "media_type"), ← nonEmptyString (source.field? "data"))
  else none

/-- The event of an image block: `imageBlockToEnvelope`, without the envelope. -/
def imageEvent (block : Json) : Option SessionEvent :=
  (pickImageSource block).map (fun (mediaType, data) =>
    let size := approxBase64Bytes data
    if maxInlineImageBytes < size then .service "image omitted (too large)"
    else .file ("inline:" ++ data) (imageFileName mediaType) (Decimal.ofInt size) none)

end Kvy.Cli.Claude
