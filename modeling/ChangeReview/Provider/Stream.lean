import ChangeReview.Provider.Reply
import ChangeReview.Value.Display
import ChangeReview.Value.Reader

/-!
# Streams

A reply that comes in events: chunks of JSON that carry pieces of the text, counts and the reason
for the end, notices of errors, and others that are passed over. A stream that breaks off still
makes a reply if some text has come; a notice of an error ends the call whatever has come.
-/
namespace ChangeReview.Provider

/-- What comes out of a stream. -/
inductive StreamEvent where
  | chunk (bytes : List UInt8)
  /-- An event as it is. -/
  | other (v : Value)
  /-- The stream breaks off. -/
  | broken (fault : Fault)
  deriving DecidableEq

/-- What has come so far. -/
structure StreamState where
  pieces : List Value := []
  input : Value := .int 0
  output : Value := .int 0
  stopReason : Value := unknownReason
  deriving DecidableEq

/-- A stream read up to its end, or up to a fault. -/
abbrev StreamResult := StreamState × Except Fault Unit

namespace StreamState

/-- The state behind an attempt; a fault leaves the state as it was. -/
def behind (s : StreamState) (r : Except Fault StreamState) : StreamResult :=
  match r with
  | .ok s => (s, .ok ())
  | .error fault => (s, .error fault)

/-- A value that has a length. -/
def isSized : Value → Bool
  | .text _ | .list _ | .object _ => true
  | _ => false

/-- The state with one more piece; a piece without a length is a fault, but a piece all the same. -/
def addPiece (s : StreamState) (piece : Value) : StreamResult :=
  let s := { s with pieces := s.pieces ++ [piece] }
  if isSized piece then (s, .ok ()) else (s, .error (.mismatch (.noLength piece.kind)))

/-- The piece of text that a delta carries. -/
def deltaPiece? (chunk : Value) : Except Fault (Option Value) := do
  let delta ← chunk.getD "delta" (.object [])
  let type ← delta.getD "type" .null
  if type = .text "text_delta" then return some (← delta.getD "text" (.text []))
  return none

/-- The state behind a delta of the text. -/
def onText (s : StreamState) (chunk : Value) : StreamResult :=
  match deltaPiece? chunk with
  | .ok (some piece) => s.addPiece piece
  | .ok none => (s, .ok ())
  | .error fault => (s, .error fault)

/-- The state behind a delta of the message: why it ends, and the tokens of the output. -/
def onEnd (s : StreamState) (chunk : Value) : Except Fault StreamState := do
  let delta ← chunk.getD "delta" (.object [])
  let stopReason ← delta.getD "stop_reason" unknownReason
  let usage ← chunk.getD "usage" (.object [])
  let output ← usage.getD "output_tokens" (.int 0)
  return { s with stopReason, output }

/-- The state behind the start of the message: the tokens of the input. -/
def onStart (s : StreamState) (chunk : Value) : Except Fault StreamState := do
  let message ← chunk.getD "message" (.object [])
  let usage ← message.getD "usage" (.object [])
  let input ← usage.getD "input_tokens" (.int 0)
  return { s with input }

/-- The state behind a chunk. -/
def onChunk (s : StreamState) (chunk : Value) : StreamResult :=
  match chunk.getD "type" (.text []) with
  | .error fault => (s, .error fault)
  | .ok type =>
    if type = .text "content_block_delta" then s.onText chunk
    else if type = .text "message_delta" then s.behind (s.onEnd chunk)
    else if type = .text "message_start" then s.behind (s.onStart chunk)
    else (s, .ok ())

/-- The state behind a chunk's document; one that is no JSON is passed over. -/
def onDocument (s : StreamState) (document : Except Fault Text) : StreamResult :=
  match document >>= Value.parse with
  | .ok chunk => s.onChunk chunk
  | .error .notJson | .error (.missingKey _) => (s, .ok ())
  | .error fault => (s, .error fault)

/-- The keys of the events that are notices of errors. -/
def errorKeys : List Text := [
  "internalServerException", "modelStreamErrorException", "throttlingException",
  "validationException"]

/-- The value can be searched for a text, and holds it. -/
def holds (v : Value) (t : Text) : Except Fault Bool :=
  match v with
  | .object members => .ok (Value.lookup t members).isSome
  | .list items => .ok (items.contains (.text t))
  | .text s => .ok (Text.occurs t s)
  | v => .error (.mismatch (.notSearchable v.kind))

/-- The fault of a notice. -/
def noticeFault (event : Value) (key : Text) : Fault :=
  let told : Except Fault Value := do
    let notice ← event.require key
    notice.getD "message" (.text notice.display)
  match told with
  | .ok m =>
    .backend ("Bedrock stream error (" ++ key ++ "): " ++ m.display) (some Provider.bedrock.name)
  | .error fault => fault

/-- The document of an event that has a chunk. -/
def eventDocument (event : Value) : Except Fault Text := do
  match ← (← event.require "chunk") |>.require "bytes" with
  | .text t => return t
  | v => throw (.mismatch (.notADocument v.kind))

/-- The first of the keys that an event holds. -/
def firstHeld (event : Value) : List Text → Except Fault (Option Text)
  | [] => .ok none
  | key :: rest => do if ← holds event key then return some key else firstHeld event rest

/-- The state behind an event that is no chunk of bytes. -/
def onOther (s : StreamState) (event : Value) : StreamResult :=
  match holds event "chunk" with
  | .error fault => (s, .error fault)
  | .ok true => s.onDocument (eventDocument event)
  | .ok false =>
    match firstHeld event errorKeys with
    | .error fault => (s, .error fault)
    | .ok (some key) => (s, .error (noticeFault event key))
    | .ok none =>
      match event with
      | .object _ => (s, .ok ())
      | v => (s, .error (.noMember v.kind "keys"))

/-- The state behind an event. -/
def step (s : StreamState) : StreamEvent → StreamResult
  | .chunk bytes => s.onDocument (Text.ofDocumentBytes bytes)
  | .other event => s.onOther event
  | .broken fault => (s, .error fault)

/-- The state behind a stream. -/
def read (s : StreamState) : List StreamEvent → StreamResult
  | [] => (s, .ok ())
  | event :: rest =>
    match s.step event with
    | (s, .ok ()) => s.read rest
    | (s, .error fault) => (s, .error fault)

/-- The counts that have come. -/
def counts (s : StreamState) : Usage.Counts := ⟨s.input, s.output⟩

/-- The reply of a stream that broke off, or its fault. -/
def partialReply (s : StreamState) (fault : Fault) : Except Fault Reply :=
  match fault with
  | .backend .. => .error fault
  | fault =>
    match joinTexts s.pieces with
    | .error unjoined => .error unjoined
    | .ok [] => .error (failed .bedrock fault)
    | .ok text => Reply.counted ⟨.text text, some s.counts, .text "stream_error"⟩

/-- The reply of a whole stream. -/
def wholeReply (s : StreamState) : Except Fault Reply := do
  let text ← joinTexts s.pieces
  Reply.counted ⟨.text text, some s.counts, s.stopReason⟩

end StreamState

/-- What becomes of a call whose reply comes in a stream. -/
def answerStream (delivery : Except Fault (List StreamEvent)) : Except Fault Reply :=
  match delivery with
  | .error fault => StreamState.partialReply {} fault
  | .ok events =>
    match StreamState.read {} events with
    | (s, .error fault) => s.partialReply fault
    | (s, .ok ()) =>
      match s.wholeReply with
      | .ok reply => .ok reply
      | .error fault => s.partialReply fault

end ChangeReview.Provider
