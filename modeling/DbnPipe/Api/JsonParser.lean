import DbnPipe.Library.Json
import DbnPipe.Stream.Component

/-!
# JsonParser

`lib/stream/json_parser.hpp`: what collects the body of an API response and has it parsed at its end.

* `JsonBuilder` — the concept: what is done at each event, and `Build`;
* `JsonBuilder.handle` — `SaxHandler`, which forwards the calls of `rapidjson::Reader`;
* `JsonReader` — `rapidjson::Reader::Parse`, a third-party function, so **a parameter**;
* `JsonParser` — the members, next to the results given to `on_complete`;
* `onData`, `onError`, `onDone`, `tryParse`, `complete` — the parser.
-/

namespace DbnPipe.Api

variable {β ρ : Type}

/-- `JsonBuilder`. -/
structure JsonBuilder (β ρ : Type) where
  onKey : String → β → β
  onString : String → β → β
  onInt : ℤ → β → β
  onUint : ℕ → β → β
  onDouble : String → β → β
  onBool : Bool → β → β
  onNull : β → β
  onStartObject : β → β
  onEndObject : β → β
  onStartArray : β → β
  onEndArray : β → β
  build : β → Except String ρ

/-- `SaxHandler`. -/
def JsonBuilder.handle (B : JsonBuilder β ρ) (b : β) : SaxEvent → β
  | .null => B.onNull b
  | .bool v => B.onBool v b
  | .int i => B.onInt i b
  | .uint u => B.onUint u b
  | .int64 i => B.onInt i b
  | .uint64 u => B.onUint u b
  | .double d => B.onDouble d b
  | .string s => B.onString s b
  | .key k => B.onKey k b
  | .startObject => B.onStartObject b
  | .endObject => B.onEndObject b
  | .startArray => B.onStartArray b
  | .endArray => B.onEndArray b

/-- Where `Parse` has stopped, and the text of its error. -/
structure JsonError where
  offset : ℕ
  text : String

/-- `rapidjson::Reader::Parse` of the bytes in front of the terminating null: its calls of the handler. -/
structure JsonReader where
  parse : List Byte → List SaxEvent × Option JsonError

/-- `JsonParser`; `results` are the calls of `on_complete`. -/
structure JsonParser (β ρ : Type) where
  builder : β
  buffer : List Byte := []
  completed : Bool := false
  results : List (Except Error ρ) := []

namespace JsonParser

/-- `kMaxBufferSize`: 16MB. -/
def kMaxBufferSize : ℕ := 16 * 1024 * 1024

/-- `IsHttpError`. -/
def isHttpError : ErrorCode → Bool
  | .unauthorized | .notFound | .validationError | .rateLimited | .serverError | .httpError => true
  | _ => false

/-- `Complete`. -/
def complete (result : Except Error ρ) (p : JsonParser β ρ) : JsonParser β ρ :=
  if p.completed then p else { p with completed := true, results := p.results ++ [result] }

/-- The error of a body that is too long. -/
def overflow : Error :=
  { code := .bufferOverflow
    message := "JSON response exceeds maximum buffer size (" ++ toString (kMaxBufferSize / (1024 * 1024)) ++ "MB)" }

/-- The loop of `OnData`: what is left of the caller's chain, too. -/
def dataLoop : ℕ → Chain → JsonParser β ρ → JsonParser β ρ × Chain
  | 0, chain, p => (p, chain)
  | fuel + 1, chain, p =>
    if chain.empty then (p, chain)
    else
      let size := chain.contiguousSize id
      if kMaxBufferSize < p.buffer.length + size then (p.complete (.error overflow), chain)
      else
        match chain.dataAt id 0 with
        | none => (p, chain)
        | some (s, pos) =>
          dataLoop fuel (chain.consume id size) { p with buffer := p.buffer ++ (s.bytes.drop pos).take size }

/-- `OnData`; a round takes at least one byte. -/
def onData (chain : Chain) (p : JsonParser β ρ) : JsonParser β ρ × Chain :=
  if p.completed then (p, chain) else dataLoop chain.size chain p

variable (R : JsonReader) (B : JsonBuilder β ρ)

/-- `TryParse`; an empty buffer is not parsed. -/
def tryParse (p : JsonParser β ρ) : JsonParser β ρ × Except String ρ :=
  if p.buffer.isEmpty then (p, B.build p.builder)
  else
    let r := R.parse (p.buffer.takeWhile (· ≠ 0))
    let p := { p with builder := r.1.foldl B.handle p.builder }
    match r.2 with
    | some e => (p, .error ("Parse error at offset " ++ toString e.offset ++ ": " ++ e.text))
    | none => (p, B.build p.builder)

/-- `OnError`. -/
def onError (e : Error) (p : JsonParser β ρ) : JsonParser β ρ :=
  if p.completed then p
  else if isHttpError e.code then p.complete (.error e)
  else
    match tryParse R B p with
    | (p, .ok result) => p.complete (.ok result)
    | (p, .error _) => p.complete (.error e)

/-- `OnDone`. -/
def onDone (p : JsonParser β ρ) : JsonParser β ρ :=
  if p.completed then p
  else
    match tryParse R B p with
    | (p, .ok result) => p.complete (.ok result)
    | (p, .error text) =>
      p.complete (.error { code := .parseError, message := "JSON parse failed: " ++ text })

end JsonParser

end DbnPipe.Api
