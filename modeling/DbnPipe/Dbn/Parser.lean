import DbnPipe.Dbn.Convert
import DbnPipe.Stream.Component

/-!
# The DBN parser

`DbnParserComponent` of `src/dbn_parser_component.hpp`, the terminal component of every pipeline.

* `skipMetadataIfNeeded` — the optional metadata block at the start of the stream;
* `parseFront` — one round of the record loop, **four read paths**: header in place or copied, record in
  place or copied, with or without conversion to v3;
* `parseLoop` — rounds until the chain holds no complete record, collecting a batch;
* `onData` — the batch is given to the sink at the end of the call, not where an error returns early.

`temp` is the thread-local buffer a record that is not contiguous is copied to before it is converted; a
call finds there whatever an earlier one left.
-/

namespace DbnPipe.Dbn

open Layout

/-! ### Records, batches, the sink -/

/-- `kMaxRecordSize`: 64KB. -/
def kMaxRecordSize : ℕ := 64 * 1024

/-- `kMaxMetadataSize`: 256MB. -/
def kMaxMetadataSize : ℕ := 256 * 1024 * 1024

/-- What a `RecordRef` keeps alive: a segment of the chain, with the position pointed at, or a scratch
buffer of its own. -/
inductive Keepalive where
  | segment (s : Segment) (pos : ℕ)
  | scratch

/-- `RecordRef`; `data` is what the pointer shows, `size` bytes of it. -/
structure RecordRef where
  data : List Byte
  size : ℕ
  keepalive : Keepalive

/-- A call of the sink. -/
inductive SinkEvent where
  | data (batch : List RecordRef)
  | error (e : Error)
  | complete

/-- The members of the parser, and the calls it has made to its sink. -/
structure Parser where
  metadataParsed : Bool := false
  dbnVersion : Byte := 3
  events : List SinkEvent := []

/-! ### Reading the front of the chain -/

/-- Memory from position `pos` of a segment's array on. -/
def window (s : Segment) (pos : ℕ) : Window Byte := fun i => s.mem (pos + i)

/-- `reinterpret_cast<uintptr_t>(ptr) % 8 == 0`. -/
def aligned (s : Segment) (pos : ℕ) : Bool := (s.addr + pos) % 8 == 0

/-- A buffer that the first `len` bytes of the chain have been copied to. -/
def copied (chain : Chain) (len : ℕ) (buffer : Window Byte) : Window Byte :=
  overwrite buffer 0 (chain.copyTo id 0 len)

/-- `src_ptr`: where the first `len` bytes can be used in place, contiguous and aligned. -/
def srcPtr (chain : Chain) (len : ℕ) : Option (Segment × ℕ) :=
  if chain.isContiguous id 0 len then
    match chain.dataAt id 0 with
    | some (s, pos) => if aligned s pos then some (s, pos) else none
    | none => none
  else none

/-- `record_size`, from the header in place or from a copy of it. -/
def frontSize (chain : Chain) : ℕ :=
  match srcPtr chain headerSize with
  | some (s, pos) => recordSize (window s pos)
  | none => recordSize (copied chain headerSize zeroed)

/-- The record type, from the record in place or by `CopyTo(1, 1, ..)`. -/
def frontRtype (chain : Chain) (src : Option (Segment × ℕ)) : Byte :=
  match src with
  | some (s, pos) => rtypeOf (window s pos)
  | none => (chain.copyTo id 1 1).headD 0

/-- The outcome of one round of the loop: wait for more data, report an error, or a record of `size` bytes
of the chain. -/
inductive Round where
  | wait
  | fail (msg : String)
  | record (ref : RecordRef) (temp : Window Byte) (size : ℕ)

variable (D : Databento)

/-- The v3 size to convert to; 0 where the version or the record type needs no conversion. -/
def conversionSize (version rtype : Byte) : ℕ :=
  if version = 3 then 0 else getV3SizeForConversion D rtype

/-- The reference to the record of `size` bytes at the front, and the thread-local buffer after it. -/
def makeRef (version : Byte) (temp : Window Byte) (chain : Chain) (size : ℕ) :
    RecordRef × Window Byte :=
  let src := srcPtr chain size
  let v3Size := conversionSize D version (frontRtype chain src)
  if 0 < v3Size then
    match src with
    | some (s, pos) =>
      let w := window s pos
      let v3 := (convertRecordToV3 D version (rtypeOf w) w v3Size).2
      (⟨slice v3 0 v3Size, v3Size, .scratch⟩, temp)
    | none =>
      let w := copied chain size temp
      let v3 := (convertRecordToV3 D version (rtypeOf w) w v3Size).2
      (⟨slice v3 0 v3Size, v3Size, .scratch⟩, w)
  else
    match src with
    | some (s, pos) => (⟨slice (window s pos) 0 size, size, .segment s pos⟩, temp)
    | none => (⟨chain.copyTo id 0 size, size, .scratch⟩, temp)

/-- One round, on a chain that holds a record header. -/
def parseFront (version : Byte) (temp : Window Byte) (chain : Chain) : Round :=
  let size := frontSize chain
  if size < headerSize then .fail "Invalid record size: smaller than header"
  else if kMaxRecordSize < size then
    .fail ("Invalid record size: exceeds maximum (" ++ toString size ++ " > " ++
      toString kMaxRecordSize ++ ")")
  else if chain.size < size then .wait
  else if 3 < version then
    .fail ("Unsupported DBN version " ++ toString version.toNat ++ " (max supported: 3)")
  else
    let r := makeRef D version temp chain size
    .record r.1 r.2 size

/-- What the loop ends with. -/
structure Parsed where
  chain : Chain
  batch : List RecordRef
  error : Option String

/-- The record loop. -/
def parseLoop (version : Byte) : ℕ → Window Byte → Chain → List RecordRef → Parsed
  | 0, _, chain, batch => ⟨chain, batch, none⟩
  | fuel + 1, temp, chain, batch =>
    if chain.size < headerSize then ⟨chain, batch, none⟩
    else
      match parseFront D version temp chain with
      | .wait => ⟨chain, batch, none⟩
      | .fail msg => ⟨chain, batch, some msg⟩
      | .record ref temp size => parseLoop version fuel temp (chain.consume id size) (batch ++ [ref])

/-! ### The component -/

/-- A call of the sink is made. -/
def tell (e : SinkEvent) (c : Component Parser) : Component Parser :=
  { c with own := { c.own with events := c.own.events ++ [e] } }

/-- `ReportTerminalError`. -/
def reportTerminalError (msg : String) (c : Component Parser) : Component Parser :=
  if c.finalized then c
  else tell (.error { code := .parseError, message := msg }) { c with finalized := true }

/-- `frame_size`, bytes 4 to 8 of the metadata header, little-endian. -/
def frameSize (header : List Byte) : ℕ :=
  (header.getD 4 0).toNat + 256 * (header.getD 5 0).toNat + 256 ^ 2 * (header.getD 6 0).toNat +
    256 ^ 3 * (header.getD 7 0).toNat

/-- The characters `DBN`. -/
def magic : List Byte := [68, 66, 78]

/-- `sizeof(DbnHeader)`. -/
def dbnHeaderSize : ℕ := 8

/-- `metadata_parsed_ = true`. -/
def setParsed (c : Component Parser) : Component Parser :=
  { c with own := { c.own with metadataParsed := true } }

/-- `dbn_version_ = header.version; metadata_parsed_ = true`. -/
def setVersion (version : Byte) (c : Component Parser) : Component Parser :=
  { c with own := { c.own with metadataParsed := true, dbnVersion := version } }

/-- `SkipMetadataIfNeeded`: the flag tells whether records can be parsed. -/
def skipMetadataIfNeeded (c : Component Parser) (chain : Chain) : Component Parser × Chain × Bool :=
  if c.own.metadataParsed then (c, chain, true)
  else if chain.size < dbnHeaderSize then (c, chain, false)
  else
    let header := chain.copyTo id 0 dbnHeaderSize
    if header.take 3 ≠ magic then (setParsed c, chain, true)
    else if kMaxMetadataSize < frameSize header then
      (reportTerminalError ("Invalid DBN metadata frame size: " ++ toString (frameSize header)) c, chain,
        false)
    else if chain.size < dbnHeaderSize + frameSize header then (c, chain, false)
    else
      (setVersion (header.getD 3 0) c, chain.consume id (dbnHeaderSize + frameSize header), true)

/-- The second half of `OnData`: parse all complete records and deliver them as one batch.  An error
returns from inside the loop, before the delivery. -/
def parseRecords (temp : Window Byte) (c : Component Parser) (chain : Chain) :
    Component Parser × Chain :=
  let r := parseLoop D c.own.dbnVersion chain.size temp chain []
  match r.error with
  | some msg => (reportTerminalError msg c, r.chain)
  | none => (if r.batch.isEmpty then c else tell (.data r.batch) c, r.chain)

/-- `OnData`. -/
def onData (temp : Window Byte) (c : Component Parser) (chain : Chain) : Component Parser × Chain :=
  if c.finalized then (c, chain)
  else
    let r := skipMetadataIfNeeded c chain
    if !r.2.2 then (r.1, r.2.1) else parseRecords D temp r.1 r.2.1

/-- `OnError`. -/
def onError (e : Error) (c : Component Parser) : Component Parser :=
  if c.finalized then c else tell (.error e) { c with finalized := true }

/-- `OnComplete()`: the finalized flag is read, not set. -/
def onComplete (c : Component Parser) : Component Parser :=
  if c.finalized then c else tell .complete c

/-- `OnComplete(chain)`. -/
def onCompleteChain (c : Component Parser) (chain : Chain) : Component Parser :=
  if c.finalized then c
  else if !chain.empty then
    reportTerminalError ("Incomplete record at end of stream (" ++ toString chain.size ++
      " bytes remaining)") c
  else tell .complete c

/-- `OnDone`. -/
def onDone (c : Component Parser) : Component Parser := onComplete c

end DbnPipe.Dbn
