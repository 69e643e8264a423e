import DbnPipe.Dbn.Parser

/-!
# The parser behind another component

`DbnParserComponent` as the downstream of a component that hands a chain on, and its sink.

* `ParserStage` — the parser, next to **what the sink will do**: `Suspend`, some times in each `OnData`;
* `hear` — the terminal signals that were given since;
* `take` — one `OnData` of the parser.

A component records the signals it gives; nothing but its calls reaches the parser, so they are heard as the
parser is called or looked at next.
-/

namespace DbnPipe.Dbn

open Layout

/-- One `OnData` of the parser: what the thread-local buffer holds by then, and how often the sink calls
`Suspend` in it. -/
structure SinkTurn where
  temp : Window Byte := zeroed
  suspends : ℕ := 0

/-- The parser, the number of signals it has heard, and the turns to come. -/
structure ParserStage where
  parser : Component Parser := { own := {} }
  heard : ℕ := 0
  turns : List SinkTurn := []

namespace ParserStage

/-- `OnError` or `OnDone` of the parser. -/
def hearOne (c : Component Parser) : Signal → Component Parser
  | .error e => onError e c
  | .done => onDone c

/-- The signals not heard yet reach the parser. -/
def hear (signals : List Signal) (t : ParserStage) : ParserStage :=
  { t with
    parser := (signals.drop t.heard).foldl hearOne t.parser
    heard := signals.length }

/-- What one `OnData` leaves: the stage, the number of bytes consumed, and how often `Suspend` was called. -/
structure Taken where
  stage : ParserStage
  consumed : ℕ
  suspends : ℕ

/-- `OnData` of the parser on `chain`. -/
def take (D : Databento) (chain : Chain) (t : ParserStage) : Taken :=
  let turn := t.turns.headD {}
  let r := onData D turn.temp t.parser chain
  { stage := { t with parser := r.1, turns := t.turns.tail }
    consumed := chain.size - r.2.size
    suspends := turn.suspends }

/-- What the sink has been told, the signals given so far included. -/
def events (signals : List Signal) (t : ParserStage) : List SinkEvent := (t.hear signals).parser.own.events

end ParserStage

end DbnPipe.Dbn
