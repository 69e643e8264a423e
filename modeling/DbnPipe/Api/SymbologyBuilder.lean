import DbnPipe.Api.JsonParser
import Mathlib.Data.List.AList

/-!
# SymbologyBuilder

`SymbologyBuilder` of `src/api/symbology_client.hpp`: a state machine over the events of a symbology response,
with **one remembered key and no depth**.

* `SymbolInterval`, `SymbologyResponse` — the result; an entry of the map is made by its first interval;
* `SymbologyBuilder` — the members, with `onKey` … `onEndArray` and `build`;
* `symbologyBuilder` — the functions as a `JsonBuilder`.
-/

namespace DbnPipe.Api

/-- `SymbolInterval`. -/
structure SymbolInterval where
  startDate : String := ""
  endDate : String := ""
  symbol : String := ""
deriving DecidableEq, Repr

/-- `SymbologyResponse`. -/
structure SymbologyResponse where
  result : AList fun _ : String => List SymbolInterval := ∅
  partials : List String := []
  notFound : List String := []

/-- `response_.result[symbol].push_back(interval)`. -/
def SymbologyResponse.push (r : SymbologyResponse) (symbol : String) (interval : SymbolInterval) :
    SymbologyResponse :=
  { r with result := r.result.insert symbol ((r.result.lookup symbol).getD [] ++ [interval]) }

/-- All required fields are present. -/
def SymbolInterval.complete (i : SymbolInterval) : Bool := i.startDate ≠ "" && i.endDate ≠ "" && i.symbol ≠ ""

/-- `SymbologyBuilder::State`. -/
inductive SymbologyBuilder.State where
  | root
  | inResult
  | inSymbolArray
  | inInterval
  | inPartialArray
  | inNotFoundArray
deriving DecidableEq, Repr

/-- `SymbologyBuilder`. -/
structure SymbologyBuilder where
  state : SymbologyBuilder.State := .root
  currentKey : String := ""
  currentSymbol : String := ""
  currentInterval : SymbolInterval := {}
  response : SymbologyResponse := {}

namespace SymbologyBuilder

/-- `OnKey`. -/
def onKey (key : String) (b : SymbologyBuilder) : SymbologyBuilder :=
  let b := { b with currentKey := key }
  if b.state = .inResult then { b with currentSymbol := key } else b

/-- `OnString`. -/
def onString (value : String) (b : SymbologyBuilder) : SymbologyBuilder :=
  match b.state with
  | .inInterval =>
    if b.currentKey = "d0" then { b with currentInterval.startDate := value }
    else if b.currentKey = "d1" then { b with currentInterval.endDate := value }
    else if b.currentKey = "s" then { b with currentInterval.symbol := value }
    else b
  | .inPartialArray => { b with response.partials := b.response.partials ++ [value] }
  | .inNotFoundArray => { b with response.notFound := b.response.notFound ++ [value] }
  | _ => b

/-- `OnInt`. -/
def onInt (v : ℤ) (b : SymbologyBuilder) : SymbologyBuilder :=
  if b.state = .inInterval ∧ b.currentKey = "s" then { b with currentInterval.symbol := toString v } else b

/-- `OnUint`. -/
def onUint (v : ℕ) (b : SymbologyBuilder) : SymbologyBuilder :=
  if b.state = .inInterval ∧ b.currentKey = "s" then { b with currentInterval.symbol := toString v } else b

/-- `OnStartObject`. -/
def onStartObject (b : SymbologyBuilder) : SymbologyBuilder :=
  match b.state with
  | .root => if b.currentKey = "result" then { b with state := .inResult } else b
  | .inSymbolArray => { b with state := .inInterval, currentInterval := {} }
  | _ => b

/-- `OnEndObject`. -/
def onEndObject (b : SymbologyBuilder) : SymbologyBuilder :=
  match b.state with
  | .inInterval =>
    let response :=
      if b.currentInterval.complete then b.response.push b.currentSymbol b.currentInterval else b.response
    { b with response := response, state := .inSymbolArray }
  | .inResult => { b with state := .root }
  | _ => b

/-- `OnStartArray`. -/
def onStartArray (b : SymbologyBuilder) : SymbologyBuilder :=
  match b.state with
  | .root =>
    if b.currentKey = "partial" then { b with state := .inPartialArray }
    else if b.currentKey = "not_found" then { b with state := .inNotFoundArray }
    else b
  | .inResult => { b with state := .inSymbolArray }
  | _ => b

/-- `OnEndArray`. -/
def onEndArray (b : SymbologyBuilder) : SymbologyBuilder :=
  match b.state with
  | .inSymbolArray => { b with state := .inResult }
  | .inPartialArray | .inNotFoundArray => { b with state := .root }
  | _ => b

/-- `Build`. -/
def build (b : SymbologyBuilder) : Except String SymbologyResponse := .ok b.response

end SymbologyBuilder

/-- The functions of `SymbologyBuilder`. -/
def symbologyBuilder : JsonBuilder SymbologyBuilder SymbologyResponse where
  onKey := SymbologyBuilder.onKey
  onString := SymbologyBuilder.onString
  onInt := SymbologyBuilder.onInt
  onUint := SymbologyBuilder.onUint
  onDouble _ := id
  onBool _ := id
  onNull := id
  onStartObject := SymbologyBuilder.onStartObject
  onEndObject := SymbologyBuilder.onEndObject
  onStartArray := SymbologyBuilder.onStartArray
  onEndArray := SymbologyBuilder.onEndArray
  build := SymbologyBuilder.build

end DbnPipe.Api
