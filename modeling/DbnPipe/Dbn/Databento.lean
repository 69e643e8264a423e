import DbnPipe.Library.Layout
import DbnPipe.Stream.BufferChain

/-!
# The message structs of databento-cpp

databento-cpp is not part of the repository.  `Databento` is a parameter of the parser's model that holds
what `src/dbn_parser_component.hpp` uses of it: record type values, struct layouts and constants.  Nothing
is assumed of the layouts but that fields lie inside their struct, and the sizes that the source asserts.

* `InstrumentDefField`, `StatField`, … — the fields that are read or written;
* `Databento` — the parameter;
* `databentoCpp` — **an instance**: the packed layouts of DBN versions 1, 2 and 3.
-/

namespace DbnPipe.Dbn

open Layout

/-! ### The fields that are used -/

/-- The fields of `v1::InstrumentDefMsg` and `v2::InstrumentDefMsg` that are copied. -/
inductive InstrumentDefField where
  | tsRecv | minPriceIncrement | displayFactor | expiration | activation | highLimitPrice
  | lowLimitPrice | maxPriceVariation | unitOfMeasureQty | minPriceIncrementAmount | priceRatio
  | strikePrice | rawInstrumentId | instAttribValue | underlyingId | marketDepthImplied | marketDepth
  | marketSegmentId | maxTradeVol | minLotSize | minLotSizeBlock | minLotSizeRoundLot | minTradeVol
  | contractMultiplier | decayQuantity | originalContractSize | applId | maturityYear | decayStartDate
  | channelId
  | currency | settlCurrency | secsubtype | rawSymbol | group | exchange | asset | cfi | securityType
  | unitOfMeasure | underlying | strikePriceCurrency
  | instrumentClass | matchAlgorithm | mainFraction | priceDisplayFormat | subFraction
  | underlyingProduct | securityUpdateAction | maturityMonth | maturityDay | maturityWeek
  | userDefinedInstrument | contractMultiplierUnit | flowScheduleType | tickRule
deriving DecidableEq, Repr

/-- The fields new in the v3 `InstrumentDefMsg` that are set. -/
inductive LegField where
  | legPrice | legDelta | legSide
deriving DecidableEq, Repr

/-- The fields of `StatMsg`. -/
inductive StatField where
  | tsRecv | tsRef | price | quantity | sequence | tsInDelta | statType | channelId | updateAction
  | statFlags
deriving DecidableEq, Repr

/-- The field of `v1::ErrorMsg`. -/
inductive ErrorField where
  | err
deriving DecidableEq, Repr

/-- The fields new in the v3 `ErrorMsg`. -/
inductive ErrorV3Field where
  | code | isLast
deriving DecidableEq, Repr

/-- The field of `v1::SystemMsg`. -/
inductive SystemField where
  | msg
deriving DecidableEq, Repr

/-- The field new in the v3 `SystemMsg`. -/
inductive SystemV3Field where
  | code
deriving DecidableEq, Repr

/-- The fields of `v1::SymbolMappingMsg`. -/
inductive SymbolMappingField where
  | stypeInSymbol | stypeOutSymbol | startTs | endTs
deriving DecidableEq, Repr

/-- The fields new in the v3 `SymbolMappingMsg`. -/
inductive SymbolMappingV3Field where
  | stypeIn | stypeOut
deriving DecidableEq, Repr

/-! ### The parameter -/

/-- What the code uses of databento-cpp.  The size facts are the source's static assertions and its
comment on the v3 `InstrumentDefMsg`; the record type values label the cases of one `switch`. -/
structure Databento where
  instrumentDef : Byte
  statistics : Byte
  error : Byte
  system : Byte
  symbolMapping : Byte
  rtypes_nodup : [instrumentDef, statistics, error, system, symbolMapping].Nodup
  instrumentDefV1 : Struct InstrumentDefField
  instrumentDefV2 : Struct InstrumentDefField
  instrumentDefV3 : Struct (InstrumentDefField ⊕ LegField)
  statV1 : Struct StatField
  statV3 : Struct (StatField ⊕ Empty)
  errorV1 : Struct ErrorField
  errorV3 : Struct (ErrorField ⊕ ErrorV3Field)
  systemV1 : Struct SystemField
  systemV3 : Struct (SystemField ⊕ SystemV3Field)
  symbolMappingV1 : Struct SymbolMappingField
  symbolMappingV3 : Struct (SymbolMappingField ⊕ SymbolMappingV3Field)
  instrumentDef_size : instrumentDefV3.size = 520
  stat_size : statV3.size = 80
  error_size : errorV3.size = 320
  system_size : systemV3.size = 320
  symbolMapping_size : symbolMappingV3.size = 176
  sideNone : Byte
  errorCodeUnset : Byte
  systemCodeUnset : Byte
  undefStatQuantityV1 : List Byte
  undefStatQuantity : List Byte

/-! ### The packed layouts of the three versions -/

/-- Where a field is, by a table of (field, offset, width). -/
def place {F : Type} [DecidableEq F] (rows : List (F × ℕ × ℕ)) (f : F) : ℕ × ℕ :=
  ((rows.find? fun r => r.1 = f).map Prod.snd).getD (0, 0)

/-- The integer fields of `InstrumentDefMsg` that are signed. -/
def InstrumentDefField.isSigned : InstrumentDefField → Bool
  | .minPriceIncrement | .displayFactor | .highLimitPrice | .lowLimitPrice | .maxPriceVariation
  | .unitOfMeasureQty | .minPriceIncrementAmount | .priceRatio | .strikePrice | .instAttribValue
  | .marketDepthImplied | .marketDepth | .minLotSize | .minLotSizeBlock | .minLotSizeRoundLot
  | .contractMultiplier | .decayQuantity | .originalContractSize | .applId => true
  | _ => false

/-- The integer fields of `StatMsg` that are signed. -/
def StatField.isSigned : StatField → Bool
  | .price | .quantity | .tsInDelta => true
  | _ => false

/-- `v1::InstrumentDefMsg`. -/
def instrumentDefRowsV1 : List (InstrumentDefField × ℕ × ℕ) :=
  [(.tsRecv, 16, 8), (.minPriceIncrement, 24, 8), (.displayFactor, 32, 8), (.expiration, 40, 8),
    (.activation, 48, 8), (.highLimitPrice, 56, 8), (.lowLimitPrice, 64, 8),
    (.maxPriceVariation, 72, 8), (.unitOfMeasureQty, 88, 8), (.minPriceIncrementAmount, 96, 8),
    (.priceRatio, 104, 8), (.instAttribValue, 112, 4), (.underlyingId, 116, 4),
    (.rawInstrumentId, 120, 4), (.marketDepthImplied, 124, 4), (.marketDepth, 128, 4),
    (.marketSegmentId, 132, 4), (.maxTradeVol, 136, 4), (.minLotSize, 140, 4),
    (.minLotSizeBlock, 144, 4), (.minLotSizeRoundLot, 148, 4), (.minTradeVol, 152, 4),
    (.contractMultiplier, 160, 4), (.decayQuantity, 164, 4), (.originalContractSize, 168, 4),
    (.applId, 178, 2), (.maturityYear, 180, 2), (.decayStartDate, 182, 2), (.channelId, 184, 2),
    (.currency, 186, 4), (.settlCurrency, 190, 4), (.secsubtype, 194, 6), (.rawSymbol, 200, 22),
    (.group, 222, 21), (.exchange, 243, 5), (.asset, 248, 7), (.cfi, 255, 7),
    (.securityType, 262, 7), (.unitOfMeasure, 269, 31), (.underlying, 300, 21),
    (.strikePriceCurrency, 321, 4), (.instrumentClass, 325, 1), (.strikePrice, 328, 8),
    (.matchAlgorithm, 342, 1), (.mainFraction, 344, 1), (.priceDisplayFormat, 345, 1),
    (.subFraction, 347, 1), (.underlyingProduct, 348, 1), (.securityUpdateAction, 349, 1),
    (.maturityMonth, 350, 1), (.maturityDay, 351, 1), (.maturityWeek, 352, 1),
    (.userDefinedInstrument, 353, 1), (.contractMultiplierUnit, 354, 1),
    (.flowScheduleType, 355, 1), (.tickRule, 356, 1)]

/-- `v2::InstrumentDefMsg`. -/
def instrumentDefRowsV2 : List (InstrumentDefField × ℕ × ℕ) :=
  [(.tsRecv, 16, 8), (.minPriceIncrement, 24, 8), (.displayFactor, 32, 8), (.expiration, 40, 8),
    (.activation, 48, 8), (.highLimitPrice, 56, 8), (.lowLimitPrice, 64, 8),
    (.maxPriceVariation, 72, 8), (.unitOfMeasureQty, 88, 8), (.minPriceIncrementAmount, 96, 8),
    (.priceRatio, 104, 8), (.strikePrice, 112, 8), (.instAttribValue, 120, 4),
    (.underlyingId, 124, 4), (.rawInstrumentId, 128, 4), (.marketDepthImplied, 132, 4),
    (.marketDepth, 136, 4), (.marketSegmentId, 140, 4), (.maxTradeVol, 144, 4),
    (.minLotSize, 148, 4), (.minLotSizeBlock, 152, 4), (.minLotSizeRoundLot, 156, 4),
    (.minTradeVol, 160, 4), (.contractMultiplier, 164, 4), (.decayQuantity, 168, 4),
    (.originalContractSize, 172, 4), (.applId, 178, 2), (.maturityYear, 180, 2),
    (.decayStartDate, 182, 2), (.channelId, 184, 2), (.currency, 186, 4), (.settlCurrency, 190, 4),
    (.secsubtype, 194, 6), (.rawSymbol, 200, 71), (.group, 271, 21), (.exchange, 292, 5),
    (.asset, 297, 7), (.cfi, 304, 7), (.securityType, 311, 7), (.unitOfMeasure, 318, 31),
    (.underlying, 349, 21), (.strikePriceCurrency, 370, 4), (.instrumentClass, 374, 1),
    (.matchAlgorithm, 375, 1), (.mainFraction, 377, 1), (.priceDisplayFormat, 378, 1),
    (.subFraction, 380, 1), (.underlyingProduct, 381, 1), (.securityUpdateAction, 382, 1),
    (.maturityMonth, 383, 1), (.maturityDay, 384, 1), (.maturityWeek, 385, 1),
    (.userDefinedInstrument, 386, 1), (.contractMultiplierUnit, 387, 1),
    (.flowScheduleType, 388, 1), (.tickRule, 389, 1)]

/-- `InstrumentDefMsg`. -/
def instrumentDefRowsV3 : List (InstrumentDefField × ℕ × ℕ) :=
  [(.tsRecv, 16, 8), (.minPriceIncrement, 24, 8), (.displayFactor, 32, 8), (.expiration, 40, 8),
    (.activation, 48, 8), (.highLimitPrice, 56, 8), (.lowLimitPrice, 64, 8),
    (.maxPriceVariation, 72, 8), (.unitOfMeasureQty, 80, 8), (.minPriceIncrementAmount, 88, 8),
    (.priceRatio, 96, 8), (.strikePrice, 104, 8), (.rawInstrumentId, 112, 8),
    (.instAttribValue, 136, 4), (.underlyingId, 140, 4), (.marketDepthImplied, 144, 4),
    (.marketDepth, 148, 4), (.marketSegmentId, 152, 4), (.maxTradeVol, 156, 4),
    (.minLotSize, 160, 4), (.minLotSizeBlock, 164, 4), (.minLotSizeRoundLot, 168, 4),
    (.minTradeVol, 172, 4), (.contractMultiplier, 176, 4), (.decayQuantity, 180, 4),
    (.originalContractSize, 184, 4), (.applId, 212, 2), (.maturityYear, 214, 2),
    (.decayStartDate, 216, 2), (.channelId, 218, 2), (.currency, 224, 4), (.settlCurrency, 228, 4),
    (.secsubtype, 232, 6), (.rawSymbol, 238, 71), (.group, 309, 21), (.exchange, 330, 5),
    (.asset, 335, 11), (.cfi, 346, 7), (.securityType, 353, 7), (.unitOfMeasure, 360, 31),
    (.underlying, 391, 21), (.strikePriceCurrency, 412, 4), (.instrumentClass, 487, 1),
    (.matchAlgorithm, 488, 1), (.mainFraction, 489, 1), (.priceDisplayFormat, 490, 1),
    (.subFraction, 491, 1), (.underlyingProduct, 492, 1), (.securityUpdateAction, 493, 1),
    (.maturityMonth, 494, 1), (.maturityDay, 495, 1), (.maturityWeek, 496, 1),
    (.userDefinedInstrument, 497, 1), (.contractMultiplierUnit, 498, 1),
    (.flowScheduleType, 499, 1), (.tickRule, 500, 1)]

/-- `InstrumentDefMsg` with the fields new in v3. -/
def instrumentDefPlaceV3 : InstrumentDefField ⊕ LegField → ℕ × ℕ
  | .inl f => place instrumentDefRowsV3 f
  | .inr .legPrice => (120, 8)
  | .inr .legDelta => (128, 8)
  | .inr .legSide => (502, 1)

/-- `v1::StatMsg`. -/
def statPlaceV1 : StatField → ℕ × ℕ :=
  place [(.tsRecv, 16, 8), (.tsRef, 24, 8), (.price, 32, 8), (.quantity, 40, 4), (.sequence, 44, 4),
    (.tsInDelta, 48, 4), (.statType, 52, 2), (.channelId, 54, 2), (.updateAction, 56, 1),
    (.statFlags, 57, 1)]

/-- `StatMsg`. -/
def statPlaceV3 : StatField ⊕ Empty → ℕ × ℕ
  | .inl f =>
    place [(.tsRecv, 16, 8), (.tsRef, 24, 8), (.price, 32, 8), (.quantity, 40, 8), (.sequence, 48, 4),
      (.tsInDelta, 52, 4), (.statType, 56, 2), (.channelId, 58, 2), (.updateAction, 60, 1),
      (.statFlags, 61, 1)] f

/-- `ErrorMsg`. -/
def errorPlaceV3 : ErrorField ⊕ ErrorV3Field → ℕ × ℕ
  | .inl .err => (16, 302)
  | .inr .code => (318, 1)
  | .inr .isLast => (319, 1)

/-- `SystemMsg`. -/
def systemPlaceV3 : SystemField ⊕ SystemV3Field → ℕ × ℕ
  | .inl .msg => (16, 303)
  | .inr .code => (319, 1)

/-- `v1::SymbolMappingMsg`. -/
def symbolMappingPlaceV1 : SymbolMappingField → ℕ × ℕ :=
  place [(.stypeInSymbol, 16, 22), (.stypeOutSymbol, 38, 22), (.startTs, 64, 8), (.endTs, 72, 8)]

/-- `SymbolMappingMsg`. -/
def symbolMappingPlaceV3 : SymbolMappingField ⊕ SymbolMappingV3Field → ℕ × ℕ
  | .inl f =>
    place [(.stypeInSymbol, 17, 71), (.stypeOutSymbol, 89, 71), (.startTs, 160, 8), (.endTs, 168, 8)] f
  | .inr .stypeIn => (16, 1)
  | .inr .stypeOut => (88, 1)

/-- The struct of a size with its fields at the given places. -/
def packed {F : Type} (size : ℕ) (at' : F → ℕ × ℕ) (isSigned : F → Bool)
    (h : ∀ f, (at' f).1 + (at' f).2 ≤ size) : Struct F where
  size := size
  offset := fun f => (at' f).1
  width := fun f => (at' f).2
  signed := isSigned
  inside := h

/-- databento-cpp. -/
def databentoCpp : Databento where
  instrumentDef := 0x13
  statistics := 0x18
  error := 0x15
  system := 0x17
  symbolMapping := 0x16
  rtypes_nodup := by decide
  instrumentDefV1 := packed 360 (place instrumentDefRowsV1) InstrumentDefField.isSigned
    (by intro f; cases f <;> decide)
  instrumentDefV2 := packed 400 (place instrumentDefRowsV2) InstrumentDefField.isSigned
    (by intro f; cases f <;> decide)
  instrumentDefV3 := packed 520 instrumentDefPlaceV3
    (Sum.elim InstrumentDefField.isSigned fun f => f ≠ .legSide)
    (by rintro (f | f) <;> cases f <;> decide)
  statV1 := packed 64 statPlaceV1 StatField.isSigned (by intro f; cases f <;> decide)
  statV3 := packed 80 statPlaceV3 (Sum.elim StatField.isSigned fun f => nomatch f)
    (by rintro (f | f) <;> cases f <;> decide)
  errorV1 := packed 80 (fun _ => (16, 64)) (fun _ => false) (fun _ => by decide)
  errorV3 := packed 320 errorPlaceV3 (fun _ => false) (by rintro (f | f) <;> cases f <;> decide)
  systemV1 := packed 80 (fun _ => (16, 64)) (fun _ => false) (fun _ => by decide)
  systemV3 := packed 320 systemPlaceV3 (fun _ => false) (by rintro (f | f) <;> cases f <;> decide)
  symbolMappingV1 := packed 80 symbolMappingPlaceV1 (fun _ => false) (by intro f; cases f <;> decide)
  symbolMappingV3 := packed 176 symbolMappingPlaceV3 (fun _ => false)
    (by rintro (f | f) <;> cases f <;> decide)
  instrumentDef_size := rfl
  stat_size := rfl
  error_size := rfl
  system_size := rfl
  symbolMapping_size := rfl
  sideNone := 78
  errorCodeUnset := 255
  systemCodeUnset := 255
  undefStatQuantityV1 := [255, 255, 255, 127]
  undefStatQuantity := [255, 255, 255, 255, 255, 255, 255, 127]

end DbnPipe.Dbn
