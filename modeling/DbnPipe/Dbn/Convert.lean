import DbnPipe.Dbn.Databento

/-!
# Version conversion of DBN records

The conversion helpers at the end of `src/dbn_parser_component.hpp`, over the message structs of
databento-cpp (`Databento`, a parameter).

* `convertInstrumentDef` … `convertSymbolMapping` — one helper for each record type, field by field in the
  order of the source;
* `convertRecordToV3`, `getV3SizeForConversion` — the dispatchers;
* `Fits` — the fields of the v1/v2 struct a record is read as lie within the record;
* `convertRecordToV3_congr` — then **the result depends on the record's bytes only**.

Records are read through a pointer, so a source is a `Window`: memory from the record's first byte on.
-/

namespace DbnPipe.Dbn

open Layout

/-! ### Record headers -/

/-- `sizeof(databento::RecordHeader)`. -/
def headerSize : ℕ := 16

/-- `RecordHeader::Size`: the length byte times `kLengthMultiplier`. -/
def recordSize (w : Window Byte) : ℕ := 4 * (w 0).toNat

/-- `hd.rtype`. -/
def rtypeOf (w : Window Byte) : Byte := w 1

/-- `v3.hd = RecordHeader{sizeof(T) / kLengthMultiplier, rtype, src.hd.publisher_id,
src.hd.instrument_id, src.hd.ts_event}`. -/
def setHeader (size : ℕ) (rtype : Byte) (src : Window Byte) (dst : Window Byte) : Window Byte :=
  overwrite dst 0
    ([UInt8.ofNat (size / 4), rtype] ++ slice src 2 2 ++ slice src 4 4 ++ slice src 8 8)

/-! ### The type-specific converters -/

/-- `kUndefPrice`, the greatest 64-bit integer. -/
def kUndefPrice : List Byte := [255, 255, 255, 255, 255, 255, 255, 127]

/-- Memory after `memset(dst, 0, dst_size)`. -/
def zeroed : Window Byte := fun _ => 0

variable (D : Databento)

/-- `ConvertInstrumentDef`; a helper answers `none` where the source returns `false`. -/
def convertInstrumentDef (src : Window Byte) (dstSize : ℕ) (version : Byte) : Option (Window Byte) :=
  if dstSize < D.instrumentDefV3.size then none
  else if version = 1 then some (upgrade D.instrumentDefV1)
  else if version = 2 then some (upgrade D.instrumentDefV2)
  else none
where
  /-- The field-by-field copy, the same for both source versions. -/
  upgrade (S : Struct InstrumentDefField) : Window Byte :=
    setHeader D.instrumentDefV3.size D.instrumentDef src zeroed
    |> S.assignAll D.instrumentDefV3
        [.tsRecv, .minPriceIncrement, .displayFactor, .expiration, .activation, .highLimitPrice,
          .lowLimitPrice, .maxPriceVariation, .unitOfMeasureQty, .minPriceIncrementAmount, .priceRatio,
          .strikePrice, .rawInstrumentId] src
    |> D.instrumentDefV3.put (.inr .legPrice) kUndefPrice
    |> D.instrumentDefV3.put (.inr .legDelta) kUndefPrice
    |> S.assignAll D.instrumentDefV3
        [.instAttribValue, .underlyingId, .marketDepthImplied, .marketDepth, .marketSegmentId,
          .maxTradeVol, .minLotSize, .minLotSizeBlock, .minLotSizeRoundLot, .minTradeVol,
          .contractMultiplier, .decayQuantity, .originalContractSize, .applId, .maturityYear,
          .decayStartDate, .channelId] src
    |> S.copyAll D.instrumentDefV3
        [.currency, .settlCurrency, .secsubtype, .rawSymbol, .group, .exchange, .asset, .cfi,
          .securityType, .unitOfMeasure, .underlying, .strikePriceCurrency] src
    |> S.assignAll D.instrumentDefV3
        [.instrumentClass, .matchAlgorithm, .mainFraction, .priceDisplayFormat, .subFraction,
          .underlyingProduct, .securityUpdateAction, .maturityMonth, .maturityDay, .maturityWeek,
          .userDefinedInstrument, .contractMultiplierUnit, .flowScheduleType, .tickRule] src
    |> D.instrumentDefV3.put (.inr .legSide) [D.sideNone]

/-- `ConvertStat`: an undefined v1 quantity becomes the undefined v3 quantity. -/
def convertStat (src : Window Byte) (dstSize : ℕ) : Option (Window Byte) :=
  if dstSize < D.statV3.size then none
  else
    some <|
      setHeader D.statV3.size D.statistics src zeroed
      |> D.statV1.assignAll D.statV3 [.tsRecv, .tsRef, .price] src
      |> (if D.statV1.get src .quantity = D.undefStatQuantityV1 then
            D.statV3.put (.inl .quantity) D.undefStatQuantity
          else D.statV1.assign D.statV3 src .quantity)
      |> D.statV1.assignAll D.statV3
          [.sequence, .tsInDelta, .statType, .channelId, .updateAction, .statFlags] src

/-- `ConvertError`. -/
def convertError (src : Window Byte) (dstSize : ℕ) : Option (Window Byte) :=
  if dstSize < D.errorV3.size then none
  else
    some <|
      setHeader D.errorV3.size D.error src zeroed
      |> D.errorV1.copy D.errorV3 src .err
      |> D.errorV3.put (.inr .code) [D.errorCodeUnset]
      |> D.errorV3.put (.inr .isLast) [255]

/-- `ConvertSystem`. -/
def convertSystem (src : Window Byte) (dstSize : ℕ) : Option (Window Byte) :=
  if dstSize < D.systemV3.size then none
  else
    some <|
      setHeader D.systemV3.size D.system src zeroed
      |> D.systemV1.copy D.systemV3 src .msg
      |> D.systemV3.put (.inr .code) [D.systemCodeUnset]

/-- `ConvertSymbolMapping`: v1 data has no symbol types, 255 stands for that. -/
def convertSymbolMapping (src : Window Byte) (dstSize : ℕ) : Option (Window Byte) :=
  if dstSize < D.symbolMappingV3.size then none
  else
    some <|
      setHeader D.symbolMappingV3.size D.symbolMapping src zeroed
      |> D.symbolMappingV3.put (.inr .stypeIn) [255]
      |> D.symbolMappingV1.copy D.symbolMappingV3 src .stypeInSymbol
      |> D.symbolMappingV3.put (.inr .stypeOut) [255]
      |> D.symbolMappingV1.copy D.symbolMappingV3 src .stypeOutSymbol
      |> D.symbolMappingV1.assignAll D.symbolMappingV3 [.startTs, .endTs] src

/-! ### The dispatchers -/

/-- `GetV3SizeForConversion`: 0 where the record type needs no conversion. -/
def getV3SizeForConversion (rtype : Byte) : ℕ :=
  if rtype = D.instrumentDef then D.instrumentDefV3.size
  else if rtype = D.statistics then D.statV3.size
  else if rtype = D.error then D.errorV3.size
  else if rtype = D.system then D.systemV3.size
  else if rtype = D.symbolMapping then D.symbolMappingV3.size
  else 0

/-- The converter for a record type. -/
def converter (version rtype : Byte) (src : Window Byte) (dstSize : ℕ) : Option (Window Byte) :=
  if rtype = D.instrumentDef then convertInstrumentDef D src dstSize version
  else if rtype = D.statistics then convertStat D src dstSize
  else if rtype = D.error then convertError D src dstSize
  else if rtype = D.system then convertSystem D src dstSize
  else if rtype = D.symbolMapping then convertSymbolMapping D src dstSize
  else none

/-- `ConvertRecordToV3`: the result and the destination, zero where no converter wrote it. -/
def convertRecordToV3 (version rtype : Byte) (src : Window Byte) (dstSize : ℕ) : Bool × Window Byte :=
  match converter D version rtype src dstSize with
  | some dst => (true, dst)
  | none => (false, zeroed)

/-- The size of the struct a record of this type is read as. -/
def sourceSize (version rtype : Byte) : ℕ :=
  if rtype = D.instrumentDef then
    if version = 1 then D.instrumentDefV1.size
    else if version = 2 then D.instrumentDefV2.size else 0
  else if rtype = D.statistics then D.statV1.size
  else if rtype = D.error then D.errorV1.size
  else if rtype = D.system then D.systemV1.size
  else if rtype = D.symbolMapping then D.symbolMappingV1.size
  else 0

/-- Every field that is read of a record of this type lies within `n` bytes. -/
def Fits (version rtype : Byte) (n : ℕ) : Prop :=
  if rtype = D.instrumentDef then
    (version = 1 → D.instrumentDefV1.Inside n) ∧ (version = 2 → D.instrumentDefV2.Inside n)
  else if rtype = D.statistics then D.statV1.Inside n
  else if rtype = D.error then D.errorV1.Inside n
  else if rtype = D.system then D.systemV1.Inside n
  else if rtype = D.symbolMapping then D.symbolMappingV1.Inside n
  else True

theorem fits_of_sourceSize_le {version rtype : Byte} {n : ℕ} (h : sourceSize D version rtype ≤ n) :
    Fits D version rtype n := by
  by_cases h1 : rtype = D.instrumentDef
  · rw [sourceSize, if_pos h1] at h
    rw [Fits, if_pos h1]
    constructor
    · rintro rfl
      exact D.instrumentDefV1.inside_of_size_le h
    · rintro rfl
      exact D.instrumentDefV2.inside_of_size_le h
  · simp only [sourceSize, if_neg h1] at h
    simp only [Fits, if_neg h1]
    split
    · rw [if_pos ‹_›] at h
      exact D.statV1.inside_of_size_le h
    · rw [if_neg ‹_›] at h
      split
      · rw [if_pos ‹_›] at h
        exact D.errorV1.inside_of_size_le h
      · rw [if_neg ‹_›] at h
        split
        · rw [if_pos ‹_›] at h
          exact D.systemV1.inside_of_size_le h
        · rw [if_neg ‹_›] at h
          split
          · rw [if_pos ‹_›] at h
            exact D.symbolMappingV1.inside_of_size_le h
          · trivial

/-! ### A conversion reads its source struct only -/

section Congr

variable {n : ℕ} {w w' : Window Byte} (h : AgreeBelow n w w') (h16 : headerSize ≤ n)
include h h16

theorem setHeader_congr (size : ℕ) (rtype : Byte) : setHeader size rtype w = setHeader size rtype w' := by
  rw [headerSize] at h16
  funext dst
  rw [setHeader, setHeader, slice_congr h (show 2 + 2 ≤ n by omega),
    slice_congr h (show 4 + 4 ≤ n by omega), slice_congr h (show 8 + 8 ≤ n by omega)]

theorem upgrade_congr {S : Struct InstrumentDefField} (hn : S.Inside n) :
    convertInstrumentDef.upgrade D w S = convertInstrumentDef.upgrade D w' S := by
  simp only [convertInstrumentDef.upgrade, setHeader_congr h h16, S.assignAll_congr h hn,
    S.copyAll_congr h hn]

theorem convertInstrumentDef_congr {version : Byte}
    (hn : (version = 1 → D.instrumentDefV1.Inside n) ∧ (version = 2 → D.instrumentDefV2.Inside n))
    (dstSize : ℕ) :
    convertInstrumentDef D w dstSize version = convertInstrumentDef D w' dstSize version := by
  rw [convertInstrumentDef, convertInstrumentDef]
  by_cases h1 : version = 1
  · rw [if_pos h1, if_pos h1, upgrade_congr D h h16 (hn.1 h1)]
  · rw [if_neg h1, if_neg h1]
    by_cases h2 : version = 2
    · rw [if_pos h2, if_pos h2, upgrade_congr D h h16 (hn.2 h2)]
    · rw [if_neg h2, if_neg h2]

theorem convertStat_congr (hn : D.statV1.Inside n) (dstSize : ℕ) :
    convertStat D w dstSize = convertStat D w' dstSize := by
  simp only [convertStat, setHeader_congr h h16, D.statV1.assignAll_congr h hn,
    D.statV1.assign_congr h hn, D.statV1.get_congr h hn]

theorem convertError_congr (hn : D.errorV1.Inside n) (dstSize : ℕ) :
    convertError D w dstSize = convertError D w' dstSize := by
  simp only [convertError, setHeader_congr h h16, D.errorV1.copy_congr h hn]

theorem convertSystem_congr (hn : D.systemV1.Inside n) (dstSize : ℕ) :
    convertSystem D w dstSize = convertSystem D w' dstSize := by
  simp only [convertSystem, setHeader_congr h h16, D.systemV1.copy_congr h hn]

theorem convertSymbolMapping_congr (hn : D.symbolMappingV1.Inside n) (dstSize : ℕ) :
    convertSymbolMapping D w dstSize = convertSymbolMapping D w' dstSize := by
  simp only [convertSymbolMapping, setHeader_congr h h16, D.symbolMappingV1.copy_congr h hn,
    D.symbolMappingV1.assignAll_congr h hn]

/-- **A conversion depends on the bytes of the fields it reads only.** -/
theorem convertRecordToV3_congr {version rtype : Byte} (hn : Fits D version rtype n)
    (dstSize : ℕ) :
    convertRecordToV3 D version rtype w dstSize = convertRecordToV3 D version rtype w' dstSize := by
  have hconv : converter D version rtype w dstSize = converter D version rtype w' dstSize := by
    rw [converter, converter]
    rw [Fits] at hn
    split
    · rw [if_pos ‹_›] at hn
      exact convertInstrumentDef_congr D h h16 hn dstSize
    · rw [if_neg ‹_›] at hn
      split
      · rw [if_pos ‹_›] at hn
        exact convertStat_congr D h h16 hn dstSize
      · rw [if_neg ‹_›] at hn
        split
        · rw [if_pos ‹_›] at hn
          exact convertError_congr D h h16 hn dstSize
        · rw [if_neg ‹_›] at hn
          split
          · rw [if_pos ‹_›] at hn
            exact convertSystem_congr D h h16 hn dstSize
          · rw [if_neg ‹_›] at hn
            split
            · rw [if_pos ‹_›] at hn
              exact convertSymbolMapping_congr D h h16 hn dstSize
            · rfl
  rw [convertRecordToV3, convertRecordToV3, hconv]

end Congr

end DbnPipe.Dbn
