import DbnPipe.Dbn.ParserFraming

/-!
# What a converted record shows

Two readings of the converters of `src/dbn_parser_component.hpp`, over any layout that a C++ struct can have.

* `HeaderFirst` — the record header is the first member of every v3 struct;
* `converter_header` — **a conversion that succeeds writes the header once and for all**: the v3 length, and
  record type, publisher, instrument and event time of the source;
* `converter_none` — an instrument definition of a version that is neither 1 nor 2 is not converted;
* `Members` — members do not overlap, and a v3 member has room for the one it is set from;
* `fits_of_agree` — a conversion whose result does not depend on what lies behind the record **reads no field
  that sticks out of it**.
-/

namespace DbnPipe.Dbn

open Layout

variable (D : Databento)

/-! ### The header of a converted record -/

/-- The record header is the first member of every v3 struct. -/
structure HeaderFirst : Prop where
  instrumentDef : D.instrumentDefV3.Behind headerSize
  stat : D.statV3.Behind headerSize
  error : D.errorV3.Behind headerSize
  system : D.systemV3.Behind headerSize
  symbolMapping : D.symbolMappingV3.Behind headerSize

theorem headerFirst_cpp : HeaderFirst databentoCpp where
  instrumentDef := by rintro (f | f) <;> cases f <;> decide
  stat := by rintro (f | f) <;> cases f <;> decide
  error := by rintro (f | f) <;> cases f <;> decide
  system := by rintro (f | f) <;> cases f <;> decide
  symbolMapping := by rintro (f | f) <;> cases f <;> decide

/-- `dst` has the header of a v3 record of `size` bytes made from `src`. -/
def HasHeader (size : ℕ) (rtype : Byte) (src dst : Window Byte) : Prop :=
  AgreeBelow headerSize dst (setHeader size rtype src zeroed)

section Header

variable {D} (h : HeaderFirst D) (src : Window Byte)
include h

theorem upgrade_header (S : Struct InstrumentDefField) :
    HasHeader D.instrumentDefV3.size D.instrumentDef src (convertInstrumentDef.upgrade D src S) := by
  have hT := h.instrumentDef
  rw [convertInstrumentDef.upgrade]
  refine (Struct.put_agree hT _ _ _).trans ((Struct.assignAll_agree hT S src _ _).trans ?_)
  refine (Struct.copyAll_agree hT S src _ _).trans ((Struct.assignAll_agree hT S src _ _).trans ?_)
  refine (Struct.put_agree hT _ _ _).trans ((Struct.put_agree hT _ _ _).trans ?_)
  exact Struct.assignAll_agree hT S src _ _

theorem convertStat_header : ∃ dst, convertStat D src D.statV3.size = some dst ∧
    HasHeader D.statV3.size D.statistics src dst := by
  have hT := h.stat
  rw [convertStat, if_neg (Nat.lt_irrefl _)]
  refine ⟨_, rfl, (Struct.assignAll_agree hT _ src _ _).trans ?_⟩
  split
  · exact (Struct.put_agree hT _ _ _).trans (Struct.assignAll_agree hT _ src _ _)
  · exact (Struct.put_agree hT _ _ _).trans (Struct.assignAll_agree hT _ src _ _)

theorem convertError_header : ∃ dst, convertError D src D.errorV3.size = some dst ∧
    HasHeader D.errorV3.size D.error src dst := by
  have hT := h.error
  rw [convertError, if_neg (Nat.lt_irrefl _)]
  refine ⟨_, rfl, (Struct.put_agree hT _ _ _).trans ((Struct.put_agree hT _ _ _).trans ?_)⟩
  exact Struct.put_agree hT _ _ _

theorem convertSystem_header : ∃ dst, convertSystem D src D.systemV3.size = some dst ∧
    HasHeader D.systemV3.size D.system src dst := by
  have hT := h.system
  rw [convertSystem, if_neg (Nat.lt_irrefl _)]
  exact ⟨_, rfl, (Struct.put_agree hT _ _ _).trans (Struct.put_agree hT _ _ _)⟩

theorem convertSymbolMapping_header :
    ∃ dst, convertSymbolMapping D src D.symbolMappingV3.size = some dst ∧
      HasHeader D.symbolMappingV3.size D.symbolMapping src dst := by
  have hT := h.symbolMapping
  rw [convertSymbolMapping, if_neg (Nat.lt_irrefl _)]
  refine ⟨_, rfl, (Struct.assignAll_agree hT _ src _ _).trans ((Struct.put_agree hT _ _ _).trans ?_)⟩
  refine (Struct.put_agree hT _ _ _).trans ((Struct.put_agree hT _ _ _).trans ?_)
  exact Struct.put_agree hT _ _ _

theorem convertInstrumentDef_header {version : Byte} (hv : version = 1 ∨ version = 2) :
    ∃ dst, convertInstrumentDef D src D.instrumentDefV3.size version = some dst ∧
      HasHeader D.instrumentDefV3.size D.instrumentDef src dst := by
  rw [convertInstrumentDef, if_neg (Nat.lt_irrefl _)]
  rcases hv with rfl | rfl
  · exact ⟨_, rfl, upgrade_header h src D.instrumentDefV1⟩
  · exact ⟨_, rfl, upgrade_header h src D.instrumentDefV2⟩

/-- **A record that has a converter gets the v3 header**, except an instrument definition of a version that
is neither 1 nor 2. -/
theorem converter_header {version rtype : Byte} (h0 : 0 < getV3SizeForConversion D rtype)
    (hv : rtype = D.instrumentDef → version = 1 ∨ version = 2) :
    ∃ dst, converter D version rtype src (getV3SizeForConversion D rtype) = some dst ∧
      HasHeader (getV3SizeForConversion D rtype) rtype src dst := by
  by_cases h1 : rtype = D.instrumentDef
  · simp only [getV3SizeForConversion, converter, if_pos h1]
    rw [h1]
    exact convertInstrumentDef_header h src (hv h1)
  by_cases h2 : rtype = D.statistics
  · simp only [getV3SizeForConversion, converter, if_neg h1, if_pos h2]
    rw [h2]
    exact convertStat_header h src
  by_cases h3 : rtype = D.error
  · simp only [getV3SizeForConversion, converter, if_neg h1, if_neg h2, if_pos h3]
    rw [h3]
    exact convertError_header h src
  by_cases h4 : rtype = D.system
  · simp only [getV3SizeForConversion, converter, if_neg h1, if_neg h2, if_neg h3, if_pos h4]
    rw [h4]
    exact convertSystem_header h src
  by_cases h5 : rtype = D.symbolMapping
  · simp only [getV3SizeForConversion, converter, if_neg h1, if_neg h2, if_neg h3, if_neg h4, if_pos h5]
    rw [h5]
    exact convertSymbolMapping_header h src
  · rw [getV3SizeForConversion, if_neg h1, if_neg h2, if_neg h3, if_neg h4, if_neg h5] at h0
    exact absurd h0 (Nat.lt_irrefl 0)

end Header

/-- **An instrument definition of another version has no converter.** -/
theorem converter_none {version : Byte} (h1 : version ≠ 1) (h2 : version ≠ 2) (src : Window Byte)
    (dstSize : ℕ) : converter D version D.instrumentDef src dstSize = none := by
  rw [converter, if_pos rfl, convertInstrumentDef, if_neg h1, if_neg h2]
  split
  · rfl
  · rfl

/-- The sizes records are converted to are lengths that one byte states in units of four. -/
theorem v3Size_bounds {rtype : Byte} (h0 : 0 < getV3SizeForConversion D rtype) :
    headerSize ≤ getV3SizeForConversion D rtype ∧
      4 * (UInt8.ofNat (getV3SizeForConversion D rtype / 4)).toNat = getV3SizeForConversion D rtype := by
  rw [getV3SizeForConversion] at h0 ⊢
  split
  · rw [D.instrumentDef_size]; decide
  split
  · rw [D.stat_size]; decide
  split
  · rw [D.error_size]; decide
  split
  · rw [D.system_size]; decide
  split
  · rw [D.symbolMapping_size]; decide
  · simp_all

/-- The first bytes of a window with a v3 header. -/
theorem slice_header {size : ℕ} {rtype : Byte} {src dst : Window Byte}
    (h : HasHeader size rtype src dst) :
    slice dst 0 headerSize =
      [UInt8.ofNat (size / 4), rtype] ++ slice src 2 2 ++ slice src 4 4 ++ slice src 8 8 := by
  rw [slice_congr h (Nat.le_refl _), setHeader]
  exact (starts_overwrite zeroed _).slice

/-! ### The fields of a converted record -/

/-- The members of the structs do not overlap, every member has a byte, and a v3 member has room for what
it is set to. -/
structure Members : Prop where
  instrumentDef : D.instrumentDefV3.Separate
  stat : D.statV3.Separate
  error : D.errorV3.Separate
  system : D.systemV3.Separate
  symbolMapping : D.symbolMappingV3.Separate
  instrumentDefV1 : D.instrumentDefV1.Widens D.instrumentDefV3
  instrumentDefV2 : D.instrumentDefV2.Widens D.instrumentDefV3
  statV1 : D.statV1.Widens D.statV3
  errorV1 : D.errorV1.Widens D.errorV3
  systemV1 : D.systemV1.Widens D.systemV3
  symbolMappingV1 : D.symbolMappingV1.Widens D.symbolMappingV3
  legPrice : kUndefPrice.length ≤ D.instrumentDefV3.width (.inr .legPrice)
  legDelta : kUndefPrice.length ≤ D.instrumentDefV3.width (.inr .legDelta)
  legSide : 1 ≤ D.instrumentDefV3.width (.inr .legSide)
  quantity : D.undefStatQuantity.length ≤ D.statV3.width (.inl .quantity)
  errorNew : ∀ f, 1 ≤ D.errorV3.width (.inr f)
  systemNew : ∀ f, 1 ≤ D.systemV3.width (.inr f)
  symbolMappingNew : ∀ f, 1 ≤ D.symbolMappingV3.width (.inr f)

section Fields

variable {D} (h : Members D) (src : Window Byte)
include h

theorem upgrade_shows {S : Struct InstrumentDefField} (hw : S.Widens D.instrumentDefV3)
    (f : InstrumentDefField) :
    S.Shows D.instrumentDefV3 src f (convertInstrumentDef.upgrade D src S) := by
  have hT := h.instrumentDef
  rw [convertInstrumentDef.upgrade]
  refine Struct.Shows.put hw (Struct.Shows.assignAll hw hT ?_) hT Sum.inl_ne_inr h.legSide
  refine or_iff_not_imp_left.mpr fun h4 => Struct.Shows.copyAll hw hT ?_
  refine or_iff_not_imp_left.mpr fun h3 => Struct.Shows.assignAll hw hT ?_
  refine or_iff_not_imp_left.mpr fun h2 => ?_
  refine Struct.Shows.put hw (Struct.Shows.put hw ?_ hT Sum.inl_ne_inr h.legPrice) hT Sum.inl_ne_inr
    h.legDelta
  refine Struct.Shows.assignAll hw hT (Or.inl ?_)
  -- every field is in one of the four lists
  revert h4 h3 h2
  cases f <;> decide

theorem convertStat_shows : ∃ dst, convertStat D src D.statV3.size = some dst ∧
    ∀ f, (f = .quantity → D.statV1.get src .quantity ≠ D.undefStatQuantityV1) →
      D.statV1.Shows D.statV3 src f dst := by
  have hw := h.statV1
  have hT := h.stat
  rw [convertStat, if_neg (Nat.lt_irrefl _)]
  refine ⟨_, rfl, fun f hq => ?_⟩
  refine Struct.Shows.assignAll hw hT (or_iff_not_imp_left.mpr fun h2 => ?_)
  by_cases hf : f = .quantity
  · rw [if_neg (hq hf), hf]
    exact Struct.shows_assign hw
  · have h1 : f ∈ [StatField.tsRecv, .tsRef, .price] := by
      revert h2 hf
      cases f <;> decide
    have hfirst : D.statV1.Shows D.statV3 src f
        (D.statV1.assignAll D.statV3 [.tsRecv, .tsRef, .price] src
          (setHeader D.statV3.size D.statistics src zeroed)) :=
      Struct.Shows.assignAll hw hT (Or.inl h1)
    split
    · exact hfirst.put hw hT (fun he => hf (Sum.inl.inj he)) h.quantity
    · exact hfirst.assign hw hT _

theorem convertError_shows : ∃ dst, convertError D src D.errorV3.size = some dst ∧
    ∀ f, D.errorV1.Shows D.errorV3 src f dst := by
  have hw := h.errorV1
  have hT := h.error
  rw [convertError, if_neg (Nat.lt_irrefl _)]
  refine ⟨_, rfl, fun f => ?_⟩
  refine Struct.Shows.put hw (Struct.Shows.put hw Struct.shows_copy hT Sum.inl_ne_inr ?_) hT
    Sum.inl_ne_inr ?_
  · exact h.errorNew _
  · exact h.errorNew _

theorem convertSystem_shows : ∃ dst, convertSystem D src D.systemV3.size = some dst ∧
    ∀ f, D.systemV1.Shows D.systemV3 src f dst := by
  have hw := h.systemV1
  have hT := h.system
  rw [convertSystem, if_neg (Nat.lt_irrefl _)]
  refine ⟨_, rfl, fun f => ?_⟩
  refine Struct.Shows.put hw Struct.shows_copy hT Sum.inl_ne_inr ?_
  exact h.systemNew _

theorem convertSymbolMapping_shows :
    ∃ dst, convertSymbolMapping D src D.symbolMappingV3.size = some dst ∧
      ∀ f, D.symbolMappingV1.Shows D.symbolMappingV3 src f dst := by
  have hw := h.symbolMappingV1
  have hT := h.symbolMapping
  rw [convertSymbolMapping, if_neg (Nat.lt_irrefl _)]
  refine ⟨_, rfl, fun f => ?_⟩
  refine Struct.Shows.assignAll hw hT (or_iff_not_imp_left.mpr fun h1 => ?_)
  by_cases hf : f = .stypeOutSymbol
  · rw [hf]
    exact Struct.shows_copy
  · have h2 : f = .stypeInSymbol := by
      revert h1 hf
      cases f <;> decide
    subst h2
    refine Struct.Shows.copy hw (Struct.Shows.put hw Struct.shows_copy hT Sum.inl_ne_inr ?_) hT _
    exact h.symbolMappingNew _

end Fields

/-! ### Conversions that read past the record -/

theorem converted_some {version rtype : Byte} {src dst : Window Byte} {dstSize : ℕ}
    (h : converter D version rtype src dstSize = some dst) :
    (convertRecordToV3 D version rtype src dstSize).2 = dst := by
  rw [convertRecordToV3, h]

/-- Two different bytes, other than a third. -/
theorem exists_two_bytes (u : Byte) : ∃ a b : Byte, a ≠ b ∧ a ≠ u ∧ b ≠ u := by
  by_cases h0 : u = 0
  · exact ⟨1, 2, by decide, by rw [h0]; decide, by rw [h0]; decide⟩
  by_cases h1 : u = 1
  · exact ⟨0, 2, by decide, by rw [h1]; decide, by rw [h1]; decide⟩
  · exact ⟨0, 1, by decide, Ne.symm h0, Ne.symm h1⟩

section Padded

variable {D} (h : Members D) {rec : List Byte}
include h

/-- A quantity that sticks out of the record is not the undefined one for most bytes behind the record. -/
theorem quantity_defined {a : Byte}
    (hout : ¬D.statV1.offset .quantity + D.statV1.width .quantity ≤ rec.length)
    (ha : a ≠ D.undefStatQuantityV1.getD (D.statV1.width .quantity - 1) 0) :
    D.statV1.get (padded rec a) .quantity ≠ D.undefStatQuantityV1 := by
  intro he
  have h0 := (h.statV1 .quantity).1
  have hlast : (D.statV1.get (padded rec a) .quantity)[D.statV1.width .quantity - 1]? = some a := by
    rw [Struct.get, getElem?_slice _ _ (by omega), padded_of_le a (by omega)]
  rw [he] at hlast
  exact ha (by rw [List.getD_eq_getElem?_getD, hlast]; rfl)

/-- **Conversions that agree whatever lies behind the record read no field that sticks out of it.** -/
theorem fits_of_agree {version rtype : Byte}
    (heq : ∀ a b, AgreeBelow (getV3SizeForConversion D rtype)
      (convertRecordToV3 D version rtype (padded rec a) (getV3SizeForConversion D rtype)).2
      (convertRecordToV3 D version rtype (padded rec b) (getV3SizeForConversion D rtype)).2) :
    Fits D version rtype rec.length := by
  by_cases h1 : rtype = D.instrumentDef
  · simp only [getV3SizeForConversion, if_pos h1] at heq
    rw [Fits, if_pos h1]
    have conv : ∀ (S : Struct InstrumentDefField) (src : Window Byte),
        convertInstrumentDef D src D.instrumentDefV3.size version =
            some (convertInstrumentDef.upgrade D src S) →
          (convertRecordToV3 D version rtype src D.instrumentDefV3.size).2 =
            convertInstrumentDef.upgrade D src S :=
      fun S src hs => converted_some D (by rw [converter, if_pos h1, hs])
    constructor
    · rintro rfl
      refine Struct.inside_of_shows h.instrumentDefV1 fun f _ => ⟨0, 1, _, _, by decide,
        upgrade_shows h _ h.instrumentDefV1 f, upgrade_shows h _ h.instrumentDefV1 f, ?_⟩
      have hagree := heq 0 1
      rwa [conv D.instrumentDefV1 _ (by rw [convertInstrumentDef, if_neg (Nat.lt_irrefl _), if_pos rfl]),
        conv D.instrumentDefV1 _ (by rw [convertInstrumentDef, if_neg (Nat.lt_irrefl _), if_pos rfl])]
        at hagree
    · rintro rfl
      refine Struct.inside_of_shows h.instrumentDefV2 fun f _ => ⟨0, 1, _, _, by decide,
        upgrade_shows h _ h.instrumentDefV2 f, upgrade_shows h _ h.instrumentDefV2 f, ?_⟩
      have hagree := heq 0 1
      rwa [conv D.instrumentDefV2 _ (by rw [convertInstrumentDef, if_neg (Nat.lt_irrefl _)]; rfl),
        conv D.instrumentDefV2 _ (by rw [convertInstrumentDef, if_neg (Nat.lt_irrefl _)]; rfl)]
        at hagree
  by_cases h2 : rtype = D.statistics
  · simp only [getV3SizeForConversion, if_neg h1, if_pos h2] at heq
    rw [Fits, if_neg h1, if_pos h2]
    obtain ⟨a, b, hab, ha, hb⟩ :=
      exists_two_bytes (D.undefStatQuantityV1.getD (D.statV1.width .quantity - 1) 0)
    obtain ⟨dst, hdst, hshow⟩ := convertStat_shows h (padded rec a)
    obtain ⟨dst', hdst', hshow'⟩ := convertStat_shows h (padded rec b)
    have hagree := heq a b
    rw [converted_some D (by rw [converter, if_neg h1, if_pos h2, hdst]),
      converted_some D (by rw [converter, if_neg h1, if_pos h2, hdst'])] at hagree
    refine Struct.inside_of_shows h.statV1 fun f hf => ⟨a, b, dst, dst', hab, hshow f ?_, hshow' f ?_, hagree⟩
    · rintro rfl
      exact quantity_defined h hf ha
    · rintro rfl
      exact quantity_defined h hf hb
  by_cases h3 : rtype = D.error
  · simp only [getV3SizeForConversion, if_neg h1, if_neg h2, if_pos h3] at heq
    rw [Fits, if_neg h1, if_neg h2, if_pos h3]
    obtain ⟨dst, hdst, hshow⟩ := convertError_shows h (padded rec 0)
    obtain ⟨dst', hdst', hshow'⟩ := convertError_shows h (padded rec 1)
    have hagree := heq 0 1
    rw [converted_some D (by rw [converter, if_neg h1, if_neg h2, if_pos h3, hdst]),
      converted_some D (by rw [converter, if_neg h1, if_neg h2, if_pos h3, hdst'])] at hagree
    exact Struct.inside_of_shows h.errorV1 fun f _ =>
      ⟨0, 1, dst, dst', by decide, hshow f, hshow' f, hagree⟩
  by_cases h4 : rtype = D.system
  · simp only [getV3SizeForConversion, if_neg h1, if_neg h2, if_neg h3, if_pos h4] at heq
    rw [Fits, if_neg h1, if_neg h2, if_neg h3, if_pos h4]
    obtain ⟨dst, hdst, hshow⟩ := convertSystem_shows h (padded rec 0)
    obtain ⟨dst', hdst', hshow'⟩ := convertSystem_shows h (padded rec 1)
    have hagree := heq 0 1
    rw [converted_some D (by rw [converter, if_neg h1, if_neg h2, if_neg h3, if_pos h4, hdst]),
      converted_some D (by rw [converter, if_neg h1, if_neg h2, if_neg h3, if_pos h4, hdst'])] at hagree
    exact Struct.inside_of_shows h.systemV1 fun f _ =>
      ⟨0, 1, dst, dst', by decide, hshow f, hshow' f, hagree⟩
  by_cases h5 : rtype = D.symbolMapping
  · simp only [getV3SizeForConversion, if_neg h1, if_neg h2, if_neg h3, if_neg h4, if_pos h5] at heq
    rw [Fits, if_neg h1, if_neg h2, if_neg h3, if_neg h4, if_pos h5]
    obtain ⟨dst, hdst, hshow⟩ := convertSymbolMapping_shows h (padded rec 0)
    obtain ⟨dst', hdst', hshow'⟩ := convertSymbolMapping_shows h (padded rec 1)
    have hagree := heq 0 1
    rw [converted_some D (by rw [converter, if_neg h1, if_neg h2, if_neg h3, if_neg h4, if_pos h5, hdst]),
      converted_some D
        (by rw [converter, if_neg h1, if_neg h2, if_neg h3, if_neg h4, if_pos h5, hdst'])] at hagree
    exact Struct.inside_of_shows h.symbolMappingV1 fun f _ =>
      ⟨0, 1, dst, dst', by decide, hshow f, hshow' f, hagree⟩
  · rw [Fits, if_neg h1, if_neg h2, if_neg h3, if_neg h4, if_neg h5]
    trivial

end Padded

/-! ### The packed layouts -/

theorem members_cpp : Members databentoCpp where
  instrumentDef := by
    have hrows : ∀ f, f ∈ instrumentDefRowsV3.map Prod.fst := by intro f; cases f <;> decide
    refine Struct.separate_of_pairwise databentoCpp.instrumentDefV3
      ((instrumentDefRowsV3.map Prod.fst).map .inl ++ [.inr .legPrice, .inr .legDelta, .inr .legSide]) ?_
      (by decide +kernel)
    rintro (f | f)
    · exact List.mem_append_left _ (List.mem_map_of_mem (hrows f))
    · cases f <;> simp
  stat := by rintro (f | f) (g | g) <;> cases f <;> cases g <;> decide
  error := by rintro (f | f) (g | g) <;> cases f <;> cases g <;> decide
  system := by rintro (f | f) (g | g) <;> cases f <;> cases g <;> decide
  symbolMapping := by rintro (f | f) (g | g) <;> cases f <;> cases g <;> decide
  instrumentDefV1 := by intro f; cases f <;> decide
  instrumentDefV2 := by intro f; cases f <;> decide
  statV1 := by intro f; cases f <;> decide
  errorV1 := by intro f; cases f; decide
  systemV1 := by intro f; cases f; decide
  symbolMappingV1 := by intro f; cases f <;> decide
  legPrice := by decide
  legDelta := by decide
  legSide := by decide
  quantity := by decide
  errorNew := by intro f; cases f <;> decide
  systemNew := by intro f; cases f; decide
  symbolMappingNew := by intro f; cases f <;> decide

end DbnPipe.Dbn
