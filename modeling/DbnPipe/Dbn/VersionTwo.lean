import DbnPipe.Dbn.DeliveredRecords

/-!
# Messages of version 2 that have the v3 layout already

DBN version 2 lays `ErrorMsg`, `SystemMsg` and `SymbolMappingMsg` out as version 3 does.  The parser converts
every version below 3 by record type, and reads these messages as the **v1** struct.

* `TextMessage` — the three messages, `rewritten` — what their converters write, in any version;
* `TextLayouts` — the packed layouts of the three messages;
* `ReadsAsV1` — the v3 record holds what a v1 record is converted to;
* `rewritten_agrees_iff` — **the conversion leaves such a record and no other**;
* `delivered_unchanged_iff` — so does the parser, for every stream of version 2.
-/

namespace DbnPipe.Dbn

open Layout Framing Chain

/-! ### The three messages -/

/-- The messages that version 2 and version 3 lay out alike. -/
inductive TextMessage where
  | error | system | symbolMapping
deriving DecidableEq, Repr

variable (D : Databento)

namespace TextMessage

/-- The record type of the message. -/
def rtype : TextMessage → Byte
  | error => D.error
  | system => D.system
  | symbolMapping => D.symbolMapping

/-- Its size in versions 2 and 3. -/
def size : TextMessage → ℕ
  | error => 320
  | system => 320
  | symbolMapping => 176

/-- `rec` is a record of the message in the v3 layout. -/
def Is (k : TextMessage) (rec : List Byte) : Prop := rec.getD 1 0 = k.rtype D ∧ rec.length = k.size

end TextMessage

/-- databento-cpp lays the v1 and the v3 structs of the three messages out as packed. -/
structure TextLayouts : Prop where
  errorV1 : D.errorV1 = databentoCpp.errorV1
  errorV3 : D.errorV3 = databentoCpp.errorV3
  systemV1 : D.systemV1 = databentoCpp.systemV1
  systemV3 : D.systemV3 = databentoCpp.systemV3
  symbolMappingV1 : D.symbolMappingV1 = databentoCpp.symbolMappingV1
  symbolMappingV3 : D.symbolMappingV3 = databentoCpp.symbolMappingV3

theorem textLayouts_cpp : TextLayouts databentoCpp := ⟨rfl, rfl, rfl, rfl, rfl, rfl⟩

/-- The bytes of a record from `a` on, up to `b`, are all `v`. -/
def Filled (rec : List Byte) (a b : ℕ) (v : Byte) : Prop := ∀ x ∈ (rec.drop a).take (b - a), x = v

instance (rec : List Byte) (a b : ℕ) (v : Byte) : Decidable (Filled rec a b v) :=
  inferInstanceAs (Decidable (∀ x ∈ (rec.drop a).take (b - a), x = v))

/-- The v3 record says what a v1 record is converted to: an error or system message of at most 64 characters
with nothing known of the new fields, or a symbol mapping of no known types whose four other fields are
those that the v1 struct reads in it. -/
def ReadsAsV1 (rec : List Byte) : TextMessage → Prop
  | .error => Filled rec 80 318 0 ∧ Filled rec 318 319 D.errorCodeUnset ∧ Filled rec 319 320 255
  | .system => Filled rec 80 319 0 ∧ Filled rec 319 320 D.systemCodeUnset
  | .symbolMapping =>
    Filled rec 16 39 255 ∧ Filled rec 39 88 0 ∧ Filled rec 88 90 255 ∧ Filled rec 90 176 0

instance (rec : List Byte) : (k : TextMessage) → Decidable (ReadsAsV1 D rec k)
  | .error => inferInstanceAs (Decidable (_ ∧ _ ∧ _))
  | .system => inferInstanceAs (Decidable (_ ∧ _))
  | .symbolMapping => inferInstanceAs (Decidable (_ ∧ _ ∧ _ ∧ _))

/-! ### What the converters write -/

/-- The result of the conversion: the header, then what is copied from the v1 struct and the new fields. -/
def rewritten (src : Window Byte) : TextMessage → Window Byte
  | .error =>
    setHeader 320 D.error src zeroed
    |> (overwrite · 16 (slice src 16 64))
    |> (overwrite · 318 [D.errorCodeUnset])
    |> (overwrite · 319 [255])
  | .system =>
    setHeader 320 D.system src zeroed
    |> (overwrite · 16 (slice src 16 64))
    |> (overwrite · 319 [D.systemCodeUnset])
  | .symbolMapping =>
    setHeader 176 D.symbolMapping src zeroed
    |> (overwrite · 16 [255])
    |> (overwrite · 17 (slice src 16 22))
    |> (overwrite · 88 [255])
    |> (overwrite · 89 (slice src 38 22))
    |> (overwrite · 160 (slice src 64 8))
    |> (overwrite · 168 (slice src 72 8))

/-- The `switch` over record types takes the message's case. -/
theorem switch_message {α : Type*} (k : TextMessage) (a b c d e f : α) :
    (if k.rtype D = D.instrumentDef then a else if k.rtype D = D.statistics then b
      else if k.rtype D = D.error then c else if k.rtype D = D.system then d
      else if k.rtype D = D.symbolMapping then e else f) =
    match k with
    | .error => c
    | .system => d
    | .symbolMapping => e := by
  have hne := D.rtypes_nodup
  simp only [List.nodup_cons, List.mem_cons, List.not_mem_nil, not_or, or_false] at hne
  obtain ⟨⟨-, hi1, hi2, hi3⟩, ⟨hs1, hs2, hs3⟩, ⟨he1, he2⟩, hy, -⟩ := hne
  cases k with
  | error => exact (if_neg (Ne.symm hi1)).trans ((if_neg (Ne.symm hs1)).trans (if_pos rfl))
  | system =>
    rw [TextMessage.rtype, if_neg (Ne.symm hi2), if_neg (Ne.symm hs2), if_neg (Ne.symm he1), if_pos rfl]
  | symbolMapping =>
    rw [TextMessage.rtype, if_neg (Ne.symm hi3), if_neg (Ne.symm hs3), if_neg (Ne.symm he2),
      if_neg (Ne.symm hy), if_pos rfl]

/-- The sizes are those the parser allocates. -/
theorem getV3Size_message (k : TextMessage) : getV3SizeForConversion D (k.rtype D) = k.size := by
  rw [getV3SizeForConversion, switch_message]
  cases k with
  | error => exact D.error_size
  | system => exact D.system_size
  | symbolMapping => exact D.symbolMapping_size

/-- **The version is not looked at**: in every version the messages are converted from the v1 struct. -/
theorem converter_message {D : Databento} (h : TextLayouts D) (version : Byte) (src : Window Byte)
    (k : TextMessage) : converter D version (k.rtype D) src k.size = some (rewritten D src k) := by
  rw [converter, switch_message]
  cases k with
  | error =>
    simp only [convertError, h.errorV1, h.errorV3]
    rfl
  | system =>
    simp only [convertSystem, h.systemV1, h.systemV3]
    rfl
  | symbolMapping =>
    simp only [convertSymbolMapping, h.symbolMappingV1, h.symbolMappingV3]
    rw [rewritten, ← Struct.resize_slice false src 64 8, ← Struct.resize_slice false src 72 8]
    rfl

/-! ### Which records the conversion leaves -/

/-- A byte that is the one before it, in a row, is the first one. -/
theorem eq_first {w : Window Byte} {a n : ℕ} (h : ∀ k < n, w (a + 1 + k) = w (a + k)) :
    ∀ k ≤ n, w (a + k) = w a := by
  intro k
  induction k with
  | zero => exact fun _ => rfl
  | succ k ih =>
    intro hk
    rw [show a + (k + 1) = a + 1 + k by omega, h k (by omega), ih (by omega)]

/-- **The one body that a symbol mapping keeps.**  Every string is read one byte or more before its v3 place,
so the first type fills the first string, and the zeros behind that fill everything the v1 struct has. -/
theorem mapping_body_iff (w : Window Byte) :
    (slice w 16 1 = [255] ∧ slice w 17 22 = slice w 16 22 ∧ AgreeOn 39 88 zeroed w ∧ slice w 88 1 = [255] ∧
        slice w 89 22 = slice w 38 22 ∧ AgreeOn 111 160 zeroed w ∧ slice w 160 8 = slice w 64 8 ∧
        slice w 168 8 = slice w 72 8) ↔
      AgreeOn 16 39 (fun _ => 255) w ∧ AgreeOn 39 88 zeroed w ∧ AgreeOn 88 90 (fun _ => 255) w ∧
        AgreeOn 90 176 zeroed w := by
  simp only [slice_eq_iff]
  constructor
  · rintro ⟨hin, hinSym, hzero, hout, houtSym, hzero', hstart, hend⟩
    have h16 : w 16 = 255 := (List.cons.inj hin).1
    have h88 : w 88 = 255 := (List.cons.inj hout).1
    have hfirst : AgreeOn 16 39 (fun _ => 255) w := by
      intro i h1 h2
      obtain ⟨k, rfl⟩ := Nat.exists_eq_add_of_le h1
      rw [eq_first hinSym k (by omega), h16]
    -- the second string shows the last byte of the first one, then zeros
    have hsecond : ∀ i, 89 ≤ i → i < 111 → w i = w (i - 51) := by
      intro i h1 h2
      obtain ⟨k, rfl⟩ := Nat.exists_eq_add_of_le h1
      rw [houtSym k (by omega), show 89 + k - 51 = 38 + k by omega]
    have htimes : ∀ i, 160 ≤ i → i < 176 → w i = w (i - 96) := by
      intro i h1 h2
      by_cases hi : i < 168
      · obtain ⟨k, rfl⟩ := Nat.exists_eq_add_of_le h1
        rw [hstart k (by omega), show 160 + k - 96 = 64 + k by omega]
      · obtain ⟨k, rfl⟩ := Nat.exists_eq_add_of_le (show 168 ≤ i by omega)
        rw [hend k (by omega), show 168 + k - 96 = 72 + k by omega]
    refine ⟨hfirst, hzero, ?_, ?_⟩
    · intro i h1 h2
      by_cases hi : i = 88
      · rw [hi, h88]
      · rw [hsecond i (by omega) (by omega)]
        exact hfirst (i - 51) (by omega) (by omega)
    · intro i h1 h2
      by_cases hi : i < 111
      · rw [hsecond i (by omega) hi]
        exact hzero (i - 51) (by omega) (by omega)
      by_cases hi' : i < 160
      · exact hzero' i (by omega) hi'
      · rw [htimes i (by omega) h2]
        exact hzero (i - 96) (by omega) (by omega)
  · rintro ⟨hfirst, hzero, hpair, hrest⟩
    refine ⟨?_, ?_, hzero, ?_, ?_, ?_, ?_, ?_⟩
    · exact congrArg (fun b => [b]) (hfirst 16 (by omega) (by omega)).symm
    · intro k hk
      rw [← hfirst (17 + k) (by omega) (by omega), ← hfirst (16 + k) (by omega) (by omega)]
    · exact congrArg (fun b => [b]) (hpair 88 (by omega) (by omega)).symm
    · intro k hk
      cases k with
      | zero => rw [← hpair 89 (by omega) (by omega), ← hfirst 38 (by omega) (by omega)]
      | succ k =>
        rw [← hrest (89 + (k + 1)) (by omega) (by omega), ← hzero (38 + (k + 1)) (by omega) (by omega)]
        rfl
    · exact fun i h1 h2 => hrest i (by omega) (by omega)
    · intro k hk
      rw [← hrest (160 + k) (by omega) (by omega), ← hzero (64 + k) (by omega) (by omega)]
      rfl
    · intro k hk
      rw [← hrest (168 + k) (by omega) (by omega), ← hzero (72 + k) (by omega) (by omega)]
      rfl

section Window

variable {rec : List Byte} {w : Window Byte} (hw : Starts w rec)
include hw

/-- A filled range of a record in memory. -/
theorem filled_iff {a b : ℕ} (hb : b ≤ rec.length) (v : Byte) :
    AgreeOn a b (fun _ => v) w ↔ Filled rec a b v := by
  have hget : ∀ k < b - a, ((rec.drop a).take (b - a))[k]? = some (w (a + k)) := by
    intro k hk
    rw [List.getElem?_take_of_lt hk, List.getElem?_drop]
    exact hw (a + k) (by omega)
  constructor
  · intro h x hx
    obtain ⟨k, hk, hx⟩ := List.mem_iff_getElem.mp hx
    have hlt := hk
    rw [List.length_take] at hlt
    have hx' := hget k (by omega)
    rw [List.getElem?_eq_getElem hk, hx, Option.some.injEq] at hx'
    rw [hx', ← h (a + k) (by omega) (by omega)]
  · intro h i h1 h2
    obtain ⟨k, rfl⟩ := Nat.exists_eq_add_of_le h1
    exact (h _ (List.mem_of_getElem? (hget k (by omega)))).symm

/-- A byte is a filled range. -/
theorem slice_one_iff {a : ℕ} (hb : a + 1 ≤ rec.length) (v : Byte) :
    slice w a 1 = [v] ↔ Filled rec a (a + 1) v := by
  rw [← filled_iff hw hb]
  constructor
  · intro h i h1 h2
    rw [show i = a by omega]
    exact (List.cons.inj h).1.symm
  · intro h
    exact congrArg (fun b => [b]) (h a (Nat.le_refl a) (Nat.lt_succ_self a)).symm

/-- A header that states the size and type of the message is written as it is. -/
theorem header_kept {size : ℕ} {rtype : Byte} (h16 : headerSize ≤ rec.length) (hlen : rec.length = size)
    (hstated : statedSize rec = rec.length) (hrtype : rec.getD 1 0 = rtype) :
    slice w 0 16 = [UInt8.ofNat (size / 4), rtype] ++ slice w 2 2 ++ slice w 4 4 ++ slice w 8 8 := by
  have hfirst : UInt8.ofNat (size / 4) = w 0 := by
    have h0 := hw 0 (Nat.lt_of_lt_of_le (by decide) h16)
    rw [statedSize, List.headD_eq_head?_getD, List.head?_eq_getElem?, h0, Option.getD_some] at hstated
    rw [← hlen, ← hstated, Nat.mul_div_cancel_left _ (by decide)]
    exact UInt8.ofNat_toNat
  rw [hfirst, ← hrtype, ← rtypeOf_of_starts hw h16]
  rfl

variable (hstated : statedSize rec = rec.length)
include hstated

theorem error_agrees_iff (hk : TextMessage.error.Is D rec) :
    AgreeBelow 320 (rewritten D w .error) w ↔ ReadsAsV1 D rec .error := by
  obtain ⟨hrtype : rec.getD 1 0 = D.error, hlen : rec.length = 320⟩ := hk
  have hhead := header_kept hw (by rw [hlen]; decide) hlen hstated hrtype
  -- header, v1 text, what is left zero, and the two new fields
  rw [← agreeOn_zero, agreeOn_split (show 0 ≤ 16 by omega) (show 16 ≤ 320 by omega),
    agreeOn_split (show 16 ≤ 80 by omega) (show 80 ≤ 320 by omega),
    agreeOn_split (show 80 ≤ 318 by omega) (show 318 ≤ 320 by omega),
    agreeOn_split (show 318 ≤ 319 by omega) (show 319 ≤ 320 by omega), ReadsAsV1,
    ← filled_iff hw (show 318 ≤ rec.length by omega), ← slice_one_iff hw (show 318 + 1 ≤ rec.length by omega),
    ← slice_one_iff hw (show 319 + 1 ≤ rec.length by omega)]
  simp (disch := simp) only [rewritten, setHeader, agreeOn_overwrite_behind, agreeOn_overwrite_before,
    agreeOn_overwrite, List.length_append, List.length_cons, List.length_nil, length_slice, Nat.reduceAdd,
    hhead, true_and]
  exact Iff.rfl

theorem system_agrees_iff (hk : TextMessage.system.Is D rec) :
    AgreeBelow 320 (rewritten D w .system) w ↔ ReadsAsV1 D rec .system := by
  obtain ⟨hrtype : rec.getD 1 0 = D.system, hlen : rec.length = 320⟩ := hk
  have hhead := header_kept hw (by rw [hlen]; decide) hlen hstated hrtype
  rw [← agreeOn_zero, agreeOn_split (show 0 ≤ 16 by omega) (show 16 ≤ 320 by omega),
    agreeOn_split (show 16 ≤ 80 by omega) (show 80 ≤ 320 by omega),
    agreeOn_split (show 80 ≤ 319 by omega) (show 319 ≤ 320 by omega), ReadsAsV1,
    ← filled_iff hw (show 319 ≤ rec.length by omega), ← slice_one_iff hw (show 319 + 1 ≤ rec.length by omega)]
  simp (disch := simp) only [rewritten, setHeader, agreeOn_overwrite_behind, agreeOn_overwrite_before,
    agreeOn_overwrite, List.length_append, List.length_cons, List.length_nil, length_slice, Nat.reduceAdd,
    hhead, true_and]
  exact Iff.rfl

theorem symbolMapping_agrees_iff (hk : TextMessage.symbolMapping.Is D rec) :
    AgreeBelow 176 (rewritten D w .symbolMapping) w ↔ ReadsAsV1 D rec .symbolMapping := by
  obtain ⟨hrtype : rec.getD 1 0 = D.symbolMapping, hlen : rec.length = 176⟩ := hk
  have hhead := header_kept hw (by rw [hlen]; decide) hlen hstated hrtype
  -- header, first type, its string, zeros, second type, its string, zeros, and the two times
  rw [← agreeOn_zero, agreeOn_split (show 0 ≤ 16 by omega) (show 16 ≤ 176 by omega),
    agreeOn_split (show 16 ≤ 17 by omega) (show 17 ≤ 176 by omega),
    agreeOn_split (show 17 ≤ 39 by omega) (show 39 ≤ 176 by omega),
    agreeOn_split (show 39 ≤ 88 by omega) (show 88 ≤ 176 by omega),
    agreeOn_split (show 88 ≤ 89 by omega) (show 89 ≤ 176 by omega),
    agreeOn_split (show 89 ≤ 111 by omega) (show 111 ≤ 176 by omega),
    agreeOn_split (show 111 ≤ 160 by omega) (show 160 ≤ 176 by omega),
    agreeOn_split (show 160 ≤ 168 by omega) (show 168 ≤ 176 by omega), ReadsAsV1,
    ← filled_iff hw (show 39 ≤ rec.length by omega), ← filled_iff hw (show 88 ≤ rec.length by omega),
    ← filled_iff hw (show 90 ≤ rec.length by omega), ← filled_iff hw (show 176 ≤ rec.length by omega)]
  simp (disch := simp) only [rewritten, setHeader, agreeOn_overwrite_behind, agreeOn_overwrite_before,
    agreeOn_overwrite, List.length_append, List.length_cons, List.length_nil, length_slice, Nat.reduceAdd,
    hhead, true_and]
  exact mapping_body_iff w

/-- **The conversion leaves the records that read as v1 and no other.** -/
theorem rewritten_agrees_iff {k : TextMessage} (hk : k.Is D rec) :
    AgreeBelow k.size (rewritten D w k) w ↔ ReadsAsV1 D rec k := by
  cases k with
  | error => exact error_agrees_iff D hw hstated hk
  | system => exact system_agrees_iff D hw hstated hk
  | symbolMapping => exact symbolMapping_agrees_iff D hw hstated hk

end Window

/-! ### What a stream of version 2 delivers -/

/-- **The reference made for a message of the v3 layout**, in any version that is converted. -/
theorem Delivers.unchanged_iff {D : Databento} (h : TextLayouts D) {version : Byte} (hv : version ≠ 3)
    {r : Record} {ref : RecordRef} (hd : Delivers D version r.bytes ref) {k : TextMessage}
    (hk : k.Is D r.bytes) : ref.data = r.bytes ↔ ReadsAsV1 D r.bytes k := by
  have hsize : v3SizeOf D version r.bytes = k.size := by
    rw [v3SizeOf, conversionSize, if_neg hv, hk.1, getV3Size_message]
  have hpos : 0 < k.size := by cases k <;> decide
  obtain ⟨w, hw, hdata⟩ := hd.converted (by rw [hsize]; exact hpos)
  have hrtype : rtypeOf w = k.rtype D := (rtypeOf_of_starts hw r.header_le).trans hk.1
  rw [hsize, convertedFrom, hrtype, converted_some D (converter_message h version w k)] at hdata
  have hsrc : r.bytes = slice w 0 k.size := by
    rw [← hk.2]
    exact hw.slice.symm
  rw [← rewritten_agrees_iff D hw r.size_eq hk, hdata]
  constructor
  · intro heq
    exact agree_of_slice (heq.trans hsrc)
  · intro hagree
    rw [hsrc]
    exact slice_congr hagree (by omega)

/-- **When the parser passes a message of version 2 unchanged.**  However the stream is cut, the message is
delivered byte for byte if and only if it holds what a v1 record is converted to. -/
theorem delivered_unchanged_iff {D : Databento} (h : TextLayouts D) (s : DbnStream) (hv : s.version = 2)
    (recycler : Option ℕ) (ds : List Delivery) (hds : ds.flatMap Delivery.bytes = s.bytes) {i : ℕ}
    {r : Record} (hr : s.records[i]? = some r) {k : TextMessage} (hk : k.Is D r.bytes) :
    (delivered (receiveAll D recycler ds).1.own.events)[i]? = some r.bytes ↔ ReadsAsV1 D r.bytes k := by
  obtain ⟨⟨batches, hev, hall⟩, -⟩ := run_stream_delivers D s recycler ds hds
  rw [hev, delivered_batches, List.getElem?_map]
  obtain ⟨hi, hget⟩ := List.getElem?_eq_some_iff.mp hr
  have hlt : i < batches.flatten.length := by
    rw [← hall.length_eq, List.length_map]
    exact hi
  have hd := hall.get (by rw [List.length_map]; exact hi) hlt
  rw [List.get_eq_getElem, List.get_eq_getElem, List.getElem_map, hget] at hd
  rw [List.getElem?_eq_getElem hlt, Option.map_some, Option.some.injEq]
  exact hd.unchanged_iff h (by rw [hv]; decide) hk

/-- A header: length byte and record type, then publisher, instrument and event time. -/
def messageHeader (length rtype : Byte) : List Byte := [length, rtype] ++ List.replicate 14 1

/-- An error `gap` with nothing known of its code and place. -/
def unsetError : Record where
  bytes := messageHeader 80 0x15 ++ [103, 97, 112] ++ List.replicate 299 0 ++ [255, 255]
  size_eq := by decide +kernel
  header_le := by decide +kernel
  le_max := by decide +kernel

/-- The raw symbol `ESM4` mapped to the instrument `5602`, from the time 3 to the time 4. -/
def mapping : Record where
  bytes := messageHeader 44 0x16 ++ [1, 69, 83, 77, 52] ++ List.replicate 67 0 ++ [0, 53, 54, 48, 50] ++
    List.replicate 67 0 ++ [3, 0, 0, 0, 0, 0, 0, 0] ++ [4, 0, 0, 0, 0, 0, 0, 0]
  size_eq := by decide +kernel
  header_le := by decide +kernel
  le_max := by decide +kernel

/-- A stream of version 2 with these two messages. -/
def messageStream : DbnStream where
  metadata := some ⟨2, [], Nat.zero_le _⟩
  supported := by decide
  records := [unsetError, mapping]
  tail := []
  tail_part := ⟨unsetError, List.nil_prefix, by decide +kernel⟩
  unmarked := by decide

/-- The stream in two calls. -/
def messageCuts : List Delivery :=
  [⟨zeroed, [.ofBytes (messageStream.bytes.take 100) (by decide +kernel)]⟩,
    ⟨zeroed, [.ofBytes (messageStream.bytes.drop 100) (by decide +kernel)]⟩]

theorem messageCuts_bytes : messageCuts.flatMap Delivery.bytes = messageStream.bytes := by
  simp only [messageCuts, Delivery.bytes, List.flatMap_cons, List.flatMap_nil, List.append_nil]
  exact List.take_append_drop 100 messageStream.bytes

/-- The error passes. -/
theorem delivered_unchanged_unset :
    (delivered (receiveAll databentoCpp none messageCuts).1.own.events)[0]? = some unsetError.bytes :=
  (delivered_unchanged_iff textLayouts_cpp messageStream rfl none messageCuts messageCuts_bytes
    (show messageStream.records[0]? = some unsetError from rfl) (k := .error)
    ⟨rfl, unsetError.size_eq.symm⟩).mpr (by decide +kernel)

/-- **The symbol mapping does not.** -/
theorem not_delivered_unchanged :
    ¬∀ (s : DbnStream) (recycler : Option ℕ) (ds : List Delivery), s.version = 2 →
      ds.flatMap Delivery.bytes = s.bytes → ∀ (i : ℕ) (r : Record) (k : TextMessage),
        s.records[i]? = some r → k.Is databentoCpp r.bytes →
          (delivered (receiveAll databentoCpp recycler ds).1.own.events)[i]? = some r.bytes := by
  intro h
  have hsame := h messageStream none messageCuts rfl messageCuts_bytes 1 mapping .symbolMapping rfl
    ⟨rfl, mapping.size_eq.symm⟩
  exact absurd hsame (by decide +kernel)

end DbnPipe.Dbn
