import DbnPipe.Api.MetadataBuilders

/-!
# Members at the root, and below

`DatasetRangeBuilder` keeps the last key that it was told, and pays no attention to where objects begin and end.

* `datasetRange` — what `Build` says of the events of a document;
* `foldl_handle` — the builder holds **the last string under each of its keys**, at any depth;
* `Undisturbed` — no string below a later member stands under the key of a root member, or the last one is the same;
* `datasetRange_iff` — the root members are returned **exactly if both are undisturbed**;
* `datasetRange_of_not_uses` — so they are where nothing below the root uses the two keys.
-/

namespace DbnPipe.Api

open Json

/-- `Build`, after the events of a document. -/
def datasetRange (v : Json) : Except String DatasetRange :=
  datasetRangeBuilder.build (v.read datasetRangeBuilder.handle {})

/-- A string changes the member of its key, if that is one of the two. -/
theorem handle_string (s : String) (b : DatasetRangeBuilder) :
    (datasetRangeBuilder.handle b (.string s)).currentKey = b.currentKey ∧
      (datasetRangeBuilder.handle b (.string s)).start = (if b.currentKey = "start" then some s else b.start) ∧
      (datasetRangeBuilder.handle b (.string s)).end = (if b.currentKey = "end" then some s else b.end) := by
  simp only [JsonBuilder.handle, datasetRangeBuilder]
  rcases Decidable.em (b.currentKey = "start") with hstart | hstart
  · have hend : b.currentKey ≠ "end" := by
      rw [hstart]
      decide
    rw [if_pos hstart, if_pos hstart, if_neg hend]
    exact ⟨rfl, rfl, rfl⟩
  · rcases Decidable.em (b.currentKey = "end") with hend | hend
    · rw [if_neg hstart, if_pos hend, if_neg hstart, if_pos hend]
      exact ⟨rfl, rfl, rfl⟩
    · rw [if_neg hstart, if_neg hend, if_neg hstart, if_neg hend]
      exact ⟨rfl, rfl, rfl⟩

/-- **The builder holds the last string under each of its keys.** -/
theorem foldl_handle (es : List SaxEvent) (b : DatasetRangeBuilder) :
    (es.foldl datasetRangeBuilder.handle b).start = (lastUnder "start" b.currentKey es).or b.start ∧
      (es.foldl datasetRangeBuilder.handle b).end = (lastUnder "end" b.currentKey es).or b.end := by
  induction es generalizing b with
  | nil => exact ⟨rfl, rfl⟩
  | cons e es ih =>
    rw [List.foldl_cons]
    cases e with
    | string s =>
      obtain ⟨hkey, hstart, hend⟩ := handle_string s b
      rw [(ih _).1, (ih _).2, hkey, hstart, hend]
      constructor
      · show _ = ((lastUnder "start" b.currentKey es).or (if b.currentKey = "start" then some s else none)).or b.start
        rw [Option.or_assoc]
        split <;> rfl
      · show _ = ((lastUnder "end" b.currentKey es).or (if b.currentKey = "end" then some s else none)).or b.end
        rw [Option.or_assoc]
        split <;> rfl
    | _ => exact ih _

/-- Among the members behind a root member `k` with the text `a`, no string stands under `k`, or the last one is `a`. -/
def Undisturbed (k a : String) (ms : List (String × Json)) : Prop :=
  ∀ before behind, ms = before ++ (k, .string a) :: behind → ∀ s, lastUnder k k (memberEvents behind) = some s → s = a

/-- The last string under the key of a root member: its own text, or one behind it. -/
theorem lastUnder_object {k a : String} {before behind : List (String × Json)} :
    lastUnder k "" (Json.object (before ++ (k, .string a) :: behind)).events =
      (lastUnder k k (memberEvents behind)).or (some a) := by
  have happend : ∀ ms ms' : List (String × Json), memberEvents (ms ++ ms') = memberEvents ms ++ memberEvents ms' := by
    intro ms ms'
    induction ms with
    | nil => rfl
    | cons m ms ih => rw [List.cons_append, memberEvents, memberEvents, ih, List.cons_append, List.append_assoc]
  have hend : ∀ (c : String) (es : List SaxEvent), lastUnder k c (es ++ [.endObject]) = lastUnder k c es := by
    intro c es
    rw [lastUnder_append]
    exact Option.none_or
  rw [events, ← List.cons_append, hend, happend]
  show lastUnder k "" (memberEvents before ++ memberEvents ((k, .string a) :: behind)) = _
  have hmember : ∀ c, lastUnder k c (memberEvents ((k, .string a) :: behind)) =
      (lastUnder k k (memberEvents behind)).or (some a) := by
    intro c
    show (lastUnder k k (memberEvents behind)).or (if k = k then some a else none) = _
    rw [if_pos rfl]
  rw [lastUnder_append, hmember, Option.or_assoc]
  rfl

/-- The text of a root member is the last one under its key exactly if the member is undisturbed. -/
theorem lastUnder_eq_iff {k a : String} {ms : List (String × Json)} (hmem : (k, .string a) ∈ ms) :
    lastUnder k "" (Json.object ms).events = some a ↔ Undisturbed k a ms := by
  constructor
  · intro h before behind hms s hs
    rw [hms, lastUnder_object, hs] at h
    exact Option.some.inj h
  · intro h
    obtain ⟨before, behind, hms⟩ := List.append_of_mem hmem
    rw [hms, lastUnder_object]
    cases hlast : lastUnder k k (memberEvents behind) with
    | none => rfl
    | some s => rw [h before behind hms s hlast]; rfl

/-- `Build` returns two texts exactly if the builder holds them. -/
theorem build_eq_ok (b : DatasetRangeBuilder) (start stop : String) :
    datasetRangeBuilder.build b = .ok ⟨start, stop⟩ ↔ b.start = some start ∧ b.end = some stop := by
  obtain ⟨key, bs, be⟩ := b
  cases bs <;> cases be <;> simp [datasetRangeBuilder]

/-- **The root members are returned exactly if both are undisturbed.** -/
theorem datasetRange_iff {ms : List (String × Json)} {start stop : String} (hstart : ("start", .string start) ∈ ms)
    (hstop : ("end", .string stop) ∈ ms) :
    datasetRange (.object ms) = .ok ⟨start, stop⟩ ↔ Undisturbed "start" start ms ∧ Undisturbed "end" stop ms := by
  obtain ⟨hs, he⟩ := foldl_handle (Json.object ms).events {}
  rw [datasetRange, Json.read, build_eq_ok, hs, he, ← lastUnder_eq_iff hstart, ← lastUnder_eq_iff hstop, Option.or_none,
    Option.or_none]

/-- Members of which none has the key, at the root or below, but with the same text. -/
theorem lastUnder_members {k a : String} {ms : List (String × Json)} (hroot : ∀ m ∈ ms, m.1 = k → m = (k, .string a))
    (hbelow : ∀ m ∈ ms, ¬ Uses k m.2) (c s : String) (h : lastUnder k c (memberEvents ms) = some s) : s = a := by
  induction ms generalizing c with
  | nil => cases h
  | cons m ms ih =>
    have hrest := ih (fun m' hm' => hroot m' (List.mem_cons_of_mem m hm'))
      fun m' hm' => hbelow m' (List.mem_cons_of_mem m hm')
    rcases Decidable.em (m.1 = k) with hkey | hkey
    · rw [hroot m List.mem_cons_self hkey] at h
      have hor : (lastUnder k k (memberEvents ms)).or (if k = k then some a else none) = some s := h
      rw [if_pos rfl, Option.or_eq_some_iff] at hor
      rcases hor with hlast | ⟨-, hsame⟩
      · exact hrest k hlast
      · exact (Option.some.inj hsame).symm
    · have hnone : lastUnder k m.1 m.2.events = none :=
        lastUnder_eq_none (fun hmem => hbelow m List.mem_cons_self (uses_of_mem_events hmem)) hkey
      have hlast : lastUnder k m.1 (m.2.events ++ memberEvents ms) = some s := h
      rw [lastUnder_append, hnone, Option.or_none] at hlast
      exact hrest _ hlast

/-- A root member is undisturbed where no other one has its key, at the root or below. -/
theorem undisturbed_of_not_uses {k a : String} {ms : List (String × Json)}
    (hroot : ∀ m ∈ ms, m.1 = k → m = (k, .string a)) (hbelow : ∀ m ∈ ms, ¬ Uses k m.2) : Undisturbed k a ms := by
  intro before behind hms s hs
  have hin : ∀ m ∈ behind, m ∈ ms := fun m hm => hms ▸ List.mem_append_right _ (List.mem_cons_of_mem _ hm)
  exact lastUnder_members (fun m hm => hroot m (hin m hm)) (fun m hm => hbelow m (hin m hm)) k s hs

/-- **Flat documents are read at their root**: other members may hold anything that does not use the two keys. -/
theorem datasetRange_of_not_uses {ms : List (String × Json)} {start stop : String}
    (hstart : ("start", .string start) ∈ ms) (hstop : ("end", .string stop) ∈ ms)
    (honeStart : ∀ m ∈ ms, m.1 = "start" → m = ("start", .string start))
    (honeStop : ∀ m ∈ ms, m.1 = "end" → m = ("end", .string stop))
    (hbelow : ∀ m ∈ ms, ¬ Uses "start" m.2 ∧ ¬ Uses "end" m.2) :
    datasetRange (.object ms) = .ok ⟨start, stop⟩ :=
  (datasetRange_iff hstart hstop).mpr
    ⟨undisturbed_of_not_uses honeStart fun m hm => (hbelow m hm).1,
      undisturbed_of_not_uses honeStop fun m hm => (hbelow m hm).2⟩

/-- A schema with a range of its own. -/
def mboRange : String × Json :=
  ("schema", .object [("mbo", .object [("start", .string "2020-01-01"), ("end", .string "2021-01-01")])])

/-- Behind its schemas, the range of a dataset is read. -/
theorem datasetRange_schemaFirst :
    datasetRange (.object [mboRange, ("start", .string "2018-05-01"), ("end", .string "2026-01-20")]) =
      .ok ⟨"2018-05-01", "2026-01-20"⟩ :=
  (datasetRange_iff (by simp) (by simp)).mpr
    ⟨(lastUnder_eq_iff (by simp)).mp (by decide +kernel), (lastUnder_eq_iff (by simp)).mp (by decide +kernel)⟩

/-- **In front of its schemas it is not**: the range of the last schema is returned. -/
theorem not_datasetRange_schemaLast :
    datasetRange (.object [("start", .string "2018-05-01"), ("end", .string "2026-01-20"), mboRange]) =
        .ok ⟨"2020-01-01", "2021-01-01"⟩ ∧
      datasetRange (.object [("start", .string "2018-05-01"), ("end", .string "2026-01-20"), mboRange]) ≠
        .ok ⟨"2018-05-01", "2026-01-20"⟩ := by
  have hnested : datasetRange (.object [("start", .string "2018-05-01"), ("end", .string "2026-01-20"), mboRange]) =
      .ok ⟨"2020-01-01", "2021-01-01"⟩ := by rfl
  refine ⟨hnested, ?_⟩
  rw [hnested]
  decide

end DbnPipe.Api
