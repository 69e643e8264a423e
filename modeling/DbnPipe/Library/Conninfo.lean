import Mathlib.Data.List.Basic
import Mathlib.Data.List.TakeWhile
import Mathlib.Tactic.Common

/-!
# Connection strings of keywords and values

The grammar of libpq's `conninfo` strings, as a reader from the front, and texts written for it.

* `bare`, `quoted`, `value` — a value: up to the next white space, or in quotes with backslash escapes;
* `keyword`, `settings` — a keyword, `=`, white space that is skipped, and the value; **all of the text, or nothing**;
* `write`, `render` — settings as a text, with the test that decides which values are quoted as a parameter;
* `Legible` — where the test leaves a value as it is, the value has no white space and is not empty before others;
* `settings_render` — **the settings come back exactly where they are legible**.
-/

namespace DbnPipe.Conninfo

/-- A keyword with its value. -/
abbrev Setting := List UInt8 × List UInt8

/-! ### The grammar -/

/-- White space. -/
def isSpace (b : UInt8) : Bool := b == 32 || (9 ≤ b && b ≤ 13)

/-- The text from its first character on that is not white space. -/
def skipBlanks (l : List UInt8) : List UInt8 := l.dropWhile isSpace

/-- A value without quotes, and what follows the white space that ends it; the flag is that a backslash has been
read. -/
def bare : Bool → List UInt8 → List UInt8 × List UInt8
  | _, [] => ([], [])
  | true, b :: l => (b :: (bare false l).1, (bare false l).2)
  | false, b :: l =>
    if isSpace b then ([], l)
    else if b = 92 then bare true l
    else (b :: (bare false l).1, (bare false l).2)

/-- A value behind its opening quote, and what follows the closing one. -/
def quoted : Bool → List UInt8 → Option (List UInt8 × List UInt8)
  | _, [] => none
  | true, b :: l => (quoted false l).map fun p => (b :: p.1, p.2)
  | false, b :: l =>
    if b = 92 then quoted true l
    else if b = 39 then some ([], l)
    else (quoted false l).map fun p => (b :: p.1, p.2)

/-- A value. -/
def value (l : List UInt8) : Option (List UInt8 × List UInt8) :=
  let l := skipBlanks l
  if l.head? = some 39 then quoted false l.tail else some (bare false l)

/-- What does not end a keyword. -/
def inKeyword (b : UInt8) : Bool := b != 61 && !isSpace b

/-- A keyword, and what follows its `=`. -/
def keyword (l : List UInt8) : Option (List UInt8 × List UInt8) :=
  match skipBlanks (l.dropWhile inKeyword) with
  | [] => none
  | b :: rest => if b = 61 then some (l.takeWhile inKeyword, rest) else none

/-- A setting, and what follows it. -/
def setting (l : List UInt8) : Option (Setting × List UInt8) :=
  (keyword l).bind fun k => (value k.2).map fun v => ((k.1, v.1), v.2)

theorem length_skipBlanks (l : List UInt8) : (skipBlanks l).length ≤ l.length :=
  (List.dropWhile_sublist _).length_le

theorem length_bare (escaped : Bool) (l : List UInt8) : (bare escaped l).2.length ≤ l.length := by
  induction escaped, l using bare.induct with
  | case1 => exact Nat.le_refl _
  | case2 b l ih => exact Nat.le_succ_of_le ih
  | case3 b l h =>
    rw [bare, if_pos h]
    exact Nat.le_succ _
  | case4 l h ih =>
    rw [bare, if_neg h, if_pos rfl]
    exact Nat.le_succ_of_le ih
  | case5 b l h hescape ih =>
    rw [bare, if_neg h, if_neg hescape]
    exact Nat.le_succ_of_le ih

theorem length_quoted {escaped : Bool} {l : List UInt8} {p : List UInt8 × List UInt8} (h : quoted escaped l = some p) :
    p.2.length ≤ l.length := by
  induction escaped, l using quoted.induct generalizing p with
  | case1 => cases h
  | case2 b l ih =>
    obtain ⟨q, hq, rfl⟩ := Option.map_eq_some_iff.mp h
    have hrest := ih hq
    exact Nat.le_succ_of_le hrest
  | case3 l ih =>
    rw [quoted, if_pos rfl] at h
    exact Nat.le_succ_of_le (ih h)
  | case4 l hescape =>
    rw [quoted, if_neg hescape, if_pos rfl] at h
    obtain rfl := Option.some.inj h
    exact Nat.le_succ _
  | case5 b l hescape hquote ih =>
    rw [quoted, if_neg hescape, if_neg hquote] at h
    obtain ⟨q, hq, rfl⟩ := Option.map_eq_some_iff.mp h
    have hrest := ih hq
    exact Nat.le_succ_of_le hrest

theorem length_value {l : List UInt8} {p : List UInt8 × List UInt8} (h : value l = some p) :
    p.2.length ≤ l.length := by
  rw [value] at h
  split at h
  · exact Nat.le_trans (Nat.le_trans (length_quoted h) (List.tail_sublist _).length_le) (length_skipBlanks l)
  · obtain rfl := Option.some.inj h
    exact Nat.le_trans (length_bare false _) (length_skipBlanks l)

theorem length_keyword {l : List UInt8} {p : List UInt8 × List UInt8} (h : keyword l = some p) :
    p.2.length < l.length := by
  have hdrop : (skipBlanks (l.dropWhile inKeyword)).length ≤ l.length :=
    Nat.le_trans (length_skipBlanks _) (List.dropWhile_sublist _).length_le
  rw [keyword] at h
  split at h
  · cases h
  · rename_i b rest hrest
    rw [hrest, List.length_cons] at hdrop
    split at h
    · obtain rfl := Option.some.inj h
      exact hdrop
    · cases h

/-- A setting is taken from the front. -/
theorem length_setting {l : List UInt8} {p : Setting × List UInt8} (h : setting l = some p) :
    p.2.length < l.length := by
  obtain ⟨k, hk, h⟩ := Option.bind_eq_some_iff.mp h
  obtain ⟨v, hv, rfl⟩ := Option.map_eq_some_iff.mp h
  exact Nat.lt_of_le_of_lt (length_value hv) (length_keyword hk)

/-- **All settings of a text**; nothing where one is malformed. -/
def settings (l : List UInt8) : Option (List Setting) :=
  if skipBlanks l = [] then some []
  else
    match h : setting (skipBlanks l) with
    | none => none
    | some (s, rest) =>
      have : rest.length < l.length := Nat.lt_of_lt_of_le (length_setting h) (length_skipBlanks l)
      (settings rest).map (s :: ·)
termination_by l.length

theorem settings_eq (l : List UInt8) :
    settings l =
      if skipBlanks l = [] then some []
      else (setting (skipBlanks l)).bind fun p => (settings p.2).map (p.1 :: ·) := by
  rw [settings]
  by_cases hend : skipBlanks l = []
  · rw [if_pos hend, if_pos hend]
  · rw [if_neg hend, if_neg hend]
    split
    · rename_i h
      rw [h]
      rfl
    · rename_i s rest h
      simp only [h, Option.bind_some]

theorem settings_nil : settings [] = some [] := by
  rw [settings_eq]
  rfl

/-- White space in front does not matter. -/
theorem settings_blank {b : UInt8} (h : isSpace b = true) (l : List UInt8) : settings (b :: l) = settings l := by
  have hskip : skipBlanks (b :: l) = skipBlanks l := List.dropWhile_cons_of_pos h
  rw [settings_eq, settings_eq, hskip]

/-! ### Texts that are written -/

/-- A keyword that can be written. -/
structure IsKeyword (name : List UInt8) : Prop where
  ne_nil : name ≠ []
  chars : ∀ b ∈ name, b ≠ 61 ∧ b ≠ 39 ∧ b ≠ 92 ∧ isSpace b = false

theorem IsKeyword.inKeyword {name : List UInt8} (h : IsKeyword name) {b : UInt8} (hb : b ∈ name) :
    inKeyword b = true := by
  obtain ⟨hequals, -, -, hspace⟩ := h.chars b hb
  rw [Conninfo.inKeyword, Bool.and_eq_true, bne_iff_ne, hspace]
  exact ⟨hequals, rfl⟩

/-- No white space comes first. -/
theorem IsKeyword.skipBlanks {name : List UInt8} (h : IsKeyword name) (rest : List UInt8) :
    skipBlanks (name ++ rest) = name ++ rest := by
  cases name with
  | nil => exact absurd rfl h.ne_nil
  | cons b name =>
    have hspace := (h.chars b List.mem_cons_self).2.2.2
    exact List.dropWhile_cons_of_neg (Bool.eq_false_iff.mp hspace)

/-- The keyword of a text that begins with one. -/
theorem keyword_append {name : List UInt8} (h : IsKeyword name) (rest : List UInt8) :
    keyword (name ++ 61 :: rest) = some (name, rest) := by
  have hin : ∀ b ∈ name, inKeyword b = true := fun b hb => h.inKeyword hb
  have hstop : ¬inKeyword 61 = true := by decide
  have hequals : ¬isSpace 61 = true := by decide
  rw [keyword, List.dropWhile_append_of_pos hin, List.takeWhile_append_of_pos hin, List.dropWhile_cons_of_neg hstop,
    List.takeWhile_cons_of_neg hstop, skipBlanks, List.dropWhile_cons_of_neg hequals, List.append_nil]
  exact if_pos rfl

/-- The settings of a text that begins with a keyword. -/
theorem settings_append {name text : List UInt8} (h : IsKeyword name) :
    settings (name ++ 61 :: text) =
      (value text).bind fun p => (settings p.2).map ((name, p.1) :: ·) := by
  have hne : name ++ 61 :: text ≠ [] := List.append_ne_nil_of_right_ne_nil _ (List.cons_ne_nil _ _)
  rw [settings_eq, h.skipBlanks, if_neg hne, setting, keyword_append h, Option.bind_some]
  cases value text with
  | none => rfl
  | some p => rfl

/-- Quotes and backslashes with a backslash in front. -/
def escape (v : List UInt8) : List UInt8 := v.flatMap fun b => if b = 39 ∨ b = 92 then [92, b] else [b]

/-- Nothing but backslashes is added. -/
theorem mem_escape {b : UInt8} {v : List UInt8} (h : b ∈ escape v) : b = 92 ∨ b ∈ v := by
  obtain ⟨c, hc, hb⟩ := List.mem_flatMap.mp h
  split at hb
  · rcases List.mem_pair.mp hb with rfl | rfl
    · exact .inl rfl
    · exact .inr hc
  · rw [List.mem_singleton.mp hb]
    exact .inr hc

theorem escape_cons (b : UInt8) (v : List UInt8) :
    escape (b :: v) = (if b = 39 ∨ b = 92 then [92, b] else [b]) ++ escape v := List.flatMap_cons

/-- **A quoted value is read back.** -/
theorem quoted_escape (v rest : List UInt8) : quoted false (escape v ++ 39 :: rest) = some (v, rest) := by
  induction v with
  | nil => rfl
  | cons b v ih =>
    rw [escape_cons]
    by_cases hspecial : b = 39 ∨ b = 92
    · rw [if_pos hspecial]
      show quoted false (92 :: b :: (escape v ++ 39 :: rest)) = _
      rw [quoted, if_pos rfl, quoted, ih]
      rfl
    · rw [if_neg hspecial]
      rw [not_or] at hspecial
      show quoted false (b :: (escape v ++ 39 :: rest)) = _
      rw [quoted, if_neg hspecial.2, if_neg hspecial.1, ih]
      rfl

/-- What stands behind a value: nothing, or a blank and a character that no value ends with. -/
def Follows (rest : List UInt8) : Prop :=
  rest = [] ∨ ∃ c r, rest = 32 :: c :: r ∧ c ≠ 39 ∧ c ≠ 92 ∧ isSpace c = false

/-- Without backslashes, a value ends at white space. -/
theorem bare_append {v rest : List UInt8} (hv : ∀ b ∈ v, b ≠ 92 ∧ isSpace b = false) (h : Follows rest) :
    bare false (v ++ rest) = (v, rest.tail) := by
  induction v with
  | nil =>
    rcases h with rfl | ⟨c, r, rfl, -⟩
    · rfl
    · rfl
  | cons b v ih =>
    obtain ⟨hescape, hspace⟩ := hv b List.mem_cons_self
    rw [List.cons_append, bare, if_neg (Bool.eq_false_iff.mp hspace), if_neg hescape,
      ih fun b hb => hv b (List.mem_cons_of_mem _ hb)]

/-- Without backslashes, a value has no white space. -/
theorem bare_no_space {v rest : List UInt8} (hv : ∀ b ∈ v, b ≠ 92) (h : Follows rest) :
    ∀ b ∈ (bare false (v ++ rest)).1, isSpace b = false := by
  induction v with
  | nil =>
    intro b hb
    rcases h with rfl | ⟨c, r, rfl, -⟩
    · exact absurd hb List.not_mem_nil
    · exact absurd hb List.not_mem_nil
  | cons c v ih =>
    rw [List.cons_append, bare, if_neg (hv c List.mem_cons_self)]
    by_cases hspace : isSpace c = true
    · rw [if_pos hspace]
      exact fun b hb => absurd hb List.not_mem_nil
    · rw [if_neg hspace]
      intro b hb
      rcases List.mem_cons.mp hb with rfl | hb
      · exact Bool.eq_false_iff.mpr hspace
      · exact ih (fun b hb => hv b (List.mem_cons_of_mem _ hb)) b hb

/-- A value that stands as it is: without white space, and not empty where something follows. -/
structure Standing (v rest : List UInt8) : Prop where
  no_space : ∀ b ∈ v, isSpace b = false
  ne_nil : rest ≠ [] → v ≠ []

theorem value_standing {v rest : List UInt8} (hv : ∀ b ∈ v, b ≠ 39 ∧ b ≠ 92) (hrest : Follows rest)
    (h : Standing v rest) : value (v ++ rest) = some (v, rest.tail) := by
  cases v with
  | nil =>
    have hend : rest = [] := by
      by_contra hne
      exact h.ne_nil hne rfl
    rw [hend]
    rfl
  | cons b v =>
    have hspace := h.no_space b List.mem_cons_self
    have hskip : skipBlanks (b :: v ++ rest) = b :: v ++ rest :=
      List.dropWhile_cons_of_neg (Bool.eq_false_iff.mp hspace)
    have hquote : ¬(b :: v ++ rest).head? = some 39 := fun hb =>
      (hv b List.mem_cons_self).1 (Option.some.inj hb)
    have hbare := bare_append (fun c hc => ⟨(hv c hc).2, h.no_space c hc⟩) hrest
    rw [value, hskip, if_neg hquote, hbare]

/-- **Only such values come back.** -/
theorem standing_of_value {v rest rest' : List UInt8} (hv : ∀ b ∈ v, b ≠ 39 ∧ b ≠ 92) (hrest : Follows rest)
    (h : value (v ++ rest) = some (v, rest')) : Standing v rest := by
  by_cases hall : ∀ b ∈ v, isSpace b = true
  · -- all of the value is skipped, and what is read instead stands behind it
    have hskip : skipBlanks (v ++ rest) = skipBlanks rest := List.dropWhile_append_of_pos hall
    rcases hrest with rfl | ⟨c, r, rfl, hquote, hescape, hspace⟩
    · have hnil : v = [] := by
        rw [value, hskip] at h
        exact (congrArg Prod.fst (Option.some.inj h)).symm
      rw [hnil]
      exact ⟨fun b hb => absurd hb List.not_mem_nil, fun hne => absurd rfl hne⟩
    · have hnext : skipBlanks (32 :: c :: r) = c :: r := by
        have hblank : isSpace 32 = true := by decide
        rw [skipBlanks, List.dropWhile_cons_of_pos hblank]
        exact List.dropWhile_cons_of_neg (Bool.eq_false_iff.mp hspace)
      have hhead : ¬(c :: r).head? = some 39 := fun hc => hquote (Option.some.inj hc)
      rw [value, hskip, hnext, if_neg hhead, bare, if_neg (Bool.eq_false_iff.mp hspace),
        if_neg hescape] at h
      have hc : c ∈ v := by
        rw [← show c :: (bare false r).1 = v from congrArg Prod.fst (Option.some.inj h)]
        exact List.mem_cons_self
      rw [hall c hc] at hspace
      exact Bool.noConfusion hspace
  · -- what is read has no white space
    have hdrop : skipBlanks v ≠ [] := fun hnil => hall (List.dropWhile_eq_nil_iff.mp hnil)
    have hmem : ∀ b ∈ skipBlanks v, b ∈ v := fun b hb => (List.dropWhile_sublist _).subset hb
    have hskip : skipBlanks (v ++ rest) = skipBlanks v ++ rest := by
      rw [skipBlanks, List.dropWhile_append, if_neg (by rw [List.isEmpty_iff]; exact hdrop)]
      rfl
    have hquote : ¬(skipBlanks v ++ rest).head? = some 39 := by
      obtain ⟨c, w, hw⟩ := List.exists_cons_of_ne_nil hdrop
      have hc : c ∈ v := hmem c (by rw [hw]; exact List.mem_cons_self)
      rw [hw]
      exact fun hhead => (hv c hc).1 (Option.some.inj hhead)
    rw [value, hskip, if_neg hquote] at h
    have hread : (bare false (skipBlanks v ++ rest)).1 = v := congrArg Prod.fst (Option.some.inj h)
    have hspace := bare_no_space (fun b hb => (hv b (hmem b hb)).2) hrest
    rw [hread] at hspace
    refine ⟨hspace, fun _ hnil => hall ?_⟩
    rw [hnil]
    exact fun b hb => absurd hb List.not_mem_nil

/-! ### Settings -/

/-- A value, in quotes where the test asks for them. -/
def write (needsQuoting : List UInt8 → Bool) (v : List UInt8) : List UInt8 :=
  if needsQuoting v then 39 :: (escape v ++ [39]) else v

/-- Settings with a blank between them. -/
def render (needsQuoting : List UInt8 → Bool) : List Setting → List UInt8
  | [] => []
  | s :: l => s.1 ++ 61 :: (write needsQuoting s.2 ++ if l.isEmpty then [] else 32 :: render needsQuoting l)

/-- **Values that come back**: those in quotes; of the others, those without white space, if they are not empty or
stand last. -/
def Legible (needsQuoting : List UInt8 → Bool) : List Setting → Prop
  | [] => True
  | s :: l =>
    (needsQuoting s.2 = false → (∀ b ∈ s.2, isSpace b = false) ∧ (l ≠ [] → s.2 ≠ [])) ∧ Legible needsQuoting l

/-- The test asks for quotes where a value has a quote or a backslash. -/
def Guards (needsQuoting : List UInt8 → Bool) : Prop :=
  ∀ v, needsQuoting v = false → ∀ b ∈ v, b ≠ 39 ∧ b ≠ 92

variable {needsQuoting : List UInt8 → Bool}

/-- What ends a value does not matter. -/
theorem settings_tail {rest : List UInt8} (h : Follows rest) : settings rest.tail = settings rest := by
  rcases h with rfl | ⟨c, r, rfl, -⟩
  · rfl
  · exact (settings_blank (by decide) _).symm

/-- A setting that stands in front of others is read. -/
theorem settings_write_standing (hq : Guards needsQuoting) {s : Setting} (hname : IsKeyword s.1) {rest : List UInt8}
    (hrest : Follows rest) (h : needsQuoting s.2 = false → Standing s.2 rest) :
    settings (s.1 ++ 61 :: (write needsQuoting s.2 ++ rest)) = (settings rest).map (s :: ·) := by
  rw [settings_append hname, write]
  by_cases hquote : needsQuoting s.2 = true
  · have hvalue : value (39 :: (escape s.2 ++ [39]) ++ rest) = some (s.2, rest) := by
      rw [List.cons_append, List.append_assoc]
      exact quoted_escape s.2 rest
    rw [if_pos hquote, hvalue]
    rfl
  · have hplain := Bool.eq_false_iff.mpr hquote
    rw [if_neg hquote, value_standing (hq s.2 hplain) hrest (h hplain), Option.bind_some, settings_tail hrest]

/-- **One setting in front of others**: it is read back exactly where it stands. -/
theorem settings_write (hq : Guards needsQuoting) {s : Setting} (hname : IsKeyword s.1) {rest : List UInt8}
    (hrest : Follows rest) (l : List Setting) :
    settings (s.1 ++ 61 :: (write needsQuoting s.2 ++ rest)) = some (s :: l) ↔
      (needsQuoting s.2 = false → Standing s.2 rest) ∧ settings rest = some l := by
  constructor
  · intro h
    have hstanding : needsQuoting s.2 = false → Standing s.2 rest := by
      intro hplain
      rw [settings_append hname, write, if_neg (Bool.eq_false_iff.mp hplain)] at h
      obtain ⟨⟨v, rest'⟩, hvalue, h⟩ := Option.bind_eq_some_iff.mp h
      obtain ⟨l', -, heq⟩ := Option.map_eq_some_iff.mp h
      have hv : v = s.2 := congrArg Prod.snd (List.cons.inj heq).1
      rw [hv] at hvalue
      exact standing_of_value (hq s.2 hplain) hrest hvalue
    rw [settings_write_standing hq hname hrest hstanding] at h
    obtain ⟨l', hl', heq⟩ := Option.map_eq_some_iff.mp h
    rw [(List.cons.inj heq).2] at hl'
    exact ⟨hstanding, hl'⟩
  · rintro ⟨hstanding, hl⟩
    rw [settings_write_standing hq hname hrest hstanding, hl]
    rfl

theorem follows_render {l : List Setting} (h : ∀ s ∈ l, IsKeyword s.1) :
    Follows (if l.isEmpty then [] else 32 :: render needsQuoting l) := by
  cases l with
  | nil => exact .inl rfl
  | cons s l =>
    have hs := h s List.mem_cons_self
    obtain ⟨c, name, hname⟩ := List.exists_cons_of_ne_nil hs.ne_nil
    obtain ⟨-, hquote, hescape, hspace⟩ := hs.chars c (by rw [hname]; exact List.mem_cons_self)
    refine .inr ⟨c, name ++ 61 :: (write needsQuoting s.2 ++ if l.isEmpty then [] else 32 :: render needsQuoting l),
      ?_, hquote, hescape, hspace⟩
    show 32 :: render needsQuoting (s :: l) = _
    rw [render, hname]
    rfl

/-- Behind a setting that is read back, one that stands is the next. -/
theorem second_of_render (hq : Guards needsQuoting) {s t t' : Setting} {l l' : List Setting}
    (hkeys : ∀ u ∈ s :: t :: l, IsKeyword u.1)
    (ht : needsQuoting t.2 = false → (∀ b ∈ t.2, isSpace b = false) ∧ t.2 ≠ [])
    (h : settings (render needsQuoting (s :: t :: l)) = some (s :: t' :: l')) : t' = t := by
  have hbehind : ∀ u ∈ t :: l, IsKeyword u.1 := fun u hu => hkeys u (List.mem_cons_of_mem _ hu)
  have hrest : ∀ u ∈ l, IsKeyword u.1 := fun u hu => hbehind u (List.mem_cons_of_mem _ hu)
  rw [render, settings_write hq (hkeys s List.mem_cons_self) (follows_render hbehind)] at h
  have hnext : settings (render needsQuoting (t :: l)) = some (t' :: l') :=
    (settings_blank (by decide) _).symm.trans h.2
  rw [render, settings_write_standing hq (hbehind t List.mem_cons_self) (follows_render hrest)
    fun hplain => ⟨(ht hplain).1, fun _ => (ht hplain).2⟩] at hnext
  obtain ⟨l'', -, heq⟩ := Option.map_eq_some_iff.mp hnext
  exact (List.cons.inj heq).1.symm

/-- **The settings come back exactly where they are legible.** -/
theorem settings_render (hq : Guards needsQuoting) {l : List Setting} (h : ∀ s ∈ l, IsKeyword s.1) :
    settings (render needsQuoting l) = some l ↔ Legible needsQuoting l := by
  induction l with
  | nil => exact ⟨fun _ => trivial, fun _ => settings_nil⟩
  | cons s l ih =>
    have hl : ∀ t ∈ l, IsKeyword t.1 := fun t ht => h t (List.mem_cons_of_mem _ ht)
    have hbehind : settings (if l.isEmpty then [] else 32 :: render needsQuoting l) =
        settings (render needsQuoting l) := by
      cases l with
      | nil => rfl
      | cons t l => exact settings_blank (by decide) _
    have hnil : (if l.isEmpty then [] else 32 :: render needsQuoting l) ≠ [] ↔ l ≠ [] := by
      cases l with
      | nil => exact ⟨fun hne => absurd rfl hne, fun hne => absurd rfl hne⟩
      | cons t l => exact ⟨fun _ => List.cons_ne_nil _ _, fun _ => List.cons_ne_nil _ _⟩
    rw [render, settings_write hq (h s List.mem_cons_self) (follows_render hl), hbehind, ih hl, Legible]
    refine and_congr_left' (imp_congr_right fun _ => ?_)
    constructor
    · exact fun hs => ⟨hs.no_space, fun hne => hs.ne_nil (hnil.mpr hne)⟩
    · exact fun hs => ⟨hs.1, fun hne => hs.2 (hnil.mp hne)⟩

end DbnPipe.Conninfo
