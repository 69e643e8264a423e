import DbnPipe.Library.JsonText

/-!
# The documents that a document begins with

A machine that reads JSON byte by byte and reports the events.  What it has read of a document determines what
may follow, so that it answers **which documents a prefix of a document can be**.

* `Machine`, `Machine.step` — the machine: the events so far, the open arrays and objects, and what comes next;
* `Ends` — a value has been read: outside a number, or in a number that **may still go on**;
* `Machine.run_text` — the machine reads every text of the grammar;
* `Document.next` — after a document that begins a document there is **white space, or a number goes on**.
-/

namespace DbnPipe.JsonText

/-- An open array or object. -/
inductive Frame where
  | array
  | object
deriving DecidableEq, Repr

/-- What comes next. -/
inductive Mode where
  | value
  | firstElement
  | firstKey
  | key
  | colon
  | after
  | word (rest : List UInt8) (e : SaxEvent)
  | number (f : NumberForm) (text : List UInt8)
  | string (isKey : Bool) (f : StringForm) (text : List UInt8)
deriving DecidableEq, Repr

/-- The machine. -/
structure Machine where
  out : List SaxEvent
  stack : List Frame
  mode : Mode
deriving DecidableEq, Repr

/-- The event of a number. -/
def numberEvent (f : NumberForm) (text : List UInt8) : SaxEvent :=
  if f.integral then Json.integerEvent (text.head? == some 0x2D) (digitsValue text)
  else .double (String.ofList (text.map fun c => Char.ofNat c.toNat))

theorem scalar_numberEvent (f : NumberForm) (text : List UInt8) : Json.Scalar (numberEvent f text) := by
  rw [numberEvent]
  split
  · exact Json.scalar_integerEvent _ _
  · exact .double _

theorem events_numberJson (f : NumberForm) (text : List UInt8) :
    (numberJson f text).events = [numberEvent f text] := by
  rw [numberJson, numberEvent]
  split <;> rfl

namespace Machine

/-- A byte where a value is expected. -/
def stepValue (out : List SaxEvent) (stack : List Frame) (c : UInt8) : Option Machine :=
  if isSpace c then some ⟨out, stack, .value⟩
  else if c = quote then some ⟨out, stack, .string false .plain []⟩
  else if c = openBracket then some ⟨out ++ [.startArray], .array :: stack, .firstElement⟩
  else if c = openBrace then some ⟨out ++ [.startObject], .object :: stack, .firstKey⟩
  else if c = 0x6E then some ⟨out, stack, .word (ascii "ull") .null⟩
  else if c = 0x74 then some ⟨out, stack, .word (ascii "rue") (.bool true)⟩
  else if c = 0x66 then some ⟨out, stack, .word (ascii "alse") (.bool false)⟩
  else (NumberForm.start.step c).map fun f => ⟨out, stack, .number f [c]⟩

/-- A byte after a value. -/
def stepAfter (out : List SaxEvent) (stack : List Frame) (c : UInt8) : Option Machine :=
  if isSpace c then some ⟨out, stack, .after⟩
  else match stack with
    | [] => none
    | .array :: rest =>
      if c = comma then some ⟨out, stack, .value⟩
      else if c = closeBracket then some ⟨out ++ [.endArray], rest, .after⟩ else none
    | .object :: rest =>
      if c = comma then some ⟨out, stack, .key⟩
      else if c = closeBrace then some ⟨out ++ [.endObject], rest, .after⟩ else none

/-- A byte where a key is expected. -/
def stepKey (out : List SaxEvent) (stack : List Frame) (c : UInt8) : Option Machine :=
  if isSpace c then some ⟨out, stack, .key⟩
  else if c = quote then some ⟨out, stack, .string true .plain []⟩ else none

variable (decode : List UInt8 → String)

/-- **The next byte.** -/
def step (m : Machine) (c : UInt8) : Option Machine :=
  match m.mode with
  | .value => stepValue m.out m.stack c
  | .firstElement =>
    if isSpace c then some m
    else if c = closeBracket then stepAfter m.out m.stack c else stepValue m.out m.stack c
  | .firstKey =>
    if isSpace c then some m
    else if c = closeBrace then stepAfter m.out m.stack c else stepKey m.out m.stack c
  | .key => stepKey m.out m.stack c
  | .colon =>
    if isSpace c then some m else if c = JsonText.colon then some { m with mode := .value } else none
  | .after => stepAfter m.out m.stack c
  | .word [] _ => none
  | .word (d :: rest) e =>
    if c = d then
      if rest = [] then some ⟨m.out ++ [e], m.stack, .after⟩ else some { m with mode := .word rest e }
    else none
  | .number f text =>
    match f.step c with
    | some f' => some { m with mode := .number f' (text ++ [c]) }
    | none => if f.complete then stepAfter (m.out ++ [numberEvent f text]) m.stack c else none
  | .string isKey f text =>
    if f = .plain ∧ c = quote then
      if isKey then some ⟨m.out ++ [.key (decode text)], m.stack, .colon⟩
      else some ⟨m.out ++ [.string (decode text)], m.stack, .after⟩
    else (f.step c).map fun f' => { m with mode := .string isKey f' (text ++ [c]) }

/-- A run of the machine. -/
def run (m : Machine) (text : List UInt8) : Option Machine := text.foldlM (step decode) m

/-- The machine at the start of a document. -/
def initial : Machine := ⟨[], [], .value⟩

variable {decode}

theorem run_append {m : Machine} {text rest : List UInt8} :
    run decode m (text ++ rest) = (run decode m text).bind fun m' => run decode m' rest :=
  List.foldlM_append

theorem run_cons {m : Machine} {c : UInt8} {text : List UInt8} :
    run decode m (c :: text) = (step decode m c).bind fun m' => run decode m' text := rfl

/-- One text after another. -/
theorem run_trans {m m' : Machine} {text rest : List UInt8} (h : run decode m text = some m') :
    run decode m (text ++ rest) = run decode m' rest := by
  rw [run_append, h]
  rfl

/-! ### White space and delimiters -/

/-- White space, or what ends a value inside an array or an object. -/
def Delimiter (c : UInt8) : Prop := isSpace c = true ∨ c = comma ∨ c = closeBracket ∨ c = closeBrace

theorem isSpace_cases {c : UInt8} (h : isSpace c = true) : c = 0x20 ∨ c = 0x09 ∨ c = 0x0A ∨ c = 0x0D := by
  simpa [isSpace, or_assoc] using h

/-- A number does not go on with a delimiter. -/
theorem Delimiter.step_eq_none {c : UInt8} (h : Delimiter c) (f : NumberForm) : f.step c = none := by
  rcases h with h | rfl | rfl | rfl
  · rcases isSpace_cases h with rfl | rfl | rfl | rfl <;> cases f <;> rfl
  all_goals cases f <;> rfl

/-- Between the parts of an array or an object, white space is passed over. -/
theorem step_space {m : Machine} {c : UInt8} (hc : isSpace c = true)
    (hm : m.mode = .value ∨ m.mode = .firstElement ∨ m.mode = .firstKey ∨ m.mode = .key ∨ m.mode = .colon ∨
      m.mode = .after) : step decode m c = some m := by
  obtain ⟨out, stack, mode⟩ := m
  rcases hm with rfl | rfl | rfl | rfl | rfl | rfl <;> exact if_pos hc

theorem stepAfter_space {out : List SaxEvent} {stack : List Frame} {c : UInt8} (hc : isSpace c = true) :
    stepAfter out stack c = some ⟨out, stack, .after⟩ := by
  rw [stepAfter.eq_def]
  exact if_pos hc

theorem run_space {m : Machine} {w : List UInt8} (hw : Space w)
    (hm : m.mode = .value ∨ m.mode = .firstElement ∨ m.mode = .firstKey ∨ m.mode = .key ∨ m.mode = .colon ∨
      m.mode = .after) : run decode m w = some m := by
  induction w with
  | nil => rfl
  | cons c w ih =>
    rw [run_cons, step_space (hw c List.mem_cons_self) hm]
    exact ih fun d hd => hw d (List.mem_cons_of_mem c hd)

/-! ### The end of a value -/

/-- **A value has been read**, and nothing after it. -/
inductive Ends (out : List SaxEvent) (stack : List Frame) : Machine → Prop
  | after : Ends out stack ⟨out, stack, .after⟩
  | number {out' : List SaxEvent} {f : NumberForm} {text : List UInt8} (htext : numberForm .start text = some f)
      (hf : f.complete = true) (hout : out = out' ++ [numberEvent f text]) :
      Ends out stack ⟨out', stack, .number f text⟩

theorem Ends.mode_ne {out : List SaxEvent} {stack : List Frame} {m : Machine} (h : Ends out stack m) :
    m.mode ≠ .value ∧ m.mode ≠ .key := by
  cases h <;> exact ⟨Mode.noConfusion, Mode.noConfusion⟩

/-- The events are determined. -/
theorem Ends.unique {out out' : List SaxEvent} {stack stack' : List Frame} {m : Machine} (h : Ends out stack m)
    (h' : Ends out' stack' m) : out = out' := by
  cases h with
  | after => cases h'; rfl
  | number htext hf hout =>
    cases h' with
    | number htext' hf' hout' => rw [hout, hout']

/-- A delimiter ends a number, too. -/
theorem Ends.step {out : List SaxEvent} {stack : List Frame} {m : Machine} (h : Ends out stack m) {c : UInt8}
    (hc : Delimiter c) : step decode m c = stepAfter out stack c := by
  cases h with
  | after => rfl
  | number htext hf hout =>
    rw [Machine.step]
    dsimp only
    rw [hc.step_eq_none, hout]
    exact if_pos hf

theorem Ends.space {out : List SaxEvent} {stack : List Frame} {m : Machine} (h : Ends out stack m)
    {w : List UInt8} (hw : Space w) : ∃ m', run decode m w = some m' ∧ Ends out stack m' := by
  cases w with
  | nil => exact ⟨m, rfl, h⟩
  | cons c w =>
    have hc := hw c List.mem_cons_self
    refine ⟨⟨out, stack, .after⟩, ?_, .after⟩
    rw [run_cons, h.step (Or.inl hc), stepAfter_space hc]
    exact run_space (fun d hd => hw d (List.mem_cons_of_mem c hd)) (by simp)

/-! ### Scalars -/

theorem run_word {out : List SaxEvent} {stack : List Frame} {e : SaxEvent} {rest : List UInt8} (h : rest ≠ []) :
    run decode ⟨out, stack, .word rest e⟩ rest = some ⟨out ++ [e], stack, .after⟩ := by
  induction rest with
  | nil => exact absurd rfl h
  | cons d rest ih =>
    rw [run_cons, Machine.step]
    dsimp only
    rw [if_pos rfl]
    split
    · subst ‹rest = []›
      rfl
    · exact ih ‹_›

theorem run_number {out : List SaxEvent} {stack : List Frame} {f g : NumberForm} {text more : List UInt8}
    (h : numberForm f more = some g) :
    run decode ⟨out, stack, .number f text⟩ more = some ⟨out, stack, .number g (text ++ more)⟩ := by
  induction more generalizing f text with
  | nil =>
    obtain rfl := Option.some.inj h
    rw [List.append_nil]
    rfl
  | cons c more ih =>
    obtain ⟨f', hf', hrest⟩ := Option.bind_eq_some_iff.mp h
    rw [run_cons, Machine.step]
    dsimp only
    rw [hf']
    refine (ih hrest).trans ?_
    rw [List.append_assoc, List.singleton_append]

theorem run_contents {out : List SaxEvent} {stack : List Frame} {isKey : Bool} {f g : StringForm}
    {text body : List UInt8} (h : body.foldlM StringForm.step f = some g) :
    run decode ⟨out, stack, .string isKey f text⟩ body = some ⟨out, stack, .string isKey g (text ++ body)⟩ := by
  induction body generalizing f text with
  | nil =>
    obtain rfl := Option.some.inj h
    rw [List.append_nil]
    rfl
  | cons c body ih =>
    obtain ⟨f', hf', hrest⟩ := Option.bind_eq_some_iff.mp h
    have hquote : ¬(f = .plain ∧ c = quote) := by
      rintro ⟨rfl, rfl⟩
      exact absurd hf'.symm (Option.some_ne_none f')
    rw [run_cons, Machine.step]
    dsimp only
    rw [if_neg hquote, hf']
    refine (ih hrest).trans ?_
    rw [List.append_assoc, List.singleton_append]

/-- A number is read where a value is expected. -/
theorem stepValue_number {out : List SaxEvent} {stack : List Frame} {c : UInt8} {f : NumberForm}
    (h : NumberForm.start.step c = some f) : stepValue out stack c = some ⟨out, stack, .number f [c]⟩ := by
  have hne : ∀ d, NumberForm.start.step d = none → c ≠ d := by
    rintro d hd rfl
    exact absurd (h.symm.trans hd) (Option.some_ne_none f)
  have hspace : ¬isSpace c = true := fun hc =>
    absurd (h.symm.trans (Delimiter.step_eq_none (Or.inl hc) .start)) (Option.some_ne_none f)
  rw [stepValue, if_neg hspace, if_neg (hne _ rfl), if_neg (hne _ rfl), if_neg (hne _ rfl), if_neg (hne _ rfl),
    if_neg (hne _ rfl), if_neg (hne _ rfl), h]
  rfl


theorem run_quoted {out : List SaxEvent} {stack : List Frame} {isKey : Bool} {body : List UInt8} (h : Contents body) :
    run decode ⟨out, stack, .string isKey .plain []⟩ (body ++ [quote]) =
      some (if isKey then ⟨out ++ [.key (decode body)], stack, .colon⟩
        else ⟨out ++ [.string (decode body)], stack, .after⟩) := by
  rw [run_trans (run_contents h)]
  cases isKey <;> rfl

/-! ### Texts -/

/-- In front of the first part, where the machine takes the closing bracket too, and in front of any other. -/
theorem run_first {first later : Mode} {close : UInt8} {out : List SaxEvent} {stack : List Frame}
    (hspaces : (first = .firstElement ∧ later = .value) ∨ (first = .firstKey ∧ later = .key))
    (hclose : step decode ⟨out, stack, later⟩ close = none)
    (hsame : ∀ {c}, isSpace c ≠ true → c ≠ close →
      step decode ⟨out, stack, first⟩ c = step decode ⟨out, stack, later⟩ c)
    {text : List UInt8} {m : Machine} (h : run decode ⟨out, stack, later⟩ text = some m) (hm : m.mode ≠ later) :
    run decode ⟨out, stack, first⟩ text = some m := by
  induction text with
  | nil =>
    obtain rfl := Option.some.inj h
    exact absurd rfl hm
  | cons c text ih =>
    rw [run_cons] at h ⊢
    by_cases hc : isSpace c = true
    · have hfirst : step decode ⟨out, stack, first⟩ c = some ⟨out, stack, first⟩ :=
        step_space hc (by rcases hspaces with ⟨rfl, -⟩ | ⟨rfl, -⟩ <;> simp)
      have hlater : step decode ⟨out, stack, later⟩ c = some ⟨out, stack, later⟩ :=
        step_space hc (by rcases hspaces with ⟨-, rfl⟩ | ⟨-, rfl⟩ <;> simp)
      rw [hlater] at h
      rw [hfirst]
      exact ih h
    · have hne : c ≠ close := by
        rintro rfl
        rw [hclose] at h
        exact absurd h.symm (Option.some_ne_none m)
      rw [hsame hc hne]
      exact h

/-- In front of the first element, and in front of any other. -/
theorem run_firstElement {out : List SaxEvent} {stack : List Frame} {text : List UInt8} {m : Machine}
    (h : run decode ⟨out, stack, .value⟩ text = some m) (hm : m.mode ≠ .value) :
    run decode ⟨out, stack, .firstElement⟩ text = some m :=
  run_first (Or.inl ⟨rfl, rfl⟩) (show step decode _ closeBracket = none from rfl)
    (fun hc hclose => (if_neg hc).trans (if_neg hclose)) h hm

/-- In front of the first key, and in front of any other. -/
theorem run_firstKey {out : List SaxEvent} {stack : List Frame} {text : List UInt8} {m : Machine}
    (h : run decode ⟨out, stack, .key⟩ text = some m) (hm : m.mode ≠ .key) :
    run decode ⟨out, stack, .firstKey⟩ text = some m :=
  run_first (Or.inr ⟨rfl, rfl⟩) (show step decode _ closeBrace = none from rfl)
    (fun hc hclose => (if_neg hc).trans (if_neg hclose)) h hm

/-- The machine reads a text: a value anywhere, several elements in an array, members in an object. -/
def Reads (decode : List UInt8 → String) : Part → List UInt8 → Prop
  | .value v, text => ∀ out stack,
      ∃ m, run decode ⟨out, stack, .value⟩ text = some m ∧ Ends (out ++ v.events) stack m
  | .elements vs, text => ∀ out stack, vs.length = 1 ∨ stack.head? = some .array →
      ∃ m, run decode ⟨out, stack, .value⟩ text = some m ∧ Ends (out ++ Json.elementEvents vs) stack m
  | .members ms, text => ∀ out stack,
      ∃ m, run decode ⟨out, .object :: stack, .key⟩ text = some m ∧
        Ends (out ++ Json.memberEvents ms) (.object :: stack) m

/-- **The machine reads every text**, one production at a time. -/
theorem run_text {part : Part} {text : List UInt8} (h : Text decode part text) : Reads decode part text := by
  induction h with
  | null => exact fun out stack => ⟨_, run_word (by decide), .after⟩
  | true => exact fun out stack => ⟨_, run_word (by decide), .after⟩
  | false => exact fun out stack => ⟨_, run_word (by decide), .after⟩
  | @number f text h hf =>
    intro out stack
    cases text with
    | nil =>
      obtain rfl := Option.some.inj h
      exact absurd hf (by decide)
    | cons c text =>
      obtain ⟨f', hf', hrest⟩ := Option.bind_eq_some_iff.mp h
      refine ⟨⟨out, stack, .number f (c :: text)⟩, ?_, .number h hf (by rw [events_numberJson])⟩
      rw [run_cons]
      have hstep : step decode ⟨out, stack, .value⟩ c = _ := stepValue_number hf'
      rw [hstep]
      exact run_number hrest
  | string h => exact fun out stack => ⟨_, run_quoted h, .after⟩
  | emptyArray hw =>
    intro out stack
    refine ⟨⟨out ++ [.startArray] ++ [.endArray], stack, .after⟩, ?_, ?_⟩
    · have hrun : run decode ⟨out ++ [.startArray], .array :: stack, .firstElement⟩ _ = _ := run_space hw (by simp)
      exact (run_trans hrun).trans rfl
    · rw [List.append_assoc]
      exact .after
  | @array vs text h ih =>
    intro out stack
    obtain ⟨m, hrun, hends⟩ := ih (out ++ [.startArray]) (.array :: stack) (Or.inr rfl)
    refine ⟨⟨out ++ [.startArray] ++ Json.elementEvents vs ++ [.endArray], stack, .after⟩, ?_, ?_⟩
    · refine (run_trans (run_firstElement hrun hends.mode_ne.1)).trans ?_
      rw [run_cons, hends.step (Or.inr (Or.inr (Or.inl rfl)))]
      rfl
    · rw [List.append_assoc, List.append_assoc]
      exact .after
  | emptyObject hw =>
    intro out stack
    refine ⟨⟨out ++ [.startObject] ++ [.endObject], stack, .after⟩, ?_, ?_⟩
    · have hrun : run decode ⟨out ++ [.startObject], .object :: stack, .firstKey⟩ _ = _ := run_space hw (by simp)
      exact (run_trans hrun).trans rfl
    · rw [List.append_assoc]
      exact .after
  | @object ms text h ih =>
    intro out stack
    obtain ⟨m, hrun, hends⟩ := ih (out ++ [.startObject]) stack
    refine ⟨⟨out ++ [.startObject] ++ Json.memberEvents ms ++ [.endObject], stack, .after⟩, ?_, ?_⟩
    · refine (run_trans (run_firstKey hrun hends.mode_ne.2)).trans ?_
      rw [run_cons, hends.step (Or.inr (Or.inr (Or.inr rfl)))]
      rfl
    · rw [List.append_assoc, List.append_assoc]
      exact .after
  | @element v w text w' hw h hw' ih =>
    intro out stack _
    obtain ⟨m, hrun, hends⟩ := ih out stack
    obtain ⟨m', hrun', hends'⟩ := hends.space hw'
    refine ⟨m', ?_, ?_⟩
    · rw [List.append_assoc, run_trans (run_space hw (by simp)), run_trans hrun, hrun']
    · rw [Json.elementEvents, Json.elementEvents, List.append_nil]
      exact hends'
  | @elements v vs text rest h hrest ih ihrest =>
    intro out stack hstack
    have hvs : vs ≠ [] := by
      rintro rfl
      cases hrest
    have hhead : stack.head? = some .array := by
      refine hstack.resolve_left fun hlength => hvs ?_
      exact List.eq_nil_of_length_eq_zero (Nat.succ.inj hlength)
    obtain ⟨stack, rfl⟩ := List.head?_eq_some_iff.mp hhead
    obtain ⟨m, hrun, hends⟩ := ih out (.array :: stack) (Or.inl rfl)
    obtain ⟨m', hrun', hends'⟩ := ihrest (out ++ Json.elementEvents [v]) (.array :: stack) (Or.inr rfl)
    refine ⟨m', ?_, ?_⟩
    · rw [run_trans hrun, run_cons, hends.step (Or.inr (Or.inl rfl))]
      exact hrun'
    · rwa [Json.elementEvents, Json.elementEvents, List.append_nil, List.append_assoc] at hends'
  | @member v w body w' text hw hbody hw' h ih =>
    intro out stack
    obtain ⟨m, hrun, hends⟩ := ih (out ++ [.key (decode body)]) (.object :: stack) (Or.inl rfl)
    refine ⟨m, ?_, ?_⟩
    · have hkey : run decode ⟨out, .object :: stack, .key⟩ (quoted body) =
          some ⟨out ++ [.key (decode body)], .object :: stack, .colon⟩ := run_quoted hbody
      rw [List.append_assoc, List.append_assoc, run_trans (run_space hw (by simp)), run_trans hkey,
        run_trans (run_space hw' (by simp))]
      exact hrun
    · rwa [Json.elementEvents, Json.elementEvents, List.append_assoc] at hends
  | @members m ms text rest h hrest ih ihrest =>
    intro out stack
    obtain ⟨c, hrun, hends⟩ := ih out stack
    obtain ⟨c', hrun', hends'⟩ := ihrest (out ++ Json.memberEvents [m]) stack
    refine ⟨c', ?_, ?_⟩
    · rw [run_trans hrun, run_cons, hends.step (Or.inr (Or.inl rfl))]
      exact hrun'
    · obtain ⟨key, v⟩ := m
      rwa [Json.memberEvents, Json.memberEvents, List.append_nil, List.append_assoc] at hends'

/-! ### Documents -/

theorem run_document {v : Json} {b : List UInt8} (h : Document decode v b) :
    ∃ m, run decode initial b = some m ∧ Ends v.events [] m := by
  obtain ⟨m, hrun, hends⟩ := run_text h [] [] (Or.inl rfl)
  rw [Json.elementEvents, Json.elementEvents, List.append_nil] at hends
  exact ⟨m, hrun, hends⟩

/-- After a document there is white space only. -/
theorem space_of_run {out out' : List SaxEvent} {q : List UInt8} {m : Machine}
    (h : run decode ⟨out, [], .after⟩ q = some m) (hm : Ends out' [] m) : Space q ∧ out' = out := by
  induction q with
  | nil =>
    obtain rfl := Option.some.inj h
    exact ⟨fun c hc => absurd hc List.not_mem_nil, hm.unique .after⟩
  | cons c q ih =>
    by_cases hc : isSpace c = true
    · rw [run_cons, step_space hc (by simp)] at h
      obtain ⟨hspace, hout⟩ := ih h
      exact ⟨List.forall_mem_cons.mpr ⟨hc, hspace⟩, hout⟩
    · have hstep : step decode ⟨out, [], .after⟩ c = none := if_neg hc
      rw [run_cons, hstep] at h
      exact absurd h.symm (Option.some_ne_none m)

/-- After a number there is **the rest of a longer number**, and white space. -/
theorem number_of_run {out out' : List SaxEvent} {f : NumberForm} {text q : List UInt8} {m : Machine}
    (h : run decode ⟨out, [], .number f text⟩ q = some m) (hm : Ends out' [] m) :
    ∃ more w g, q = more ++ w ∧ Space w ∧ numberForm f more = some g ∧ g.complete = true ∧
      out' = out ++ [numberEvent g (text ++ more)] := by
  induction q generalizing f text with
  | nil =>
    obtain rfl := Option.some.inj h
    cases hm with
    | number htext hf hout =>
      refine ⟨[], [], f, rfl, fun c hc => absurd hc List.not_mem_nil, rfl, hf, ?_⟩
      rw [List.append_nil, hout]
  | cons c q ih =>
    rw [run_cons, Machine.step] at h
    dsimp only at h
    cases hstep : f.step c with
    | some f' =>
      rw [hstep] at h
      obtain ⟨more, w, g, rfl, hw, hmore, hg, hout⟩ := ih h
      refine ⟨c :: more, w, g, rfl, hw, ?_, hg, ?_⟩
      · exact Option.bind_eq_some_iff.mpr ⟨f', hstep, hmore⟩
      · rw [hout, List.append_assoc, List.singleton_append]
    | none =>
      rw [hstep] at h
      dsimp only at h
      by_cases hf : f.complete = true
      · rw [if_pos hf] at h
        by_cases hc : isSpace c = true
        · rw [stepAfter_space hc] at h
          obtain ⟨hspace, hout⟩ := space_of_run h hm
          refine ⟨[], c :: q, f, rfl, List.forall_mem_cons.mpr ⟨hc, hspace⟩, rfl, hf, ?_⟩
          rw [List.append_nil, hout]
        · have hafter : stepAfter (out ++ [numberEvent f text]) [] c = none := by
            rw [stepAfter.eq_def]
            exact if_neg hc
          rw [hafter] at h
          exact absurd h.symm (Option.some_ne_none m)
      · rw [if_neg hf] at h
        exact absurd h.symm (Option.some_ne_none m)

end Machine

open Machine

variable {decode : List UInt8 → String}

theorem Document.ne_nil {v : Json} {b : List UInt8} (h : Document decode v b) : b ≠ [] := by
  rintro rfl
  obtain ⟨m, hrun, hends⟩ := run_document h
  obtain rfl := Option.some.inj hrun
  exact hends.mode_ne.1 rfl

theorem Document.zero_notMem {v : Json} {b : List UInt8} (h : Document decode v b) : 0 ∉ b := Text.zero_notMem h

/-- A text stands for one document at most. -/
theorem Document.unique {v v' : Json} {b : List UInt8} (h : Document decode v b) (h' : Document decode v' b) :
    v.events = v'.events := by
  obtain ⟨m, hrun, hends⟩ := run_document h
  obtain ⟨m', hrun', hends'⟩ := run_document h'
  obtain rfl := Option.some.inj (hrun.symm.trans hrun')
  exact hends.unique hends'

/-- **After a document that begins a document**: white space, or a number that goes on. -/
theorem Document.next {v v' : Json} {p q : List UInt8} (h : Document decode v p) (h' : Document decode v' (p ++ q)) :
    Space q ∧ v'.events = v.events ∨
      ¬Space q ∧ ∃ f text g more, numberForm .start text = some f ∧ f.complete = true ∧ more ≠ [] ∧
        numberForm f more = some g ∧ g.complete = true ∧ v.events = [numberEvent f text] ∧
        v'.events = [numberEvent g (text ++ more)] := by
  obtain ⟨m, hrun, hends⟩ := run_document h
  obtain ⟨m', hrun', hends'⟩ := run_document h'
  rw [run_trans hrun] at hrun'
  cases hends with
  | after => exact Or.inl (space_of_run hrun' hends')
  | @number out f text htext hf hout =>
    obtain ⟨more, w, g, rfl, hw, hmore, hg, hout'⟩ := number_of_run hrun' hends'
    obtain rfl := Json.events_scalar hout (scalar_numberEvent f text)
    cases more with
    | nil =>
      obtain rfl := Option.some.inj hmore
      refine Or.inl ⟨hw, ?_⟩
      rw [hout, hout', List.append_nil]
    | cons c more =>
      refine Or.inr ⟨fun hspace => ?_, f, text, g, c :: more, htext, hf, List.cons_ne_nil c more, hmore, hg, hout, hout'⟩
      obtain ⟨f', hf', -⟩ := Option.bind_eq_some_iff.mp hmore
      have hnone := Delimiter.step_eq_none (Or.inl (hspace c List.mem_cons_self)) f
      exact absurd (hf'.symm.trans hnone) (Option.some_ne_none f')

end DbnPipe.JsonText
