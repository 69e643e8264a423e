import DbnPipe.Library.Json

/-!
# JSON texts

The grammar of JSON, on bytes.

* `NumberForm`, `StringForm` — numbers and the contents of strings, **read from left to right**;
* `digitsValue_lt` — an integer that goes on as an integer is **larger**;
* `Text` — the texts of a value, of the elements of an array and of the members of an object;
* `Document` — a value between white space.

What the contents of a string stand for is a parameter `decode`, as no law of the grammar depends on it.
-/

namespace DbnPipe.JsonText

/-- The bytes of an ASCII string. -/
def ascii (s : String) : List UInt8 := s.toList.map fun c => UInt8.ofNat c.toNat

/-- White space. -/
def isSpace (c : UInt8) : Bool := c == 0x20 || c == 0x09 || c == 0x0A || c == 0x0D

/-- White space only. -/
def Space (w : List UInt8) : Prop := ∀ c ∈ w, isSpace c = true

instance (w : List UInt8) : Decidable (Space w) := inferInstanceAs (Decidable (∀ c ∈ w, isSpace c = true))

def isDigit (c : UInt8) : Bool := 0x30 ≤ c && c ≤ 0x39

def isHexDigit (c : UInt8) : Bool := isDigit c || (0x41 ≤ c && c ≤ 0x46) || (0x61 ≤ c && c ≤ 0x66)

def quote : UInt8 := 0x22
def comma : UInt8 := 0x2C
def colon : UInt8 := 0x3A
def openBracket : UInt8 := 0x5B
def closeBracket : UInt8 := 0x5D
def openBrace : UInt8 := 0x7B
def closeBrace : UInt8 := 0x7D

/-! ### Numbers -/

/-- How far a number has been read. -/
inductive NumberForm where
  | start
  | minus
  | zero
  | int
  | dot
  | frac
  | exponent
  | sign
  | power
deriving DecidableEq, Repr

/-- The next byte of a number. -/
def NumberForm.step : NumberForm → UInt8 → Option NumberForm
  | .start, c => if c = 0x2D then some .minus else if c = 0x30 then some .zero else if isDigit c then some .int else none
  | .minus, c => if c = 0x30 then some .zero else if isDigit c then some .int else none
  | .zero, c => if c = 0x2E then some .dot else if c = 0x65 ∨ c = 0x45 then some .exponent else none
  | .int, c =>
    if isDigit c then some .int
    else if c = 0x2E then some .dot else if c = 0x65 ∨ c = 0x45 then some .exponent else none
  | .dot, c => if isDigit c then some .frac else none
  | .frac, c => if isDigit c then some .frac else if c = 0x65 ∨ c = 0x45 then some .exponent else none
  | .exponent, c => if isDigit c then some .power else if c = 0x2B ∨ c = 0x2D then some .sign else none
  | .sign, c => if isDigit c then some .power else none
  | .power, c => if isDigit c then some .power else none

/-- A number may end here. -/
def NumberForm.complete : NumberForm → Bool
  | .zero | .int | .frac | .power => true
  | _ => false

/-- There is neither a fraction nor an exponent. -/
def NumberForm.integral : NumberForm → Bool
  | .zero | .int => true
  | _ => false

/-- The bytes of a number, from a form on. -/
def numberForm (f : NumberForm) (text : List UInt8) : Option NumberForm := text.foldlM NumberForm.step f

/-- Another digit of a number. -/
def digitStep (n : ℕ) (c : UInt8) : ℕ := if isDigit c then 10 * n + (c.toNat - 0x30) else n

/-- The digits of a text, as a number. -/
def digitsValue (text : List UInt8) : ℕ := text.foldl digitStep 0

/-- The value of a number. -/
def numberJson (f : NumberForm) (text : List UInt8) : Json :=
  if f.integral then .integer (text.head? == some 0x2D) (digitsValue text)
  else .decimal (String.ofList (text.map fun c => Char.ofNat c.toNat))

/-! ### Numbers that go on -/

/-- A fraction or an exponent has begun. -/
def NumberForm.passed : NumberForm → Bool
  | .dot | .frac | .exponent | .sign | .power => true
  | _ => false

theorem NumberForm.passed_step {f g : NumberForm} {c : UInt8} (h : f.step c = some g) (hf : f.passed = true) :
    g.passed = true := by
  cases f <;> first | exact absurd hf Bool.false_ne_true | skip
  all_goals
    simp only [step] at h
    split_ifs at h <;> cases h <;> rfl

theorem passed_numberForm {f g : NumberForm} {text : List UInt8} (h : numberForm f text = some g)
    (hf : f.passed = true) : g.passed = true := by
  induction text generalizing f with
  | nil =>
    obtain rfl := Option.some.inj h
    exact hf
  | cons c text ih =>
    obtain ⟨f', hf', hrest⟩ := Option.bind_eq_some_iff.mp h
    exact ih hrest (NumberForm.passed_step hf' hf)

/-- A number goes on with a digit, after a digit that is not zero, or with a fraction or an exponent. -/
theorem NumberForm.step_complete {f g : NumberForm} {c : UInt8} (h : f.step c = some g) (hf : f.complete = true) :
    g.passed = true ∨ f = .int ∧ g = .int ∧ isDigit c = true := by
  cases f <;> first | exact absurd hf Bool.false_ne_true | skip
  all_goals
    simp only [step] at h
    split_ifs at h <;> cases h <;> simp_all [passed]

theorem NumberForm.step_int {f : NumberForm} {c : UInt8} (h : f.step c = some .int) :
    isDigit c = true ∧ (f = .int ∨ 0x30 < c.toNat) := by
  have hpos : isDigit c = true → c ≠ 0x30 → 0x30 < c.toNat := by
    intro hdigit hne
    have hle : (0x30 : UInt8) ≤ c := by
      rw [isDigit, Bool.and_eq_true, decide_eq_true_iff] at hdigit
      exact hdigit.1
    have htoNat := UInt8.le_iff_toNat_le.mp hle
    exact Nat.lt_of_le_of_ne htoNat fun heq => hne (UInt8.toNat_inj.mp heq.symm)
  cases f <;> simp only [step] at h <;> split_ifs at h <;> simp_all

theorem le_digitStep (n : ℕ) (c : UInt8) : n ≤ digitStep n c := by
  rw [digitStep]
  split <;> omega

theorem le_foldl_digitStep (n : ℕ) (text : List UInt8) : n ≤ text.foldl digitStep n :=
  List.foldlRecOn text digitStep (Nat.le_refl n) fun m hm c _ => Nat.le_trans hm (le_digitStep m c)

/-- An integer that does not begin with zero is positive. -/
theorem foldl_pos {f : NumberForm} {text : List UInt8} (h : numberForm f text = some .int) {n : ℕ}
    (hn : f = .int → 0 < n) : 0 < text.foldl digitStep n := by
  induction text generalizing f n with
  | nil =>
    obtain rfl := Option.some.inj h
    exact hn rfl
  | cons c text ih =>
    obtain ⟨f', hf', hrest⟩ := Option.bind_eq_some_iff.mp h
    refine ih hrest ?_
    rintro rfl
    obtain ⟨hdigit, hpos⟩ := NumberForm.step_int hf'
    rw [digitStep, if_pos hdigit]
    rcases hpos with rfl | hpos
    · have := hn rfl
      omega
    · omega

/-- **An integer that goes on as an integer is larger.** -/
theorem digitsValue_lt {f g : NumberForm} {text more : List UInt8} (htext : numberForm .start text = some f)
    (hf : f.complete = true) (hmore : numberForm f more = some g) (hne : more ≠ []) (hg : g.integral = true) :
    digitsValue text < digitsValue (text ++ more) := by
  cases more with
  | nil => exact absurd rfl hne
  | cons c more =>
    obtain ⟨f', hf', hrest⟩ := Option.bind_eq_some_iff.mp hmore
    rcases NumberForm.step_complete hf' hf with hpassed | ⟨rfl, -, hdigit⟩
    · have hg' := passed_numberForm hrest hpassed
      cases g <;> first | exact absurd hg Bool.false_ne_true | exact absurd hg' Bool.false_ne_true
    · have hpos : 0 < digitsValue text := foldl_pos htext NumberForm.noConfusion
      have hstep : digitsValue text < digitStep (digitsValue text) c := by
        rw [digitStep, if_pos hdigit]
        omega
      rw [digitsValue, digitsValue, List.foldl_append]
      exact Nat.lt_of_lt_of_le hstep (le_foldl_digitStep _ more)

/-! ### Strings -/

/-- Where the contents of a string have been read to: outside an escape, after its backslash, or in front of some
of its hexadecimal digits. -/
inductive StringForm where
  | plain
  | escape
  | hex (left : ℕ)
deriving DecidableEq, Repr

/-- The next byte of the contents of a string. -/
def StringForm.step : StringForm → UInt8 → Option StringForm
  | .plain, c => if c = 0x5C then some .escape else if c = quote ∨ c < 0x20 then none else some .plain
  | .escape, c =>
    if c = 0x75 then some (.hex 3)
    else if c ∈ [quote, 0x5C, 0x2F, 0x62, 0x66, 0x6E, 0x72, 0x74] then some .plain else none
  | .hex 0, c => if isHexDigit c then some .plain else none
  | .hex (left + 1), c => if isHexDigit c then some (.hex left) else none

/-- The contents of a string. -/
def Contents (body : List UInt8) : Prop := body.foldlM StringForm.step .plain = some .plain

/-- A string, with its quotes. -/
def quoted (body : List UInt8) : List UInt8 := quote :: body ++ [quote]

/-! ### Texts -/

/-- What a text stands for. -/
inductive Part where
  | value (v : Json)
  | elements (vs : List Json)
  | members (ms : List (String × Json))

variable (decode : List UInt8 → String)

/-- **The grammar.** -/
inductive Text : Part → List UInt8 → Prop
  | null : Text (.value .null) (ascii "null")
  | true : Text (.value (.bool Bool.true)) (ascii "true")
  | false : Text (.value (.bool Bool.false)) (ascii "false")
  | number {f : NumberForm} {text : List UInt8} (h : numberForm .start text = some f) (hf : f.complete = Bool.true) :
      Text (.value (numberJson f text)) text
  | string {body : List UInt8} (h : Contents body) : Text (.value (.string (decode body))) (quoted body)
  | emptyArray {w : List UInt8} (hw : Space w) : Text (.value (.array [])) (openBracket :: w ++ [closeBracket])
  | array {vs : List Json} {text : List UInt8} (h : Text (.elements vs) text) :
      Text (.value (.array vs)) (openBracket :: text ++ [closeBracket])
  | emptyObject {w : List UInt8} (hw : Space w) : Text (.value (.object [])) (openBrace :: w ++ [closeBrace])
  | object {ms : List (String × Json)} {text : List UInt8} (h : Text (.members ms) text) :
      Text (.value (.object ms)) (openBrace :: text ++ [closeBrace])
  | element {v : Json} {w text w' : List UInt8} (hw : Space w) (h : Text (.value v) text) (hw' : Space w') :
      Text (.elements [v]) (w ++ text ++ w')
  | elements {v : Json} {vs : List Json} {text rest : List UInt8} (h : Text (.elements [v]) text)
      (hrest : Text (.elements vs) rest) : Text (.elements (v :: vs)) (text ++ comma :: rest)
  | member {v : Json} {w body w' text : List UInt8} (hw : Space w) (hbody : Contents body) (hw' : Space w')
      (h : Text (.elements [v]) text) : Text (.members [(decode body, v)]) (w ++ quoted body ++ w' ++ colon :: text)
  | members {m : String × Json} {ms : List (String × Json)} {text rest : List UInt8} (h : Text (.members [m]) text)
      (hrest : Text (.members ms) rest) : Text (.members (m :: ms)) (text ++ comma :: rest)

/-- **A complete JSON document.** -/
def Document (v : Json) (b : List UInt8) : Prop := Text decode (.elements [v]) b

/-! ### No text contains a null byte -/

theorem zero_notMem_space {w : List UInt8} (hw : Space w) : 0 ∉ w := fun h => absurd (hw 0 h) (by decide)

/-- A byte that no form accepts is not read. -/
theorem notMem_of_foldlM {σ : Type*} {step : σ → UInt8 → Option σ} {c : UInt8} (hc : ∀ f, step f c = none)
    {f g : σ} {text : List UInt8} (h : text.foldlM step f = some g) : c ∉ text := by
  induction text generalizing f with
  | nil => exact List.not_mem_nil
  | cons d text ih =>
    obtain ⟨f', hf', hrest⟩ := Option.bind_eq_some_iff.mp h
    rintro (_ | ⟨_, hmem⟩)
    · exact absurd (hf'.symm.trans (hc f)) (Option.some_ne_none f')
    · exact ih hrest hmem

theorem zero_notMem_quoted {body : List UInt8} (h : Contents body) : 0 ∉ quoted body := by
  have hzero : ∀ f : StringForm, f.step 0 = none := by
    rintro (_ | _ | _ | _) <;> rfl
  have hbody := notMem_of_foldlM hzero h
  simp [quoted, quote, hbody]

variable {decode}

theorem Text.zero_notMem {part : Part} {text : List UInt8} (h : Text decode part text) : 0 ∉ text := by
  induction h with
  | null | true | false => decide
  | number h hf =>
    refine notMem_of_foldlM (fun f => ?_) h
    cases f <;> rfl
  | string h => exact zero_notMem_quoted h
  | emptyArray hw => simp [openBracket, closeBracket, zero_notMem_space hw]
  | emptyObject hw => simp [openBrace, closeBrace, zero_notMem_space hw]
  | array h ih => simp [openBracket, closeBracket, ih]
  | object h ih => simp [openBrace, closeBrace, ih]
  | element hw h hw' ih => simp [zero_notMem_space hw, zero_notMem_space hw', ih]
  | elements h hrest ih ihrest => simp [comma, ih, ihrest]
  | member hw hbody hw' h ih =>
    simp [colon, zero_notMem_space hw, zero_notMem_space hw', zero_notMem_quoted hbody, ih]
  | members h hrest ih ihrest => simp [comma, ih, ihrest]

end DbnPipe.JsonText
