import DbnPipe.Library.Delimited
import Mathlib.Data.List.DropRight
import Mathlib.Tactic.Common

/-!
# HTTP/1.1 request messages

The structure of a request: a request line, fields, a blank line, and a body as long as `Content-Length` says.

* `Message` — the parts; `render` — how they are written;
* `parse` — the grammar, from the front: lines end with CR LF, the request line is cut at its spaces, a field at
  its first colon, and **optional white space around a value does not belong to it**;
* `WellFormed` — what the parts must not contain;
* `parse_render` — **a well-formed message comes back as it was**, and nothing is left.

Which further characters a method, a target or a value may have is not asked; there are no transfer codings.
-/

namespace DbnPipe.HttpMessage

open Delimited

/-- A field: name and value. -/
abbrev Field := List UInt8 × List UInt8

/-- A request message. -/
structure Message where
  method : List UInt8
  target : List UInt8
  fields : List Field
  body : List UInt8
deriving DecidableEq, Repr

/-- `HTTP/1.1`. -/
def version : List UInt8 := [72, 84, 84, 80, 47, 49, 46, 49]

/-- `content-length`. -/
def contentLength : List UInt8 := [99, 111, 110, 116, 101, 110, 116, 45, 108, 101, 110, 103, 116, 104]

/-! ### The grammar -/

/-- A space or a horizontal tab. -/
def isWhite (b : UInt8) : Bool := b = 32 || b = 9

/-- A value without the white space around it. -/
def trim (l : List UInt8) : List UInt8 := (l.dropWhile isWhite).rdropWhile isWhite

/-- The request line: method and target, with one space each, and the version. -/
def parseRequestLine (line : List UInt8) : Option (List UInt8 × List UInt8) :=
  (breakAt 32 line).bind fun m => (breakAt 32 m.2).bind fun t => if t.2 = version then some (m.1, t.1) else none

/-- A field. -/
def parseField (line : List UInt8) : Option Field := (breakAt 58 line).map fun p => (p.1, trim p.2)

/-- Fields up to the blank line, and what is behind it. -/
def parseFields : ℕ → List UInt8 → Option (List Field × List UInt8)
  | 0, _ => none
  | fuel + 1, input =>
    (breakAtPair 13 10 input).bind fun l =>
      if l.1 = [] then some ([], l.2)
      else (parseField l.1).bind fun f => (parseFields fuel l.2).map fun r => (f :: r.1, r.2)

/-- The lower-case letter. -/
def lower (b : UInt8) : UInt8 := if 65 ≤ b ∧ b ≤ 90 then b + 32 else b

/-- The value of the first field of a name, in any case of letters. -/
def field (name : List UInt8) (fields : List Field) : Option (List UInt8) :=
  (fields.find? fun f => f.1.map lower = name.map lower).map Prod.snd

/-- A decimal number. -/
def number (l : List UInt8) : Option ℕ :=
  if l ≠ [] ∧ l.all (fun b => 48 ≤ b && b ≤ 57) then some (l.foldl (fun n b => 10 * n + (b.toNat - 48)) 0) else none

/-- **A message**, and what is behind it. -/
def parse (input : List UInt8) : Option (Message × List UInt8) :=
  (breakAtPair 13 10 input).bind fun l =>
    (parseRequestLine l.1).bind fun r =>
      (parseFields (l.2.length + 1) l.2).bind fun fs =>
        match field contentLength fs.1 with
        | none => some (⟨r.1, r.2, fs.1, []⟩, fs.2)
        | some value =>
          (number value).bind fun n =>
            if fs.2.length < n then none else some (⟨r.1, r.2, fs.1, fs.2.take n⟩, fs.2.drop n)

/-! ### Writing a message -/

/-- A field, with its line end. -/
def renderField (f : Field) : List UInt8 := f.1 ++ 58 :: 32 :: f.2 ++ [13, 10]

/-- A message. -/
def render (m : Message) : List UInt8 :=
  m.method ++ 32 :: m.target ++ 32 :: version ++ [13, 10] ++ m.fields.flatMap renderField ++ [13, 10] ++ m.body

/-- A name is not empty and holds neither a colon nor a line end; a value holds no line end, and white space inside
only. -/
structure Field.WellFormed (f : Field) : Prop where
  nameNe : f.1 ≠ []
  colon : 58 ∉ f.1
  nameLine : 13 ∉ f.1
  valueLine : 13 ∉ f.2
  first : ∀ b ∈ f.2.head?, isWhite b = false
  last : ∀ b ∈ f.2.getLast?, isWhite b = false

/-- **What the parts must not contain**; a body has its length among the fields. -/
structure Message.WellFormed (m : Message) : Prop where
  method : 32 ∉ m.method ∧ 13 ∉ m.method
  target : 32 ∉ m.target ∧ 13 ∉ m.target
  fields : ∀ f ∈ m.fields, Field.WellFormed f
  body : (field contentLength m.fields = none ∧ m.body = []) ∨
    ∃ value, field contentLength m.fields = some value ∧ number value = some m.body.length

theorem trim_of_ends {l : List UInt8} (hfirst : ∀ b ∈ l.head?, isWhite b = false)
    (hlast : ∀ b ∈ l.getLast?, isWhite b = false) : trim (32 :: l) = l := by
  have hdrop : (32 :: l).dropWhile isWhite = l := by
    rw [List.dropWhile_cons_of_pos (by rfl)]
    cases l with
    | nil => rfl
    | cons b l => exact List.dropWhile_cons_of_neg (Bool.not_eq_true _ ▸ hfirst b rfl)
  rw [trim, hdrop, List.rdropWhile_eq_self_iff]
  intro hne hwhite
  have := hlast (l.getLast hne) (List.getLast?_eq_some_getLast hne)
  rw [this] at hwhite
  exact Bool.false_ne_true hwhite

theorem parseField_render {f : Field} (hf : Field.WellFormed f) : parseField (f.1 ++ 58 :: 32 :: f.2) = some f := by
  rw [parseField, breakAt_append hf.colon, Option.map_some, trim_of_ends hf.first hf.last]

/-- The line of a field has its line end at the end only. -/
theorem breakAtPair_field {f : Field} (hf : Field.WellFormed f) (rest : List UInt8) :
    breakAtPair 13 10 (renderField f ++ rest) = some (f.1 ++ 58 :: 32 :: f.2, rest) := by
  have hline : (13 : UInt8) ∉ f.1 ++ 58 :: 32 :: f.2 := by
    simp only [List.mem_append, List.mem_cons, not_or]
    exact ⟨hf.nameLine, by decide, by decide, hf.valueLine⟩
  rw [renderField, List.append_assoc]
  exact breakAtPair_append hline rest

theorem parseFields_render {fields : List Field} (hf : ∀ f ∈ fields, Field.WellFormed f) {fuel : ℕ}
    (hfuel : fields.length < fuel) (rest : List UInt8) :
    parseFields fuel (fields.flatMap renderField ++ 13 :: 10 :: rest) = some (fields, rest) := by
  induction fields generalizing fuel with
  | nil =>
    obtain ⟨fuel, rfl⟩ := Nat.exists_eq_add_of_lt hfuel
    rw [parseFields]
    rfl
  | cons f fields ih =>
    obtain ⟨fuel, rfl⟩ : ∃ k, fuel = k + 1 := ⟨fuel - 1, by omega⟩
    have hwf := hf f List.mem_cons_self
    have hne : f.1 ++ 58 :: 32 :: f.2 ≠ [] := List.append_ne_nil_of_left_ne_nil hwf.nameNe _
    rw [parseFields, List.flatMap_cons, List.append_assoc, breakAtPair_field hwf, Option.bind_some, if_neg hne,
      parseField_render hwf, Option.bind_some,
      ih (fun g hg => hf g (List.mem_cons_of_mem f hg)) (Nat.lt_of_succ_lt_succ hfuel), Option.map_some]

theorem length_fields (fields : List Field) : fields.length ≤ (fields.flatMap renderField).length := by
  induction fields with
  | nil => exact Nat.le_refl 0
  | cons f fields ih =>
    rw [List.flatMap_cons, List.length_append, List.length_cons, renderField]
    simp only [List.length_append, List.length_cons, List.length_nil]
    omega

theorem parseRequestLine_render {m : Message} (hm : m.WellFormed) :
    parseRequestLine (m.method ++ 32 :: m.target ++ 32 :: version) = some (m.method, m.target) := by
  rw [parseRequestLine, List.append_assoc, List.cons_append, breakAt_append hm.method.1, Option.bind_some,
    breakAt_append hm.target.1, Option.bind_some, if_pos rfl]

/-- **A well-formed message comes back as it was**, with nothing behind it. -/
theorem parse_render {m : Message} (hm : m.WellFormed) : parse (render m) = some (m, []) := by
  have hline : (13 : UInt8) ∉ m.method ++ 32 :: m.target ++ 32 :: version := by
    simp only [List.mem_append, List.mem_cons, not_or]
    exact ⟨⟨hm.method.2, by decide, hm.target.2⟩, by decide, by decide⟩
  have hsplit : render m =
      (m.method ++ 32 :: m.target ++ 32 :: version) ++
        13 :: 10 :: (m.fields.flatMap renderField ++ 13 :: 10 :: m.body) := by
    simp only [render, List.append_assoc, List.cons_append, List.nil_append]
  have hfuel : m.fields.length < (m.fields.flatMap renderField ++ 13 :: 10 :: m.body).length + 1 := by
    rw [List.length_append]
    have := length_fields m.fields
    omega
  rw [hsplit, parse, breakAtPair_append hline, Option.bind_some, parseRequestLine_render hm, Option.bind_some,
    parseFields_render hm.fields hfuel, Option.bind_some]
  rcases hm.body with ⟨hnone, hbody⟩ | ⟨value, hvalue, hnumber⟩
  · rw [hnone, hbody]
    obtain ⟨method, target, fields, body⟩ := m
    exact congrArg (fun b => some ((⟨method, target, fields, b⟩ : Message), ([] : List UInt8))) hbody.symm
  · rw [hvalue]
    dsimp only
    rw [hnumber, Option.bind_some, if_neg (Nat.lt_irrefl _), List.take_length, List.drop_length]

end DbnPipe.HttpMessage
