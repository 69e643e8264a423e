import DbnPipe.Http.HttpRequestBuilder
import DbnPipe.Library.Conninfo

/-!
# The connection string of the database writer

`PostgresConfig::connection_string` and `escape_conninfo_value` of `dbwriter/src/postgres.cpp`, against the grammar of
libpq.

* `escapeConninfoValue`, `connectionString` — **the code**, which puts a value in quotes for five characters;
* `readConfig` — what libpq reads: the settings, which have to be the five, with the port as a number;
* `connectionString_eq` — the string is what `render` writes of the settings;
* `Legible` — white space besides the blank, and an empty value before others, are where it is not;
* `connectionString_roundTrip` — **the configuration comes back exactly where it is legible**.
-/

namespace DbnPipe.DbWriter

open DbnPipe.Live (ascii decimal)
open DbnPipe.Http (mem_decimal number_decimal)
open DbnPipe.Conninfo (Setting isSpace settings)

/-- `PostgresConfig`. -/
structure PostgresConfig where
  host : List Byte := ascii "localhost"
  port : ℤ := 5432
  database : List Byte := []
  user : List Byte := []
  password : List Byte := []
deriving DecidableEq, Repr

/-! ### The code -/

/-- The loop of `escape_conninfo_value` that looks for characters to quote. -/
def needsQuoting (val : List Byte) : Bool := val.any fun c => c == 32 || c == 39 || c == 92 || c == 61 || c == 0

/-- One character of the other loop. -/
def escapeChar (result : List Byte) (c : Byte) : List Byte :=
  let result := if c == 39 || c == 92 then result ++ [92] else result
  result ++ [c]

/-- `escape_conninfo_value`. -/
def escapeConninfoValue (val : List Byte) : List Byte :=
  if !needsQuoting val then val else val.foldl escapeChar [39] ++ [39]

/-- An `int` as a stream writes it. -/
def decimalInt (n : ℤ) : List Byte := if n < 0 then 45 :: decimal n.natAbs else decimal n.natAbs

/-- `PostgresConfig::connection_string`. -/
def PostgresConfig.connectionString (c : PostgresConfig) : List Byte :=
  ascii "host=" ++ escapeConninfoValue c.host ++ ascii " port=" ++ decimalInt c.port ++ ascii " dbname=" ++
    escapeConninfoValue c.database ++ ascii " user=" ++ escapeConninfoValue c.user ++ ascii " password=" ++
    escapeConninfoValue c.password

/-! ### What is read -/

/-- The characters that `c_str()` hands over. -/
def cStr (s : List Byte) : List Byte := s.takeWhile (· != 0)

/-- A number with a sign or without. -/
def readInt (s : List Byte) : Option ℤ :=
  if s.head? = some 45 then (HttpMessage.number s.tail).map fun n : ℕ => -(n : ℤ)
  else (HttpMessage.number s).map fun n : ℕ => (n : ℤ)

/-- The keywords. -/
def keywords : List (List Byte) := [ascii "host", ascii "port", ascii "dbname", ascii "user", ascii "password"]

/-- The configuration that settings stand for. -/
def ofSettings (l : List Setting) : Option PostgresConfig :=
  if l.map Prod.fst = keywords then
    match l.map Prod.snd with
    | [host, port, database, user, password] =>
      (readInt port).map fun port => { host, port, database, user, password }
    | _ => none
  else none

/-- **What libpq reads** of a connection string. -/
def readConfig (s : List Byte) : Option PostgresConfig := (settings (cStr s)).bind ofSettings

/-- The settings of a configuration. -/
def PostgresConfig.settings (c : PostgresConfig) : List Setting :=
  [(ascii "host", c.host), (ascii "port", decimalInt c.port), (ascii "dbname", c.database), (ascii "user", c.user),
    (ascii "password", c.password)]

/-- No string has a NUL in it. -/
structure PostgresConfig.NulFree (c : PostgresConfig) : Prop where
  host : 0 ∉ c.host
  database : 0 ∉ c.database
  user : 0 ∉ c.user
  password : 0 ∉ c.password

/-! ### The string is one of settings -/

theorem foldl_escapeChar (val result : List Byte) :
    val.foldl escapeChar result = result ++ Conninfo.escape val := by
  induction val generalizing result with
  | nil => exact (List.append_nil _).symm
  | cons c val ih =>
    rw [List.foldl_cons, ih, Conninfo.escape_cons, ← List.append_assoc]
    congr 1
    by_cases h : c = 39 ∨ c = 92
    · have hspecial : (c == 39 || c == 92) = true := by
        rw [Bool.or_eq_true, beq_iff_eq, beq_iff_eq]
        exact h
      rw [if_pos h, escapeChar, if_pos hspecial, List.append_assoc]
      rfl
    · have hplain : ¬(c == 39 || c == 92) = true := by
        rw [Bool.or_eq_true, beq_iff_eq, beq_iff_eq]
        exact h
      rw [if_neg h, escapeChar, if_neg hplain]

theorem escapeConninfoValue_eq (val : List Byte) :
    escapeConninfoValue val = Conninfo.write needsQuoting val := by
  rw [escapeConninfoValue, Conninfo.write]
  cases needsQuoting val with
  | false => rfl
  | true =>
    show val.foldl escapeChar [39] ++ [39] = 39 :: (Conninfo.escape val ++ [39])
    rw [foldl_escapeChar]
    rfl

/-- A text that needs no quotes. -/
theorem needsQuoting_eq_false {val : List Byte} :
    needsQuoting val = false ↔ ∀ c ∈ val, c ≠ 32 ∧ c ≠ 39 ∧ c ≠ 92 ∧ c ≠ 61 ∧ c ≠ 0 := by
  rw [needsQuoting, List.any_eq_false]
  refine forall₂_congr fun c _ => ?_
  simp only [Bool.or_eq_true, beq_iff_eq, not_or, and_assoc]

theorem guards_needsQuoting : Conninfo.Guards needsQuoting := fun _ h b hb =>
  have hplain := needsQuoting_eq_false.mp h b hb
  ⟨hplain.2.1, hplain.2.2.1⟩

/-- The characters of a number: digits, and a minus. -/
theorem mem_decimalInt {n : ℤ} {b : Byte} (hb : b ∈ decimalInt n) : b = 45 ∨ 48 ≤ b.toNat ∧ b.toNat ≤ 57 := by
  rw [decimalInt] at hb
  split at hb
  · rcases List.mem_cons.mp hb with hb | hb
    · exact .inl hb
    · exact .inr (mem_decimal hb)
  · exact .inr (mem_decimal hb)

/-- They are plain: not blank, and not to be quoted. -/
theorem plain_decimalInt {n : ℤ} {b : Byte} (hb : b ∈ decimalInt n) :
    b ≠ 0 ∧ (b ≠ 32 ∧ b ≠ 39 ∧ b ≠ 92 ∧ b ≠ 61 ∧ b ≠ 0) ∧ isSpace b = false := by
  have hall : ∀ k : Fin 256, k.val = 45 ∨ 48 ≤ k.val ∧ k.val ≤ 57 →
      UInt8.ofNat k ≠ 0 ∧ (UInt8.ofNat k ≠ 32 ∧ UInt8.ofNat k ≠ 39 ∧ UInt8.ofNat k ≠ 92 ∧ UInt8.ofNat k ≠ 61 ∧
        UInt8.ofNat k ≠ 0) ∧ isSpace (UInt8.ofNat k) = false := by decide +kernel
  have hrange : b.toNat = 45 ∨ 48 ≤ b.toNat ∧ b.toNat ≤ 57 :=
    (mem_decimalInt hb).imp_left fun h => by rw [h]; rfl
  have h := hall ⟨b.toNat, b.toNat_lt⟩ hrange
  rwa [UInt8.ofNat_toNat] at h

theorem decimal_ne_nil (n : ℕ) : decimal n ≠ [] := fun h => Nat.toDigits_ne_nil (List.map_eq_nil_iff.mp h)

theorem decimalInt_ne_nil (n : ℤ) : decimalInt n ≠ [] := by
  rw [decimalInt]
  split
  · exact List.cons_ne_nil _ _
  · exact decimal_ne_nil _

theorem needsQuoting_decimalInt (n : ℤ) : needsQuoting (decimalInt n) = false :=
  needsQuoting_eq_false.mpr fun _ hb => (plain_decimalInt hb).2.1

/-- A number is read back. -/
theorem readInt_decimalInt (n : ℤ) : readInt (decimalInt n) = some n := by
  by_cases h : n < 0
  · have hvalue : -(n.natAbs : ℤ) = n := by omega
    have hhead : (45 :: decimal n.natAbs).head? = some 45 := rfl
    rw [decimalInt, if_pos h, readInt, if_pos hhead, List.tail_cons, number_decimal, Option.map_some, hvalue]
  · have hvalue : (n.natAbs : ℤ) = n := by omega
    have hhead : ¬(decimal n.natAbs).head? = some 45 := by
      obtain ⟨b, l, hl⟩ := List.exists_cons_of_ne_nil (decimal_ne_nil n.natAbs)
      have hb := mem_decimal (n := n.natAbs) (b := b) (by rw [hl]; exact List.mem_cons_self)
      rw [hl]
      intro h45
      rw [show b = 45 from Option.some.inj h45] at hb
      exact absurd hb.1 (by decide)
    rw [decimalInt, if_neg h, readInt, if_neg hhead, number_decimal, Option.map_some, hvalue]

/-- **The string is that of the settings.** -/
theorem connectionString_eq (c : PostgresConfig) :
    c.connectionString = Conninfo.render needsQuoting c.settings := by
  have hport : Conninfo.write needsQuoting (decimalInt c.port) = decimalInt c.port := by
    rw [Conninfo.write, if_neg (Bool.eq_false_iff.mp (needsQuoting_decimalInt c.port))]
  have hhost : ascii "host=" = ascii "host" ++ [61] := by decide
  have hportName : ascii " port=" = 32 :: ascii "port" ++ [61] := by decide
  have hdbname : ascii " dbname=" = 32 :: ascii "dbname" ++ [61] := by decide
  have huser : ascii " user=" = 32 :: ascii "user" ++ [61] := by decide
  have hpassword : ascii " password=" = 32 :: ascii "password" ++ [61] := by decide
  rw [PostgresConfig.connectionString, PostgresConfig.settings]
  simp only [Conninfo.render, ← escapeConninfoValue_eq, hport, hhost, hportName, hdbname, huser, hpassword]
  simp

/-! ### Where it comes back -/

theorem isKeyword_settings (c : PostgresConfig) : ∀ s ∈ c.settings, Conninfo.IsKeyword s.1 := by
  have hall : ∀ name ∈ keywords, name ≠ [] ∧ ∀ b ∈ name, b ≠ 61 ∧ b ≠ 39 ∧ b ≠ 92 ∧ isSpace b = false := by
    decide +kernel
  intro s hs
  have hname : s.1 ∈ keywords := List.mem_map_of_mem (f := Prod.fst) hs
  exact ⟨(hall s.1 hname).1, (hall s.1 hname).2⟩

theorem nul_not_mem_escape {val : List Byte} (h : 0 ∉ val) : 0 ∉ escapeConninfoValue val := by
  rw [escapeConninfoValue_eq, Conninfo.write]
  split
  · intro hmem
    rcases List.mem_cons.mp hmem with hmem | hmem
    · exact absurd hmem (by decide)
    · rcases List.mem_append.mp hmem with hmem | hmem
      · exact (Conninfo.mem_escape hmem).elim (by decide) h
      · exact absurd (List.mem_singleton.mp hmem) (by decide)
  · exact h

/-- No character is lost at `c_str()`. -/
theorem cStr_connectionString {c : PostgresConfig} (h : c.NulFree) : cStr c.connectionString = c.connectionString := by
  have hport : 0 ∉ decimalInt c.port := fun hmem => (plain_decimalInt hmem).1 rfl
  have hnames : ∀ name ∈ [ascii "host=", ascii " port=", ascii " dbname=", ascii " user=", ascii " password="],
      0 ∉ name := by decide
  simp only [List.forall_mem_cons] at hnames
  obtain ⟨hhost, hportName, hdbname, huser, hpassword, -⟩ := hnames
  have hnul : 0 ∉ c.connectionString := by
    simp only [PostgresConfig.connectionString, List.mem_append, not_or]
    exact ⟨⟨⟨⟨⟨⟨⟨⟨⟨hhost, nul_not_mem_escape h.host⟩, hportName⟩, hport⟩, hdbname⟩, nul_not_mem_escape h.database⟩,
      huser⟩, nul_not_mem_escape h.user⟩, hpassword⟩, nul_not_mem_escape h.password⟩
  rw [cStr, List.takeWhile_eq_self_iff]
  intro b hb
  rw [bne_iff_ne]
  rintro rfl
  exact hnul hb

/-- **A value that is read as it is**: in quotes, or without white space. -/
def LegibleValue (val : List Byte) : Prop := needsQuoting val = true ∨ ∀ b ∈ val, isSpace b = false

/-- **The condition**: every value is read as it is, and only the last one may be empty. -/
structure PostgresConfig.Legible (c : PostgresConfig) : Prop where
  host : LegibleValue c.host ∧ c.host ≠ []
  database : LegibleValue c.database ∧ c.database ≠ []
  user : LegibleValue c.user ∧ c.user ≠ []
  password : LegibleValue c.password

theorem ofSettings_settings (c : PostgresConfig) : ofSettings c.settings = some c := by
  show (readInt (decimalInt c.port)).map _ = _
  rw [readInt_decimalInt]
  rfl

/-- Settings that stand for a configuration are its own, but for how the port is written. -/
theorem settings_of_ofSettings {l : List Setting} {c : PostgresConfig} (h : ofSettings l = some c) :
    ∃ port, l = [(ascii "host", c.host), (ascii "port", port), (ascii "dbname", c.database), (ascii "user", c.user),
      (ascii "password", c.password)] := by
  rw [ofSettings] at h
  split at h
  · rename_i hkeys
    split at h
    · rename_i host port database user password hvalues
      obtain ⟨n, -, rfl⟩ := Option.map_eq_some_iff.mp h
      refine ⟨port, ?_⟩
      rw [← List.zip_unzip l, List.unzip_eq_map]
      show List.zip (l.map Prod.fst) (l.map Prod.snd) = _
      rw [hkeys, hvalues]
      rfl
    · cases h
  · cases h

/-- A value among the settings. -/
theorem legible_value {val : List Byte} {p : Prop} :
    (needsQuoting val = false → (∀ b ∈ val, isSpace b = false) ∧ (p → val ≠ [])) ↔
      LegibleValue val ∧ (p → val ≠ []) := by
  cases hquote : needsQuoting val with
  | false =>
    rw [LegibleValue, hquote]
    simp
  | true =>
    have hne : val ≠ [] := by
      rintro rfl
      exact Bool.noConfusion hquote
    exact ⟨fun _ => ⟨.inl hquote, fun _ => hne⟩, fun _ h => Bool.noConfusion h⟩

theorem legibleValue_decimalInt (n : ℤ) : LegibleValue (decimalInt n) := .inr fun _ hb => (plain_decimalInt hb).2.2

theorem legible_settings (c : PostgresConfig) : Conninfo.Legible needsQuoting c.settings ↔ c.Legible := by
  simp only [PostgresConfig.settings, Conninfo.Legible, legible_value]
  constructor
  · rintro ⟨hhost, -, hdatabase, huser, hpassword, -⟩
    exact ⟨⟨hhost.1, hhost.2 (List.cons_ne_nil _ _)⟩, ⟨hdatabase.1, hdatabase.2 (List.cons_ne_nil _ _)⟩,
      ⟨huser.1, huser.2 (List.cons_ne_nil _ _)⟩, hpassword.1⟩
  · intro h
    exact ⟨⟨h.host.1, fun _ => h.host.2⟩, ⟨legibleValue_decimalInt _, fun _ => decimalInt_ne_nil _⟩,
      ⟨h.database.1, fun _ => h.database.2⟩, ⟨h.user.1, fun _ => h.user.2⟩,
      ⟨h.password, fun hne => absurd rfl hne⟩, trivial⟩

/-- **The configuration comes back exactly where it is legible.** -/
theorem connectionString_roundTrip {c : PostgresConfig} (h : c.NulFree) :
    readConfig c.connectionString = some c ↔ c.Legible := by
  rw [readConfig, cStr_connectionString h, connectionString_eq, ← legible_settings,
    ← Conninfo.settings_render guards_needsQuoting (isKeyword_settings c)]
  constructor
  · intro hread
    obtain ⟨l, hl, hof⟩ := Option.bind_eq_some_iff.mp hread
    obtain ⟨port, rfl⟩ := settings_of_ofSettings hof
    have hport := Conninfo.second_of_render guards_needsQuoting (isKeyword_settings c)
      (fun _ => ⟨fun _ hb => (plain_decimalInt hb).2.2, decimalInt_ne_nil _⟩) hl
    rw [hl, hport]
    rfl
  · intro hsettings
    rw [hsettings]
    exact ofSettings_settings c

/-- A configuration with a blank and a quote in its password. -/
def quotedConfig : PostgresConfig where
  host := ascii "db.example"
  database := ascii "market"
  user := ascii "writer"
  password := ascii "it's a\\b"

theorem connectionString_roundTrip_quoted : readConfig quotedConfig.connectionString = some quotedConfig :=
  (connectionString_roundTrip ⟨by decide +kernel, by decide +kernel, by decide +kernel, by decide +kernel⟩).mpr
    ⟨⟨.inr (by decide +kernel), by decide⟩, ⟨.inr (by decide +kernel), by decide⟩,
      ⟨.inr (by decide +kernel), by decide⟩, .inl (by decide +kernel)⟩

/-- A password with a tab. -/
def tabConfig : PostgresConfig := { quotedConfig with password := [97, 9, 98] }

/-- **The default configuration does not come back**: `dbname= user= password=` is a `dbname` of `user=`.  Neither
does a password with a tab. -/
theorem not_roundTrip_default :
    (({} : PostgresConfig).NulFree ∧ readConfig ({} : PostgresConfig).connectionString = none) ∧
      tabConfig.NulFree ∧ readConfig tabConfig.connectionString = none :=
  ⟨⟨⟨by decide +kernel, by decide, by decide, by decide⟩, by decide +kernel⟩,
    ⟨by decide +kernel, by decide +kernel, by decide +kernel, by decide⟩, by decide +kernel⟩

/-- What is read of the default configuration. -/
example : settings ({} : PostgresConfig).connectionString =
    some [(ascii "host", ascii "localhost"), (ascii "port", ascii "5432"), (ascii "dbname", ascii "user="),
      (ascii "password", [])] := by
  decide +kernel

end DbnPipe.DbWriter
