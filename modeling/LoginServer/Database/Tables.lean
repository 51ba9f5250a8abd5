import LoginServer.Database.Database
import LoginServer.Verified.Quoting

/-!
# The tables behind the queries

What is assumed of MySQL: `Serves` says that the two queries return exactly
the matching rows.  `Tables.reference` is a database that does, for any
content of the tables: it reads the literals of a query back, which `Quoting`
allows whatever the email contains.

## Main results

* `Tables.reference_serves` — the assumption can be met for every content.
-/

namespace LoginServer

open LoginServer.Network
open LoginServer.Verified

/-- A row of `accounts`: a positive id, given as decimal text. -/
structure AccountRow where
  id : Nat
  idText : Bytes
  email : Cell
  password : Cell
  premiumEndsAt : Cell
  id_pos : 0 < id
  id_decimal : Decimal idText id

structure PlayerRow where
  name : Cell
  accountId : Nat
  level : Cell
  instanceId : Cell
  instanceName : Cell
  autoReconnect : Cell

structure Tables where
  accounts : List AccountRow
  players : List PlayerRow := []

def AccountRow.Matches (row : AccountRow) (email hashPass : Bytes) : Prop :=
  row.email = some email ∧ row.password = some hashPass

instance (row : AccountRow) (email hashPass : Bytes) :
    Decidable (row.Matches email hashPass) :=
  inferInstanceAs (Decidable (_ ∧ _))

def accountFields : List Bytes :=
  [text "id", text "email", text "password", text "premium_ends_at"]

def AccountRow.cells (row : AccountRow) : List Cell :=
  [some row.idText, row.email, row.password, row.premiumEndsAt]

def playerFields : List Bytes :=
  [text "name", text "account_id", text "level", text "instance_id",
    text "instance_name", text "auto_reconnect"]

def PlayerRow.cells (row : PlayerRow) : List Cell :=
  [row.name, some (toDecimal row.accountId), row.level, row.instanceId,
    row.instanceName, row.autoReconnect]

namespace Tables

def matching (tables : Tables) (email hashPass : Bytes) : List AccountRow :=
  tables.accounts.filter fun row => row.Matches email hashPass

def playersOf (tables : Tables) (id : Nat) : List PlayerRow :=
  tables.players.filter fun row => row.accountId = id

def accountResult (tables : Tables) (email hashPass : Bytes) : ResultSet :=
  { fields := accountFields
    rows := (tables.matching email hashPass).map AccountRow.cells }

def playerResult (tables : Tables) (id : Nat) : ResultSet :=
  { fields := playerFields, rows := (tables.playersOf id).map PlayerRow.cells }

end Tables

/-- The queries return exactly the matching rows. -/
structure Database.Serves (db : Database) (tables : Tables) : Prop where
  accounts : ∀ email hashPass, db.realQuery (db.accountQuery email hashPass) =
    some (tables.accountResult email hashPass)
  players : ∀ id, db.realQuery (Database.characterQuery id) =
    some (tables.playerResult id)

/-! ## A database that serves any tables -/

/-- How `mysql_real_escape_string` writes its seven special bytes. -/
def sqlQuoting : Quoting UInt8 where
  quoteMark := 39
  escapeMark := 92
  code c :=
    if c = 0 then some 48
    else if c = 10 then some 110
    else if c = 13 then some 114
    else if c = 26 then some 90
    else if c = 34 ∨ c = 39 ∨ c = 92 then some c
    else none
  decode d :=
    if d = 48 then 0
    else if d = 110 then 10
    else if d = 114 then 13
    else if d = 90 then 26
    else d
  marks_ne := by decide
  quoteMark_coded := by decide
  escapeMark_coded := by decide
  decode_code := by
    intro c d h
    split_ifs at h with h0 hn hr hz hself
    · cases h; exact h0.symm
    · cases h; exact hn.symm
    · cases h; exact hr.symm
    · cases h; exact hz.symm
    · cases h
      rcases hself with rfl | rfl | rfl <;> rfl

theorem sqlQuoting_escapeLetter (c : UInt8) : ∀ d ∈ sqlQuoting.escapeLetter c, d ≠ 0 := by
  unfold Quoting.escapeLetter
  cases hcode : sqlQuoting.code c with
  | none =>
      intro d hd hzero
      rw [List.mem_singleton] at hd
      subst hd hzero
      exact absurd hcode (by decide)
  | some e =>
      intro d hd hzero
      have hdecode := sqlQuoting.decode_code hcode
      simp only [List.mem_cons, List.not_mem_nil, or_false] at hd
      rcases hd with rfl | rfl
      · exact absurd hzero (by decide)
      · subst hzero
        have hc : c = 0 := hdecode.symm
        rw [hc] at hcode
        exact absurd hcode (by decide)

theorem cString_escape (s : Bytes) : cString (sqlQuoting.escape s) = sqlQuoting.escape s := by
  apply cString_eq_iff.mpr
  intro hzero
  obtain ⟨c, _, hc⟩ := List.mem_flatMap.mp hzero
  exact sqlQuoting_escapeLetter c 0 hc rfl

/-! ## Decimal numerals -/

theorem isDigit_ofNat {c : Char} (h : c.isDigit = true) :
    (UInt8.ofNat c.toNat).toNat = c.toNat ∧ isDigit (UInt8.ofNat c.toNat) := by
  have hrange : 48 ≤ c.toNat ∧ c.toNat ≤ 57 := by
    simpa [Char.isDigit, UInt32.le_iff_toNat_le] using h
  have hval : (UInt8.ofNat c.toNat).toNat = c.toNat := by
    rw [UInt8.toNat_ofNat']
    omega
  refine ⟨hval, ?_⟩
  unfold isDigit
  rw [hval]
  exact hrange

theorem decimalValue_map (digits : List Char) (hdigits : ∀ c ∈ digits, c.isDigit = true)
    (start : Nat) :
    (digits.map fun c => UInt8.ofNat c.toNat).foldl
        (fun value digit => 10 * value + (digit.toNat - 48)) start =
      Nat.ofDigitChars 10 digits start := by
  induction digits generalizing start with
  | nil => rfl
  | cons c digits ih =>
      have hc := (isDigit_ofNat (hdigits c List.mem_cons_self)).1
      rw [List.map_cons, List.foldl_cons, hc, Nat.ofDigitChars_cons]
      exact ih (fun d hd => hdigits d (List.mem_cons_of_mem _ hd)) _

theorem toDecimal_decimal (n : Nat) : Decimal (toDecimal n) n := by
  have hdigits : ∀ c ∈ Nat.toDigits 10 n, c.isDigit = true := fun c hc =>
    Nat.isDigit_of_mem_toDigits (by decide) (by decide) hc
  constructor
  · simp [toDecimal]
  · intro byte hbyte
    obtain ⟨c, hc, rfl⟩ := List.mem_map.mp hbyte
    exact (isDigit_ofNat (hdigits c hc)).2
  · unfold decimalValue toDecimal
    rw [decimalValue_map _ hdigits, Nat.ofDigitChars_ten_toDigits]

theorem toDecimal_inj {m n : Nat} (h : toDecimal m = toDecimal n) : m = n := by
  rw [← (toDecimal_decimal m).value, h, (toDecimal_decimal n).value]

/-- A numeral needs no escapes. -/
theorem escape_decimal {digits : Bytes} {n : Nat} (h : Decimal digits n) :
    sqlQuoting.escape digits = digits := by
  have hplain : ∀ byte ∈ digits, sqlQuoting.escapeLetter byte = [byte] := by
    intro byte hbyte
    have hdigit := h.digits byte hbyte
    have hne : ∀ c : UInt8, c.toNat < 48 ∨ 57 < c.toNat → byte ≠ c := by
      rintro c hc rfl
      unfold isDigit at hdigit
      omega
    have hcode : sqlQuoting.code byte = none := by
      simp [sqlQuoting, hne 0 (by decide), hne 10 (by decide), hne 13 (by decide),
        hne 26 (by decide), hne 34 (by decide), hne 39 (by decide), hne 92 (by decide)]
    unfold Quoting.escapeLetter
    rw [hcode]
  unfold Quoting.escape
  rw [List.flatMap_congr hplain]
  simp

/-! ## The reference database -/

/-- The rest of `query` behind `head`. -/
def afterHead (head query : Bytes) : Option Bytes :=
  if head.isPrefixOf query then some (query.drop head.length) else none

theorem afterHead_append (head rest : Bytes) : afterHead head (head ++ rest) = some rest := by
  unfold afterHead
  rw [if_pos (by simp), List.drop_left]

theorem afterHead_append_of_ne {head other : Bytes} {k : Nat} {byte byte' : UInt8}
    (h : head[k]? = some byte) (h' : other[k]? = some byte') (hne : byte ≠ byte') (rest : Bytes) :
    afterHead head (other ++ rest) = none := by
  unfold afterHead
  rw [if_neg]
  intro hhead
  obtain ⟨tail, htail⟩ := List.isPrefixOf_iff_prefix.mp hhead
  have hleft : (head ++ tail)[k]? = some byte := by
    rw [List.getElem?_append_left (List.getElem?_eq_some_iff.mp h).1, h]
  have hright : (other ++ rest)[k]? = some byte' := by
    rw [List.getElem?_append_left (List.getElem?_eq_some_iff.mp h').1, h']
  rw [htail, hright] at hleft
  exact hne (Option.some.inj hleft).symm

/-- A query for an account, read back: the email and the hash. -/
def readAccountQuery (query : Bytes) : Option (Bytes × Bytes) := do
  let (email, rest) ← (← afterHead Database.selectAccount query) |> sqlQuoting.read
  let (hashPass, _) ← (← afterHead Database.andPassword rest) |> sqlQuoting.read
  some (email, hashPass)

/-- A query for characters, read back: the numeral of the account. -/
def readCharacterQuery (query : Bytes) : Option Bytes := do
  let (id, _) ← (← afterHead Database.selectCharacters query) |> sqlQuoting.read
  some id

namespace Tables

/-- The answer to a query text. -/
def answer (tables : Tables) (query : Bytes) : Option ResultSet :=
  match readAccountQuery query with
  | some (email, hashPass) => some (tables.accountResult email hashPass)
  | none =>
      (readCharacterQuery query).map fun id =>
        { fields := playerFields
          rows := (tables.players.filter fun row => toDecimal row.accountId = id).map
            PlayerRow.cells }

/-- A database that holds `tables`. -/
def reference (tables : Tables) (encryptionSalt : Bytes) (lexicalCast : LexicalCast)
    (indeterminate : BitVec 64) : Database where
  realEscape := sqlQuoting.escape
  realQuery := tables.answer
  lexicalCast
  encryptionSalt
  indeterminate

variable (tables : Tables) (salt : Bytes) (cast : LexicalCast) (indeterminate : BitVec 64)

theorem reference_realQuery :
    (tables.reference salt cast indeterminate).realQuery = tables.answer := by
  unfold reference
  rfl

theorem reference_escapeString (s : Bytes) :
    (tables.reference salt cast indeterminate).escapeString s = sqlQuoting.quote s := by
  have hbody : (if s.length ≠ 0 then cString (sqlQuoting.escape s) else []) =
      sqlQuoting.escape s := by
    cases s with
    | nil => rfl
    | cons c s => rw [if_pos (by simp), cString_escape]
  show text "'" ++ (if s.length ≠ 0 then cString (sqlQuoting.escape s) else []) ++
    text "'" = _
  rw [hbody]
  rfl

theorem readAccountQuery_accountQuery (email hashPass : Bytes) :
    readAccountQuery ((tables.reference salt cast indeterminate).accountQuery email hashPass) =
      some (email, hashPass) := by
  unfold readAccountQuery Database.accountQuery
  rw [reference_escapeString, reference_escapeString, List.append_assoc, List.append_assoc,
    afterHead_append]
  simp only [Option.bind_eq_bind, Option.bind_some]
  rw [sqlQuoting.read_quote]
  simp only [Option.bind_some]
  rw [afterHead_append]
  simp only [Option.bind_some]
  rw [← List.append_nil (sqlQuoting.quote hashPass), sqlQuoting.read_quote]
  rfl

theorem characterQuery_eq (id : Nat) :
    Database.characterQuery id =
      Database.selectCharacters ++ sqlQuoting.quote (toDecimal id) := by
  unfold Database.characterQuery Quoting.quote
  rw [escape_decimal (toDecimal_decimal id), List.append_assoc, List.append_assoc]
  rfl

theorem afterHead_selectAccount_characterQuery (id : Nat) :
    afterHead Database.selectAccount (Database.characterQuery id) = none := by
  -- the queries differ in the first column they ask for
  have haccount : Database.selectAccount[8]? = some 105 := by
    unfold Database.selectAccount text
    rw [List.getElem?_map, String.toList_ofList]
    rfl
  have hcharacter : Database.selectCharacters[8]? = some 110 := by
    unfold Database.selectCharacters text
    rw [List.getElem?_append_left (by decide), List.getElem?_map, String.toList_ofList]
    rfl
  rw [characterQuery_eq]
  exact afterHead_append_of_ne haccount hcharacter (by decide) _

theorem readCharacterQuery_characterQuery (id : Nat) :
    readCharacterQuery (Database.characterQuery id) = some (toDecimal id) := by
  unfold readCharacterQuery
  rw [characterQuery_eq, afterHead_append]
  simp only [Option.bind_eq_bind, Option.bind_some]
  rw [← List.append_nil (sqlQuoting.quote _), sqlQuoting.read_quote]
  rfl

theorem answer_of_accountQuery {query email hashPass : Bytes}
    (h : readAccountQuery query = some (email, hashPass)) :
    tables.answer query = some (tables.accountResult email hashPass) := by
  rw [answer, h]

theorem answer_characterQuery (id : Nat) :
    tables.answer (Database.characterQuery id) = some (tables.playerResult id) := by
  have hnone : readAccountQuery (Database.characterQuery id) = none := by
    unfold readAccountQuery
    rw [afterHead_selectAccount_characterQuery]
    rfl
  have hrows : (tables.players.filter fun row => toDecimal row.accountId = toDecimal id) =
      tables.playersOf id := by
    apply List.filter_congr
    intro row _
    simp only [decide_eq_decide]
    exact ⟨toDecimal_inj, congrArg toDecimal⟩
  rw [answer, hnone, readCharacterQuery_characterQuery, playerResult, ← hrows]
  rfl

/-- The assumption can be met, whatever the tables hold. -/
theorem reference_serves : (tables.reference salt cast indeterminate).Serves tables where
  accounts email hashPass := by
    rw [reference_realQuery]
    exact answer_of_accountQuery tables (readAccountQuery_accountQuery _ _ _ _ _ _)
  players id := by
    rw [reference_realQuery]
    exact answer_characterQuery tables id

end Tables

end LoginServer
