import LoginServer.Database.ResultAccess
import LoginServer.Database.Tables
import LoginServer.Network.AuthenticationGate

/-!
# Logins and accounts

`authenticate` learns whether an account exists from `m_account.id`, which
`getNumber<uint16_t>` took from the text of the `id` column.  A text that does
not convert becomes 0, and 0 is also the id of the account that was never
filled in: an account whose id needs more than 16 bits cannot log in.

The other way a valid login fails is a `NULL` in a numeric column, which the
source hands to `lexical_cast` as a null pointer.

## Main results

* `getAccount_of_first`, `getAccount_of_nil` — `getAccount` by what the
  tables hold.
* `getCharacterList_eq` — the characters of an account, in row order.
* `login_exact_iff` — exactly when the login is decided by the tables.
-/

namespace LoginServer

open LoginServer.Network
open LoginServer.Utils

/-! ## The rows of an answer -/

/-- The character of a row; a `NULL` level or flag is not read. -/
def PlayerRow.character? (cast : LexicalCast) (row : PlayerRow) : Option Character :=
  match row.level, row.autoReconnect with
  | some level, some autoReconnect =>
      some
        { name := (row.name.map cString).getD []
          instanceName := (row.instanceName.map cString).getD []
          instanceId := (row.instanceId.map cString).getD []
          level := (cast .uint16 (cString level)).getD 0
          autoReconnect := (cast .int (cString autoReconnect)).getD 0 ≠ 0 }
  | _, _ => none

theorem playerFields_nodup : playerFields.Nodup := by
  simp [playerFields, text]

theorem accountFields_nodup : accountFields.Nodup := by
  simp [accountFields, text]

namespace Database

variable {db : Database} {tables : Tables} {email password : Bytes}

/-- The columns of the answer about an account. -/
theorem column_player (tables : Tables) (id : Nat) {name : Bytes}
    (hname : name ∈ playerFields) :
    (DBResult.ofResultSet (tables.playerResult id)).fields name =
      some (playerFields.idxOf name) :=
  (DBResult.fields_ofResultSet (tables.playerResult id) name).trans
    (DBResult.column_of_nodup playerFields_nodup hname)

theorem column_account (tables : Tables) (email hashPass : Bytes) {name : Bytes}
    (hname : name ∈ accountFields) :
    (DBResult.ofResultSet (tables.accountResult email hashPass)).fields name =
      some (accountFields.idxOf name) :=
  (DBResult.fields_ofResultSet (tables.accountResult email hashPass) name).trans
    (DBResult.column_of_nodup accountFields_nodup hname)

/-- One round of the loop reads the row under the cursor. -/
theorem readCharacter_of_row {cast : LexicalCast} {id : Nat} {r : DBResult}
    (hr : r.fields = (DBResult.ofResultSet (tables.playerResult id)).fields)
    {row : PlayerRow} (hrow : r.rows[r.index]? = some row.cells) :
    readCharacter cast r = row.character? cast := by
  have hstring : ∀ {name : Bytes} {cell : Cell}, name ∈ playerFields →
      row.cells[playerFields.idxOf name]? = some cell →
      r.getString name = some ((cell.map cString).getD []) := fun hname hcell =>
    DBResult.getString_of_cell hrow (by rw [hr, column_player tables id hname]) hcell
  have hnumber : ∀ (t : Number) {name : Bytes} {cell : Cell}, name ∈ playerFields →
      row.cells[playerFields.idxOf name]? = some cell →
      r.getNumber cast t name = cell.map fun cell => (cast t (cString cell)).getD 0 :=
    fun t _ _ hname hcell =>
      DBResult.getNumber_of_cell hrow (by rw [hr, column_player tables id hname]) hcell cast t
  have hname : row.cells[playerFields.idxOf (text "name")]? = some row.name := by
    simp [playerFields, text, PlayerRow.cells]
  have hlevel : row.cells[playerFields.idxOf (text "level")]? = some row.level := by
    simp [playerFields, text, PlayerRow.cells]
  have hinstanceId : row.cells[playerFields.idxOf (text "instance_id")]? =
      some row.instanceId := by
    simp [playerFields, text, PlayerRow.cells]
  have hinstanceName : row.cells[playerFields.idxOf (text "instance_name")]? =
      some row.instanceName := by
    simp [playerFields, text, PlayerRow.cells]
  have hautoReconnect : row.cells[playerFields.idxOf (text "auto_reconnect")]? =
      some row.autoReconnect := by
    simp [playerFields, text, PlayerRow.cells]
  unfold readCharacter PlayerRow.character?
  rw [hstring (by simp [playerFields]) hname,
    hstring (by simp [playerFields]) hinstanceName,
    hstring (by simp [playerFields]) hinstanceId,
    hnumber .uint16 (by simp [playerFields]) hlevel,
    hnumber .int (by simp [playerFields]) hautoReconnect]
  cases row.level <;> cases row.autoReconnect <;> rfl

/-- The loop collects the characters of the rows from the cursor on. -/
theorem readCharacters_drop {cast : LexicalCast} {id rounds : Nat} {r : DBResult}
    (rows : List PlayerRow) {characters : List Character}
    (hr : r.fields = (DBResult.ofResultSet (tables.playerResult id)).fields)
    (hrows : r.rows = rows.map PlayerRow.cells) (hrounds : r.rows.length ≤ r.index + rounds) :
    readCharacters cast rounds r characters =
      ((rows.drop r.index).mapM (PlayerRow.character? cast)).map (characters ++ ·) := by
  have hlength : r.rows.length = rows.length := by rw [hrows, List.length_map]
  induction rounds generalizing r characters with
  | zero =>
      rw [List.drop_eq_nil_of_le (by omega)]
      simp [readCharacters]
  | succ rounds ih =>
      unfold readCharacters
      by_cases hnext : r.index < r.rows.length
      · have hindex : r.index < rows.length := by omega
        have hrow : r.rows[r.index]? = some (rows[r.index]).cells := by
          rw [hrows, List.getElem?_map, List.getElem?_eq_getElem hindex]
          rfl
        have htail : ∀ characters, readCharacters cast rounds r.next characters =
            ((rows.drop (r.index + 1)).mapM (PlayerRow.character? cast)).map
              (characters ++ ·) := fun _ =>
          ih (r := r.next) hr hrows (by simp only [DBResult.next]; omega) hlength
        rw [if_pos (by simpa [DBResult.hasNext] using hnext), readCharacter_of_row hr hrow,
          List.drop_eq_getElem_cons hindex, List.mapM_cons]
        cases hcharacter : (rows[r.index]).character? cast with
        | none => rfl
        | some character =>
            dsimp only
            rw [htail]
            cases List.mapM (PlayerRow.character? cast) (rows.drop (r.index + 1)) <;> simp
      · rw [if_neg (by simpa [DBResult.hasNext] using hnext),
          List.drop_eq_nil_of_le (by omega)]
        simp

/-- The characters of an account, in row order. -/
theorem getCharacterList_eq (hserves : db.Serves tables) (accountId : BitVec 16) :
    db.getCharacterList accountId =
      (tables.playersOf accountId.toNat).mapM (PlayerRow.character? db.lexicalCast) := by
  unfold getCharacterList storeQuery
  rw [hserves.players]
  dsimp only
  cases hplayers : tables.playersOf accountId.toNat with
  | nil =>
      rw [if_neg (by simp [DBResult.hasNext, DBResult.ofResultSet, Tables.playerResult, hplayers])]
      rfl
  | cons row rows =>
      rw [if_pos (by simp [DBResult.hasNext, DBResult.ofResultSet, Tables.playerResult, hplayers])]
      dsimp only
      rw [readCharacters_drop (row :: rows) rfl (by
        simp [DBResult.ofResultSet, Tables.playerResult, hplayers]) (by omega)]
      simp [DBResult.ofResultSet]

/-- The query of `getAccount` in a database that serves `tables`. -/
theorem storeQuery_account (hserves : db.Serves tables) (email hashPass : Bytes) :
    db.storeQuery (db.accountQuery email hashPass) =
      if tables.matching email hashPass = [] then none
      else some (DBResult.ofResultSet (tables.accountResult email hashPass)) := by
  unfold storeQuery
  rw [hserves.accounts]
  cases hrows : tables.matching email hashPass <;>
    simp [DBResult.hasNext, DBResult.ofResultSet, Tables.accountResult, hrows]

theorem getAccount_of_nil (hserves : db.Serves tables)
    (hnone : tables.matching email (db.hashPass password) = []) :
    db.getAccount email password =
      (some { premiumEnd := db.indeterminate },
        [db.accountQuery email (db.hashPass password)]) := by
  unfold getAccount getAccountInfo
  rw [storeQuery_account hserves, if_pos hnone]

/-- The `uint16_t` that the text of an id becomes. -/
def accountId (id : Nat) : BitVec 16 :=
  if id ≤ 65535 then BitVec.ofNat 16 id else 0

theorem toNat_accountId {id : Nat} (hid : id ≤ 65535) : (accountId id).toNat = id := by
  unfold accountId
  rw [if_pos hid, BitVec.toNat_ofNat]
  omega

theorem accountId_ne_zero {id : Nat} (hpos : 0 < id) : accountId id ≠ 0 ↔ id ≤ 65535 := by
  constructor
  · intro hne
    by_contra hlarge
    exact hne (if_neg hlarge)
  · intro hid hzero
    have hval := toNat_accountId hid
    rw [hzero] at hval
    exact hpos.ne hval

theorem getAccount_of_first (hserves : db.Serves tables)
    (hcast : db.lexicalCast.ReadsDecimal) {row : AccountRow} {rest : List AccountRow}
    (hfirst : tables.matching email (db.hashPass password) = row :: rest) :
    db.getAccount email password =
      match row.premiumEndsAt with
      | none => (none, [db.accountQuery email (db.hashPass password)])
      | some premiumEndsAt =>
          ((db.getCharacterList (accountId row.id)).map fun characters =>
              { id := accountId row.id, email, password
                premiumEnd := (db.lexicalCast .uint64 (cString premiumEndsAt)).getD 0
                characters },
            [db.accountQuery email (db.hashPass password),
              characterQuery (accountId row.id).toNat]) := by
  have hrow : (DBResult.ofResultSet
      (tables.accountResult email (db.hashPass password))).rows[0]? = some row.cells := by
    simp [DBResult.ofResultSet, Tables.accountResult, hfirst]
  have hid := DBResult.getNumber_of_cell hrow
    (column_account tables email _ (by simp [accountFields]))
    (show row.cells[accountFields.idxOf (text "id")]? = some (some row.idText) by
      simp [accountFields, text, AccountRow.cells]) db.lexicalCast .uint16
  have hpremium := DBResult.getNumber_of_cell hrow
    (column_account tables email _ (by simp [accountFields]))
    (show row.cells[accountFields.idxOf (text "premium_ends_at")]? = some row.premiumEndsAt by
      simp [accountFields, text, AccountRow.cells]) db.lexicalCast .uint64
  have hnumber : (db.lexicalCast .uint16 (cString row.idText)).getD 0 = accountId row.id := by
    rw [row.id_decimal.cString_eq, hcast _ _ _ row.id_decimal]
    unfold accountId
    by_cases hle : row.id ≤ 65535
    · rw [if_pos hle, if_pos (show row.id ≤ Number.uint16.max from hle)]
      rfl
    · rw [if_neg hle, if_neg (show ¬ row.id ≤ Number.uint16.max from hle)]
      rfl
  unfold getAccount getAccountInfo
  rw [storeQuery_account hserves, if_neg (by rw [hfirst]; exact List.cons_ne_nil _ _)]
  dsimp only
  rw [hid, hpremium]
  cases row.premiumEndsAt with
  | none => rfl
  | some premiumEndsAt =>
      dsimp only [Option.map_some]
      rw [hnumber]
      rfl

end Database

/-! ## The login -/

/-- The frame passed the checks before the database: the login has an email
and a password, and neither is empty. -/
structure Presents (login : Login) (email password : Bytes) : Prop where
  hasEmail : login.email = some email
  hasPassword : login.password = some password
  email_ne : email ≠ []
  password_ne : password ≠ []

theorem readCredentials_presents {env : Env} {version : BitVec 16} {key : Xtea.Key}
    {msg : NetworkMessage} {email password : Bytes}
    (h : Presents (readCredentials env version key msg).1 email password) :
    (readCredentials env version key msg).1.account = some (env.getAccount email password) ∧
      (readCredentials env version key msg).1.branch =
        if (env.getAccount email password).id = 0 then .badAccount else .accepted := by
  obtain ⟨hemail, hpassword, hemailNe, hpasswordNe⟩ := h
  unfold readCredentials at hemail hpassword ⊢
  generalize msg.getString = first at hemail hpassword ⊢
  obtain ⟨readEmail, msg⟩ := first
  dsimp only at hemail hpassword ⊢
  generalize msg.getString = second at hemail hpassword ⊢
  obtain ⟨readPassword, msg⟩ := second
  dsimp only at hemail hpassword ⊢
  by_cases hversion : version < env.versionMin
  · rw [if_pos hversion] at hemail
    cases hemail
  · rw [if_neg hversion] at hemail hpassword ⊢
    by_cases hnoEmail : readEmail.isEmpty
    · rw [if_pos hnoEmail] at hemail
      cases hemail
      exact absurd (List.isEmpty_iff.mp hnoEmail) hemailNe
    · rw [if_neg hnoEmail] at hemail hpassword ⊢
      by_cases hnoPassword : readPassword.isEmpty
      · rw [if_pos hnoPassword] at hpassword
        cases hpassword
        exact absurd (List.isEmpty_iff.mp hnoPassword) hpasswordNe
      · rw [if_neg hnoPassword] at hemail hpassword ⊢
        cases hemail
        cases hpassword
        exact ⟨rfl, rfl⟩

theorem readLogin_presents {env : Env} {msg : NetworkMessage} {email password : Bytes}
    (h : Presents (readLogin env msg).1 email password) :
    (readLogin env msg).1.account = some (env.getAccount email password) ∧
      (readLogin env msg).1.branch =
        if (env.getAccount email password).id = 0 then .badAccount else .accepted := by
  unfold readLogin at h ⊢
  dsimp only at h ⊢
  split at h
  · cases h.hasEmail
  · cases h.hasEmail
  · exact readCredentials_presents h

theorem readCredentials_answering (env : Env) (account : Account) (version : BitVec 16)
    (key : Xtea.Key) (msg : NetworkMessage) :
    (readCredentials (answering env account) version key msg).1.email =
        (readCredentials env version key msg).1.email ∧
      (readCredentials (answering env account) version key msg).1.password =
        (readCredentials env version key msg).1.password := by
  unfold readCredentials answering
  generalize msg.getString = first
  obtain ⟨readEmail, msg⟩ := first
  dsimp only
  generalize msg.getString = second
  split_ifs <;> exact ⟨rfl, rfl⟩

/-- What the login brings does not depend on the database. -/
theorem readLogin_answering {env : Env} {msg : NetworkMessage} {email password : Bytes}
    (h : Presents (readLogin env msg).1 email password) (account : Account) :
    Presents (readLogin (answering env account) msg).1 email password := by
  have hsame : (readLogin (answering env account) msg).1.email = (readLogin env msg).1.email ∧
      (readLogin (answering env account) msg).1.password =
        (readLogin env msg).1.password := by
    unfold readLogin
    dsimp only [answering]
    split
    · exact ⟨rfl, rfl⟩
    · exact ⟨rfl, rfl⟩
    · exact readCredentials_answering env account _ _ _
  exact ⟨hsame.1.trans h.hasEmail, hsame.2.trans h.hasPassword, h.email_ne, h.password_ne⟩

namespace Database

variable {db : Database} {env : Env} {tables : Tables} {msg : NetworkMessage}
  {email password : Bytes}

/-- The branch of the run is decided by the account the database returns. -/
theorem authenticate_presents (db : Database) (h : Presents (readLogin env msg).1 email password) :
    (db.authenticate env msg).queries = (db.getAccount email password).2 ∧
      (((db.authenticate env msg).login = none ∧ (db.getAccount email password).1 = none) ∨
        ∃ login account, (db.authenticate env msg).login = some login ∧
          (db.getAccount email password).1 = some account ∧
          login.account = some account ∧
          login.branch = if account.id = 0 then .badAccount else .accepted) := by
  unfold authenticate
  dsimp only
  rw [h.hasEmail, h.hasPassword, (readLogin_presents h).1]
  dsimp only
  refine ⟨rfl, ?_⟩
  cases haccount : (db.getAccount email password).1 with
  | none => exact Or.inl ⟨rfl, rfl⟩
  | some account =>
      obtain ⟨hstored, hbranch⟩ := readLogin_presents (readLogin_answering h account)
      exact Or.inr ⟨_, account, rfl, rfl, hstored, hbranch⟩

/-- **The login and the tables.**  The reply is sent exactly when some row has
this email and the hash of this password; then the account has the id of such
a row, and its characters were requested under the same id. -/
def LoginExact (db : Database) (env : Env) (tables : Tables) (msg : NetworkMessage)
    (email password : Bytes) : Prop :=
  ((db.authenticate env msg).Succeeds ↔
    ∃ row ∈ tables.accounts, row.Matches email (db.hashPass password)) ∧
  ∀ login, (db.authenticate env msg).login = some login → login.branch = .accepted →
    ∃ row ∈ tables.accounts, row.Matches email (db.hashPass password) ∧
      (∃ account, login.account = some account ∧ account.id.toNat = row.id) ∧
      (db.authenticate env msg).queries =
        [db.accountQuery email (db.hashPass password), characterQuery row.id]

end Database

/-- The id of the row fits `Account::id`, and no number that `getAccount`
takes from the row or from its characters is `NULL`. -/
structure AccountRow.Readable (tables : Tables) (row : AccountRow) : Prop where
  id_le : row.id ≤ 65535
  premium : row.premiumEndsAt ≠ none
  players : ∀ player ∈ tables.players, player.accountId = row.id →
    player.level ≠ none ∧ player.autoReconnect ≠ none

theorem character?_isSome {cast : LexicalCast} {row : PlayerRow} :
    (row.character? cast).isSome ↔ row.level ≠ none ∧ row.autoReconnect ≠ none := by
  unfold PlayerRow.character?
  cases row.level <;> cases row.autoReconnect <;> simp

theorem mapM_isSome {α β : Type} {f : α → Option β} {l : List α} :
    (l.mapM f).isSome ↔ ∀ x ∈ l, (f x).isSome := by
  induction l with
  | nil => simp
  | cons x l ih =>
      rw [List.mapM_cons, List.forall_mem_cons, ← ih]
      cases f x <;> cases l.mapM f <;> simp

/-- The first row that matches, if there is one, is readable. -/
def Tables.FirstReadable (tables : Tables) (email hashPass : Bytes) : Prop :=
  ∀ row, tables.accounts.find? (fun row => row.Matches email hashPass) = some row →
    row.Readable tables

namespace Database

variable {db : Database} {env : Env} {tables : Tables} {msg : NetworkMessage}
  {email password : Bytes}

theorem getCharacterList_isSome (hserves : db.Serves tables) {id : Nat} (hid : id ≤ 65535) :
    (db.getCharacterList (accountId id)).isSome ↔
      ∀ player ∈ tables.players, player.accountId = id →
        player.level ≠ none ∧ player.autoReconnect ≠ none := by
  rw [getCharacterList_eq hserves, toNat_accountId hid, mapM_isSome]
  simp only [character?_isSome, Tables.playersOf, List.mem_filter, decide_eq_true_eq, and_imp]

section
variable (hserves : db.Serves tables) (hcast : db.lexicalCast.ReadsDecimal)
  {row : AccountRow} {rest : List AccountRow}
  (hfirst : tables.matching email (db.hashPass password) = row :: rest)
include hserves hcast hfirst

/-- An account that `getAccount` returns is that of the first matching row. -/
theorem getAccount_some {account : Account}
    (haccount : (db.getAccount email password).1 = some account) :
    account.id = accountId row.id ∧ row.premiumEndsAt ≠ none ∧
      (db.getCharacterList (accountId row.id)).isSome ∧
      (db.getAccount email password).2 =
        [db.accountQuery email (db.hashPass password),
          characterQuery (accountId row.id).toNat] := by
  rw [getAccount_of_first hserves hcast hfirst] at haccount ⊢
  cases hpremium : row.premiumEndsAt with
  | none =>
      rw [hpremium] at haccount
      cases haccount
  | some premiumEndsAt =>
      rw [hpremium] at haccount
      dsimp only at haccount
      obtain ⟨characters, hcharacters, rfl⟩ := Option.map_eq_some_iff.mp haccount
      rw [hcharacters]
      exact ⟨rfl, Option.some_ne_none _, rfl, rfl⟩

theorem getAccount_of_readable (hreadable : row.Readable tables) :
    ∃ account, (db.getAccount email password).1 = some account := by
  obtain ⟨premiumEndsAt, hpremium⟩ := Option.ne_none_iff_exists'.mp hreadable.premium
  obtain ⟨characters, hcharacters⟩ := Option.isSome_iff_exists.mp
    ((getCharacterList_isSome hserves hreadable.id_le).mpr hreadable.players)
  rw [getAccount_of_first hserves hcast hfirst, hpremium, hcharacters]
  exact ⟨_, rfl⟩

/-- With a matching row, the login succeeds exactly when the first one is
readable. -/
theorem succeeds_iff_readable (h : Presents (readLogin env msg).1 email password) :
    (db.authenticate env msg).Succeeds ↔ row.Readable tables := by
  have hrun := (authenticate_presents db h).2
  constructor
  · rintro ⟨login, hlogin, haccepted⟩
    rcases hrun with ⟨hcrashed, -⟩ | ⟨login', account, hlogin', haccount, -, hbranch⟩
    · rw [hcrashed] at hlogin
      cases hlogin
    · rw [hlogin'] at hlogin
      cases hlogin
      obtain ⟨hid, hpremium, hcharacters, -⟩ := getAccount_some hserves hcast hfirst haccount
      have hne : accountId row.id ≠ 0 := by
        intro hzero
        rw [hid, if_pos hzero, haccepted] at hbranch
        cases hbranch
      have hle := (accountId_ne_zero row.id_pos).mp hne
      exact ⟨hle, hpremium, (getCharacterList_isSome hserves hle).mp hcharacters⟩
  · intro hreadable
    obtain ⟨account, haccount⟩ := getAccount_of_readable hserves hcast hfirst hreadable
    rcases hrun with ⟨-, hcrashed⟩ | ⟨login, account', hlogin, haccount', -, hbranch⟩
    · rw [haccount] at hcrashed
      cases hcrashed
    · refine ⟨login, hlogin, ?_⟩
      have hid := (getAccount_some hserves hcast hfirst haccount').1
      rw [hbranch, if_neg]
      rw [hid]
      exact (accountId_ne_zero row.id_pos).mpr hreadable.id_le

/-- A login that succeeds has the account of the first matching row. -/
theorem account_of_accepted (h : Presents (readLogin env msg).1 email password)
    {login : Login} (hlogin : (db.authenticate env msg).login = some login)
    (haccepted : login.branch = .accepted) :
    (∃ account, login.account = some account ∧ account.id.toNat = row.id) ∧
      (db.authenticate env msg).queries =
        [db.accountQuery email (db.hashPass password), characterQuery row.id] := by
  have hreadable := (succeeds_iff_readable hserves hcast hfirst h).mp ⟨login, hlogin, haccepted⟩
  obtain ⟨hqueries, ⟨hcrashed, -⟩ | ⟨login', account, hlogin', haccount, hstored, -⟩⟩ :=
    authenticate_presents db h
  · rw [hcrashed] at hlogin
    cases hlogin
  · rw [hlogin'] at hlogin
    cases hlogin
    obtain ⟨hid, -, -, hsent⟩ := getAccount_some hserves hcast hfirst haccount
    have hval := toNat_accountId hreadable.id_le
    rw [hqueries, hsent, hval]
    exact ⟨⟨account, hstored, by rw [hid, hval]⟩, rfl⟩

end

/-- Without a matching row the login is rejected. -/
theorem not_succeeds_of_nil (hserves : db.Serves tables)
    (hnone : tables.matching email (db.hashPass password) = [])
    (h : Presents (readLogin env msg).1 email password) :
    ¬ (db.authenticate env msg).Succeeds := by
  rintro ⟨login, hlogin, haccepted⟩
  obtain ⟨-, ⟨hcrashed, -⟩ | ⟨login', account, hlogin', haccount, -, hbranch⟩⟩ :=
    authenticate_presents db h
  · rw [hcrashed] at hlogin
    cases hlogin
  · rw [hlogin'] at hlogin
    cases hlogin
    rw [getAccount_of_nil hserves hnone] at haccount
    cases haccount
    rw [haccepted] at hbranch
    cases hbranch

theorem loginExact_iff (hserves : db.Serves tables) (hcast : db.lexicalCast.ReadsDecimal)
    (h : Presents (readLogin env msg).1 email password) :
    LoginExact db env tables msg email password ↔
      tables.FirstReadable email (db.hashPass password) := by
  have hfind : tables.accounts.find? (fun row => row.Matches email (db.hashPass password)) =
      (tables.matching email (db.hashPass password)).head? := by
    unfold Tables.matching
    rw [List.head?_filter]
  unfold Tables.FirstReadable
  rw [hfind]
  cases hmatching : tables.matching email (db.hashPass password) with
  | nil =>
      have hrejected := not_succeeds_of_nil hserves hmatching h
      have hnone : ¬ ∃ row ∈ tables.accounts, row.Matches email (db.hashPass password) := by
        rintro ⟨row, hrow, hmatches⟩
        have hmem : row ∈ tables.matching email (db.hashPass password) :=
          List.mem_filter.mpr ⟨hrow, decide_eq_true hmatches⟩
        rw [hmatching] at hmem
        cases hmem
      constructor
      · intro _ row hrow
        cases hrow
      · intro _
        constructor
        · exact ⟨fun hsucceeds => absurd hsucceeds hrejected, fun hrow => absurd hrow hnone⟩
        · intro login hlogin haccepted
          exact absurd ⟨login, hlogin, haccepted⟩ hrejected
  | cons row rest =>
      have hmem : row ∈ tables.accounts ∧ row.Matches email (db.hashPass password) := by
        have hfirst : row ∈ tables.matching email (db.hashPass password) := by
          rw [hmatching]
          exact List.mem_cons_self
        simpa [Tables.matching] using hfirst
      have hsucceeds := succeeds_iff_readable hserves hcast hmatching h
      constructor
      · intro hexact row' hrow'
        cases hrow'
        exact hsucceeds.mp (hexact.1.mpr ⟨row, hmem⟩)
      · intro hreadable
        constructor
        · exact ⟨fun _ => ⟨row, hmem⟩, fun _ => hsucceeds.mpr (hreadable row rfl)⟩
        · intro login hlogin haccepted
          exact ⟨row, hmem.1, hmem.2,
            account_of_accepted hserves hcast hmatching h hlogin haccepted⟩

/-- **Exactly when the tables decide the login.**  Of the rows that match,
the source reads the first one. -/
theorem login_exact_iff (db : Database) (env : Env) (tables : Tables) (msg : NetworkMessage)
    (email password : Bytes) (hserves : db.Serves tables)
    (hcast : db.lexicalCast.ReadsDecimal)
    (hlogin : Presents (readLogin env msg).1 email password) :
    LoginExact db env tables msg email password ↔
      tables.FirstReadable email (db.hashPass password) :=
  loginExact_iff hserves hcast hlogin

/-- A frame with the email `a` and the password `b`. -/
def sampleFrame : NetworkMessage where
  length := 151
  position := 2
  buffer := fun i => (List.replicate 38 (0 : UInt8) ++ [1, 0, 97, 1, 0, 98]).getD (i - 2) 0

theorem sampleFrame_presents : Presents (readLogin sampleEnv sampleFrame).1 [97] [98] where
  hasEmail := by decide +kernel
  hasPassword := by decide +kernel
  email_ne := by decide
  password_ne := by decide

/-- One account, with the email and the password of `sampleFrame`. -/
def oneAccount (id : Nat) (hid : 0 < id) : Tables where
  accounts :=
    [{ id, idText := toDecimal id, email := some [97], password := some (transformToSHA1 [98]),
       premiumEndsAt := some [48], id_pos := hid, id_decimal := toDecimal_decimal id }]
  players :=
    [{ name := some [65], accountId := 7, level := some [49], instanceId := none,
       instanceName := none, autoReconnect := some [48] }]

/-- A database without a salt. -/
def unsalted (tables : Tables) : Database := tables.reference [] decimalCast 0

theorem unsalted_serves (tables : Tables) : (unsalted tables).Serves tables :=
  tables.reference_serves _ _ _

theorem unsalted_readsDecimal (tables : Tables) :
    (unsalted tables).lexicalCast.ReadsDecimal := decimalCast_readsDecimal

theorem oneAccount_find (id : Nat) (hid : 0 < id) :
    (oneAccount id hid).accounts.find?
        (fun row => row.Matches [97] ((unsalted (oneAccount id hid)).hashPass [98])) =
      (oneAccount id hid).accounts.head? :=
  List.find?_cons_of_pos (decide_eq_true ⟨rfl, rfl⟩)

theorem login_exact_sample :
    LoginExact (unsalted (oneAccount 7 (by decide))) sampleEnv (oneAccount 7 (by decide))
      sampleFrame [97] [98] := by
  apply (login_exact_iff _ sampleEnv _ sampleFrame [97] [98] (unsalted_serves _)
    (unsalted_readsDecimal _) sampleFrame_presents).mpr
  intro row hrow
  rw [oneAccount_find] at hrow
  cases hrow
  refine ⟨by decide, Option.some_ne_none _, ?_⟩
  intro player hplayer _
  cases List.mem_singleton.mp hplayer
  exact ⟨Option.some_ne_none _, Option.some_ne_none _⟩

/-- The account with the id 65536 exists, and its login is rejected. -/
theorem wide_id_rejected :
    ¬ LoginExact (unsalted (oneAccount 65536 (by decide))) sampleEnv
      (oneAccount 65536 (by decide)) sampleFrame [97] [98] := by
  intro hexact
  have hfirst := (loginExact_iff (unsalted_serves _) (unsalted_readsDecimal _)
    sampleFrame_presents).mp hexact
  have hreadable := hfirst _ (oneAccount_find 65536 (by decide))
  exact absurd hreadable.id_le (by decide)

end Database

end LoginServer
