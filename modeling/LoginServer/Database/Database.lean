import LoginServer.Database.DBResult
import LoginServer.Network.Protocol
import LoginServer.Utils.Sha1

/-!
# `Database`: accounts and characters

`getAccount` and the two queries it sends, over the parts of the MySQL client
library, of Boost and of the configuration that `database.cpp` uses.  Every
function that queries also says which query texts it sent.  `none` in place
of an account is the crash of a `NULL` cell in a numeric column.
-/

namespace LoginServer

open LoginServer.Network
open LoginServer.Utils

structure Database where
  /-- `mysql_real_escape_string` -/
  realEscape : Bytes → Bytes
  /-- `mysql_real_query` and `mysql_store_result`; `none` when either fails -/
  realQuery : Bytes → Option ResultSet
  lexicalCast : LexicalCast
  encryptionSalt : Bytes
  /-- what an `Account` holds in `premiumEnd`, which has no initial value -/
  indeterminate : BitVec 64

namespace Database

def storeQuery (db : Database) (query : Bytes) : Option DBResult :=
  match db.realQuery query with
  | none => none
  | some result =>
      let res := DBResult.ofResultSet result
      if res.hasNext then some res else none

def escapeString (db : Database) (string : Bytes) : Bytes :=
  text "'" ++ (if string.length ≠ 0 then cString (db.realEscape string) else []) ++
    text "'"

def selectAccount : Bytes :=
  text "SELECT `id`, `email`, `password`, `premium_ends_at` FROM `accounts` WHERE `email` = "

def andPassword : Bytes := text " AND password = "

def selectCharacters : Bytes :=
  text "SELECT `name`, `account_id`, `level`, `instance_id`, `instance_name`, " ++
    text "`auto_reconnect` FROM `players` WHERE `account_id` = "

/-- The query of `getAccountInfo`. -/
def accountQuery (db : Database) (email hashPass : Bytes) : Bytes :=
  selectAccount ++ db.escapeString email ++ andPassword ++ db.escapeString hashPass

/-- The query of `getCharacterList`. -/
def characterQuery (accountId : Nat) : Bytes :=
  selectCharacters ++ text "'" ++ toDecimal accountId ++ text "'"

def hashPass (db : Database) (password : Bytes) : Bytes :=
  transformToSHA1 (db.encryptionSalt ++ password)

def getAccountInfo (db : Database) (email password : Bytes) : Option DBResult :=
  db.storeQuery (db.accountQuery email (db.hashPass password))

/-- The body of the loop in `getCharacterList`. -/
def readCharacter (cast : LexicalCast) (result : DBResult) : Option Character :=
  match result.getString (text "name"), result.getString (text "instance_name"),
    result.getString (text "instance_id"), result.getNumber cast .uint16 (text "level"),
    result.getNumber cast .int (text "auto_reconnect") with
  | some name, some instanceName, some instanceId, some level, some autoReconnect =>
      some { name, instanceName, instanceId, level, autoReconnect := autoReconnect ≠ 0 }
  | _, _, _, _, _ => none

/-- `while (result->hasNext())`; every round moves the cursor on, so the
number of rows bounds the rounds. -/
def readCharacters (cast : LexicalCast) :
    Nat → DBResult → List Character → Option (List Character)
  | 0, _, characters => some characters
  | rounds + 1, result, characters =>
      if result.hasNext then
        match readCharacter cast result with
        | none => none
        | some character =>
            readCharacters cast rounds result.next (characters ++ [character])
      else some characters

def getCharacterList (db : Database) (accountId : BitVec 16) : Option (List Character) :=
  match db.storeQuery (characterQuery accountId.toNat) with
  | none => some []
  | some result => readCharacters db.lexicalCast result.rows.length result []

def getAccount (db : Database) (email password : Bytes) : Option Account × List Bytes :=
  let sent := [db.accountQuery email (db.hashPass password)]
  match db.getAccountInfo email password with
  | none => (some { premiumEnd := db.indeterminate }, sent)
  | some accountInfo =>
      match accountInfo.getNumber db.lexicalCast .uint16 (text "id"),
        accountInfo.getNumber db.lexicalCast .uint64 (text "premium_ends_at") with
      | some id, some premiumEnd =>
          ((db.getCharacterList id).map fun characters =>
              { id, email, password, premiumEnd, characters },
            sent ++ [characterQuery id.toNat])
      | _, _ => (none, sent)

end Database

/-- The same server with one answer of the database in place of all. -/
def answering (env : Env) (account : Account) : Env :=
  { env with getAccount := fun _ _ => account }

/-- A run of `authenticate` against a database: what it made of the login,
`none` after a crash, and the queries it sent. -/
structure Attempt where
  login : Option Login
  queries : List Bytes := []

/-- `authenticate` asks the database once the email and the password are
there; every earlier branch ends without a query. -/
def Database.authenticate (db : Database) (env : Env) (msg : NetworkMessage) : Attempt :=
  let login := (readLogin env msg).1
  match login.email, login.password, login.account with
  | some email, some password, some _ =>
      let (account, queries) := db.getAccount email password
      { login := account.map fun account => (readLogin (answering env account) msg).1
        queries }
  | _, _, _ => { login := some login }

/-- `authenticate` reached the reply. -/
def Attempt.Succeeds (attempt : Attempt) : Prop :=
  ∃ login, attempt.login = some login ∧ login.branch = .accepted

end LoginServer
