import LoginServer.Utils.Rsa
import LoginServer.Utils.Xtea

/-!
# `Protocol`: the login conversation

The data of `protocol.cpp`, the messages it builds and the reads of
`authenticate`.  Key, configuration and database are the fields of `Env`;
every theorem quantifies over them.
-/

namespace LoginServer.Network

open LoginServer.Verified.ByteMemory
open LoginServer.Utils

/-- `enum Opcode`. -/
inductive Opcode where
  | authenticate | error | motd | characterList | sessionKey | ping | loadingMessage
  deriving DecidableEq, Repr

def Opcode.toByte : Opcode → UInt8
  | .authenticate => 1
  | .error => 2
  | .motd => 3
  | .characterList => 4
  | .sessionKey => 5
  | .ping => 6
  | .loadingMessage => 7

structure Character where
  name : Bytes
  instanceName : Bytes
  instanceId : Bytes
  level : BitVec 16
  autoReconnect : Bool
  deriving DecidableEq, Repr

structure Account where
  id : BitVec 16 := 0
  email : Bytes := []
  password : Bytes := []
  premiumEnd : BitVec 64
  characters : List Character := []
  deriving DecidableEq, Repr

/-- What `authenticate` asks of the rest of the server. -/
structure Env where
  /-- `RSA::decrypt(char*)` under the server's private key; `none` throws -/
  rsaBlock : Rsa.Block → Option Rsa.Block
  versionMin : BitVec 16
  versionStr : Bytes
  motdNumber : Int
  motdMessage : Bytes
  /-- `Database::getAccount(email, password)`, which is taken to return -/
  getAccount : Bytes → Bytes → Account

/-- `AUTHENTICATOR_PERIOD`. -/
def AUTHENTICATOR_PERIOD : Nat := 30

/-- The bytes of an ASCII literal. -/
def text (s : String) : Bytes := s.toList.map fun c => UInt8.ofNat c.toNat

/-- `std::to_string` of an unsigned number. -/
def toDecimal (n : Nat) : Bytes :=
  (Nat.toDigits 10 n).map fun c => UInt8.ofNat c.toNat

/-- `ostream << int`. -/
def toSignedDecimal : Int → Bytes
  | .ofNat n => toDecimal n
  | .negSucc n => text "-" ++ toDecimal (n + 1)

/-- The state of a `Protocol` object. -/
structure Protocol where
  lastPingTime : Nat := 0
  key : Xtea.Key := Vector.replicate 4 0
  account : Account := { premiumEnd := 0 }

namespace OutputMessage

/-- Apply a `NetworkMessage` method to the base of an `OutputMessage`. -/
def update (m : OutputMessage) (f : NetworkMessage → NetworkMessage) :
    OutputMessage :=
  { m with toNetworkMessage := f m.toNetworkMessage }

def addByte (m : OutputMessage) (value : UInt8) : OutputMessage :=
  m.update fun m => m.addByte value

def add (m : OutputMessage) (w : Width) (value : w.Value) : OutputMessage :=
  m.update fun m => m.add w value

def addBytes (m : OutputMessage) (bytes : Bytes) : OutputMessage :=
  m.update fun m => m.addBytes bytes

def addString (m : OutputMessage) (value : Bytes) : OutputMessage :=
  m.update fun m => m.addString value

end OutputMessage

/-! ## The login reply -/

def addMOTD (env : Env) (msg : OutputMessage) : OutputMessage :=
  let msg := msg.addByte Opcode.motd.toByte
  msg.addString (toSignedDecimal env.motdNumber ++ text "\n" ++ env.motdMessage)

/-- `now` is `time(nullptr)`. -/
def addSessionKey (now : Nat) (account : Account) (msg : OutputMessage) :
    OutputMessage :=
  let ticks := now / AUTHENTICATOR_PERIOD % 2 ^ 32
  let msg := msg.addByte Opcode.sessionKey.toByte
  msg.addString
    (account.email ++ text "\n" ++ account.password ++ text "\n\n" ++ toDecimal ticks)

/-- The body of the loop over the characters. -/
def addCharacter (msg : OutputMessage) (character : Character) : OutputMessage :=
  let msg := msg.addString character.name
  let msg := msg.addString character.instanceName
  let msg := msg.addString character.instanceId
  let msg := msg.add .u16 character.level
  msg.add .u8 (if character.autoReconnect then 1 else 0)

def addCharacterList (now : Nat) (account : Account) (msg : OutputMessage) :
    OutputMessage :=
  let msg := msg.addByte Opcode.characterList.toByte
  let msg := msg.addByte (UInt8.ofNat account.characters.length)
  let msg := account.characters.foldl addCharacter msg
  let msg := msg.addByte 0
  let msg := msg.addByte (if account.premiumEnd.toNat > now then 1 else 0)
  msg.add .u32 (BitVec.setWidth 32 account.premiumEnd)

/-- The reply `authenticate` sends to an accepted login, built in whatever
`stack` held. -/
def loginReply (env : Env) (now : Nat) (stack : Memory) (account : Account) :
    OutputMessage :=
  let output := OutputMessage.create stack
  let output := addMOTD env output
  let output := addSessionKey now account output
  addCharacterList now account output

/-- The message `sendError` builds. -/
def errorMessage (stack : Memory) (message : Bytes) : OutputMessage :=
  let msg := OutputMessage.create stack
  let msg := msg.addByte Opcode.error.toByte
  msg.addString message

/-- `Protocol::encryptMessage`. -/
def encryptMessage (key : Xtea.Key) (msg : OutputMessage) : OutputMessage :=
  let msg := msg.writeMessageLength
  let msg := Xtea.encrypt key msg
  msg.addCryptoHeader

/-! ## Reading the login request -/

/-- How a run of `authenticate` ends. -/
inductive Branch where
  | threw
  | rsaRejected
  | versionRejected
  | emptyEmail
  | emptyPassword
  | badAccount
  | accepted
  deriving DecidableEq, Repr

/-- What a run of `authenticate` took from the message, as far as it got, and
the branch it ended in. -/
structure Login where
  version : BitVec 16
  key : Option Xtea.Key := none
  email : Option Bytes := none
  password : Option Bytes := none
  account : Option Account := none
  branch : Branch
  deriving DecidableEq

/-- The four words `setXTEAKey` stores. -/
def readKey (msg : NetworkMessage) : Xtea.Key × NetworkMessage :=
  let (k0, msg) := msg.get .u32
  let (k1, msg) := msg.get .u32
  let (k2, msg) := msg.get .u32
  let (k3, msg) := msg.get .u32
  (#v[k0, k1, k2, k3], msg)

/-- The part of `authenticate` after the key: version, email and password are
tested in this order, each before the next one is read. -/
def readCredentials (env : Env) (version : BitVec 16) (key : Xtea.Key)
    (msg : NetworkMessage) : Login × NetworkMessage :=
  if version < env.versionMin then
    ({ version, key := some key, branch := .versionRejected }, msg)
  else
    let (email, msg) := msg.getString
    if email.isEmpty then
      ({ version, key := some key, email := some email, branch := .emptyEmail }, msg)
    else
      let (password, msg) := msg.getString
      if password.isEmpty then
        ({ version, key := some key, email := some email, password := some password,
           branch := .emptyPassword }, msg)
      else
        let account := env.getAccount email password
        ({ version, key := some key, email := some email, password := some password,
           account := some account,
           branch := if account.id = 0 then .badAccount else .accepted }, msg)

/-- Everything `authenticate` reads, in source order. -/
def readLogin (env : Env) (msg : NetworkMessage) : Login × NetworkMessage :=
  let msg := msg.skipBytes 2 -- operating system
  let (version, msg) := msg.get .u16
  -- protocolVersion, the three signatures and a zero byte
  let msg := msg.skipBytes 17
  match Rsa.decrypt env.rsaBlock msg with
  | (none, msg) => ({ version, branch := .threw }, msg)
  | (some false, msg) => ({ version, branch := .rsaRejected }, msg)
  | (some true, msg) =>
      let (key, msg) := readKey msg
      readCredentials env version key msg

end LoginServer.Network
