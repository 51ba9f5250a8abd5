import LoginServer.Network.NetworkMessage

/-!
# The message methods exposed to Lua

`luaNetworkMessageGet*` and `luaNetworkMessageAdd*` of `lua.cpp`.  A message
reaches Lua as a userdata holding a raw pointer; `none` is the null pointer
an explicit `delete` leaves behind, which every one of these methods tests.
-/

namespace LoginServer.Script

open LoginServer.Network
open LoginServer.Verified.ByteMemory (read write)

/-- What a binding hands to `LuaStack::Push`. -/
inductive LuaValue where
  | nil
  | boolean (value : Bool)
  | integer (value : Nat)
  | string (value : Bytes)
  deriving DecidableEq, Repr

/-- The common body of the getters. -/
def luaGet {α : Type} (read : NetworkMessage → α × NetworkMessage)
    (push : α → LuaValue) : Option NetworkMessage → LuaValue × Option NetworkMessage
  | none => (.nil, none)
  | some msg =>
      let (value, msg) := read msg
      (push value, some msg)

def luaNetworkMessageGetU8 :=
  luaGet (fun msg => msg.getByte) (fun v => .integer v.toNat)

def luaNetworkMessageGetU16 :=
  luaGet (fun msg => msg.get .u16) (fun v => .integer v.toNat)

def luaNetworkMessageGetU32 :=
  luaGet (fun msg => msg.get .u32) (fun v => .integer v.toNat)

def luaNetworkMessageGetU64 :=
  luaGet (fun msg => msg.get .u64) (fun v => .integer v.toNat)

def luaNetworkMessageGetString :=
  luaGet (fun msg => msg.getString) (fun v => .string v)

/-- The common body of the adders: they report success whether or not the
message had room. -/
def luaAdd (write : NetworkMessage → NetworkMessage) :
    Option NetworkMessage → LuaValue × Option NetworkMessage
  | none => (.boolean false, none)
  | some msg => (.boolean true, some (write msg))

def luaNetworkMessageAddU8 (value : UInt8) := luaAdd (fun msg => msg.addByte value)

def luaNetworkMessageAddU16 (value : BitVec 16) :=
  luaAdd (fun msg => msg.add .u16 value)

def luaNetworkMessageAddU32 (value : BitVec 32) :=
  luaAdd (fun msg => msg.add .u32 value)

def luaNetworkMessageAddU64 (value : BitVec 64) :=
  luaAdd (fun msg => msg.add .u64 value)

def luaNetworkMessageAddString (value : Bytes) :=
  luaAdd (fun msg => msg.addString value)

/-- A call of one of the methods. -/
inductive MessageCall where
  | getU8
  | getU16
  | getU32
  | getU64
  | getString
  | addU8 (value : UInt8)
  | addU16 (value : BitVec 16)
  | addU32 (value : BitVec 32)
  | addU64 (value : BitVec 64)
  | addString (value : Bytes)
  deriving DecidableEq, Repr

def MessageCall.run : MessageCall → Option NetworkMessage →
    LuaValue × Option NetworkMessage
  | .getU8 => luaNetworkMessageGetU8
  | .getU16 => luaNetworkMessageGetU16
  | .getU32 => luaNetworkMessageGetU32
  | .getU64 => luaNetworkMessageGetU64
  | .getString => luaNetworkMessageGetString
  | .addU8 value => luaNetworkMessageAddU8 value
  | .addU16 value => luaNetworkMessageAddU16 value
  | .addU32 value => luaNetworkMessageAddU32 value
  | .addU64 value => luaNetworkMessageAddU64 value
  | .addString value => luaNetworkMessageAddString value

/-- The effect of a call on a message that is there. -/
def MessageCall.on (call : MessageCall) (msg : NetworkMessage) : NetworkMessage :=
  ((call.run (some msg)).2).getD msg

/-- A script's calls on one message, in order. -/
def MessageCall.onAll (calls : List MessageCall) (msg : NetworkMessage) :
    NetworkMessage :=
  calls.foldl (fun msg call => call.on msg) msg

/-! ## What the methods depend on -/

/-- Two messages a script cannot tell apart: the overrun flag is not exposed. -/
structure SameToLua (m m' : NetworkMessage) : Prop where
  length : m.length = m'.length
  position : m.position = m'.position
  buffer : m.buffer = m'.buffer

namespace SameToLua

variable {m m' : NetworkMessage}

theorem refl (m : NetworkMessage) : SameToLua m m := ⟨rfl, rfl, rfl⟩

theorem symm (h : SameToLua m m') : SameToLua m' m :=
  ⟨h.length.symm, h.position.symm, h.buffer.symm⟩

theorem trans {m'' : NetworkMessage} (h : SameToLua m m') (h' : SameToLua m' m'') :
    SameToLua m m'' :=
  ⟨h.length.trans h'.length, h.position.trans h'.position, h.buffer.trans h'.buffer⟩

theorem readable_iff (h : SameToLua m m') (size : Nat) : m.Readable size ↔ m'.Readable size := by
  unfold NetworkMessage.Readable NetworkMessage.pos NetworkMessage.len
  rw [h.length, h.position]

theorem canAdd (h : SameToLua m m') (size : Nat) : m.canAdd size = m'.canAdd size := by
  unfold NetworkMessage.canAdd NetworkMessage.pos
  rw [h.position]

theorem advance (h : SameToLua m m') (size : Nat) :
    SameToLua (m.advance size) (m'.advance size) := by
  refine ⟨h.length, ?_, h.buffer⟩
  show msgSize (m.position.toNat + size) = msgSize (m'.position.toNat + size)
  rw [h.position]

theorem refuse (h : SameToLua m m') : SameToLua m.refuse m'.refuse :=
  ⟨h.length, h.position, h.buffer⟩

theorem append (h : SameToLua m m') (bytes : Bytes) :
    SameToLua (m.append bytes) (m'.append bytes) := by
  refine ⟨?_, ?_, ?_⟩
  · show msgSize (m.length.toNat + bytes.length) = msgSize (m'.length.toNat + bytes.length)
    rw [h.length]
  · show msgSize (m.position.toNat + bytes.length) = msgSize (m'.position.toNat + bytes.length)
    rw [h.position]
  · show write m.buffer m.position.toNat bytes = write m'.buffer m'.position.toNat bytes
    rw [h.buffer, h.position]

theorem getByte (h : SameToLua m m') : SameToLua m.getByte.2 m'.getByte.2 := by
  by_cases hr : m.Readable 1
  · rw [NetworkMessage.getByte_of_readable hr,
      NetworkMessage.getByte_of_readable ((h.readable_iff 1).mp hr)]
    exact h.advance 1
  · rw [NetworkMessage.getByte_of_not_readable hr,
      NetworkMessage.getByte_of_not_readable (fun hr' => hr ((h.readable_iff 1).mpr hr'))]
    exact h.refuse

theorem get (h : SameToLua m m') (w : Width) :
    (m.get w).1 = (m'.get w).1 ∧ SameToLua (m.get w).2 (m'.get w).2 := by
  by_cases hr : m.Readable w.bytes
  · rw [NetworkMessage.get_of_readable hr,
      NetworkMessage.get_of_readable ((h.readable_iff _).mp hr)]
    constructor
    · show w.decode (read m.buffer m.position.toNat _) =
        w.decode (read m'.buffer m'.position.toNat _)
      rw [h.buffer, h.position]
    · exact h.advance _
  · rw [NetworkMessage.get_of_not_readable hr,
      NetworkMessage.get_of_not_readable (fun hr' => hr ((h.readable_iff _).mpr hr'))]
    exact ⟨rfl, h.refuse⟩

theorem getChars (h : SameToLua m m') (size : Nat) :
    SameToLua (m.getChars size).2 (m'.getChars size).2 := by
  unfold NetworkMessage.getChars
  by_cases hr : m.Readable size
  · rw [if_pos hr, if_pos ((h.readable_iff size).mp hr)]
    exact h.advance size
  · rw [if_neg hr, if_neg (fun hr' => hr ((h.readable_iff size).mpr hr'))]
    exact h.refuse

theorem getString (h : SameToLua m m') : SameToLua (m.getString).2 (m'.getString).2 := by
  rw [NetworkMessage.getString_eq, NetworkMessage.getString_eq, if_pos rfl, if_pos rfl]
  obtain ⟨hlength, hsame⟩ := h.get .u16
  rw [hlength]
  exact hsame.getChars _

theorem ite_append (h : SameToLua m m') {p p' : Prop} [Decidable p] [Decidable p']
    (hp : p ↔ p') {n n' : NetworkMessage} (hn : SameToLua n n') :
    SameToLua (if p then n else m) (if p' then n' else m') := by
  by_cases hyes : p
  · rw [if_pos hyes, if_pos (hp.mp hyes)]
    exact hn
  · rw [if_neg hyes, if_neg (fun hyes' => hyes (hp.mpr hyes'))]
    exact h

theorem add (h : SameToLua m m') (w : Width) (value : w.Value) :
    SameToLua (m.add w value) (m'.add w value) := by
  rw [NetworkMessage.add_eq, NetworkMessage.add_eq]
  exact h.ite_append (by rw [h.canAdd]) (h.append _)

/-- Every method does the same to both. -/
theorem on (h : SameToLua m m') (call : MessageCall) : SameToLua (call.on m) (call.on m') := by
  cases call with
  | getU8 => exact h.getByte
  | getU16 => exact (h.get .u16).2
  | getU32 => exact (h.get .u32).2
  | getU64 => exact (h.get .u64).2
  | getString => exact h.getString
  | addU8 value =>
      show SameToLua (m.addByte value) (m'.addByte value)
      rw [NetworkMessage.addByte_eq, NetworkMessage.addByte_eq]
      exact h.ite_append (by rw [h.canAdd]) (h.append _)
  | addU16 value => exact h.add .u16 value
  | addU32 value => exact h.add .u32 value
  | addU64 value => exact h.add .u64 value
  | addString value =>
      show SameToLua (m.addString value) (m'.addString value)
      rw [NetworkMessage.addString_eq, NetworkMessage.addString_eq]
      exact h.ite_append (by rw [h.canAdd]) ((h.append _).append _)

theorem onAll (h : SameToLua m m') (calls : List MessageCall) :
    SameToLua (MessageCall.onAll calls m) (MessageCall.onAll calls m') := by
  induction calls generalizing m m' with
  | nil => exact h
  | cons call calls ih => exact ih (h.on call)

end SameToLua

end LoginServer.Script
