import LoginServer.Database.DBResult
import LoginServer.Network.Protocol
import LoginServer.Verified.PartialRun
import LoginServer.Verified.Significand

/-!
# Relaying a message through Lua

A script reads the fields of a message and appends what it got to another one.
Between the two a value is on the Lua stack: a number is a double, a string
goes in and out as a `char*`.  The two casts of `uint8_t` and `uint16_t` undo
each other.  Those of `uint32_t` and `uint64_t` go through `int` on the way
back, and a number that is no `int` has no defined value then.

A field is relayed where the bytes appended are the bytes consumed, and a
script where that is so after each of its fields.

## Main results

* `pop_push` — what is left of a number.
* `field_relayed_iff` — one field, by its kind.
* `script_relayed_iff` — a whole script.
-/

namespace LoginServer.Script

open LoginServer.Network
open LoginServer.Network.NetworkMessage
open LoginServer.Verified
open LoginServer.Verified.ByteMemory
open LoginServer.Verified.PartialRun
open LoginServer.Verified.Significand

namespace LuaStack

/-- `static_cast<lua_Number>(value)`: a double has 53 significant bits. -/
def toNumber (value : Nat) : Int := nearestEven 53 value

/-- `LuaStack::Push<T>` of an unsigned type. -/
def push (w : Width) (value : w.Value) : Int := toNumber value.toNat

/-- `static_cast<uintN_t>(lua_tonumber(L, index))`; undefined out of range. -/
def castUnsigned (w : Width) (number : Int) : Option w.Value :=
  if 0 ≤ number ∧ number < 2 ^ w.bits then some (BitVec.ofInt _ number) else none

/-- `static_cast<int>(lua_tonumber(L, index))`, stored in an unsigned type. -/
def castInt (w : Width) (number : Int) : Option w.Value :=
  if -2 ^ 31 ≤ number ∧ number < 2 ^ 31 then some (BitVec.ofInt _ number) else none

def popUInt8 := castUnsigned .u8

def popUInt16 := castUnsigned .u16

def popUInt32 := castInt .u32

def popUInt64 := castInt .u64

/-- `LuaStack::Pop<T>` of an unsigned type. -/
def pop : (w : Width) → Int → Option w.Value
  | .u8 => popUInt8
  | .u16 => popUInt16
  | .u32 => popUInt32
  | .u64 => popUInt64

/-- `LuaStack::Push<std::string>`: `lua_pushstring(L, value.c_str())`. -/
def pushString (value : Bytes) : Bytes := cString value

/-- `LuaStack::Pop<std::string>`: `std::string(lua_tostring(L, index))`. -/
def popString (value : Bytes) : Bytes := cString value

end LuaStack

/-! ## The script -/

/-- What the script reads next, and appends. -/
inductive Field where
  | number (w : Width)
  | string
  deriving DecidableEq, Repr

/-- `getU8` to `getU64`. -/
def getNumber : (w : Width) → NetworkMessage → w.Value × NetworkMessage
  | .u8, m => (m.getByte.1.toBitVec, m.getByte.2)
  | .u16, m => m.get .u16
  | .u32, m => m.get .u32
  | .u64, m => m.get .u64

/-- `addU8` to `addU64`. -/
def addNumber : (w : Width) → w.Value → NetworkMessage → NetworkMessage
  | .u8, value, m => m.addByte (UInt8.ofBitVec value)
  | .u16, value, m => m.add .u16 value
  | .u32, value, m => m.add .u32 value
  | .u64, value, m => m.add .u64 value

/-- The message the script reads and the one it fills. -/
structure Relay where
  msg : NetworkMessage
  out : OutputMessage

namespace Relay

/-- One field; `none` is a number without a defined value. -/
def field : Field → Relay → Option Relay
  | .number w, s =>
      let (value, msg) := getNumber w s.msg
      (LuaStack.pop w (LuaStack.push w value)).map fun value =>
        ⟨msg, s.out.update (addNumber w value)⟩
  | .string, s =>
      let (value, msg) := s.msg.getString
      let value := LuaStack.popString (LuaStack.pushString value)
      some ⟨msg, s.out.update fun m => m.addString value⟩

/-- The bytes between two positions of the message that is read. -/
def consumed (s t : Relay) : Bytes := read s.msg.buffer s.msg.pos (t.msg.pos - s.msg.pos)

/-- The bytes that were appended. -/
def written (s t : Relay) : Bytes := read t.out.buffer s.out.pos (t.out.pos - s.out.pos)

/-- After every field the bytes appended so far are the bytes consumed so far. -/
def Relayed (fields : List Field) (s : Relay) : Prop :=
  ∀ before, before <+: fields → ∃ t, run field before s = some t ∧
    written s t = consumed s t

/-- The number at the cursor. -/
def number (w : Width) (m : NetworkMessage) : Nat :=
  (w.decode (read m.buffer m.pos w.bytes)).toNat

/-- The characters behind a length at the cursor. -/
def chars (m : NetworkMessage) : Bytes := read m.buffer (m.pos + 2) (number .u16 m)

/-- The field is all there and has room in the other message, its number is an
`int`, its characters have no zero byte and are no more than `addString`
takes.  A field that is not there is as good as relayed where not even the
default that is read for it has room. -/
def Fits : Field → Relay → Prop
  | .number w, s =>
      if s.msg.Readable w.bytes then number w s.msg < 2 ^ 31 ∧ s.out.canAdd w.bytes = true
      else ¬ s.out.canAdd w.bytes = true
  | .string, s =>
      if s.msg.Readable 2 then
        s.msg.Readable (2 + number .u16 s.msg) ∧ 0 ∉ chars s.msg ∧
          s.out.canAdd (number .u16 s.msg + 2) = true ∧ number .u16 s.msg ≤ 8192
      else ¬ s.out.canAdd 2 = true

end Relay

/-! ## Through the stack -/

namespace LuaStack

theorem toNumber_of_lt {value : Nat} (h : value < 2 ^ 53) : toNumber value = value := by
  rw [toNumber, nearestEven_of_lt (by omega) h]

theorem ofInt_toNat {n : Nat} (v : BitVec n) : BitVec.ofInt n (v.toNat : Int) = v := by
  rw [BitVec.ofInt_natCast, BitVec.ofNat_toNat, BitVec.setWidth_eq]

theorem castUnsigned_push (w : Width) (hw : w.bits ≤ 31) (value : w.Value) :
    castUnsigned w (push w value) = if value.toNat < 2 ^ 31 then some value else none := by
  have hlt : value.toNat < 2 ^ w.bits := value.isLt
  have hint : value.toNat < 2 ^ 31 :=
    Nat.lt_of_lt_of_le hlt (Nat.pow_le_pow_right (by omega) hw)
  have hlt' : (value.toNat : Int) < 2 ^ w.bits := by exact_mod_cast hlt
  rw [push, toNumber_of_lt (by omega), castUnsigned, if_pos ⟨by omega, hlt'⟩, if_pos hint,
    ofInt_toNat]

theorem castInt_push (w : Width) (value : w.Value) :
    castInt w (push w value) = if value.toNat < 2 ^ 31 then some value else none := by
  unfold castInt push
  by_cases h : value.toNat < 2 ^ 31
  · rw [toNumber_of_lt (by omega), if_pos (by omega), if_pos h, ofInt_toNat]
  · -- rounding does not bring the number back into the range
    have hle : 2 ^ 31 ≤ nearestEven 53 value.toNat :=
      two_pow_le_nearestEven (by omega) (Nat.le_of_not_lt h)
    have hout : ¬ (-2 ^ 31 ≤ toNumber value.toNat ∧ toNumber value.toNat < 2 ^ 31) := by
      unfold toNumber
      omega
    rw [if_neg hout, if_neg h]

/-- A number comes back if it is an `int`; the two small types always are. -/
theorem pop_push (w : Width) (value : w.Value) :
    pop w (push w value) = if value.toNat < 2 ^ 31 then some value else none := by
  cases w with
  | u8 => exact castUnsigned_push .u8 (by decide) value
  | u16 => exact castUnsigned_push .u16 (by decide) value
  | u32 => exact castInt_push .u32 value
  | u64 => exact castInt_push .u64 value

theorem popString_pushString (value : Bytes) : popString (pushString value) = cString value := by
  have hzero : 0 ∉ cString value := by
    intro h
    have hne := List.mem_takeWhile_imp h
    exact absurd hne (by decide)
  exact cString_eq_iff.mpr hzero

end LuaStack

/-! ## One field -/

namespace Relay

theorem getNumber_eq (w : Width) (m : NetworkMessage) : getNumber w m = m.get w := by
  cases w with
  | u8 =>
      by_cases h : m.Readable 1
      · have hbyte : Width.decode .u8 (read m.buffer m.pos 1) = (m.buffer m.pos).toBitVec := by
          apply BitVec.eq_of_toNat_eq
          simp [Width.decode, ByteMemory.read, LittleEndian.decode]
        rw [getNumber, getByte_of_readable h, get_of_readable (w := .u8) h]
        exact congrArg (·, m.advance 1) hbyte.symm
      · rw [getNumber, getByte_of_not_readable h, get_of_not_readable (w := .u8) h]
        rfl
  | u16 => rfl
  | u32 => rfl
  | u64 => rfl

theorem addNumber_eq (w : Width) (value : w.Value) (m : NetworkMessage) :
    addNumber w value m = m.add w value := by
  cases w with
  | u8 =>
      have hbyte : Width.encode .u8 value = [UInt8.ofBitVec value] := by
        simp [Width.encode, LittleEndian.encode]
      rw [addNumber, addByte_eq, add_eq, hbyte]
  | u16 => rfl
  | u32 => rfl
  | u64 => rfl

/-- The cursor of the message that is read moved by `size`. -/
structure Takes (size : Nat) (m m' : NetworkMessage) : Prop where
  buffer : m'.buffer = m.buffer
  pos : m'.pos = m.pos + size

/-- The other message got `bytes` at its cursor. -/
structure Puts (bytes : Bytes) (m m' : NetworkMessage) : Prop where
  buffer : m'.buffer = write m.buffer m.pos bytes
  pos : m'.pos = m.pos + bytes.length

/-- What one field does to the two messages. -/
structure Moves (size : Nat) (bytes : Bytes) (s t : Relay) : Prop where
  takes : Takes size s.msg t.msg
  puts : Puts bytes s.out.toNetworkMessage t.out.toNetworkMessage

theorem Moves.consumed {size : Nat} {bytes : Bytes} {s t : Relay} (h : Moves size bytes s t) :
    consumed s t = read s.msg.buffer s.msg.pos size := by
  rw [Relay.consumed, h.takes.pos, Nat.add_sub_cancel_left]

theorem Moves.written {size : Nat} {bytes : Bytes} {s t : Relay} (h : Moves size bytes s t) :
    written s t = bytes := by
  rw [Relay.written, h.puts.pos, h.puts.buffer, Nat.add_sub_cancel_left, read_write_self]

/-- Two stretches, one after the other. -/
theorem Moves.trans {n n' : Nat} {bytes bytes' : Bytes} {s t u : Relay}
    (h : Moves n bytes s t) (h' : Moves n' bytes' t u) :
    Moves (n + n') (bytes ++ bytes') s u := by
  refine ⟨⟨?_, ?_⟩, ⟨?_, ?_⟩⟩
  · rw [h'.takes.buffer, h.takes.buffer]
  · rw [h'.takes.pos, h.takes.pos, Nat.add_assoc]
  · rw [h'.puts.buffer, h.puts.buffer, h.puts.pos, write_append]
  · rw [h'.puts.pos, h.puts.pos, List.length_append, Nat.add_assoc]

theorem takes_advance {m : NetworkMessage} {size : Nat} (h : m.Readable size) :
    Takes size m (m.advance size) := by
  have hlt := h.2
  unfold Utils.NETWORKMESSAGE_MAXSIZE at hlt
  exact ⟨rfl, advance_pos (by omega)⟩

theorem takes_refuse (m : NetworkMessage) : Takes 0 m m.refuse := ⟨rfl, rfl⟩

theorem puts_append {m : NetworkMessage} {bytes : Bytes} (h : m.canAdd bytes.length = true) :
    Puts bytes m (m.append bytes) := by
  have hlt := canAdd_iff.mp h
  rw [MAX_BODY_LENGTH_eq] at hlt
  exact ⟨rfl, append_pos (by omega)⟩

theorem puts_nil (m : NetworkMessage) : Puts [] m m := ⟨(write_nil _ _).symm, rfl⟩

/-- `get<T>()`: the number at the cursor, or zero. -/
theorem get_spec (m : NetworkMessage) (w : Width) :
    (m.get w).1.toNat = (if m.Readable w.bytes then number w m else 0) ∧
      Takes (if m.Readable w.bytes then w.bytes else 0) m (m.get w).2 := by
  by_cases h : m.Readable w.bytes
  · rw [get_of_readable h, if_pos h, if_pos h]
    exact ⟨rfl, takes_advance h⟩
  · rw [get_of_not_readable h, if_neg h, if_neg h]
    exact ⟨rfl, takes_refuse m⟩

/-- `add<T>(value)`: all bytes of the value, or none. -/
theorem puts_add (m : NetworkMessage) (w : Width) (value : w.Value) :
    Puts (if m.canAdd w.bytes = true then w.encode value else []) m (m.add w value) := by
  rw [add_eq]
  by_cases h : m.canAdd w.bytes = true
  · rw [if_pos h, if_pos h]
    exact puts_append (by rw [Width.length_encode]; exact h)
  · rw [if_neg h, if_neg h]
    exact puts_nil m

/-- `addString(value)`: length and characters, or nothing. -/
theorem puts_addString (m : NetworkMessage) (value : Bytes) :
    Puts (if m.canAdd (value.length + 2) = true ∧ value.length ≤ 8192 then
      Width.encode .u16 (BitVec.ofNat _ value.length) ++ value else []) m (m.addString value) := by
  rw [addString_eq]
  by_cases h : m.canAdd (value.length + 2) = true ∧ value.length ≤ 8192
  · rw [if_pos h, if_pos h]
    have hlt := canAdd_iff.mp h.1
    rw [MAX_BODY_LENGTH_eq] at hlt
    have hlength : (Width.encode .u16 (BitVec.ofNat _ value.length)).length = 2 :=
      Width.length_encode .u16 _
    have hhead : (m.append (Width.encode .u16 (BitVec.ofNat _ value.length))).pos =
        m.pos + 2 := by
      rw [append_pos (by omega), hlength]
    refine ⟨?_, ?_⟩
    · rw [write_append, hlength, ← hhead]
      rfl
    · rw [append_pos (by omega), hhead, List.length_append, hlength, Nat.add_assoc]
  · rw [if_neg h, if_neg h]
    exact puts_nil m

/-- The string at the cursor, where all of it can be read. -/
def text (m : NetworkMessage) : Bytes :=
  if m.Readable 2 ∧ m.Readable (2 + number .u16 m) then chars m else []

/-- `getString()`: without its characters, a length is read all the same. -/
theorem getString_spec (m : NetworkMessage) :
    (m.getString).1 = text m ∧
      Takes (if m.Readable 2 then 2 + (text m).length else 0) m (m.getString).2 := by
  rw [getString_eq, if_pos rfl]
  by_cases h : m.Readable 2
  · have hpos : (m.advance 2).pos = m.pos + 2 := (takes_advance h).pos
    have hchars : (m.advance 2).Readable (number .u16 m) ↔
        m.Readable (2 + number .u16 m) := by
      unfold Readable
      rw [hpos, advance_len, Nat.add_assoc]
    rw [get_of_readable (w := .u16) h, if_pos h]
    show ((m.advance 2).getChars (number .u16 m)).1 = _ ∧
      Takes _ m ((m.advance 2).getChars (number .u16 m)).2
    unfold getChars text
    by_cases hall : m.Readable (2 + number .u16 m)
    · rw [if_pos (hchars.mpr hall), if_pos ⟨h, hall⟩]
      have htakes := takes_advance (hchars.mpr hall)
      refine ⟨?_, ⟨rfl, ?_⟩⟩
      · show read m.buffer (m.advance 2).pos _ = _
        rw [hpos]
        rfl
      · rw [htakes.pos, hpos, chars, length_read, Nat.add_assoc]
    · rw [if_neg (fun hyes => hall (hchars.mp hyes)), if_neg (fun hyes => hall hyes.2)]
      exact ⟨rfl, rfl, hpos⟩
  · rw [get_of_not_readable (w := .u16) h, if_neg h, text, if_neg (fun hyes => h hyes.1)]
    show (m.refuse.getChars 0).1 = _ ∧ Takes 0 m (m.refuse.getChars 0).2
    unfold getChars
    by_cases hzero : m.refuse.Readable 0
    · rw [if_pos hzero]
      exact ⟨rfl, rfl, (takes_advance hzero).pos⟩
    · rw [if_neg hzero]
      exact ⟨rfl, rfl, rfl⟩

theorem read_number {w : Width} {m : NetworkMessage} :
    w.encode (w.decode (read m.buffer m.pos w.bytes)) = read m.buffer m.pos w.bytes :=
  w.encode_decode (length_read _ _ _)

theorem field_number (w : Width) (s : Relay) :
    field (.number w) s =
      if (s.msg.get w).1.toNat < 2 ^ 31 then
        some ⟨(s.msg.get w).2, s.out.update fun m => m.add w (s.msg.get w).1⟩
      else none := by
  have hadd : addNumber w = fun value m => m.add w value := by
    funext value m
    exact addNumber_eq w value m
  rw [field, getNumber_eq]
  dsimp only
  rw [LuaStack.pop_push, hadd]
  split <;> rfl

theorem field_string (s : Relay) :
    field .string s =
      some ⟨(s.msg.getString).2, s.out.update fun m => m.addString (cString (text s.msg))⟩ := by
  rw [field, ← (getString_spec s.msg).1, ← LuaStack.popString_pushString]

/-- Every field moves both cursors forwards. -/
theorem field_moves {k : Field} {s t : Relay} (h : field k s = some t) :
    ∃ size bytes, Moves size bytes s t := by
  cases k with
  | number w =>
      rw [field_number] at h
      split at h
      · cases h
        exact ⟨_, _, (get_spec s.msg w).2, puts_add _ w _⟩
      · cases h
  | string =>
      rw [field_string] at h
      cases h
      exact ⟨_, _, (getString_spec s.msg).2, puts_addString _ _⟩

/-- A number is relayed if it is there, is an `int` and has room. -/
theorem number_relayed_iff (w : Width) (s : Relay) :
    (∃ t, field (.number w) s = some t ∧ written s t = consumed s t) ↔
      Fits (.number w) s := by
  have hget := get_spec s.msg w
  have hpos := w.bytes_pos
  let t : Relay := ⟨(s.msg.get w).2, s.out.update fun m => m.add w (s.msg.get w).1⟩
  have hmoves : Moves _ _ s t := ⟨hget.2, puts_add s.out.toNetworkMessage w (s.msg.get w).1⟩
  have hfield : (∃ u, field (.number w) s = some u ∧ written s u = consumed s u) ↔
      (s.msg.get w).1.toNat < 2 ^ 31 ∧ written s t = consumed s t := by
    rw [field_number]
    by_cases hint : (s.msg.get w).1.toNat < 2 ^ 31
    · rw [if_pos hint]
      constructor
      · rintro ⟨u, hu, heq⟩
        cases hu
        exact ⟨hint, heq⟩
      · exact fun heq => ⟨t, rfl, heq.2⟩
    · rw [if_neg hint]
      constructor
      · rintro ⟨u, hu, -⟩
        cases hu
      · exact fun heq => absurd heq.1 hint
  rw [hfield, hmoves.written, hmoves.consumed, hget.1]
  simp only [Fits]
  by_cases h : s.msg.Readable w.bytes
  · have hvalue : w.encode (s.msg.get w).1 = read s.msg.buffer s.msg.pos w.bytes := by
      rw [get_of_readable h]
      exact read_number
    rw [if_pos h, if_pos h, if_pos h, hvalue]
    refine and_congr_right fun _ => ?_
    by_cases hroom : s.out.canAdd w.bytes = true
    · rw [if_pos hroom]
      exact iff_of_true rfl hroom
    · rw [if_neg hroom]
      refine iff_of_false (fun heq => ?_) hroom
      have hlength := congrArg List.length heq
      rw [length_read, List.length_nil] at hlength
      omega
  · rw [if_neg h, if_neg h, if_neg h, ByteMemory.read]
    by_cases hroom : s.out.canAdd w.bytes = true
    · rw [if_pos hroom]
      exact iff_of_false (fun heq => w.encode_ne_nil _ heq.2) (fun hno => hno hroom)
    · rw [if_neg hroom]
      exact iff_of_true ⟨by decide, rfl⟩ hroom

theorem length_cString_lt {value : Bytes} (h : 0 ∈ value) :
    (cString value).length < value.length := by
  have hleading : cString value <+: value := List.takeWhile_prefix _
  refine Nat.lt_of_le_of_ne hleading.length_le (fun heq => ?_)
  exact cString_eq_iff.mp (hleading.eq_of_length heq) h

/-- A string is relayed if it is there, has no zero byte, is no longer than
`addString` takes and has room. -/
theorem string_relayed_iff (s : Relay) :
    (∃ t, field .string s = some t ∧ written s t = consumed s t) ↔ Fits .string s := by
  have hget := getString_spec s.msg
  let t : Relay :=
    ⟨(s.msg.getString).2, s.out.update fun m => m.addString (cString (text s.msg))⟩
  have hmoves : Moves _ _ s t :=
    ⟨hget.2, puts_addString s.out.toNetworkMessage (cString (text s.msg))⟩
  have hfield : (∃ u, field .string s = some u ∧ written s u = consumed s u) ↔
      written s t = consumed s t := by
    rw [field_string]
    constructor
    · rintro ⟨u, hu, heq⟩
      cases hu
      exact heq
    · exact fun heq => ⟨t, rfl, heq⟩
  rw [hfield, hmoves.written, hmoves.consumed]
  simp only [Fits]
  have hhead : Width.encode .u16 (BitVec.ofNat _ (number .u16 s.msg)) =
      read s.msg.buffer s.msg.pos 2 := by
    rw [number, BitVec.ofNat_toNat, BitVec.setWidth_eq]
    exact read_number (w := .u16)
  by_cases h : s.msg.Readable 2
  · rw [if_pos h, if_pos h, read_append]
    by_cases hall : s.msg.Readable (2 + number .u16 s.msg)
    · have htext : text s.msg = chars s.msg := if_pos ⟨h, hall⟩
      have hlength : (chars s.msg).length = number .u16 s.msg := length_read _ _ _
      have hconsumed : read s.msg.buffer s.msg.pos 2 ++
          read s.msg.buffer (s.msg.pos + 2) (text s.msg).length =
            Width.encode .u16 (BitVec.ofNat _ (chars s.msg).length) ++ chars s.msg := by
        rw [htext, hlength, hhead]
        rfl
      rw [hconsumed, htext, and_iff_right hall, ← hlength]
      by_cases hzero : 0 ∈ chars s.msg
      · have hshort := length_cString_lt hzero
        refine iff_of_false (fun heq => ?_) (fun hfits => hfits.1 hzero)
        have hlengths := congrArg List.length heq
        split at hlengths
        · simp only [List.length_append, Width.length_encode] at hlengths
          omega
        · simp only [List.length_append, List.length_nil, Width.length_encode,
            Width.bytes] at hlengths
          omega
      · rw [cString_eq_iff.mpr hzero, and_iff_right hzero]
        by_cases hroom : s.out.canAdd ((chars s.msg).length + 2) = true ∧
            (chars s.msg).length ≤ 8192
        · rw [if_pos hroom]
          exact iff_of_true rfl hroom
        · rw [if_neg hroom]
          refine iff_of_false (fun heq => ?_) hroom
          exact List.append_ne_nil_of_left_ne_nil (Width.encode_ne_nil .u16 _) _ heq.symm
    · -- the length is consumed, and its characters cannot be
      have htext : text s.msg = [] := if_neg (fun hyes => hall hyes.2)
      refine iff_of_false (fun heq => ?_) (fun hfits => hall hfits.1)
      rw [htext, List.length_nil, ByteMemory.read_zero, List.append_nil] at heq
      split at heq
      · -- then the length was zero, and nothing was missing
        have hzero : number .u16 s.msg = 0 := by
          rw [number]
          show (Width.decode .u16 (read s.msg.buffer s.msg.pos 2)).toNat = 0
          rw [← heq]
          rfl
        rw [hzero] at hall
        exact hall h
      · have hlengths := congrArg List.length heq
        rw [length_read, List.length_nil] at hlengths
        omega
  · have htext : text s.msg = [] := if_neg (fun hyes => h hyes.1)
    rw [if_neg h, if_neg h, htext, ByteMemory.read_zero]
    by_cases hroom : s.out.canAdd 2 = true
    · refine iff_of_false (fun heq => ?_) (fun hno => hno hroom)
      rw [if_pos ⟨hroom, by decide⟩] at heq
      exact List.append_ne_nil_of_left_ne_nil (Width.encode_ne_nil .u16 _) _ heq
    · rw [if_neg (fun hyes => hroom hyes.1)]
      exact iff_of_true rfl hroom

/-- Every kind of field. -/
theorem field_relayed_iff (k : Field) (s : Relay) :
    (∃ t, field k s = some t ∧ written s t = consumed s t) ↔ Fits k s := by
  cases k with
  | number w => exact number_relayed_iff w s
  | string => exact string_relayed_iff s

/-! ## The whole script -/

/-- Where everything was relayed up to `t`, a later state is as far from the
start as it is from `t`. -/
theorem written_eq_consumed_iff {s t u : Relay} {size size' : Nat} {bytes bytes' : Bytes}
    (h : Moves size bytes s t) (h' : Moves size' bytes' t u)
    (heq : written s t = consumed s t) :
    written s u = consumed s u ↔ written t u = consumed t u := by
  have hall := h.trans h'
  rw [h.written, h.consumed] at heq
  rw [hall.written, hall.consumed, h'.written, h'.consumed, read_append, ← heq,
    List.append_cancel_left_eq, h.takes.buffer, h.takes.pos]

theorem run_moves {fields : List Field} {s t : Relay} (h : run field fields s = some t) :
    ∃ size bytes, Moves size bytes s t := by
  induction fields generalizing s with
  | nil =>
      cases h
      exact ⟨0, [], ⟨rfl, rfl⟩, ⟨(write_nil _ _).symm, rfl⟩⟩
  | cons k fields ih =>
      obtain ⟨u, hu, ht⟩ := run_cons_eq_some h
      obtain ⟨size, bytes, hfirst⟩ := field_moves hu
      obtain ⟨size', bytes', hrest⟩ := ih ht
      exact ⟨_, _, hfirst.trans hrest⟩

/-- After a field that is relayed, a script goes on as from the state after
it. -/
theorem relayed_cons {k : Field} {fields : List Field} {s t : Relay}
    (ht : field k s = some t) (heq : written s t = consumed s t) :
    Relayed (k :: fields) s ↔ Relayed fields t := by
  obtain ⟨size, bytes, hfirst⟩ := field_moves ht
  have hrun : ∀ before, run field (k :: before) s = run field before t := by
    intro before
    rw [run, ht]
    rfl
  constructor
  · intro h before hbefore
    obtain ⟨u, hu, hrelayed⟩ := h (k :: before) ((List.prefix_cons_inj k).mpr hbefore)
    rw [hrun] at hu
    obtain ⟨size', bytes', hrest⟩ := run_moves hu
    exact ⟨u, hu, (written_eq_consumed_iff hfirst hrest heq).mp hrelayed⟩
  · intro h before hbefore
    cases before with
    | nil => exact ⟨s, rfl, by rw [written, consumed, Nat.sub_self, Nat.sub_self]; rfl⟩
    | cons first before =>
        obtain ⟨rfl, htail⟩ := List.cons_prefix_cons.mp hbefore
        obtain ⟨u, hu, hrelayed⟩ := h before htail
        obtain ⟨size', bytes', hrest⟩ := run_moves hu
        exact ⟨u, by rw [hrun, hu], (written_eq_consumed_iff hfirst hrest heq).mpr hrelayed⟩

/-- A script relays its message, field after field, if and only if every field
fits when it is its turn. -/
theorem script_relayed_iff (fields : List Field) (s : Relay) :
    Relayed fields s ↔ Obeys field Fits fields s := by
  induction fields generalizing s with
  | nil =>
      refine iff_of_true (fun before hbefore => ?_) trivial
      rw [List.prefix_nil.mp hbefore]
      exact ⟨s, rfl, by rw [written, consumed, Nat.sub_self, Nat.sub_self]; rfl⟩
  | cons k fields ih =>
      rw [Obeys, ← field_relayed_iff]
      constructor
      · intro h
        have hfirst : ∃ t, field k s = some t ∧ written s t = consumed s t := by
          obtain ⟨t, ht, heq⟩ := h [k] (List.cons_prefix_cons.mpr ⟨rfl, List.nil_prefix⟩)
          obtain ⟨u, hu, hnil⟩ := run_cons_eq_some ht
          cases hnil
          exact ⟨t, hu, heq⟩
        obtain ⟨t, ht, heq⟩ := hfirst
        refine ⟨⟨t, ht, heq⟩, fun u hu => ?_⟩
        cases ht.symm.trans hu
        exact (ih t).mp ((relayed_cons ht heq).mp h)
      · rintro ⟨⟨t, ht, heq⟩, hrest⟩
        exact (relayed_cons ht heq).mpr ((ih t).mpr (hrest t ht))

/-! ## Fields that are not relayed -/

/-- A body with an unsigned number that is no `int`. -/
def largeNumber : Relay :=
  ⟨{ length := 4, buffer := fun i => if i = 11 then 128 else 0 },
    OutputMessage.create fun _ => 0⟩

/-- A body with a string of three characters, the second one zero. -/
def zeroByte : Relay :=
  ⟨{ length := 5, buffer := fun i => if i = 8 then 3 else if i = 9 ∨ i = 11 then 0 else 97 },
    OutputMessage.create fun _ => 0⟩

/-- The number 2^31 has no defined value on the way back, and of three
characters one arrives. -/
theorem relay_fails :
    ¬ Relayed [.number .u32] largeNumber ∧ ¬ Relayed [.string] zeroByte ∧
      (field .string zeroByte).map (written zeroByte) = some [1, 0, 97] ∧
      (field .string zeroByte).map (consumed zeroByte) = some [3, 0, 97, 0, 97] := by
  refine ⟨?_, ?_, by decide, by decide⟩
  · rw [script_relayed_iff]
    intro h
    have hfits := h.1
    rw [Fits, if_pos (by decide)] at hfits
    exact absurd hfits.1 (by decide)
  · rw [script_relayed_iff]
    intro h
    have hfits := h.1
    rw [Fits, if_pos (by decide)] at hfits
    exact absurd hfits.2.1 (by decide)

end Relay

end LoginServer.Script
