import LoginServer.Verified.ByteMemory
import LoginServer.Verified.LittleEndian
import LoginServer.Utils.Tools

/-!
# `NetworkMessage`: one buffer, one cursor, two guards

The message class every byte of the login server goes through, as
`networkmessage.h` and `networkmessage.cpp` have it: a buffer of
`NETWORKMESSAGE_MAXSIZE` bytes, a 16-bit cursor, a 16-bit length, and an
overrun flag that is set by a refused read and never cleared.

Nothing in the source keeps an index inside the buffer except the two guards
`canAdd` and `canRead`, so the model does not either: `buffer` has a byte at
every index, and the ghost field `accesses` records every range of it that is
read or written and every value stored in a counter, before truncation.
Whether those stay in bounds is then a theorem and not part of the type.
-/

namespace LoginServer.Network

open LoginServer.Verified.ByteMemory
open LoginServer.Verified
open LoginServer.Utils (NETWORKMESSAGE_MAXSIZE)

/-- `std::string` and `char` buffers: any bytes, any length. -/
abbrev Bytes := List UInt8

instance : LawfulBEq Bytes := inferInstance

/-- `NetworkMessage::INITIAL_BUFFER_POSITION`. -/
def INITIAL_BUFFER_POSITION : Nat := 8
/-- `NetworkMessage::HEADER_LENGTH`. -/
def HEADER_LENGTH : Nat := 2
/-- `NetworkMessage::CHECKSUM_LENGTH`. -/
def CHECKSUM_LENGTH : Nat := 4
/-- `NetworkMessage::XTEA_MULTIPLE`. -/
def XTEA_MULTIPLE : Nat := 8
/-- `NetworkMessage::MAX_BODY_LENGTH`. -/
def MAX_BODY_LENGTH : Nat :=
  NETWORKMESSAGE_MAXSIZE - HEADER_LENGTH - CHECKSUM_LENGTH - XTEA_MULTIPLE

theorem MAX_BODY_LENGTH_eq : MAX_BODY_LENGTH = 24576 := rfl

/-- What the code does to `m_buffer` and to the counters, one entry a step. -/
inductive Access where
  /-- `size` bytes of `m_buffer` are read from index `lo` on -/
  | read (lo size : Nat)
  /-- `size` bytes of `m_buffer` are written from index `lo` on -/
  | write (lo size : Nat)
  /-- `value` is stored in `m_info.position` or `m_info.length` -/
  | counter (value : Int)
  /-- an `assert` is evaluated -/
  | assertion (holds : Bool)
  deriving DecidableEq, Repr

/-- The unsigned integer types the message templates are used at. -/
inductive Width where
  | u8 | u16 | u32 | u64
  deriving DecidableEq, Repr

/-- `sizeof(T)`. -/
@[reducible] def Width.bytes : Width → Nat
  | .u8 => 1
  | .u16 => 2
  | .u32 => 4
  | .u64 => 8

@[reducible] def Width.bits : Width → Nat
  | .u8 => 8
  | .u16 => 16
  | .u32 => 32
  | .u64 => 64

abbrev Width.Value (w : Width) := BitVec w.bits

/-- The object representation a `memcpy` out of the value copies. -/
def Width.encode (w : Width) (v : w.Value) : Bytes :=
  LittleEndian.encode w.bytes v.toNat

/-- The value a `memcpy` into the type gives. -/
def Width.decode (w : Width) (bytes : Bytes) : w.Value :=
  BitVec.ofNat _ (LittleEndian.decode bytes)

@[simp] theorem Width.length_encode (w : Width) (v : w.Value) :
    (w.encode v).length = w.bytes := by
  simp [Width.encode]

theorem Width.two_pow_bits (w : Width) : 2 ^ w.bits = 256 ^ w.bytes := by
  cases w <;> decide

theorem Width.decode_encode (w : Width) (v : w.Value) :
    w.decode (w.encode v) = v := by
  have hv : v.toNat < 256 ^ w.bytes := by
    rw [← w.two_pow_bits]
    exact v.isLt
  rw [Width.decode, Width.encode, LittleEndian.decode_encode_of_lt hv]
  simp

theorem Width.encode_decode (w : Width) {bytes : Bytes} (h : bytes.length = w.bytes) :
    w.encode (w.decode bytes) = bytes := by
  have hlt := LittleEndian.decode_lt bytes
  rw [h, ← w.two_pow_bits] at hlt
  have hvalue : (w.decode bytes).toNat = LittleEndian.decode bytes := by
    rw [Width.decode, BitVec.toNat_ofNat]
    exact Nat.mod_eq_of_lt hlt
  rw [Width.encode, hvalue, ← h, LittleEndian.encode_decode]

theorem Width.bytes_pos (w : Width) : 0 < w.bytes := by cases w <;> decide

theorem Width.encode_ne_nil (w : Width) (v : w.Value) : w.encode v ≠ [] := by
  apply List.ne_nil_of_length_pos
  rw [Width.length_encode]
  exact w.bytes_pos

/-- The `uint16_t` an `int` is converted to. -/
def msgSize (value : Int) : UInt16 := UInt16.ofNat (value % 65536).toNat

theorem msgSize_toNat {value : Int} (h0 : 0 ≤ value) (h1 : value < 65536) :
    (msgSize value).toNat = value.toNat := by
  rw [msgSize, UInt16.toNat_ofNat', Int.emod_eq_of_lt h0 h1]
  omega

/-- `NetworkMessage`: `m_info` and `m_buffer`, with the ghost record of the
accesses, newest first. -/
structure NetworkMessage where
  length : UInt16 := 0
  position : UInt16 := 8
  overrun : Bool := false
  buffer : Memory
  accesses : List Access := []

namespace NetworkMessage

/-- `m_info.length` as a number. -/
abbrev len (m : NetworkMessage) : Nat := m.length.toNat

/-- `m_info.position` as a number. -/
abbrev pos (m : NetworkMessage) : Nat := m.position.toNat

theorem len_lt (m : NetworkMessage) : m.len < 65536 := m.length.toNat_lt

/-! ## Primitive steps -/

/-- Record an access. -/
def log (m : NetworkMessage) (access : Access) : NetworkMessage :=
  { m with accesses := access :: m.accesses }

/-- `m_info.position = value`. -/
def setPosition (m : NetworkMessage) (value : Int) : NetworkMessage :=
  { m with position := msgSize value, accesses := .counter value :: m.accesses }

/-- `m_info.length = value`; also `setLength`. -/
def setLength (m : NetworkMessage) (value : Int) : NetworkMessage :=
  { m with length := msgSize value, accesses := .counter value :: m.accesses }

/-- Copy `size` bytes out of `m_buffer`. -/
def load (m : NetworkMessage) (lo size : Nat) : Bytes × NetworkMessage :=
  (read m.buffer lo size, m.log (.read lo size))

/-- Copy bytes into `m_buffer`. -/
def put (m : NetworkMessage) (lo : Nat) (bytes : Bytes) : NetworkMessage :=
  { m with
    buffer := write m.buffer lo bytes
    accesses := .write lo bytes.length :: m.accesses }

/-! ## Guards -/

/-- `canAdd(size)`. -/
def canAdd (m : NetworkMessage) (size : Nat) : Bool :=
  size + m.pos < MAX_BODY_LENGTH

/-- `canRead(size)`: a refused read sets the overrun flag. -/
def canRead (m : NetworkMessage) (size : Nat) : Bool × NetworkMessage :=
  if m.pos + size > m.len + 8 ∨
      (size : Int) ≥ (NETWORKMESSAGE_MAXSIZE : Int) - m.pos then
    (false, { m with overrun := true })
  else (true, m)

/-! ## Reading -/

/-- `getByte()`. -/
def getByte (m : NetworkMessage) : UInt8 × NetworkMessage :=
  match m.canRead 1 with
  | (false, m) => (0, m)
  | (true, m) =>
      let (_, m') := m.load m.pos 1
      (m.buffer m.pos, m'.setPosition (m.pos + 1))

/-- `get<T>()`. -/
def get (m : NetworkMessage) (w : Width) : w.Value × NetworkMessage :=
  match m.canRead w.bytes with
  | (false, m) => (0, m)
  | (true, m) =>
      let (bytes, m') := m.load m.pos w.bytes
      (w.decode bytes, m'.setPosition (m.pos + w.bytes))

/-- `getString(stringLen)`; `stringLen = 0`, the default, reads the length
from the message first. -/
def getString (m : NetworkMessage) (stringLen : BitVec 16 := 0) :
    Bytes × NetworkMessage :=
  let (stringLen, m) := if stringLen = 0 then m.get .u16 else (stringLen, m)
  match m.canRead stringLen.toNat with
  | (false, m) => ([], m)
  | (true, m) =>
      let (bytes, m') := m.load m.pos stringLen.toNat
      (bytes, m'.setPosition (m.pos + stringLen.toNat))

/-- `skipBytes(count)`: no guard. -/
def skipBytes (m : NetworkMessage) (count : Int) : NetworkMessage :=
  m.setPosition (m.pos + count)

/-! ## Writing -/

/-- `addByte(value)`. -/
def addByte (m : NetworkMessage) (value : UInt8) : NetworkMessage :=
  if !m.canAdd 1 then m
  else
    let m := m.put m.pos [value]
    let m := m.setPosition (m.pos + 1)
    m.setLength (m.len + 1)

/-- `add<T>(value)`. -/
def add (m : NetworkMessage) (w : Width) (value : w.Value) : NetworkMessage :=
  if !m.canAdd w.bytes then m
  else
    let m := m.put m.pos (w.encode value)
    let m := m.setPosition (m.pos + w.bytes)
    m.setLength (m.len + w.bytes)

/-- `addBytes(bytes, size)`. -/
def addBytes (m : NetworkMessage) (bytes : Bytes) : NetworkMessage :=
  if !m.canAdd bytes.length || bytes.length > 8192 then m
  else
    let m := m.put m.pos bytes
    let m := m.setPosition (m.pos + bytes.length)
    m.setLength (m.len + bytes.length)

/-- `addPaddingBytes(n)`: the length moves, the cursor does not. -/
def addPaddingBytes (m : NetworkMessage) (n : Nat) : NetworkMessage :=
  if !m.canAdd n then m
  else
    let m := m.put m.pos (List.replicate n 0x33)
    m.setLength (m.len + n)

/-- `addString(value)`. -/
def addString (m : NetworkMessage) (value : Bytes) : NetworkMessage :=
  if !m.canAdd (value.length + 2) || value.length > 8192 then m
  else
    let m := m.add .u16 (BitVec.ofNat _ value.length)
    let m := m.put m.pos value
    let m := m.setPosition (m.pos + value.length)
    m.setLength (m.len + value.length)

/-- `addDouble(value, precision)`.  `scaled` stands for the floating-point
expression, converted to `uint32_t`. -/
def addDouble {Double : Type} (scaled : Double → UInt8 → BitVec 32)
    (m : NetworkMessage) (value : Double) (precision : UInt8 := 2) : NetworkMessage :=
  let m := m.addByte precision
  m.add .u32 (scaled value precision)

/-! ## What the operations do

Every getter and adder either does nothing to the buffer and the counters, or
it is one `advance` or one `append`. -/

/-- Both tests of `canRead` pass. -/
def Readable (m : NetworkMessage) (size : Nat) : Prop :=
  m.pos + size ≤ m.len + 8 ∧ m.pos + size < NETWORKMESSAGE_MAXSIZE

instance (m : NetworkMessage) (size : Nat) : Decidable (m.Readable size) :=
  inferInstanceAs (Decidable (_ ∧ _))

/-- The message after a read that passed the guard. -/
def advance (m : NetworkMessage) (size : Nat) : NetworkMessage :=
  (m.log (.read m.pos size)).setPosition (m.pos + size)

/-- The message after a read that did not. -/
def refuse (m : NetworkMessage) : NetworkMessage := { m with overrun := true }

/-- The message after an add that passed the guard. -/
def append (m : NetworkMessage) (bytes : Bytes) : NetworkMessage :=
  ((m.put m.pos bytes).setPosition (m.pos + bytes.length)).setLength
    (m.len + bytes.length)

@[simp] theorem advance_len (m : NetworkMessage) (size : Nat) :
    (m.advance size).len = m.len := rfl

theorem advance_pos {m : NetworkMessage} {size : Nat} (h : m.pos + size < 65536) :
    (m.advance size).pos = m.pos + size := by
  show (msgSize _).toNat = _
  rw [msgSize_toNat (by omega) (by omega)]
  omega

theorem skipBytes_pos {m : NetworkMessage} (count : Nat)
    (h : m.pos + count < 65536) :
    (m.skipBytes count).pos = m.pos + count := by
  show (msgSize _).toNat = _
  rw [msgSize_toNat (by omega) (by omega)]
  omega

theorem append_pos {m : NetworkMessage} {bytes : Bytes}
    (h : m.pos + bytes.length < 65536) :
    (m.append bytes).pos = m.pos + bytes.length := by
  show (msgSize _).toNat = _
  rw [msgSize_toNat (by omega) (by omega)]
  omega

theorem append_len {m : NetworkMessage} {bytes : Bytes}
    (h : m.len + bytes.length < 65536) :
    (m.append bytes).len = m.len + bytes.length := by
  show (msgSize _).toNat = _
  rw [msgSize_toNat (by omega) (by omega)]
  omega

theorem canRead_of_readable {m : NetworkMessage} {size : Nat}
    (h : m.Readable size) : m.canRead size = (true, m) := by
  obtain ⟨hlen, hmax⟩ := h
  rw [canRead, if_neg (by omega)]

theorem canRead_of_not_readable {m : NetworkMessage} {size : Nat}
    (h : ¬ m.Readable size) : m.canRead size = (false, m.refuse) := by
  unfold Readable at h
  rw [canRead, if_pos (by omega)]
  rfl

theorem getByte_of_readable {m : NetworkMessage} (h : m.Readable 1) :
    m.getByte = (m.buffer m.pos, m.advance 1) := by
  rw [getByte, canRead_of_readable h]
  rfl

theorem getByte_of_not_readable {m : NetworkMessage} (h : ¬ m.Readable 1) :
    m.getByte = (0, m.refuse) := by
  rw [getByte, canRead_of_not_readable h]

theorem get_of_readable {m : NetworkMessage} {w : Width} (h : m.Readable w.bytes) :
    m.get w = (w.decode (read m.buffer m.pos w.bytes), m.advance w.bytes) := by
  rw [get, canRead_of_readable h]
  rfl

theorem get_of_not_readable {m : NetworkMessage} {w : Width}
    (h : ¬ m.Readable w.bytes) : m.get w = (0, m.refuse) := by
  rw [get, canRead_of_not_readable h]

/-- The part of `getString` after the length is known. -/
def getChars (m : NetworkMessage) (size : Nat) : Bytes × NetworkMessage :=
  if m.Readable size then (read m.buffer m.pos size, m.advance size)
  else ([], m.refuse)

theorem getString_eq (m : NetworkMessage) (stringLen : BitVec 16) :
    m.getString stringLen =
      if stringLen = 0 then (m.get .u16).2.getChars (m.get .u16).1.toNat
      else m.getChars stringLen.toNat := by
  have htail : ∀ (m : NetworkMessage) (size : Nat),
      (match m.canRead size with
        | (false, m) => (([] : Bytes), m)
        | (true, m) => (read m.buffer m.pos size, m.advance size)) =
          m.getChars size := by
    intro m size
    by_cases h : m.Readable size
    · rw [canRead_of_readable h, getChars, if_pos h]
    · rw [canRead_of_not_readable h, getChars, if_neg h]
  by_cases hzero : stringLen = 0
  · rw [if_pos hzero, ← htail, getString, if_pos hzero]
    rfl
  · rw [if_neg hzero, ← htail, getString, if_neg hzero]
    rfl

theorem canAdd_iff {m : NetworkMessage} {size : Nat} :
    m.canAdd size = true ↔ m.pos + size < MAX_BODY_LENGTH := by
  simp only [canAdd, decide_eq_true_eq]
  omega

theorem addByte_eq (m : NetworkMessage) (value : UInt8) :
    m.addByte value = if m.canAdd 1 then m.append [value] else m := by
  unfold addByte
  cases m.canAdd 1 <;> rfl

theorem add_eq (m : NetworkMessage) (w : Width) (value : w.Value) :
    m.add w value = if m.canAdd w.bytes then m.append (w.encode value) else m := by
  unfold add append
  cases m.canAdd w.bytes with
  | false => rfl
  | true =>
      rw [Width.length_encode]
      rfl

theorem addBytes_eq (m : NetworkMessage) (bytes : Bytes) :
    m.addBytes bytes =
      if m.canAdd bytes.length = true ∧ bytes.length ≤ 8192 then m.append bytes
      else m := by
  unfold addBytes
  cases m.canAdd bytes.length with
  | false => rfl
  | true =>
      by_cases hlen : bytes.length ≤ 8192
      · simp only [hlen, Nat.not_lt.mpr hlen]
        rfl
      · simp [hlen, Nat.not_le.mp hlen]

/-- A string goes in as its length and its characters, or not at all. -/
theorem addString_eq (m : NetworkMessage) (value : Bytes) :
    m.addString value =
      if m.canAdd (value.length + 2) = true ∧ value.length ≤ 8192 then
        (m.append (Width.encode .u16 (BitVec.ofNat _ value.length))).append value
      else m := by
  unfold addString
  cases hadd : m.canAdd (value.length + 2) with
  | false => rfl
  | true =>
      by_cases hlen : value.length ≤ 8192
      · -- the length prefix is within the room just tested for
        have hheadLen : m.canAdd (Width.bytes .u16) = true := by
          rw [canAdd_iff] at hadd ⊢
          simp only [Width.bytes]
          omega
        simp only [hlen, Nat.not_lt.mpr hlen, add_eq, hheadLen]
        rfl
      · simp [hlen, Nat.not_le.mp hlen]

/-! ## Headers of an incoming frame -/

/-- `getLengthHeader()`. -/
def getLengthHeader (m : NetworkMessage) : Nat :=
  LittleEndian.decode (read m.buffer 0 2)

/-- `getBodyBuffer()`: the cursor moves to the start of the body. -/
def getBodyBuffer (m : NetworkMessage) : NetworkMessage :=
  m.setPosition 2

end NetworkMessage

end LoginServer.Network
