import LoginServer.Network.NetworkMessage

/-!
# `OutputMessage`: headers in front of the body

An outgoing message keeps eight bytes free in front of its body.
`add_header` fills them from the right: the inner length, then the checksum,
then the outer length.  `m_outputBufferStart` counts what is left, and an
`assert` is all that stops it from passing zero.
-/

namespace LoginServer.Network

open LoginServer.Verified.ByteMemory
open LoginServer.Utils (adlerChecksum)

structure OutputMessage extends NetworkMessage where
  outputBufferStart : UInt16 := 8

namespace OutputMessage

/-- `new OutputMessage`: only `m_info` and `m_outputBufferStart` are
initialised, the buffer holds what the memory held before. -/
def create (memory : Memory) : OutputMessage := { buffer := memory }

abbrev start (m : OutputMessage) : Nat := m.outputBufferStart.toNat

/-- The bytes `getOutputBuffer()[0, getLength())`, which `async_write` sends. -/
def outputBytes (m : OutputMessage) : Bytes :=
  read m.buffer m.start m.len

/-- `add_header<T>(add)`.  Where the assertion fails the subtraction wraps. -/
def addHeader (m : OutputMessage) (w : Width) (value : w.Value) : OutputMessage :=
  let checked := m.toNetworkMessage.log (.assertion (decide (m.start ≥ w.bytes)))
  let start := msgSize (m.start - w.bytes)
  let written := checked.put start.toNat (w.encode value)
  { written.setLength (written.len + w.bytes) with outputBufferStart := start }

def writeMessageLength (m : OutputMessage) : OutputMessage :=
  m.addHeader .u16 (BitVec.ofNat _ m.len)

def addCryptoHeader (m : OutputMessage) : OutputMessage :=
  let (data, msg) := m.load m.start m.len
  let m := { m with toNetworkMessage := msg }
  (m.addHeader .u32 (adlerChecksum data)).writeMessageLength

end OutputMessage

end LoginServer.Network
