import LoginServer.Network.NetworkMessage

/-!
# `RSA::decrypt`

The private-key operation itself belongs to the crypto library.  It is a
parameter here, either as the function it computes on a 128-byte block or as
`CalculateInverse` on integers; `none` is the exception it throws.
-/

namespace LoginServer.Utils.Rsa

open LoginServer.Network
open LoginServer.Verified
open LoginServer.Verified.ByteMemory

/-- The 128 bytes of one RSA block. -/
abbrev Block := { bytes : Bytes // bytes.length = 128 }

/-- `RSA::decrypt(char*)`: import the block as a big-endian integer, apply
`CalculateInverse`, export the result over the block. -/
def decryptBlock (calculateInverse : Nat → Option Nat) (msg : Block) :
    Option Block :=
  match calculateInverse (LittleEndian.decodeBE msg.1) with
  | none => none
  | some c => some ⟨LittleEndian.encodeBE 128 c, LittleEndian.length_encodeBE 128 c⟩

/-- `RSA::decrypt(NetworkMessage&)`; the answer is `none` when the block
operation throws. -/
def decrypt (rsaBlock : Block → Option Block) (m : NetworkMessage) :
    Option Bool × NetworkMessage :=
  if (m.len : Int) - m.pos < 128 then (some false, m)
  else
    let block : Block := ⟨read m.buffer m.pos 128, length_read _ _ _⟩
    let m := m.log (.read m.pos 128)
    match rsaBlock block with
    | none => (none, m)
    | some c =>
        let m := m.put m.pos c.1
        let (byte, m) := m.getByte
        (some (byte = 0), m)

end LoginServer.Utils.Rsa
