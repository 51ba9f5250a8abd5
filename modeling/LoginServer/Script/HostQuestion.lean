import LoginServer.Network.LoginSession
import LoginServer.Script.GameServerHost

/-!
# The question of a client

From the packet `GameServerHost` a client encrypts to the question the central
server reads: the cipher, the fields of the message, Lua strings, JSON.  The
names come through, up to their first zero byte.

## Main results

* `packet_read` — the packet is accepted, and what `_onReceiveNetworkMessage`
  gets of it.
* `question_carried` — what the central server gets of it.
-/

namespace LoginServer.Script

open LoginServer.Network
open LoginServer.Lib (Numerals)
open LoginServer.Verified
open LoginServer.Verified.ByteMemory
open LoginServer.Verified.BoundedReader
open LoginServer.Utils

/-- The fields of the packet. -/
def questionFields (instanceName instanceId : Bytes) : List Network.Field :=
  [.byte gameServerHostCode, .string instanceName, .string instanceId]

/-- What `XTEA::decrypt` makes of a frame that `c` gets. -/
def receivedPacket (c : Connection) (frame : Bytes) : Bool × NetworkMessage :=
  Xtea.decrypt c.protocol.key (c.deliver frame).msg.stripChecksum

/-- The message a subscriber is called with: its opcode is read. -/
def subscriberMessage (c : Connection) (frame : Bytes) : NetworkMessage :=
  (receivedPacket c frame).2.getByte.2

/-- The frame is accepted, and it is a `GameServerHost` packet. -/
structure IsQuestion (c : Connection) (frame : Bytes) : Prop where
  accepted : (receivedPacket c frame).1 = true
  opcode : (receivedPacket c frame).2.getByte.1 = gameServerHostCode

section
variable {c : Connection} {m : OutputMessage} {instanceName instanceId : Bytes}

theorem packet_read (hholds : m.Holds (Field.encodeAll (questionFields instanceName instanceId)))
    (hname : instanceName.length ≤ 8192) (hinstanceId : instanceId.length ≤ 8192) :
    IsQuestion c (encryptMessage c.protocol.key m).outputBytes ∧
      (subscriberMessage c (encryptMessage c.protocol.key m).outputBytes).getString.1 =
        instanceName ∧
      (subscriberMessage c
        (encryptMessage c.protocol.key m).outputBytes).getString.2.getString.1 = instanceId := by
  have hlength : (Field.encodeAll (questionFields instanceName instanceId)).length =
      instanceName.length + instanceId.length + 5 := by
    simp only [questionFields, Field.encodeAll, List.flatMap_cons, List.flatMap_nil,
      List.length_append, Field.length_encode_string, List.length_nil]
    simp only [Field.encode, List.length_singleton]
    omega
  obtain ⟨haccepted, hviews⟩ := decrypt_sent c hholds (by rw [hlength, UNPADDED]; omega)
  -- the three fields, one behind the other
  have hleft : Left
      ⟨Field.encodeAll (questionFields instanceName instanceId), 0, c.msg.overrun⟩
      ([gameServerHostCode] ++ (Field.encode (.string instanceName) ++
        (Field.encode (.string instanceId) ++ []))) := ⟨rfl, Nat.zero_le _⟩
  obtain ⟨hopcode, hrest, hoffset, -⟩ := Reader.take_append _ hleft.rest hleft.offset
  obtain ⟨hfirst, hleft⟩ := takeString_append ⟨hrest, hoffset⟩ (by omega)
  obtain ⟨hsecond, -⟩ := takeString_append hleft (by omega)
  obtain ⟨hgetByte, hviews⟩ := hviews.getByte
  rw [show 1 = [gameServerHostCode].length from rfl, hopcode] at hgetByte
  obtain ⟨hgetName, hviews⟩ := hviews.getString 0
  obtain ⟨hgetId, -⟩ := hviews.getString 0
  exact ⟨⟨haccepted, hgetByte⟩, hgetName.trans hfirst, hgetId.trans hsecond⟩

namespace LoginModule
variable {numerals : Numerals} {s s' : LoginModule}

/-- Whatever a client asks for, its packet gets to the module and the central
server is asked for it, with the number of the question; the callback keeps the
client. -/
theorem question_carried (hnumerals : numerals.Documented) {events : List ModuleEvent}
    (hrun : PartialRun.run (LoginModule.step numerals) events {} = some s)
    (hfew : s.requests.length + 1 < 10 ^ 14)
    (hholds : m.Holds (Field.encodeAll (questionFields instanceName instanceId)))
    (hname : instanceName.length ≤ 8192) (hinstanceId : instanceId.length ≤ 8192) {client : Nat}
    (hclient : client ∈ s.manager.accepted) {fields : List (Bytes × Lib.LuaValue (Fin 1))}
    (hperm : fields.Perm
      (requestFields (cString instanceName) (cString instanceId) (s.requests.length + 1))) :
    IsQuestion c (encryptMessage c.protocol.key m).outputBytes ∧
      ∃ s', step numerals (.receive client
        (subscriberMessage c (encryptMessage c.protocol.key m).outputBytes) fields true) s =
          some s' ∧
      (∃ p, s'.published = s.published ++ [p] ∧ centralQuestion numerals p =
        some (cString instanceName, cString instanceId, s.requests.length + 1)) ∧
      ∃ request, s'.requests = s.requests ++ [request] ∧ request.client = client ∧
        request.instanceName = cString instanceName ∧
        request.instanceId = cString instanceId := by
  have hlinked := linked_run hnumerals hrun
  obtain ⟨hpacket, hnameRead, hidRead⟩ := packet_read (c := c) hholds hname hinstanceId
  refine ⟨hpacket, ?_⟩
  clear hpacket
  generalize subscriberMessage c (encryptMessage c.protocol.key m).outputBytes = msg at *
  have hnumber : luaSucc s.login.answerIdGenerator = s.requests.length + 1 := by
    rw [hlinked.generator, luaSucc_min, ← hlinked.count]
    omega
  have hread : fields.Perm (requestFields (LuaStack.pushString msg.getString.1)
      (LuaStack.pushString msg.getString.2.getString.1) (luaSucc s.login.answerIdGenerator)) := by
    rw [hnameRead, hidRead, hnumber]
    exact hperm
  obtain ⟨s', hreceive⟩ :=
    onReceiveNetworkMessage_isSome numerals s client true hread
  have hstep : step numerals (.receive client msg fields true) s = some s' := by
    simp only [step, guard, if_pos hclient, Option.bind_eq_bind]
    exact hreceive
  obtain ⟨-, rfl⟩ := onReceiveNetworkMessage_cases hnumerals hreceive
  refine ⟨_, hstep, ⟨_, rfl, centralQuestion_request hnumerals hperm hfew⟩, _, rfl, rfl,
    ?_, ?_⟩
  · rw [hnameRead]
    rfl
  · rw [hidRead]
    rfl

/-- The packet of the instance `1` of `A` with a zero byte behind its name. -/
def samplePacket : OutputMessage :=
  Field.addAll (questionFields [65, 0, 66] [49]) (OutputMessage.create fun _ => 0)

theorem holds_samplePacket :
    samplePacket.Holds (Field.encodeAll (questionFields [65, 0, 66] [49])) :=
  Field.addAll_holds _ (OutputMessage.holds_create _)
    ⟨rfl, ⟨rfl, by decide⟩, ⟨rfl, by decide⟩, trivial⟩

theorem question_carried_sample :
    IsQuestion sampleClient (encryptMessage sampleClient.protocol.key samplePacket).outputBytes ∧
      ∃ s', step Lib.wholeNumerals (.receive 1 (subscriberMessage sampleClient
        (encryptMessage sampleClient.protocol.key samplePacket).outputBytes)
          (requestFields [65] [49] 1) true) { manager := ⟨1, [1], [1]⟩ } = some s' ∧
      (∃ p, s'.published = [] ++ [p] ∧
        centralQuestion Lib.wholeNumerals p = some ([65], [49], 1)) ∧
      ∃ request, s'.requests = [] ++ [request] ∧ request.client = 1 ∧
        request.instanceName = [65] ∧ request.instanceId = [49] := by
  have hrun : PartialRun.run (LoginModule.step Lib.wholeNumerals)
      [.connection .create, .connection (.accept 1)] {} =
        some { manager := ⟨1, [1], [1]⟩ } := rfl
  exact question_carried Lib.wholeNumerals_documented hrun (by decide) holds_samplePacket
    (by decide) (by decide) (by decide) (List.Perm.refl _)

end LoginModule

end

end LoginServer.Script
