import LoginServer.Network.AuthenticationGate
import LoginServer.Network.FirstFrame

/-!
# `Server::open` and the first frame of a client

Every handler of every connection runs inside `io_context.run()`, and the
only `try` around that is the one in `Server::open`, which catches
`boost::system::system_error`.  The private-key operation throws something
else when its input is not below the modulus, and the input is 128 bytes of
the client's first frame, checked for nothing but being there.

## Main results

* `parsePacket_survives_iff` — the handler chain, up to the private key.
* `threw_iff` — when the private key throws, in terms of the frame.
* `first_bytes_survive_iff` — which client bytes the server survives.
-/

namespace LoginServer.Core

open LoginServer.Verified
open LoginServer.Verified.ByteMemory
open LoginServer.Network
open LoginServer.Utils
open OutputMessage (lengthBytes length_lengthBytes)

/-- A 1024-bit RSA private key, as the crypto library documents it:
`CalculateInverse` answers below the modulus and throws from it on. -/
structure PrivateKey where
  modulus : Nat
  calculateInverse : Nat → Option Nat
  modulus_ge : 2 ^ 1023 ≤ modulus
  modulus_lt : modulus < 2 ^ 1024
  answers : ∀ x, x < modulus → (calculateInverse x).isSome
  throws : ∀ x, modulus ≤ x → calculateInverse x = none

def PrivateKey.rsaBlock (key : PrivateKey) : Rsa.Block → Option Rsa.Block :=
  Rsa.decryptBlock key.calculateInverse

theorem PrivateKey.rsaBlock_eq_none_iff (key : PrivateKey) (block : Rsa.Block) :
    key.rsaBlock block = none ↔ key.modulus ≤ LittleEndian.decodeBE block.1 := by
  have hcases := key.answers (LittleEndian.decodeBE block.1)
  have hthrows := key.throws (LittleEndian.decodeBE block.1)
  unfold PrivateKey.rsaBlock Rsa.decryptBlock
  cases hinverse : key.calculateInverse (LittleEndian.decodeBE block.1) with
  | none =>
      constructor
      · intro _
        by_contra hlt
        have := hcases (Nat.lt_of_not_le hlt)
        rw [hinverse] at this
        cases this
      · intro _
        rfl
  | some c =>
      constructor
      · intro h
        cases h
      · intro hle
        rw [hthrows hle] at hinverse
        cases hinverse

/-- What becomes of `Server::open` after a handler. -/
inductive Process where
  | running
  /-- the `catch` clause logs, and `open` returns -/
  | stopped
  /-- no clause matches -/
  | terminated
  deriving DecidableEq

/-- The `try` block of `Server::open` around `io_context.run()`. -/
def openAfter (c : Connection) : Process :=
  match c.escaped with
  | none => .running
  | some .systemError => .stopped
  | some .cryptoException => .terminated

/-- The handler returned normally: the connection is closed or reads on. -/
def Survives (c : Connection) : Prop :=
  openAfter c = .running ∧ (c.closed = true ∨ c.reads ≠ [])

/-! ## The handler chain -/

theorem close_survives {c : Connection} (h : c.escaped = none) : Survives c.close := by
  constructor
  · rw [openAfter, (Connection.close_sameGate c).escaped, h]
  · exact Or.inl (Connection.close_closed c)

theorem armHeaderRead_survives {c : Connection} (throws : Bool) (h : c.escaped = none) :
    Survives (c.armHeaderRead throws) := by
  unfold Connection.armHeaderRead
  split
  · exact close_survives h
  · constructor
    · rw [openAfter, h]
    · right
      simp

/-- A failed read closes the connection. -/
theorem step_readFailed_survives (env : Env) {c : Connection} {target : ReadTarget}
    {isOpen : Bool} (bytes : Bytes) (turn : Turn) (hreads : c.reads = [⟨target, isOpen⟩])
    (hescaped : c.escaped = none) (hlen : bytes.length < target.size) :
    ∃ d, c.step env (.readFailed 0 bytes turn) = some d ∧ Survives d := by
  refine ⟨_, Connection.step_readFailed env turn hreads hescaped hlen, ?_⟩
  cases target with
  | header => exact close_survives hescaped
  | body size => exact close_survives hescaped

/-- `authenticate` lets an exception out in one branch only. -/
theorem authenticate_escaped (env : Env) (c : Connection) (turn : Turn)
    (h : c.escaped = none) :
    (c.authenticate env turn).escaped =
      if (readLogin env c.msg).1.branch = .threw then some .cryptoException else none := by
  unfold Connection.authenticate
  dsimp only
  generalize (readLogin env c.msg).1 = login
  generalize (readLogin env c.msg).2 = msg
  have hstore : (c.storeLogin login msg).escaped = none := h
  generalize c.storeLogin login msg = d at hstore ⊢
  cases login.branch with
  | threw => rfl
  | rsaRejected => exact (Connection.close_sameGate d).escaped.trans hstore
  | versionRejected =>
      exact (Connection.disconnectClient_sameGate d turn _).escaped.trans hstore
  | emptyEmail =>
      exact (Connection.disconnectClient_sameGate d turn _).escaped.trans hstore
  | emptyPassword =>
      exact (Connection.disconnectClient_sameGate d turn _).escaped.trans hstore
  | badAccount =>
      exact (Connection.disconnectClient_sameGate d turn _).escaped.trans hstore
  | accepted => exact (Connection.send_sameGate d _ _).escaped.trans hstore

/-- What `parsePacket` does when its connection is open. -/
theorem survives_after_handler {c : Connection} (throws : Bool)
    (hescaped : c.escaped = none ∨ c.escaped = some .cryptoException) :
    Survives (if c.escaped.isSome then c else c.armHeaderRead throws) ↔ c.escaped = none := by
  rcases hescaped with hnone | hthrown
  · rw [hnone]
    constructor
    · intro _
      rfl
    · intro _
      exact armHeaderRead_survives throws hnone
  · constructor
    · intro h
      rw [if_pos (by rw [hthrown]; rfl)] at h
      have hrunning := h.1
      rw [openAfter, hthrown] at hrunning
      cases hrunning
    · intro hnone
      rw [hthrown] at hnone
      cases hnone

/-- The handler of the first body survives unless the private key throws. -/
theorem parsePacket_survives_iff (env : Env) {c : Connection} (turn : Turn)
    (hclosed : c.closed = false) (hfirst : c.receivedFirst = false)
    (hescaped : c.escaped = none) :
    Survives (c.parsePacket env false turn) ↔
      (readLogin env (c.msg.stripChecksum.skipBytes 1)).1.branch ≠ .threw := by
  have hout := authenticate_escaped env (c.authenticating) turn hescaped
  have hmsg : c.authenticating.msg = c.msg.stripChecksum.skipBytes 1 := rfl
  rw [hmsg] at hout
  rw [Connection.parsePacket_first env turn hclosed hfirst]
  generalize c.authenticating.authenticate env turn = d at hout ⊢
  rw [survives_after_handler]
  · by_cases hthrew : (readLogin env (c.msg.stripChecksum.skipBytes 1)).1.branch = .threw
    · rw [if_pos hthrew] at hout
      rw [hout]
      constructor
      · intro h
        cases h
      · intro h
        exact absurd hthrew h
    · rw [if_neg hthrew] at hout
      exact ⟨fun _ => hthrew, fun _ => hout⟩
  · rw [hout]
    split
    · exact Or.inr rfl
    · exact Or.inl rfl

/-! ## The private key and the frame -/

/-- The body has a block, and the block is not below the modulus. -/
def BlockTooLarge (key : PrivateKey) (body : Bytes) : Prop :=
  blockStart body + 128 ≤ body.length ∧
    key.modulus ≤ LittleEndian.decodeBE (rsaBlockOf body)

theorem afterRsa_threw_iff (env : Env) (version : BitVec 16)
    (result : Option Bool × NetworkMessage) :
    (afterRsa env version result).1.branch = .threw ↔ result.1 = none := by
  obtain ⟨answer, msg⟩ := result
  match answer with
  | none => exact ⟨fun _ => rfl, fun _ => rfl⟩
  | some false =>
      constructor
      · intro h
        cases h
      · intro h
        cases h
  | some true =>
      constructor
      · intro h
        change (readCredentials env version (readKey msg).1 (readKey msg).2).1.branch = _ at h
        unfold readCredentials at h
        dsimp only at h
        split at h
        · cases h
        · split at h
          · cases h
          · split at h
            · cases h
            · dsimp only at h
              split at h <;> cases h
      · intro h
        cases h

/-- When the private key throws on a delivered frame. -/
theorem threw_iff (key : PrivateKey) (env : Env) {old m : NetworkMessage} {body : Bytes}
    (h : Connection.Delivered old m body) (hsize : AcceptedSize body.length) :
    (readLogin { env with rsaBlock := key.rsaBlock } (m.stripChecksum.skipBytes 1)).1.branch =
        .threw ↔
      BlockTooLarge key body := by
  have hlo := hsize.1
  have hlen : m.stripChecksum.len = body.length + 2 := by
    rw [NetworkMessage.stripChecksum_len h.pos, h.len]
  have hle : m.stripChecksum.pos ≤ 6 := by
    rw [NetworkMessage.stripChecksum_pos h.pos]
    split <;> decide
  rw [readLogin_eq hle _ (by omega), afterRsa_threw_iff]
  by_cases hfits : blockStart body + 128 ≤ body.length
  · obtain ⟨hpos, hblockLen, hblock⟩ := atBlock_beforeRsa h hfits
    have hthrows := key.rsaBlock_eq_none_iff (rsaInput (beforeRsa m.stripChecksum))
    have hinput : (rsaInput (beforeRsa m.stripChecksum)).1 = rsaBlockOf body := hblock
    rw [hinput] at hthrows
    rw [rsaDecrypt_of_fits _ (by omega)]
    dsimp only
    cases hresult : key.rsaBlock (rsaInput (beforeRsa m.stripChecksum)) with
    | none => exact ⟨fun _ => ⟨hfits, hthrows.mp hresult⟩, fun _ => rfl⟩
    | some c =>
        constructor
        · intro hnone
          cases hnone
        · rintro ⟨-, hle⟩
          rw [hthrows.mpr hle] at hresult
          cases hresult
  · rw [rsaDecrypt_of_short _ (short_beforeRsa h hfits)]
    constructor
    · intro hnone
      cases hnone
    · rintro ⟨hfits', -⟩
      exact absurd hfits' hfits

/-- The bytes are a whole frame that `parseHeader` accepts, and the RSA block
in it is not below the modulus. -/
def Fatal (key : PrivateKey) (bytes : Bytes) : Prop :=
  AcceptedSize (announced bytes) ∧ announced bytes + 2 ≤ bytes.length ∧
    BlockTooLarge key (sentBody bytes)

section
variable (env : Env) (memory : Memory) (bytes : Bytes) (t1 t2 : Turn)

/-- Too few bytes for a header. -/
private theorem survives_no_header (h : bytes.length < 2) :
    ∃ c, Connection.run env [.readFailed 0 bytes t1] (.accept memory) = some c ∧
      Survives c := by
  obtain ⟨c, hfailed, hsurvives⟩ := step_readFailed_survives env bytes t1
    (c := .accept memory) rfl rfl h
  refine ⟨c, ?_, hsurvives⟩
  show (Connection.step env (.readFailed 0 bytes t1) (.accept memory)).bind _ = _
  rw [hfailed]
  rfl

/-- The header is refused, or the read of the body cannot be started. -/
private theorem survives_refused (hlen : 2 ≤ bytes.length)
    (h : ¬ AcceptedSize (announced bytes) ∨ t1.readArmThrows = true) :
    ∃ c, Connection.run env [.readDone 0 (bytes.take 2) t1] (.accept memory) = some c ∧
      Survives c := by
  have htake : (bytes.take 2).length = 2 := by
    rw [List.length_take, Nat.min_eq_left hlen]
  let c := (Connection.fresh memory).receive .header (bytes.take 2)
  have hrun : Connection.run env [.readDone 0 (bytes.take 2) t1] (.accept memory) =
      some (c.parseHeader false t1) := by
    show (Connection.step env (.readDone 0 (bytes.take 2) t1) (.accept memory)).bind _ = _
    rw [Connection.step_readDone env t1 rfl rfl htake]
    rfl
  have hsize : c.msg.getLengthHeader = announced bytes := by
    show LittleEndian.decode (read (write memory 0 (bytes.take 2)) 0 2) = _
    rw [read_write_of_length htake]
    rfl
  refine ⟨_, hrun, ?_⟩
  unfold Connection.parseHeader
  dsimp only
  rw [if_neg (by decide), hsize]
  by_cases haccepted : AcceptedSize (announced bytes)
  · have hthrows : t1.readArmThrows = true := by
      rcases h with hrefused | hthrows
      · exact absurd haccepted hrefused
      · exact hthrows
    have hsize' : ¬ (announced bytes = 0 ∨ announced bytes ≥ NETWORKMESSAGE_MAXSIZE - 16) := by
      unfold AcceptedSize at haccepted
      omega
    rw [if_neg hsize', if_pos hthrows]
    exact close_survives rfl
  · have hsize' : announced bytes = 0 ∨ announced bytes ≥ NETWORKMESSAGE_MAXSIZE - 16 := by
      unfold AcceptedSize at haccepted
      omega
    rw [if_pos hsize']
    exact close_survives rfl

/-- The body does not arrive in full. -/
private theorem survives_truncated (hlen : 2 ≤ bytes.length)
    (hsize : AcceptedSize (announced bytes)) (hturn : t1.readArmThrows = false)
    (hshort : (bytes.drop 2).length < announced bytes) :
    ∃ c, Connection.run env
        [.readDone 0 (bytes.take 2) t1, .readFailed 0 (bytes.drop 2) t2]
        (.accept memory) = some c ∧ Survives c := by
  let frame : Frame := ⟨List.replicate (announced bytes) 0, by
    rw [List.length_replicate]
    exact announced_lt hlen⟩
  have hbody : frame.body.length = announced bytes := List.length_replicate
  have hheader : frame.header = bytes.take 2 := by
    rw [Frame.header, hbody, lengthBytes_announced hlen]
  obtain ⟨hstep, hreads, hescaped⟩ := Connection.step_first_header env memory frame hturn
    (by rw [hbody]; exact hsize)
  rw [hheader] at hstep hreads hescaped
  obtain ⟨d, hfailed, hsurvives⟩ :=
    step_readFailed_survives env (bytes.drop 2) t2 hreads hescaped (by rw [hbody]; exact hshort)
  refine ⟨d, ?_, hsurvives⟩
  show (Connection.step env (.readDone 0 (bytes.take 2) t1) (.accept memory)).bind _ = _
  rw [hstep]
  show (Connection.step env (.readFailed 0 (bytes.drop 2) t2) _).bind _ = _
  rw [hfailed]
  rfl

/-- The whole frame arrives. -/
private theorem survives_frame (key : PrivateKey) (hlen : announced bytes + 2 ≤ bytes.length)
    (hsize : AcceptedSize (announced bytes)) (hturn : t1.readArmThrows = false) :
    ∃ c, Connection.run { env with rsaBlock := key.rsaBlock }
        [.readDone 0 (bytes.take 2) t1, .readDone 0 (sentBody bytes) t2]
        (.accept memory) = some c ∧
      (Survives c ↔ ¬ BlockTooLarge key (sentBody bytes)) := by
  have hbody : (sentBody bytes).length = announced bytes := by
    rw [sentBody, List.length_take, List.length_drop]
    omega
  let frame : Frame := ⟨sentBody bytes, by
    rw [hbody]
    exact announced_lt (by omega)⟩
  have hsize' : AcceptedSize frame.body.length := by
    show AcceptedSize (sentBody bytes).length
    rw [hbody]
    exact hsize
  have hheader : frame.header = bytes.take 2 := by
    show lengthBytes (sentBody bytes).length = _
    rw [hbody, lengthBytes_announced (by omega)]
  have hrun := Connection.run_first_frame { env with rsaBlock := key.rsaBlock } memory frame
    t2 hturn hsize'
  rw [hheader] at hrun
  have hdelivered := Connection.delivered_firstBody memory frame hsize'
  obtain ⟨hclosed, hfirst, hescaped, -⟩ := Connection.firstBody_state memory frame hsize'
  refine ⟨_, hrun, ?_⟩
  rw [parsePacket_survives_iff _ t2 hclosed hfirst hescaped]
  exact not_congr (threw_iff key env hdelivered hsize')

/-- Whatever bytes a client sends first, the handlers return normally exactly
when these are not a frame with an RSA block that is not below the modulus
(or the read of its body could not be started).  Behind the block the lookup of
the account is taken to return. -/
theorem first_bytes_survive_iff (key : PrivateKey) :
    ∃ c, Connection.run { env with rsaBlock := key.rsaBlock } (clientInputs bytes t1 t2)
        (.accept memory) = some c ∧
      (Survives c ↔ t1.readArmThrows = true ∨ ¬ Fatal key bytes) := by
  unfold clientInputs
  by_cases hlen : bytes.length < 2
  · rw [if_pos hlen]
    obtain ⟨c, hrun, hsurvives⟩ :=
      survives_no_header { env with rsaBlock := key.rsaBlock } memory bytes t1 hlen
    refine ⟨c, hrun, fun _ => Or.inr ?_, fun _ => hsurvives⟩
    rintro ⟨-, hwhole, -⟩
    omega
  rw [if_neg hlen]
  by_cases hrefused : ¬ AcceptedSize (announced bytes) ∨ t1.readArmThrows = true
  · rw [if_pos hrefused]
    obtain ⟨c, hrun, hsurvives⟩ :=
      survives_refused { env with rsaBlock := key.rsaBlock } memory bytes t1 (by omega) hrefused
    refine ⟨c, hrun, fun _ => ?_, fun _ => hsurvives⟩
    rcases hrefused with hsize | hthrows
    · exact Or.inr fun hfatal => hsize hfatal.1
    · exact Or.inl hthrows
  rw [if_neg hrefused]
  have hsize : AcceptedSize (announced bytes) := by
    by_contra hsize
    exact hrefused (Or.inl hsize)
  have hturn : t1.readArmThrows = false := by
    cases hthrows : t1.readArmThrows with
    | false => rfl
    | true => exact absurd (Or.inr hthrows) hrefused
  by_cases hshort : (bytes.drop 2).length < announced bytes
  · rw [if_pos hshort]
    obtain ⟨c, hrun, hsurvives⟩ := survives_truncated { env with rsaBlock := key.rsaBlock }
      memory bytes t1 t2 (by omega) hsize hturn hshort
    refine ⟨c, hrun, fun _ => Or.inr ?_, fun _ => hsurvives⟩
    rintro ⟨-, hwhole, -⟩
    rw [List.length_drop] at hshort
    omega
  · rw [if_neg hshort]
    rw [List.length_drop] at hshort
    obtain ⟨c, hrun, hsurvives⟩ :=
      survives_frame env memory bytes t1 t2 key (by omega) hsize hturn
    refine ⟨c, hrun,
      hsurvives.trans ⟨fun hblock => Or.inr fun hfatal => hblock hfatal.2.2, ?_⟩⟩
    rintro (hthrows | hfatal) hblock
    · rw [hturn] at hthrows
      cases hthrows
    · exact hfatal ⟨hsize, by omega, hblock⟩

end

/-- A key whose private operation is the identity below the modulus. -/
def sampleKey : PrivateKey where
  modulus := 2 ^ 1023
  calculateInverse x := if x < 2 ^ 1023 then some x else none
  modulus_ge := by decide +kernel
  modulus_lt := by decide +kernel
  answers x h := by
    rw [if_pos h]
    rfl
  throws x h := by
    rw [if_neg (Nat.not_lt.mpr h)]

/-- A frame of 150 bytes, all of them 255. -/
def allOnes : Bytes := [150, 0] ++ List.replicate 150 255

/-- One frame of 152 bytes ends the server. -/
theorem all_ones_terminates :
    (Connection.run { sampleEnv with rsaBlock := sampleKey.rsaBlock }
      (clientInputs allOnes {} {}) (.accept fun _ => 0)).map openAfter =
        some .terminated := by
  decide +kernel

end LoginServer.Core
