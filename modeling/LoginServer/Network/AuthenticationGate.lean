import LoginServer.Network.Connection

/-!
# The authentication gate

`Protocol::parsePacket` decrypts with the session key, answers pings and
hands everything else to the modules.  Nothing in it asks whether the peer
has logged in.  `Connection::parsePacket` sets `m_receivedFirst` before it
calls `authenticate`, learns nothing about the outcome, and waits for the
next packet in any case.

What keeps a rejected peer out is `m_closed`: every rejecting branch closes
the connection before `authenticate` returns, and `parsePacket` returns at
once when it finds the connection closed.  `GateInv` is that argument as an
invariant of the state machine.

## Main results

* `complete_of_accepted` — the accepting branch implies every check.
* `GateInv.step`, `gateInv_run` — the invariant, over one input and over a
  run.
* `authentication_gate` — the entry points in any run.
-/

namespace LoginServer.Network

open LoginServer.Verified
open LoginServer.Utils

/-- The login passed every check of `authenticate`. -/
structure Login.Complete (env : Env) (login : Login) : Prop where
  rsaAccepted : login.key.isSome
  version : env.versionMin ≤ login.version
  email : ∃ email, login.email = some email ∧ email ≠ []
  password : ∃ password, login.password = some password ∧ password ≠ []
  account : ∃ account, login.account = some account ∧ account.id ≠ 0

private theorem readCredentials_complete {env : Env} {version : BitVec 16}
    {key : Xtea.Key} {msg : NetworkMessage}
    (h : (readCredentials env version key msg).1.branch = .accepted) :
    (readCredentials env version key msg).1.Complete env := by
  unfold readCredentials at h ⊢
  split at h
  · cases h
  · rename_i hversion
    rw [if_neg hversion]
    dsimp only at h ⊢
    split at h
    · cases h
    · rename_i hemail
      rw [if_neg hemail]
      split at h
      · cases h
      · rename_i hpassword
        rw [if_neg hpassword]
        dsimp only at h ⊢
        split at h
        · cases h
        · rename_i hid
          exact
            { rsaAccepted := rfl
              version := BitVec.not_lt.mp hversion
              email := ⟨_, rfl, by simpa using hemail⟩
              password := ⟨_, rfl, by simpa using hpassword⟩
              account := ⟨_, rfl, hid⟩ }

/-- The accepting branch is reached through every check. -/
theorem complete_of_accepted {env : Env} {msg : NetworkMessage}
    (h : (readLogin env msg).1.branch = .accepted) :
    (readLogin env msg).1.Complete env := by
  unfold readLogin at h ⊢
  dsimp only at h ⊢
  split at h
  · cases h
  · cases h
  · exact readCredentials_complete h

namespace Connection

/-- Two states that the gate does not tell apart, except that the second may
be closed. -/
structure SameGate (c c' : Connection) : Prop where
  history : c'.history = c.history
  receivedFirst : c'.receivedFirst = c.receivedFirst
  escaped : c'.escaped = c.escaped
  closed : c.closed = true → c'.closed = true

theorem SameGate.refl (c : Connection) : SameGate c c := ⟨rfl, rfl, rfl, id⟩

theorem SameGate.trans {a b c : Connection} (hab : SameGate a b)
    (hbc : SameGate b c) : SameGate a c :=
  ⟨hbc.history.trans hab.history, hbc.receivedFirst.trans hab.receivedFirst,
    hbc.escaped.trans hab.escaped, fun h => hbc.closed (hab.closed h)⟩

theorem closeSocket_sameGate (c : Connection) : SameGate c c.closeSocket := by
  unfold closeSocket
  split
  · exact ⟨rfl, rfl, rfl, id⟩
  · exact .refl c

theorem closeSocket_closed (c : Connection) : c.closeSocket.closed = c.closed := by
  unfold closeSocket
  split <;> rfl

theorem close_sameGate (c : Connection) : SameGate c c.close := by
  unfold close
  dsimp only
  split
  · exact ⟨rfl, rfl, rfl, id⟩
  · refine SameGate.trans ?_ (closeSocket_sameGate _)
    exact ⟨rfl, rfl, rfl, fun _ => rfl⟩

theorem SameGate.close {c d : Connection} (h : SameGate c d) : SameGate c d.close :=
  h.trans (close_sameGate d)

theorem close_closed (c : Connection) : c.close.closed = true := by
  unfold close
  dsimp only
  split
  · assumption
  · rw [closeSocket_closed]

theorem send_sameGate (c : Connection) (msg : OutputMessage) (throws : Bool) :
    SameGate c (c.send msg throws) := by
  unfold send
  split
  · exact close_sameGate c
  · exact ⟨rfl, rfl, rfl, id⟩

theorem disconnectClient_sameGate (c : Connection) (turn : Turn) (message : Bytes) :
    SameGate c (c.disconnectClient turn message) :=
  (send_sameGate c _ _).trans (close_sameGate _)

theorem disconnectClient_closed (c : Connection) (turn : Turn) (message : Bytes) :
    (c.disconnectClient turn message).closed = true :=
  close_closed _

theorem armHeaderRead_sameGate (c : Connection) (throws : Bool) :
    SameGate c (c.armHeaderRead throws) := by
  unfold armHeaderRead
  split
  · exact close_sameGate c
  · exact ⟨rfl, rfl, rfl, id⟩

theorem runActions_sameGate (actions : List ScriptAction) (c : Connection) :
    SameGate c (actions.foldl runAction c) := by
  induction actions generalizing c with
  | nil => exact .refl c
  | cons action actions ih =>
      have haction : SameGate c (c.runAction action) := by
        cases action with
        | message call => exact ⟨rfl, rfl, rfl, id⟩
        | send msg throws => exact send_sameGate c msg throws
      exact haction.trans (ih _)

theorem parseHeader_sameGate (c : Connection) (error : Bool) (turn : Turn) :
    SameGate c (c.parseHeader error turn) := by
  unfold parseHeader
  dsimp only
  split
  · exact SameGate.close ⟨rfl, rfl, rfl, id⟩
  · split
    · exact SameGate.close ⟨rfl, rfl, rfl, id⟩
    · split
      · exact SameGate.close ⟨rfl, rfl, rfl, id⟩
      · exact ⟨rfl, rfl, rfl, id⟩

/-- What `dispatch` does to the gate: one more milestone. -/
theorem dispatch_gate (c : Connection) (turn : Turn) :
    SameGate { c with history := c.history ++ [.dispatched] } (c.dispatch turn) := by
  unfold dispatch
  dsimp only
  split
  · exact ⟨rfl, rfl, rfl, id⟩
  · split
    · exact ⟨rfl, rfl, rfl, id⟩
    · refine SameGate.trans ?_ (runActions_sameGate _ _)
      exact ⟨rfl, rfl, rfl, id⟩

/-- What `authenticate` does to the gate: one more milestone, and a rejection
leaves the connection closed or the process dying. -/
theorem authenticate_gate (env : Env) (c : Connection) (turn : Turn) :
    (c.authenticate env turn).history =
        c.history ++ [.authenticated (readLogin env c.msg).1] ∧
      (c.authenticate env turn).receivedFirst = c.receivedFirst ∧
      ((readLogin env c.msg).1.branch ≠ .accepted →
        (c.authenticate env turn).closed = true ∨
          (c.authenticate env turn).escaped.isSome) := by
  unfold authenticate
  dsimp only
  generalize (readLogin env c.msg).1 = login
  generalize (readLogin env c.msg).2 = msg
  have hsame : SameGate
      { c with history := c.history ++ [.authenticated login] }
      (c.storeLogin login msg) := ⟨rfl, rfl, rfl, id⟩
  generalize c.storeLogin login msg = d at hsame ⊢
  cases hbranch : login.branch with
  | threw =>
      exact ⟨hsame.history, hsame.receivedFirst, fun _ => Or.inr rfl⟩
  | rsaRejected =>
      have h := hsame.trans (close_sameGate d)
      exact ⟨h.history, h.receivedFirst, fun _ => Or.inl (close_closed d)⟩
  | versionRejected =>
      have h := hsame.trans (disconnectClient_sameGate d turn
        (text "Only clients with protocol " ++ env.versionStr ++ text " allowed!"))
      exact ⟨h.history, h.receivedFirst, fun _ => Or.inl (disconnectClient_closed _ _ _)⟩
  | emptyEmail =>
      have h := hsame.trans (disconnectClient_sameGate d turn
        (text "Invalid account email."))
      exact ⟨h.history, h.receivedFirst, fun _ => Or.inl (disconnectClient_closed _ _ _)⟩
  | emptyPassword =>
      have h := hsame.trans (disconnectClient_sameGate d turn
        (text "Invalid password."))
      exact ⟨h.history, h.receivedFirst, fun _ => Or.inl (disconnectClient_closed _ _ _)⟩
  | badAccount =>
      have h := hsame.trans (disconnectClient_sameGate d turn
        (text "Invalid account email or password."))
      exact ⟨h.history, h.receivedFirst, fun _ => Or.inl (disconnectClient_closed _ _ _)⟩
  | accepted =>
      have h := hsame.trans (send_sameGate d
        (loginReply env turn.now turn.stack d.protocol.account) turn.writeArmThrows)
      exact ⟨h.history, h.receivedFirst, fun hne => absurd rfl hne⟩

/-! ## The invariant -/

/-- Before the first packet nothing ran.  After it `authenticate` ran once,
and if it rejected, nothing ran after it and nothing can. -/
structure GateInv (env : Env) (c : Connection) : Prop where
  fresh : c.receivedFirst = false → c.history = []
  started : c.receivedFirst = true → ∃ login rest,
    c.history = .authenticated login :: rest ∧
    (∀ m ∈ rest, m = .dispatched) ∧
    (login.branch = .accepted → login.Complete env) ∧
    (login.branch ≠ .accepted →
      rest = [] ∧ (c.closed = true ∨ c.escaped.isSome))

theorem GateInv.of_sameGate {env : Env} {c c' : Connection}
    (h : GateInv env c) (hs : SameGate c c') : GateInv env c' := by
  refine
    { fresh := ?_
      started := ?_ }
  · intro hfirst
    rw [hs.history]
    exact h.fresh (hs.receivedFirst ▸ hfirst)
  · intro hfirst
    obtain ⟨login, rest, hhist, hrest, hacc, hrej⟩ :=
      h.started (hs.receivedFirst ▸ hfirst)
    refine ⟨login, rest, hs.history.trans hhist, hrest, hacc, ?_⟩
    intro hne
    refine ⟨(hrej hne).1, ?_⟩
    rcases (hrej hne).2 with hclosed | hescaped
    · exact Or.inl (hs.closed hclosed)
    · exact Or.inr (hs.escaped ▸ hescaped)

theorem gateInv_accept (env : Env) (memory : Verified.ByteMemory.Memory) :
    GateInv env (accept memory) := by
  refine
    { fresh := fun _ => rfl
      started := ?_ }
  intro hfirst
  cases hfirst

/-- A packet on an open connection that has logged in is dispatched. -/
private theorem gateInv_dispatch {env : Env} {c : Connection} (turn : Turn)
    (h : GateInv env c) (hfirst : c.receivedFirst = true)
    (hclosed : c.closed = false) (hescaped : c.escaped = none) :
    GateInv env (c.dispatch turn) := by
  obtain ⟨login, rest, hhist, hrest, hacc, hrej⟩ := h.started hfirst
  -- a rejected peer would have been closed
  have haccepted : login.branch = .accepted := by
    by_contra hne
    rcases (hrej hne).2 with hc | he
    · rw [hclosed] at hc
      cases hc
    · rw [hescaped] at he
      cases he
  refine GateInv.of_sameGate ?_ (dispatch_gate c turn)
  refine
    { fresh := fun hf => absurd (hf.symm.trans hfirst) (by decide)
      started := fun _ => ?_ }
  refine ⟨login, rest ++ [.dispatched], ?_, ?_, hacc, ?_⟩
  · simp [hhist]
  · intro m hm
    rcases List.mem_append.mp hm with hm | hm
    · exact hrest m hm
    · simpa using hm
  · exact fun hne => absurd haccepted hne

/-- The first packet is authenticated. -/
private theorem gateInv_authenticate {env : Env} {c : Connection} (turn : Turn)
    (hnone : c.history = []) (hfirst : c.receivedFirst = true) :
    GateInv env (c.authenticate env turn) := by
  obtain ⟨hhist, hrf, hrej⟩ := authenticate_gate env c turn
  refine
    { fresh := fun hf => ?_
      started := fun _ => ?_ }
  · rw [hrf, hfirst] at hf
    cases hf
  · refine ⟨_, [], ?_, by simp, complete_of_accepted, fun hne => ⟨rfl, hrej hne⟩⟩
    rw [hhist, hnone, List.nil_append]

theorem gateInv_handlePacket {env : Env} {c : Connection} (turn : Turn)
    (h : GateInv env c) (hclosed : c.closed = false) (hescaped : c.escaped = none) :
    GateInv env (c.handlePacket env turn) := by
  unfold handlePacket
  split
  · rename_i hfirst
    exact gateInv_dispatch turn h hfirst hclosed hescaped
  · rename_i hfirst
    have hnone : c.history = [] := h.fresh (by simpa using hfirst)
    exact gateInv_authenticate turn hnone rfl

theorem gateInv_parsePacket {env : Env} {c : Connection} (error : Bool)
    (turn : Turn) (h : GateInv env c) (hescaped : c.escaped = none) :
    GateInv env (c.parsePacket env error turn) := by
  unfold parsePacket
  dsimp only
  split
  · exact h.of_sameGate (SameGate.close ⟨rfl, rfl, rfl, id⟩)
  · split
    · exact h.of_sameGate ⟨rfl, rfl, rfl, id⟩
    · rename_i hopen
      -- the checksum test does not concern the gate
      have hstripped : GateInv env { c with
          readTimer := c.readTimer.cancel, msg := c.msg.stripChecksum } :=
        h.of_sameGate ⟨rfl, rfl, rfl, id⟩
      have hhandled := gateInv_handlePacket turn hstripped
        (by simpa using hopen) hescaped
      generalize handlePacket env _ turn = d at hhandled ⊢
      split
      · exact hhandled
      · exact hhandled.of_sameGate (armHeaderRead_sameGate _ _)

theorem gateInv_readHandler {env : Env} {c : Connection} (target : ReadTarget)
    (error : Bool) (turn : Turn) (h : GateInv env c) (hescaped : c.escaped = none) :
    GateInv env (c.readHandler env target error turn) := by
  cases target with
  | header => exact h.of_sameGate (parseHeader_sameGate c error turn)
  | body size => exact gateInv_parsePacket error turn h hescaped

/-- One input keeps the invariant. -/
theorem GateInv.step {env : Env} {input : Input} {c c' : Connection}
    (h : GateInv env c) (hstep : c.step env input = some c') : GateInv env c' := by
  obtain ⟨hescaped, hstepped⟩ := step_cases hstep
  cases hstepped with
  | read error turn _ _ _ =>
      exact gateInv_readHandler _ error turn (h.of_sameGate ⟨rfl, rfl, rfl, id⟩) hescaped
  | other => exact h.of_sameGate ⟨rfl, rfl, rfl, id⟩
  | closed => exact h.of_sameGate (SameGate.close ⟨rfl, rfl, rfl, id⟩)
  | sent msg throws => exact h.of_sameGate (send_sameGate c msg throws)
  | called => exact h.of_sameGate ⟨rfl, rfl, rfl, id⟩

theorem gateInv_run {env : Env} {inputs : List Input} {c c' : Connection}
    (h : GateInv env c) (hrun : run env inputs c = some c') : GateInv env c' :=
  PartialRun.run_preserves (fun _ _ _ hs hstep => hs.step hstep) inputs c c' h hrun

end Connection

/-- In every run, the first entry point executed is `authenticate` and it is
executed once; `parsePacket` is executed only after it passed every check,
and never after it took another branch. -/
theorem authentication_gate (env : Env) (memory : ByteMemory.Memory)
    (inputs : List Connection.Input) (c : Connection)
    (hrun : Connection.run env inputs (Connection.accept memory) = some c) :
    (∀ before after, c.history = before ++ .dispatched :: after →
      ∃ login, before.head? = some (.authenticated login) ∧ login.Complete env) ∧
    (∀ m ∈ c.history.tail, m = .dispatched) ∧
    (∀ login, .authenticated login ∈ c.history → login.branch ≠ .accepted →
      .dispatched ∉ c.history) := by
  have hinv : Connection.GateInv env c :=
    Connection.gateInv_run (Connection.gateInv_accept env memory) hrun
  cases hfirst : c.receivedFirst with
  | false =>
      have hnone := hinv.fresh hfirst
      rw [hnone]
      refine ⟨?_, by simp, by simp⟩
      intro before after h
      simp at h
  | true =>
      obtain ⟨login, rest, hhist, hrest, hacc, hrej⟩ := hinv.started hfirst
      rw [hhist]
      refine ⟨?_, hrest, ?_⟩
      · intro before after h
        cases before with
        | nil => simp at h
        | cons m before =>
            obtain ⟨rfl, hsplit⟩ := List.cons.inj h
            refine ⟨login, rfl, hacc ?_⟩
            by_contra hne
            simp [(hrej hne).1] at hsplit
      · intro login' hmem hne hdis
        have hlogin : login' = login := by
          rcases List.mem_cons.mp hmem with hm | hm
          · exact (Milestone.authenticated.inj hm)
          · cases hrest _ hm
        subst hlogin
        simp [(hrej hne).1] at hdis

/-- A server whose private key is the identity and whose database knows one
account. -/
def sampleEnv : Env where
  rsaBlock := some
  versionMin := 0
  versionStr := []
  motdNumber := 0
  motdMessage := []
  getAccount := fun _ _ => { id := 7, premiumEnd := 0 }

/-- The body of a login frame without checksum: 22 bytes, then the block with
a zero byte, a zero key, the email `a` and the password `b`. -/
def sampleLoginBody : Bytes :=
  List.replicate 39 0 ++ [1, 0, 97, 1, 0, 98] ++ List.replicate 105 0

/-- The gate opens: a login and one more packet. -/
theorem authentication_gate_sample :
    ∃ c, Connection.run sampleEnv
        [.readDone 0 [150, 0] {}, .readDone 0 sampleLoginBody {},
         .readDone 0 [1, 0] {}, .readDone 0 [0] {}]
        (Connection.accept fun _ => 0) = some c ∧
      c.history[1]? = some .dispatched ∧
      (∀ before after, c.history = before ++ .dispatched :: after →
        ∃ login, before.head? = some (.authenticated login) ∧
          login.Complete sampleEnv) ∧
      (∀ m ∈ c.history.tail, m = .dispatched) ∧
      (∀ login, .authenticated login ∈ c.history → login.branch ≠ .accepted →
        .dispatched ∉ c.history) := by
  have hmap : (Connection.run sampleEnv
      [.readDone 0 [150, 0] {}, .readDone 0 sampleLoginBody {},
       .readDone 0 [1, 0] {}, .readDone 0 [0] {}]
      (Connection.accept fun _ => 0)).map (fun c => c.history[1]?) =
        some (some .dispatched) := by
    decide +kernel
  obtain ⟨c, hrun, hdispatched⟩ := Option.map_eq_some_iff.mp hmap
  exact ⟨c, hrun, hdispatched, authentication_gate _ _ _ _ hrun⟩

end LoginServer.Network
