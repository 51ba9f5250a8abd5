import LoginServer.Network.ConnectionIds
import LoginServer.Network.LoginReply
import LoginServer.Script.CentralLink
import LoginServer.Script.Relay

/-!
# The host of a game server

`modules/login/login_main.lua`: a client sends the name and the id of an
instance, the module asks the central server for it and sends the client the
host and the port that come back.  Between the two the client is a number, and
the question is a number on the wire; other clients come and go, ask and are
answered meanwhile, in any order.

The callback of this module makes no requests and raises no errors, so every
question is answered once at most.

## Main results

* `LoginModule.Linked` — clients, requests, callbacks and texts on the way: what
  they have to do with each other.
* `LoginModule.linked_run` — it holds in every history.
-/

namespace LoginServer.Script

open LoginServer.Network
open LoginServer.Network.ConnectionManager
open LoginServer.Lib (Tree Numerals)
open LoginServer.Verified
open LoginServer.Verified.ByteMemory

/-! ## Values of an answer -/

namespace Answer
variable (numerals : Numerals)

/-- `answer[name]`, for a table. -/
def field (data : Tree) (name : String) : Tree :=
  match data with
  | .table entries => Lib.Entries.get entries (.name (text name))
  | _ => .nil

def truthy : Tree → Bool
  | .nil => false
  | .boolean value => value
  | _ => true

/-- `lua_tostring` of a number. -/
def numberText : Lib.Number → Bytes
  | .finite value => numerals.format value
  | .infinite negative => text (if negative then "-inf" else "inf")
  | .nan => text "nan"

/-- `LuaStack::Pop<std::string>`. -/
def popString : Tree → Bytes
  | .string value => LuaStack.popString value
  | .number value => LuaStack.popString (numberText numerals value)
  | _ => []

/-- `lua_tonumber`. -/
def toNumber : Tree → Lib.Number
  | .number value => value
  | .string value => (numerals.tonumber value).getD (.finite 0)
  | _ => .finite 0

/-- `LuaStack::Pop<uint16_t>`; `none` where the cast is undefined. -/
def popUInt16 (x : Tree) : Option (BitVec 16) :=
  match toNumber numerals x with
  | .finite value => if -1 < value ∧ value < 2 ^ 16 then some (BitVec.ofNat 16 value.floor.toNat)
      else none
  | _ => none

end Answer

/-! ## The module -/

/-- What the callback of a request keeps. -/
structure HostRequest where
  client : Nat
  clientId : Int
  instanceName : Bytes
  instanceId : Bytes
  deriving DecidableEq

/-- A message a client was sent, and the request it answers. -/
structure HostReply where
  request : Nat
  client : Nat
  message : OutputMessage

structure LoginModule where
  manager : ConnectionManager := {}
  login : Login := {}
  /-- by the number of the callback -/
  requests : List HostRequest := []
  /-- what was published on `central_login` -/
  published : List Bytes := []
  replies : List HostReply := []

inductive ModuleEvent where
  | connection (event : ConnectionEvent)
  /-- a packet `GameServerHost` of a client; `fields` is the order of `pairs`,
  and `sent` says whether `PUBLISH` was answered -/
  | receive (client : Nat) (msg : NetworkMessage) (fields : List (Bytes × Lib.LuaValue (Fin 1)))
      (sent : Bool)
  /-- a message on the channel `login`; `order` is that of the connections, and
  `memory` what a new `OutputMessage` lies in -/
  | message (text : Bytes) (order : List Nat) (memory : Memory)

/-- `ProtocolCode.GameServerHost`. -/
def gameServerHostCode : UInt8 := 8

/-- The message of `g_login.sendGameServerHost(client, host, port)`. -/
def gameServerHostMessage (memory : Memory) (host : Bytes) (port : BitVec 16) : OutputMessage :=
  let msg := OutputMessage.create memory
  let msg := msg.addByte gameServerHostCode
  let msg := msg.addString host
  msg.add .u16 port

namespace LoginModule
variable (numerals : Numerals)

/-- `_onReceiveNetworkMessage(args)`. -/
def onReceiveNetworkMessage (client : Nat) (msg : NetworkMessage)
    (fields : List (Bytes × Lib.LuaValue (Fin 1))) (sent : Bool) (s : LoginModule) :
    Option LoginModule :=
  let clientId := luaProtocolGetId (some client)
  let (instanceName, msg) := msg.getString
  let (instanceId, _) := msg.getString
  let instanceName := LuaStack.pushString instanceName
  let instanceId := LuaStack.pushString instanceId
  let requests := s.requests ++ [⟨client, clientId, instanceName, instanceId⟩]
  if h : fields.Perm (requestFields instanceName instanceId (luaSucc s.login.answerIdGenerator))
  then
    match requestText numerals h with
    | .error _ => some { s with login := s.login.requestCentralAnswer .raised, requests }
    | .ok data =>
        if sent then
          some { s with
            login := s.login.requestCentralAnswer .sent, requests
            published := s.published ++ [LuaStack.popString data] }
        else some { s with login := s.login.requestCentralAnswer .failed, requests }
  else none

/-- The callback of request `k`. -/
def callback (k : Nat) (request : HostRequest) (order : List Nat) (memory : Memory)
    (answer : Tree) (s : LoginModule) : Option LoginModule := do
  let client ← luaLoginGetClient s.manager order request.clientId
  match client with
  | none => some s
  | some client =>
      if !Answer.truthy (Answer.field answer "success") then some s
      else do
        let host := Answer.popString numerals (Answer.field answer "host")
        let port ← Answer.popUInt16 numerals (Answer.field answer "port")
        some { s with
          replies := s.replies ++ [⟨k, client, gameServerHostMessage memory host port⟩] }

/-- The callback an answer is going to run, and the request it belongs to. -/
def pending (message : Bytes) (s : LoginModule) : Option (Nat × HostRequest) := do
  let answerId ← answerIdOf (decodeJson numerals) message
  let k ← s.login.answerCallbacks answerId
  let request ← s.requests[k]?
  some (k, request)

/-- `_onRedisMessage(args)`. -/
def onRedisMessage (message : Bytes) (order : List Nat) (memory : Memory) (s : LoginModule) :
    Option LoginModule :=
  let login := s.login.internalCallLuaFieldNoRet
    (Login.onRedisMessage (decodeJson numerals) message {})
  match Lib.decode numerals message, s.pending numerals message with
  | .ok answer, some (k, request) =>
      (s.callback numerals k request order memory answer).map fun s => { s with login }
  | _, _ => some { s with login }

def step : ModuleEvent → LoginModule → Option LoginModule
  | .connection event, s =>
      (ConnectionManager.step event s.manager).map fun manager => { s with manager }
  | .receive client msg fields sent, s => do
      guard (client ∈ s.manager.accepted)
      s.onReceiveNetworkMessage numerals client msg fields sent
  | .message message order memory, s => do
      guard (order.Perm s.manager.connections)
      s.onRedisMessage numerals message order memory

end LoginModule

/-! ## What the steps do to the requests -/

namespace Login
variable {g : Login} {answerId : Nat}

/-- An answer to a callback that makes no requests and raises no error. -/
structure Answered (g : Login) (answerId : Nat) (g' : Login) : Prop where
  generator : g'.answerIdGenerator = g.answerIdGenerator
  issued : g'.issued = g.issued
  failed : g'.failed = g.failed
  raised : g'.raised = g.raised
  answered : g'.answered = g.answered ++ [(answerId, g.issued.length)]
  runs : g'.runs.map Run.callback =
    g.runs.map Run.callback ++ (g.answerCallbacks answerId).toList
  others : ∀ i, i ≠ answerId → g'.answerCallbacks i = g.answerCallbacks i

theorem answered_answer (g : Login) (answerId : Nat) :
    g.Answered answerId (g.answer answerId {}).2 := by
  cases hentry : g.answerCallbacks answerId with
  | none =>
      have hanswer : (g.answer answerId {}).2 =
          { g with answered := g.answered ++ [(answerId, g.issued.length)] } := by
        unfold Login.answer
        dsimp only
        rw [hentry]
      rw [hanswer]
      exact ⟨rfl, rfl, rfl, rfl, rfl, by simp [hentry], fun _ _ => rfl⟩
  | some callback =>
      rw [answer_of_entry hentry]
      exact ⟨rfl, rfl, rfl, rfl, rfl, by simp [hentry, requests, file, start],
        fun _ hi => if_neg hi⟩

/-- A new request, published or not. -/
structure Asked (g g' : Login) : Prop where
  generator : g'.answerIdGenerator = luaSucc g.answerIdGenerator
  issued : g'.issued = g.issued ++ [luaSucc g.answerIdGenerator]
  failed : g.failed ⊆ g'.failed
  raised : g'.raised = g.raised
  answered : g'.answered = g.answered
  runs : g'.runs = g.runs
  own : g.issued.length ∉ g'.failed →
    g'.answerCallbacks (luaSucc g.answerIdGenerator) = some g.issued.length
  others : ∀ i, i ≠ luaSucc g.answerIdGenerator → g'.answerCallbacks i = g.answerCallbacks i

theorem asked_requestCentralAnswer (published : Published) :
    g.Asked (g.requestCentralAnswer published) := by
  cases published with
  | sent =>
      exact ⟨rfl, rfl, List.Subset.refl _, rfl, rfl, rfl, fun _ => if_pos rfl,
        fun _ hi => if_neg hi⟩
  | raised =>
      exact ⟨rfl, rfl, List.Subset.refl _, rfl, rfl, rfl, fun _ => if_pos rfl,
        fun _ hi => if_neg hi⟩
  | failed =>
      refine ⟨rfl, rfl, List.subset_cons_self _ _, rfl, rfl, rfl, fun hnot => ?_,
        fun i hi => ?_⟩
      · exact absurd List.mem_cons_self hnot
      · exact (if_neg hi).trans (if_neg hi)

/-- A request that was published and has had no answer is in the table. -/
def Waits (g : Login) : Prop :=
  g.issued.length < 2 ^ 53 → ∀ k < g.issued.length, k ∉ g.failed →
    (∀ answer ∈ g.answered, k < answer.2 → answer.1 ≠ k + 1) →
    g.answerCallbacks (k + 1) = some k

theorem Waits.asked (h : g.Waits) {g' : Login} (hasked : g.Asked g')
    (hid : luaSucc g.answerIdGenerator = min (g.issued.length + 1) (2 ^ 53)) : g'.Waits := by
  intro hfew k hk hnot hunanswered
  rw [hasked.issued, List.length_append, List.length_singleton] at hfew hk
  rw [hasked.answered] at hunanswered
  by_cases hlt : k < g.issued.length
  · rw [hasked.others (k + 1) (by omega)]
    exact h (by omega) k hlt (fun hmem => hnot (hasked.failed hmem)) hunanswered
  · have heq : k = g.issued.length := by omega
    have hown := hasked.own (heq ▸ hnot)
    have hnext : luaSucc g.answerIdGenerator = k + 1 := by omega
    rwa [hnext, ← heq] at hown

theorem Waits.answered (h : g.Waits) {g' : Login} (hanswered : g.Answered answerId g') :
    g'.Waits := by
  intro hfew k hk hnot hunanswered
  rw [hanswered.issued] at hfew hk
  rw [hanswered.failed] at hnot
  rw [hanswered.answered] at hunanswered
  have hother : k + 1 ≠ answerId :=
    (hunanswered _ (List.mem_append_right _ List.mem_cons_self) hk).symm
  rw [hanswered.others (k + 1) hother]
  exact h hfew k hk hnot fun answer hmem => hunanswered answer (List.mem_append_left _ hmem)

end Login

theorem luaSucc_min (n : Nat) : luaSucc (min n (2 ^ 53)) = min (n + 1) (2 ^ 53) := by
  unfold luaSucc
  split <;> omega

namespace LoginModule
variable {numerals : Numerals} {s s' : LoginModule}

/-- What a question of a client does. -/
theorem onReceiveNetworkMessage_cases (hnumerals : numerals.Documented) {client : Nat}
    {msg : NetworkMessage} {fields : List (Bytes × Lib.LuaValue (Fin 1))} {sent : Bool}
    (h : s.onReceiveNetworkMessage numerals client msg fields sent = some s') :
    fields.Perm (requestFields (LuaStack.pushString msg.getString.1)
        (LuaStack.pushString msg.getString.2.getString.1) (luaSucc s.login.answerIdGenerator)) ∧
      s' = { s with
        login := s.login.requestCentralAnswer (if sent then .sent else .failed)
        requests := s.requests ++
          [⟨client, luaProtocolGetId (some client), LuaStack.pushString msg.getString.1,
            LuaStack.pushString msg.getString.2.getString.1⟩]
        published := s.published ++
          if sent then [(requestDocument fields).render numerals] else [] } := by
  unfold onReceiveNetworkMessage at h
  dsimp only at h
  split at h
  · rename_i hperm
    rw [requestText, Lib.encode_of_unfolds numerals (unfolds_request hperm)] at h
    dsimp only at h
    refine ⟨hperm, ?_⟩
    cases sent with
    | true =>
        cases h
        rw [LuaStack.popString, cString_request hnumerals]
        rfl
    | false =>
        cases h
        simp
  · cases h

/-- The order of `pairs` is all that could stand in the way of a question. -/
theorem onReceiveNetworkMessage_isSome (numerals : Numerals) (s : LoginModule) (client : Nat)
    {msg : NetworkMessage} {fields : List (Bytes × Lib.LuaValue (Fin 1))} (sent : Bool)
    (hperm : fields.Perm (requestFields (LuaStack.pushString msg.getString.1)
      (LuaStack.pushString msg.getString.2.getString.1) (luaSucc s.login.answerIdGenerator))) :
    ∃ s', s.onReceiveNetworkMessage numerals client msg fields sent = some s' := by
  unfold onReceiveNetworkMessage
  dsimp only
  rw [dif_pos hperm, requestText, Lib.encode_of_unfolds numerals (unfolds_request hperm)]
  cases sent with
  | true => exact ⟨_, rfl⟩
  | false => exact ⟨_, rfl⟩

/-- A reply that is added. -/
structure Replies (numerals : Numerals) (s : LoginModule) (message : Bytes) (order : List Nat)
    (memory : Memory) (answer : Tree) (reply : HostReply) : Prop where
  pending : ∃ request, s.pending numerals message = some (reply.request, request) ∧
    luaLoginGetClient s.manager order request.clientId = some (some reply.client)
  decoded : Lib.decode numerals message = .ok answer
  success : Answer.truthy (Answer.field answer "success") = true
  message : ∃ port, Answer.popUInt16 numerals (Answer.field answer "port") = some port ∧
    reply.message = gameServerHostMessage memory
      (Answer.popString numerals (Answer.field answer "host")) port

/-- What a message does. -/
theorem onRedisMessage_cases {message : Bytes} {order : List Nat} {memory : Memory}
    (h : s.onRedisMessage numerals message order memory = some s') :
    ∃ replies, s' = { s with
        login := s.login.internalCallLuaFieldNoRet
          (Login.onRedisMessage (decodeJson numerals) message {})
        replies := s.replies ++ replies } ∧
      (replies = [] ∨ ∃ answer reply, replies = [reply] ∧
        s.Replies numerals message order memory answer reply) := by
  unfold onRedisMessage at h
  dsimp only at h
  split at h
  · rename_i answer k request hdecode hpending
    obtain ⟨t, ht, rfl⟩ := Option.map_eq_some_iff.mp h
    obtain ⟨found, hclient, ht⟩ := Option.bind_eq_some_iff.mp ht
    cases found with
    | none =>
        cases ht
        exact ⟨[], by simp, Or.inl rfl⟩
    | some client =>
        dsimp only at ht
        split at ht
        · cases ht
          exact ⟨[], by simp, Or.inl rfl⟩
        · rename_i hsuccess
          obtain ⟨port, hport, ht⟩ := Option.bind_eq_some_iff.mp ht
          cases ht
          refine ⟨[⟨k, client, _⟩], rfl, Or.inr ⟨answer, _, rfl, ?_⟩⟩
          exact ⟨⟨request, hpending, hclient⟩, hdecode, by simpa using hsuccess, port,
            hport, rfl⟩
  · cases h
    exact ⟨[], by simp, Or.inl rfl⟩

/-! ## What holds in every history -/

/-- What the central server reads in a request: the name and the id of the
instance, and the id of the answer. -/
def centralQuestion (numerals : Numerals) (message : Bytes) : Option (Bytes × Bytes × Nat) :=
  match Lib.decode numerals message with
  | .error _ => none
  | .ok data =>
      match Answer.field data "instanceName", Answer.field data "instanceId",
        (jsonValue (Answer.field data "__answerId")).id with
      | .string instanceName, .string instanceId, some answerId =>
          some (instanceName, instanceId, answerId)
      | _, _, _ => none

theorem centralQuestion_request (hnumerals : numerals.Documented) {instanceName instanceId : Bytes}
    {answerId : Nat} {fields : List (Bytes × Lib.LuaValue (Fin 1))}
    (h : fields.Perm (requestFields instanceName instanceId answerId))
    (hid : answerId < 10 ^ 14) :
    centralQuestion numerals ((requestDocument fields).render numerals) =
      some (instanceName, instanceId, answerId) := by
  obtain ⟨entries, hread, hnames, -⟩ := get_requestDocument hnumerals h hid
  unfold centralQuestion
  rw [Lib.decode_render hnumerals, hread]
  have hname : Answer.field (.table entries) "instanceName" = .string instanceName :=
    hnames (text "instanceName")
  have hinstanceId : Answer.field (.table entries) "instanceId" = .string instanceId :=
    hnames (text "instanceId")
  have hanswerId : Answer.field (.table entries) "__answerId" = .number (.finite answerId) :=
    hnames (text "__answerId")
  have hvalue : (JsonValue.number (answerId : Rat)).id = some answerId := by
    simp [JsonValue.id]
  dsimp only
  rw [hname, hinstanceId, hanswerId, jsonValue, hvalue]

structure Linked (numerals : Numerals) (s : LoginModule) : Prop where
  managed : ∃ events, PartialRun.run ConnectionManager.step events {} = some s.manager
  filed : s.login.Filed
  unrepeated : s.login.Unrepeated
  quiet : s.login.raised = []
  waits : s.login.Waits
  count : s.requests.length = s.login.issued.length
  generator : s.login.answerIdGenerator = min s.login.issued.length (2 ^ 53)
  issued : ∀ k id, s.login.issued[k]? = some id → id = min (k + 1) (2 ^ 53)
  clients : ∀ request ∈ s.requests, request.client ∈ s.manager.accepted ∧
    request.clientId = luaProtocolGetId (some request.client)
  published : ∀ k request, s.requests[k]? = some request → k ∉ s.login.failed →
    k + 1 < 10 ^ 14 → ∃ p ∈ s.published, centralQuestion numerals p =
      some (request.instanceName, request.instanceId, k + 1)
  replied : (s.replies.map HostReply.request).Sublist (s.login.runs.map Run.callback)

theorem linked_empty (numerals : Numerals) : Linked numerals {} where
  managed := ⟨[], rfl⟩
  filed := Login.filed_empty
  unrepeated := ⟨List.nodup_nil, fun _ h => (List.not_mem_nil h).elim⟩
  quiet := rfl
  waits := fun _ _ hk => absurd hk (Nat.not_lt_zero _)
  count := rfl
  generator := rfl
  issued := fun _ _ h => nomatch h
  clients := fun _ h => (List.not_mem_nil h).elim
  published := fun _ _ h => nomatch h
  replied := List.Sublist.slnil

/-- Connections are made and accepted, and stay so. -/
theorem manager_grows {event : ConnectionEvent} {m m' : ConnectionManager}
    (h : ConnectionManager.step event m = some m') :
    m.created ≤ m'.created ∧ m.accepted ⊆ m'.accepted := by
  cases event with
  | create =>
      cases h
      exact ⟨Nat.le_succ _, List.Subset.refl _⟩
  | accept c =>
      obtain ⟨_, -, hm⟩ := Option.bind_eq_some_iff.mp h
      cases hm
      exact ⟨Nat.le_refl _, List.subset_cons_self _ _⟩
  | release c =>
      cases h
      exact ⟨Nat.le_refl _, List.Subset.refl _⟩
  | closeAll =>
      cases h
      exact ⟨Nat.le_refl _, List.Subset.refl _⟩

theorem Linked.connection {event : ConnectionEvent} {manager : ConnectionManager}
    (h : Linked numerals s) (hstep : ConnectionManager.step event s.manager = some manager) :
    Linked numerals { s with manager } := by
  obtain ⟨events, hrun⟩ := h.managed
  have hgrows := manager_grows hstep
  refine { h with managed := ⟨events ++ [event], ?_⟩, clients := fun request hmem => ?_ }
  · rw [PartialRun.run_append, hrun, Option.bind_some]
    show (ConnectionManager.step event s.manager).bind _ = _
    rw [hstep]
    rfl
  · exact ⟨hgrows.2 (h.clients request hmem).1, (h.clients request hmem).2⟩

theorem Linked.receive (hnumerals : numerals.Documented) {client : Nat} {msg : NetworkMessage}
    {fields : List (Bytes × Lib.LuaValue (Fin 1))} {sent : Bool} (h : Linked numerals s)
    (hclient : client ∈ s.manager.accepted)
    (hstep : s.onReceiveNetworkMessage numerals client msg fields sent = some s') :
    Linked numerals s' := by
  obtain ⟨hperm, rfl⟩ := onReceiveNetworkMessage_cases hnumerals hstep
  generalize LuaStack.pushString msg.getString.1 = instanceName at hperm ⊢
  generalize LuaStack.pushString msg.getString.2.getString.1 = instanceId at hperm ⊢
  have hasked := Login.asked_requestCentralAnswer (g := s.login)
    (if sent then .sent else .failed)
  have hsame := Login.sameRuns_requestCentralAnswer (g := s.login)
    (if sent then .sent else .failed)
  have hid : luaSucc s.login.answerIdGenerator = min (s.login.issued.length + 1) (2 ^ 53) := by
    rw [h.generator, luaSucc_min]
  constructor
  · exact h.managed
  · exact h.filed.requestCentralAnswer _
  · exact (Login.Unrepeated.congr hsame.answered hsame.runs).mpr h.unrepeated
  · exact hasked.raised.trans h.quiet
  · exact h.waits.asked hasked hid
  · rw [hasked.issued, List.length_append, List.length_append, h.count]
    rfl
  · rw [hasked.generator, hasked.issued, hid, List.length_append]
    rfl
  · intro k id hk
    rw [hasked.issued] at hk
    by_cases hlt : k < s.login.issued.length
    · rw [List.getElem?_append_left hlt] at hk
      exact h.issued k id hk
    · have hlast := (List.getElem?_eq_some_iff.mp hk).1
      rw [List.length_append, List.length_singleton] at hlast
      have heq : k = s.login.issued.length := by omega
      subst heq
      rw [List.getElem?_concat_length] at hk
      rw [← hid]
      exact (Option.some.inj hk).symm
  · intro request hmem
    rcases List.mem_append.mp hmem with hmem | hmem
    · exact h.clients request hmem
    · rw [List.mem_singleton.mp hmem]
      exact ⟨hclient, rfl⟩
  · intro k request hk hnot hfew
    by_cases hlt : k < s.requests.length
    · rw [List.getElem?_append_left hlt] at hk
      obtain ⟨p, hp, hquestion⟩ :=
        h.published k request hk (fun hmem => hnot (hasked.failed hmem)) hfew
      exact ⟨p, List.mem_append_left _ hp, hquestion⟩
    · have hlast := (List.getElem?_eq_some_iff.mp hk).1
      rw [List.length_append, List.length_singleton] at hlast
      have heq : k = s.requests.length := by omega
      subst heq
      rw [List.getElem?_concat_length] at hk
      cases hk
      have hnumber : luaSucc s.login.answerIdGenerator = s.requests.length + 1 := by
        rw [hid, ← h.count]
        omega
      cases sent with
      | true =>
          refine ⟨_, List.mem_append_right _ (List.mem_singleton_self _), ?_⟩
          rw [← hnumber]
          exact centralQuestion_request hnumerals hperm (hnumber ▸ hfew)
      | false =>
          rw [h.count] at hnot
          exact absurd List.mem_cons_self hnot
  · rw [hasked.runs]
    exact h.replied

/-- What a message does to the table of callbacks. -/
theorem login_message (numerals : Numerals) (g : Login) (message : Bytes) :
    (answerIdOf (decodeJson numerals) message = none ∧
      g.internalCallLuaFieldNoRet (Login.onRedisMessage (decodeJson numerals) message {}) = g) ∨
    ∃ answerId, answerIdOf (decodeJson numerals) message = some answerId ∧
      g.internalCallLuaFieldNoRet (Login.onRedisMessage (decodeJson numerals) message {}) =
        (g.answer answerId {}).2 := by
  unfold Login.internalCallLuaFieldNoRet
  rw [onRedisMessage_eq]
  cases hid : answerIdOf (decodeJson numerals) message with
  | none => exact Or.inl ⟨rfl, rfl⟩
  | some answerId => exact Or.inr ⟨answerId, rfl, rfl⟩

/-- The request a reply answers is one whose callback the message runs. -/
theorem pending_eq_some {message : Bytes} {k : Nat} {request : HostRequest}
    (h : s.pending numerals message = some (k, request)) :
    ∃ answerId, answerIdOf (decodeJson numerals) message = some answerId ∧
      s.login.answerCallbacks answerId = some k ∧ s.requests[k]? = some request := by
  obtain ⟨answerId, hid, h⟩ := Option.bind_eq_some_iff.mp h
  obtain ⟨k', hentry, h⟩ := Option.bind_eq_some_iff.mp h
  obtain ⟨request', hrequest, h⟩ := Option.bind_eq_some_iff.mp h
  cases h
  exact ⟨answerId, hid, hentry, hrequest⟩

theorem Linked.message {message : Bytes} {order : List Nat} {memory : Memory}
    (h : Linked numerals s) (hstep : s.onRedisMessage numerals message order memory = some s') :
    Linked numerals s' := by
  obtain ⟨replies, rfl, hreplies⟩ := onRedisMessage_cases hstep
  rcases login_message numerals s.login message with ⟨hid, hlogin⟩ | ⟨answerId, hid, hlogin⟩
  · have hnone : replies = [] := by
      rcases hreplies with rfl | ⟨answer, reply, -, hreply⟩
      · rfl
      · obtain ⟨request, hpending, -⟩ := hreply.pending
        obtain ⟨answerId, hid', -⟩ := pending_eq_some hpending
        rw [hid] at hid'
        cases hid'
    rw [hlogin, hnone, List.append_nil]
    exact h
  · have hanswered := s.login.answered_answer answerId
    obtain ⟨hfiled, hunrepeated⟩ := h.filed.answer answerId {}
    rw [hlogin]
    constructor
    · exact h.managed
    · exact hfiled
    · refine hunrepeated.mpr ⟨h.unrepeated, fun callback _ hmem => ?_⟩
      rw [h.quiet] at hmem
      exact List.not_mem_nil hmem
    · exact hanswered.raised.trans h.quiet
    · exact h.waits.answered hanswered
    · rw [hanswered.issued]
      exact h.count
    · rw [hanswered.issued, hanswered.generator]
      exact h.generator
    · rw [hanswered.issued]
      exact h.issued
    · exact h.clients
    · intro k request hk hnot
      rw [hanswered.failed] at hnot
      exact h.published k request hk hnot
    · rw [hanswered.runs, List.map_append]
      apply h.replied.append
      rcases hreplies with rfl | ⟨answer, reply, rfl, hreply⟩
      · exact List.nil_sublist _
      · obtain ⟨request, hpending, -⟩ := hreply.pending
        obtain ⟨answerId', hid', hentry, -⟩ := pending_eq_some hpending
        rw [hid] at hid'
        cases hid'
        rw [hentry]
        exact List.Sublist.refl _

theorem Linked.step (hnumerals : numerals.Documented) {event : ModuleEvent}
    (h : Linked numerals s) (hstep : step numerals event s = some s') : Linked numerals s' := by
  cases event with
  | connection event =>
      obtain ⟨manager, hmanager, rfl⟩ := Option.map_eq_some_iff.mp hstep
      exact h.connection hmanager
  | receive client msg fields sent =>
      obtain ⟨_, hguard, hreceive⟩ := Option.bind_eq_some_iff.mp hstep
      exact h.receive hnumerals (PartialRun.of_guard_eq_some hguard) hreceive
  | message message order memory =>
      obtain ⟨_, -, hmessage⟩ := Option.bind_eq_some_iff.mp hstep
      exact h.message hmessage

theorem linked_run (hnumerals : numerals.Documented) {events : List ModuleEvent}
    (h : PartialRun.run (step numerals) events {} = some s) : Linked numerals s :=
  PartialRun.run_preserves (fun _ _ _ hs hstep => hs.step hnumerals hstep) events {} s
    (linked_empty numerals) h

end LoginModule

end LoginServer.Script
