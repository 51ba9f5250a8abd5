import LoginServer.Script.GameServerHost

/-!
# The hosts clients are sent

`hosts_delivered` says that nothing else is sent: if what the central server
answers to a question it was asked is the host of the instance in it, every host
a client gets is that of an instance the client asked for, once.
`question_answered` says that it is sent: the first message with the id of a
question gets through to the client.
-/

namespace LoginServer.Script

open LoginServer.Network
open LoginServer.Network.ConnectionManager
open LoginServer.Lib (Tree Numerals)
open LoginServer.Verified
open LoginServer.Verified.ByteMemory

namespace LoginModule
variable {numerals : Numerals} {s s' : LoginModule}

/-- What one step adds to the records, and the reply it sends. -/
structure Extends (numerals : Numerals) (s : LoginModule) (event : ModuleEvent)
    (s' : LoginModule) : Prop where
  created : s.manager.created ≤ s'.manager.created
  requests : s.requests <+: s'.requests
  replies : ∀ reply ∈ s'.replies, reply ∈ s.replies ∨ ∃ message order memory answer,
    event = .message message order memory ∧ order.Perm s.manager.connections ∧
      s.Replies numerals message order memory answer reply

theorem extends_step (hnumerals : numerals.Documented) {event : ModuleEvent}
    (hstep : step numerals event s = some s') : s.Extends numerals event s' := by
  cases event with
  | connection event =>
      obtain ⟨manager, hmanager, rfl⟩ := Option.map_eq_some_iff.mp hstep
      exact ⟨(manager_grows hmanager).1, List.prefix_rfl, fun _ hmem => Or.inl hmem⟩
  | receive client msg fields sent =>
      obtain ⟨_, -, hreceive⟩ := Option.bind_eq_some_iff.mp hstep
      obtain ⟨-, rfl⟩ := onReceiveNetworkMessage_cases hnumerals hreceive
      exact ⟨Nat.le_refl _, List.prefix_append _ _, fun _ hmem => Or.inl hmem⟩
  | message message order memory =>
      obtain ⟨_, hguard, hmessage⟩ := Option.bind_eq_some_iff.mp hstep
      obtain ⟨replies, rfl, hreplies⟩ := onRedisMessage_cases hmessage
      refine ⟨Nat.le_refl _, List.prefix_rfl, fun reply hmem => ?_⟩
      rcases List.mem_append.mp hmem with hmem | hmem
      · exact Or.inl hmem
      · rcases hreplies with rfl | ⟨answer, reply', rfl, hreply⟩
        · exact (List.not_mem_nil hmem).elim
        · rw [List.mem_singleton.mp hmem]
          exact Or.inr ⟨message, order, memory, answer, rfl,
            PartialRun.of_guard_eq_some hguard, hreply⟩

/-- What succeeds answers what was asked: for the question its id belongs to, if
there is one, it has the host and the port of a place that
`Serves name id host port` allows. -/
def Honest (numerals : Numerals) (Serves : Bytes → Bytes → Bytes → BitVec 16 → Prop) :
    ModuleEvent → LoginModule → Prop
  | .message message _ _, s =>
      ∀ answerId ∈ answerIdOf (decodeJson numerals) message,
        ∀ answer ∈ (Lib.decode numerals message).toOption,
          Answer.truthy (Answer.field answer "success") = true →
            ∀ p ∈ s.published, ∀ question ∈ centralQuestion numerals p,
              question.2.2 = answerId →
                ∃ port ∈ Answer.popUInt16 numerals (Answer.field answer "port"),
                  Serves question.1 question.2.1
                    (Answer.popString numerals (Answer.field answer "host")) port
  | _, _ => True

/-- The bytes of a reply. -/
theorem holds_gameServerHostMessage (memory : Memory) {host : Bytes} (port : BitVec 16)
    (hsmall : host.length ≤ 8192) :
    (gameServerHostMessage memory host port).Holds
      (Field.encodeAll [.byte gameServerHostCode, .string host, .int .u16 port]) := by
  have hholds := OutputMessage.holds_create memory
  refine Field.addAll_holds [.byte gameServerHostCode, .string host, .int .u16 port] hholds ?_
  apply (Field.allAccepted_iff _ hholds).mpr
  constructor
  · simp only [List.forall_mem_cons, Field.Small]
    simp [hsmall]
  · simp only [Field.encodeAll, List.flatMap_cons, List.flatMap_nil, List.length_append,
      Field.length_encode_string, MAX_BODY_LENGTH_eq, List.length_nil]
    simp only [Field.encode, Width.length_encode, List.length_singleton, Width.bytes]
    omega

/-- The reply gives its client the host of the instance that the client asked
for; a longer host is not a text `addString` takes. -/
def Delivered (Serves : Bytes → Bytes → Bytes → BitVec 16 → Prop) (s : LoginModule)
    (reply : HostReply) : Prop :=
  ∃ request, s.requests[reply.request]? = some request ∧ reply.client = request.client ∧
    ∃ host port, Serves request.instanceName request.instanceId host port ∧
      (host.length ≤ 8192 → reply.message.Holds
        (Field.encodeAll [.byte gameServerHostCode, .string host, .int .u16 port]))

theorem Delivered.mono {Serves : Bytes → Bytes → Bytes → BitVec 16 → Prop}
    {reply : HostReply}
    (h : s.Delivered Serves reply) (hfront : s.requests <+: s'.requests) :
    s'.Delivered Serves reply := by
  obtain ⟨request, hrequest, hrest⟩ := h
  obtain ⟨rest, hrest'⟩ := hfront
  refine ⟨request, ?_, hrest⟩
  rw [← hrest', List.getElem?_append_left (List.getElem?_eq_some_iff.mp hrequest).1, hrequest]

/-- The client that is found for a number is the one the number was taken of. -/
theorem Linked.client_eq (h : Linked numerals s) (hfew : s.manager.created < 2 ^ 31)
    {request : HostRequest} (hrequest : request ∈ s.requests) {order : List Nat}
    (horder : order.Perm s.manager.connections) {client : Nat}
    (hfound : luaLoginGetClient s.manager order request.clientId = some (some client)) :
    client = request.client := by
  obtain ⟨events, hrun⟩ := h.managed
  obtain ⟨haccepted, hid⟩ := h.clients request hrequest
  have hrouted := routed_of_few hrun hfew haccepted order horder _ (Or.inl hid)
  rw [hfound] at hrouted
  have hclient := Option.some.inj hrouted
  split at hclient
  · exact (protocol_eq_some_iff.mp hclient.symm).2.symm
  · cases hclient

/-- The question of an entry was published, with the id of the entry. -/
theorem Linked.question_published (h : Linked numerals s) (hfew : s.requests.length < 10 ^ 14)
    {answerId k : Nat} (hentry : s.login.answerCallbacks answerId = some k)
    {request : HostRequest} (hrequest : s.requests[k]? = some request) :
    ∃ p ∈ s.published, centralQuestion numerals p =
      some (request.instanceName, request.instanceId, answerId) := by
  obtain ⟨hissued, hnot⟩ := h.filed.entry answerId k hentry
  have hk := (List.getElem?_eq_some_iff.mp hrequest).1
  have hid : answerId = k + 1 := by
    have := h.issued k answerId hissued
    omega
  rw [hid]
  exact h.published k request hrequest hnot (by omega)

/-- One reply. -/
theorem Linked.delivered {Serves : Bytes → Bytes → Bytes → BitVec 16 → Prop}
    (h : Linked numerals s) (hclients : s.manager.created < 2 ^ 31)
    (hfew : s.requests.length < 10 ^ 14) {message : Bytes} {order : List Nat} {memory : Memory}
    (hhonest : Honest numerals Serves (.message message order memory) s)
    (horder : order.Perm s.manager.connections) {answer : Tree} {reply : HostReply}
    (hreply : s.Replies numerals message order memory answer reply) :
    s.Delivered Serves reply := by
  obtain ⟨request, hpending, hfound⟩ := hreply.pending
  obtain ⟨answerId, hid, hentry, hrequest⟩ := pending_eq_some hpending
  have hdecoded : answer ∈ (Lib.decode numerals message).toOption := by
    rw [hreply.decoded]
    rfl
  obtain ⟨p, hp, hquestion⟩ := h.question_published hfew hentry hrequest
  obtain ⟨port, hport, hserves⟩ :=
    hhonest answerId hid answer hdecoded hreply.success p hp _ hquestion rfl
  obtain ⟨port', hport', hmessage⟩ := hreply.message
  cases hport.symm.trans hport'
  refine ⟨request, hrequest, ?_, Answer.popString numerals (Answer.field answer "host"), port, ?_,
    fun hsmall => ?_⟩
  · exact h.client_eq hclients (List.mem_of_getElem? hrequest) horder hfound
  · exact hserves
  · rw [hmessage]
    exact holds_gameServerHostMessage memory port hsmall

/-- Every reply was asked for, as long as the numbers are small enough. -/
structure Serving (numerals : Numerals) (Serves : Bytes → Bytes → Bytes → BitVec 16 → Prop)
    (s : LoginModule) : Prop where
  linked : Linked numerals s
  delivered : s.manager.created < 2 ^ 31 → s.requests.length < 10 ^ 14 →
    ∀ reply ∈ s.replies, s.Delivered Serves reply

theorem Serving.step {Serves : Bytes → Bytes → Bytes → BitVec 16 → Prop}
    (hnumerals : numerals.Documented) {event : ModuleEvent} (h : Serving numerals Serves s)
    (hhonest : Honest numerals Serves event s) (hstep : step numerals event s = some s') :
    Serving numerals Serves s' := by
  have hextends := extends_step hnumerals hstep
  refine ⟨h.linked.step hnumerals hstep, fun hclients hfew reply hmem => ?_⟩
  have hclients' := Nat.lt_of_le_of_lt hextends.created hclients
  have hfew' := Nat.lt_of_le_of_lt hextends.requests.length_le hfew
  apply Delivered.mono _ hextends.requests
  rcases hextends.replies reply hmem with
    hold | ⟨message, order, memory, answer, rfl, horder, hreply⟩
  · exact h.delivered hclients' hfew' reply hold
  · exact h.linked.delivered hclients' hfew' hhonest horder hreply

/-- Whoever else asks, comes or goes, a client is sent nothing but hosts of
instances it asked for, and one for each question at most. -/
theorem hosts_delivered {numerals : Numerals} (hnumerals : numerals.Documented)
    (Serves : Bytes → Bytes → Bytes → BitVec 16 → Prop) {events : List ModuleEvent}
    {s : LoginModule} (hrun : PartialRun.run (LoginModule.step numerals) events {} = some s)
    (hhonest : PartialRun.Obeys (LoginModule.step numerals) (Honest numerals Serves) events {})
    (hclients : s.manager.created < 2 ^ 31) (hfew : s.requests.length < 10 ^ 14) :
    (s.replies.map HostReply.request).Nodup ∧
      ∀ reply ∈ s.replies, s.Delivered Serves reply := by
  have hserving := PartialRun.run_preserves_of
    (fun _ _ _ hs hhonest hstep => Serving.step hnumerals hs hhonest hstep) events {} s
    ⟨linked_empty numerals, fun _ _ _ hmem => (List.not_mem_nil hmem).elim⟩ hhonest hrun
  constructor
  · exact hserving.linked.replied.nodup hserving.linked.unrepeated.once
  · exact hserving.delivered hclients hfew

/-- The packet of a client that asks for the instance `1` of `A`. -/
def sampleQuestion : NetworkMessage :=
  { length := 6
    buffer := fun i => [0, 0, 0, 0, 0, 0, 0, 0, 1, 0, 65, 1, 0, 49].getD i 0 }

def sampleAnswer : Bytes :=
  text "\x7b\"success\":true,\"host\":\"h\",\"port\":7171,\"__answer\":true,\"__answerId\":1\x7d"

/-- A client comes, asks and is answered. -/
def sampleEvents : List ModuleEvent :=
  [.connection .create, .connection (.accept 1),
    .receive 1 sampleQuestion (requestFields [65] [49] 1) true,
    .message sampleAnswer [1] fun _ => 0]

/-- The only instance of the sample. -/
def SampleServes (instanceName instanceId host : Bytes) (port : BitVec 16) : Prop :=
  instanceName = [65] ∧ instanceId = [49] ∧ host = text "h" ∧ port = 7171

theorem run_sampleEvents :
    ∃ s ∈ PartialRun.run (LoginModule.step Lib.wholeNumerals) sampleEvents {},
      s.manager.created = 1 ∧ s.requests.length = 1 ∧ s.replies.map HostReply.client = [1] := by
  decide +kernel

theorem asked_sampleEvents :
    ∃ s ∈ PartialRun.run (LoginModule.step Lib.wholeNumerals) (sampleEvents.take 3) {},
      s.manager.created = 1 ∧ s.manager.connections = [1] ∧ s.login.failed = [] ∧
        s.login.answered = [] ∧ s.requests = [⟨1, 1, [65], [49]⟩] ∧
        s.published = [(requestDocument (requestFields [65] [49] 1)).render Lib.wholeNumerals] ∧
        s.replies.length = 0 := by
  decide +kernel

theorem answer_sampleEvents :
    answerIdOf (decodeJson Lib.wholeNumerals) sampleAnswer = some 1 ∧
      (Lib.decode Lib.wholeNumerals sampleAnswer).toOption.map (fun answer =>
        (Answer.truthy (Answer.field answer "success"),
          Answer.popString Lib.wholeNumerals (Answer.field answer "host"),
          Answer.popUInt16 Lib.wholeNumerals (Answer.field answer "port"))) =
        some (true, text "h", some 7171) := by
  decide +kernel

theorem honest_sampleEvents :
    PartialRun.Obeys (LoginModule.step Lib.wholeNumerals) (Honest Lib.wholeNumerals SampleServes)
      sampleEvents {} := by
  refine ⟨trivial, fun s₁ h₁ => ⟨trivial, fun s₂ h₂ => ⟨trivial, fun s₃ h₃ =>
    ⟨?_, fun _ _ => trivial⟩⟩⟩⟩
  have hrun : PartialRun.run (LoginModule.step Lib.wholeNumerals) (sampleEvents.take 3) {} =
      some s₃ := by
    simp only [sampleEvents, List.take_succ_cons, List.take_zero, PartialRun.run, h₁, h₂, h₃,
      Option.bind_some]
  obtain ⟨s, hs, -, -, -, -, -, hpublished, -⟩ := asked_sampleEvents
  cases hs.symm.trans hrun
  obtain ⟨-, hanswer⟩ := answer_sampleEvents
  intro answerId _ answer hdecode _ p hp question hread _
  rw [Option.mem_def.mp hdecode, Option.map_some, Option.some_inj] at hanswer
  simp only [Prod.mk.injEq] at hanswer
  have hquestion := centralQuestion_request Lib.wholeNumerals_documented
    (List.Perm.refl (requestFields [65] [49] 1)) (by decide)
  rw [hpublished, List.mem_singleton] at hp
  rw [hp, hquestion, Option.mem_some_iff] at hread
  subst hread
  exact ⟨_, hanswer.2.2, rfl, rfl, hanswer.2.1, rfl⟩

theorem hosts_delivered_sample :
    ∃ s, PartialRun.run (LoginModule.step Lib.wholeNumerals) sampleEvents {} = some s ∧
      s.replies.map HostReply.client = [1] ∧ (s.replies.map HostReply.request).Nodup ∧
        ∀ reply ∈ s.replies, s.Delivered SampleServes reply := by
  obtain ⟨s, hrun, hcreated, hrequests, hclient⟩ := run_sampleEvents
  refine ⟨s, hrun, hclient, ?_⟩
  exact hosts_delivered Lib.wholeNumerals_documented SampleServes hrun honest_sampleEvents
    (by omega) (by omega)

/-- A message that runs the callback of a client that is still there. -/
theorem onRedisMessage_reply {message : Bytes} {order : List Nat} (memory : Memory)
    {answer : Tree} {k : Nat} {request : HostRequest} {port : BitVec 16}
    (hdecode : Lib.decode numerals message = .ok answer)
    (hpending : s.pending numerals message = some (k, request))
    (hfound : luaLoginGetClient s.manager order request.clientId = some (some request.client))
    (hsuccess : Answer.truthy (Answer.field answer "success") = true)
    (hport : Answer.popUInt16 numerals (Answer.field answer "port") = some port) :
    ∃ s', s.onRedisMessage numerals message order memory = some s' ∧
      s'.replies = s.replies ++ [⟨k, request.client, gameServerHostMessage memory
        (Answer.popString numerals (Answer.field answer "host")) port⟩] := by
  unfold onRedisMessage
  dsimp only
  rw [hdecode, hpending]
  dsimp only [callback]
  rw [hfound, Option.bind_eq_bind, Option.bind_some]
  dsimp only
  rw [hsuccess, hport]
  exact ⟨_, rfl, rfl⟩

/-- The first message with the id of a question that was published sends the
client its host, if the client is still there. -/
theorem question_answered (hnumerals : numerals.Documented) {events : List ModuleEvent}
    (hrun : PartialRun.run (LoginModule.step numerals) events {} = some s)
    (hclients : s.manager.created < 2 ^ 31) (hfew : s.requests.length < 2 ^ 53) {k : Nat}
    {request : HostRequest} (hrequest : s.requests[k]? = some request)
    (hpublished : k ∉ s.login.failed)
    (hunanswered : ∀ answer ∈ s.login.answered, k < answer.2 → answer.1 ≠ k + 1)
    (hconnected : request.client ∈ s.manager.connections) {message : Bytes} {answer : Tree}
    (hid : answerIdOf (decodeJson numerals) message = some (k + 1))
    (hdecode : Lib.decode numerals message = .ok answer)
    (hsuccess : Answer.truthy (Answer.field answer "success") = true) {port : BitVec 16}
    (hport : Answer.popUInt16 numerals (Answer.field answer "port") = some port)
    {order : List Nat} (horder : order.Perm s.manager.connections) (memory : Memory) :
    ∃ s', step numerals (.message message order memory) s = some s' ∧
      s'.replies = s.replies ++ [⟨k, request.client, gameServerHostMessage memory
        (Answer.popString numerals (Answer.field answer "host")) port⟩] := by
  have hlinked := linked_run hnumerals hrun
  have hlt := (List.getElem?_eq_some_iff.mp hrequest).1
  rw [hlinked.count] at hlt hfew
  have hentry := hlinked.waits hfew k hlt hpublished hunanswered
  have hpending : s.pending numerals message = some (k, request) := by
    simp only [pending, hid, hentry, hrequest, Option.bind_eq_bind, Option.bind_some]
  obtain ⟨haccepted, hclientId⟩ := hlinked.clients request (List.mem_of_getElem? hrequest)
  obtain ⟨connectionEvents, hmanager⟩ := hlinked.managed
  have hfound := routed_of_few hmanager hclients haccepted order horder _ (Or.inl hclientId)
  rw [if_pos hconnected, protocol_eq_some_iff.mpr ⟨haccepted, rfl⟩] at hfound
  obtain ⟨s', hmessage, hreplies⟩ :=
    onRedisMessage_reply memory hdecode hpending hfound hsuccess hport
  refine ⟨s', ?_, hreplies⟩
  simp only [step, guard, if_pos horder, Option.bind_eq_bind]
  exact hmessage

theorem question_answered_sample :
    ∃ s s',
      PartialRun.run (LoginModule.step Lib.wholeNumerals) (sampleEvents.take 3) {} = some s ∧
      step Lib.wholeNumerals (.message sampleAnswer [1] fun _ => 0) s = some s' ∧
        s'.replies = [⟨0, 1, gameServerHostMessage (fun _ => 0) (text "h") 7171⟩] := by
  obtain ⟨s, hrun, hcreated, hconnections, hfailed, hanswered, hrequests, -, hreplies⟩ :=
    asked_sampleEvents
  obtain ⟨hid, hanswer⟩ := answer_sampleEvents
  obtain ⟨answer, hdecode, hanswer⟩ := Option.map_eq_some_iff.mp hanswer
  simp only [Prod.mk.injEq] at hanswer
  have hdecode : Lib.decode Lib.wholeNumerals sampleAnswer = .ok answer := by
    cases hdata : Lib.decode Lib.wholeNumerals sampleAnswer with
    | error _ =>
        rw [hdata] at hdecode
        cases hdecode
    | ok _ =>
        rw [hdata] at hdecode
        cases hdecode
        rfl
  obtain ⟨s', hstep, hs'⟩ := question_answered Lib.wholeNumerals_documented hrun (by omega)
    (by rw [hrequests]; decide) (k := 0) (by rw [hrequests]; rfl) (by simp [hfailed])
    (by simp [hanswered]) (by simp [hconnections]) hid hdecode hanswer.1 hanswer.2.2
    (List.Perm.of_eq hconnections.symm) fun _ => 0
  refine ⟨s, s', hrun, hstep, ?_⟩
  rw [hs', List.length_eq_zero_iff.mp hreplies, hanswer.2.1]
  rfl

end LoginModule

end LoginServer.Script
