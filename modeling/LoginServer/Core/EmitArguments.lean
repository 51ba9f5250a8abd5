import Mathlib.Logic.Function.Iterate
import LoginServer.Core.EmitFold
import LoginServer.Core.EmitTurns
import LoginServer.Network.Protocol
import LoginServer.Script.LuaMessage

/-!
# The arguments of an emit

`emitNoRet` forwards its arguments once for every callback it invokes, down
to `pushTuple`, which takes its tuple by value.  An argument that came as an
rvalue is forwarded as one each time, so the first callback gets what was in
it and the others what a move leaves behind: a `shared_ptr` is null after it
and a `std::string` empty, numbers and raw pointers stay as they are.  The
message is such a pointer, and every callback reads on where the last one
stopped.

## Main results

* `received_eq` — what a run gives its callbacks.
* `same_arguments_iff` — when a callback is given what the first one is given.
* `all_same_iff` — when all are.
-/

namespace LoginServer.Core

open LoginServer.Network
open LoginServer.Script (MessageCall)

/-- The argument types `LuaStack::Push` knows. -/
inductive ArgValue where
  | number (value : Int)
  | boolean (value : Bool)
  /-- `const char*` -/
  | cString (value : Bytes)
  /-- `std::string` -/
  | string (value : Bytes)
  /-- `ProtocolSharedPtr` -/
  | protocol (pointer : Option Nat)
  /-- `NetworkMessage*` -/
  | message
  | nil
  deriving DecidableEq, Repr

/-- A `std::tuple<const char*, T>`, and whether `emitNoRet` got an rvalue. -/
structure Argument where
  name : Bytes
  value : ArgValue
  rvalue : Bool := true
  deriving DecidableEq, Repr

/-- What a callback finds under the name of an argument. -/
inductive Pushed where
  | number (value : Int)
  | boolean (value : Bool)
  | string (value : Bytes)
  | protocol (pointer : Option Nat)
  | message (length position : UInt16) (buffer : Verified.ByteMemory.Memory)
  | nil

/-- The bytes `lua_pushstring` copies. -/
def cBytes (value : Bytes) : Bytes := value.takeWhile (· ≠ 0)

/-- `LuaStack::Push<T>::Value`, with the message the pointer points to. -/
def ArgValue.push (msg : NetworkMessage) : ArgValue → Pushed
  | .number value => .number value
  | .boolean value => .boolean value
  | .cString value => .string (cBytes value)
  | .string value => .string (cBytes value)
  | .protocol pointer => .protocol pointer
  | .message => .message msg.length msg.position msg.buffer
  | .nil => .nil

/-- What the move constructor leaves behind. -/
def ArgValue.movedFrom : ArgValue → ArgValue
  | .string _ => .string []
  | .protocol _ => .protocol none
  | value => value

/-- `pushTuple`: what is set in the table of the callback. -/
def Argument.pushTuple (msg : NetworkMessage) (a : Argument) : Bytes × Pushed :=
  (a.name, a.value.push msg)

/-- The argument after it was forwarded into `pushTuple`. -/
def Argument.forwarded (a : Argument) : Argument :=
  if a.rvalue then { a with value := a.value.movedFrom } else a

/-- The arguments of an emit between two invocations, and what the callbacks
were given so far. -/
structure Passing where
  args : List Argument
  message : NetworkMessage
  invocation : Nat := 0
  received : List (List (Bytes × Pushed)) := []

/-- One invocation; `uses` are the calls each callback makes on the message. -/
def Passing.next (uses : Nat → List MessageCall) (p : Passing) : Passing :=
  { args := p.args.map Argument.forwarded
    message := MessageCall.onAll (uses p.invocation) p.message
    invocation := p.invocation + 1
    received := p.received ++ [p.args.map (Argument.pushTuple p.message)] }

/-- `emitNoRet` with its arguments. -/
def emitNoRetArgs (t : Topic) (spare : Spare) (behaviour : Behaviour)
    (uses : Nat → List MessageCall) (args : List Argument) (msg : NetworkMessage)
    (reg : Registry) : Option (Walk Passing) :=
  emitWith t spare behaviour (fun p _ => p.next uses) { args, message := msg } reg

/-- The arguments `Protocol::parsePacket` emits. -/
def receiveArgs (client : Nat) : List Argument :=
  [{ name := text "client", value := .protocol (some client) },
   { name := text "msg", value := .message }]

/-- The arguments of a message from redis. -/
def redisArgs (message : Bytes) : List Argument :=
  [{ name := text "message", value := .cString message }]

/-- The topic of a redis channel. -/
def redisTopic (channel : Bytes) : Topic := ⟨text "onRedisMessage", channel⟩

/-- The topic of an opcode. -/
def receiveTopic (opcode : UInt8) : Topic :=
  ⟨text "onReceiveNetworkMessage", toDecimal opcode.toNat⟩

/-! ## What the loops do to the arguments -/

section
variable {ρ : Type} {t : Topic} {spare : Spare} {behaviour : Behaviour} {f : ρ → ρ}
  {start : ρ}

/-- The results of a walk count its calls. -/
def Walk.Counts (f : ρ → ρ) (start : ρ) (s : Walk ρ) : Prop :=
  s.results = f^[s.calls.length] start

/-- What does not look at the results of the callbacks is applied once a call. -/
theorem collected_eq_iterate (n : Nat) :
    collected behaviour (fun r _ => f r) start n = f^[n] start := by
  induction n with
  | zero => rfl
  | succ n ih => rw [collected, ih, Function.iterate_succ_apply']

theorem emitWith_counts {reg : Registry} {s : Walk ρ}
    (h : emitWith t spare behaviour (fun r _ => f r) start reg = some s) :
    s.Counts f start := by
  rw [emitWith_eq_map (fun _ => rfl)] at h
  obtain ⟨w, -, rfl⟩ := Option.map_eq_some_iff.mp h
  exact collected_eq_iterate w.calls.length

end

/-! ## What an invocation is given -/

/-- The message when the `k`-th callback is invoked: all the calls of those
before it were made. -/
def messageAt (uses : Nat → List MessageCall) (msg : NetworkMessage) (k : Nat) :
    NetworkMessage :=
  MessageCall.onAll ((List.range k).flatMap uses) msg

theorem messageAt_succ (uses : Nat → List MessageCall) (msg : NetworkMessage) (k : Nat) :
    messageAt uses msg (k + 1) = MessageCall.onAll (uses k) (messageAt uses msg k) := by
  unfold messageAt MessageCall.onAll
  rw [List.range_succ, List.flatMap_append, List.foldl_append, List.flatMap_singleton]

/-- The arguments when the `k`-th callback is invoked. -/
def argsAt (args : List Argument) : Nat → List Argument
  | 0 => args
  | k + 1 => (argsAt args k).map Argument.forwarded

def givenAt (uses : Nat → List MessageCall) (args : List Argument) (msg : NetworkMessage)
    (k : Nat) : List (Bytes × Pushed) :=
  (argsAt args k).map (Argument.pushTuple (messageAt uses msg k))

theorem passing_eq (uses : Nat → List MessageCall) (args : List Argument) (msg : NetworkMessage)
    (n : Nat) :
    (Passing.next uses)^[n] { args, message := msg } =
      { args := argsAt args n
        message := messageAt uses msg n
        invocation := n
        received := (List.range n).map (givenAt uses args msg) } := by
  induction n with
  | zero => rfl
  | succ n ih =>
      rw [Function.iterate_succ_apply', ih, messageAt_succ, List.range_succ, List.map_append]
      rfl

theorem forwarded_forwarded (a : Argument) : a.forwarded.forwarded = a.forwarded := by
  obtain ⟨name, value, rvalue⟩ := a
  cases rvalue with
  | false => rfl
  | true => cases value <;> rfl

theorem argsAt_succ (args : List Argument) (k : Nat) :
    argsAt args (k + 1) = args.map Argument.forwarded := by
  induction k with
  | zero => rfl
  | succ k ih =>
      rw [argsAt, ih, List.map_map]
      apply List.map_congr_left
      intro a _
      exact forwarded_forwarded a

/-- Forwarding the argument leaves what a callback would see of it. -/
def Argument.Kept (a : Argument) : Prop :=
  a.rvalue = true → match a.value with
    | .protocol pointer => pointer = none
    | .string value => cBytes value = []
    | _ => True

/-- The argument is the pointer to the message. -/
def Argument.IsMessage (a : Argument) : Prop := a.value = .message

theorem message_eq_iff (msg msg' : NetworkMessage) :
    Pushed.message msg'.length msg'.position msg'.buffer =
      .message msg.length msg.position msg.buffer ↔ Script.SameToLua msg' msg := by
  constructor
  · intro h
    injection h with hlength hposition hbuffer
    exact ⟨hlength, hposition, hbuffer⟩
  · rintro ⟨hlength, hposition, hbuffer⟩
    rw [hlength, hposition, hbuffer]

theorem ArgValue.push_movedFrom_iff (value : ArgValue) (msg msg' : NetworkMessage) :
    value.movedFrom.push msg' = value.push msg ↔
      Argument.Kept ⟨[], value, true⟩ ∧ (value = .message → Script.SameToLua msg' msg) := by
  cases value with
  | message => simpa [Argument.Kept, movedFrom, push] using message_eq_iff msg msg'
  | protocol pointer => cases pointer <;> simp [Argument.Kept, movedFrom, push]
  | string value => cases value <;> simp [Argument.Kept, movedFrom, push, cBytes]
  | number value => simp [Argument.Kept, movedFrom, push]
  | boolean value => simp [Argument.Kept, movedFrom, push]
  | cString value => simp [Argument.Kept, movedFrom, push]
  | nil => simp [Argument.Kept, movedFrom, push]

theorem ArgValue.push_eq_iff (value : ArgValue) (msg msg' : NetworkMessage) :
    value.push msg' = value.push msg ↔
      (value = .message → Script.SameToLua msg' msg) := by
  cases value with
  | message => simpa [push] using message_eq_iff msg msg'
  | protocol pointer => simp [push]
  | string value => simp [push]
  | number value => simp [push]
  | boolean value => simp [push]
  | cString value => simp [push]
  | nil => simp [push]

theorem pushTuple_forwarded_iff (a : Argument) (msg msg' : NetworkMessage) :
    a.forwarded.pushTuple msg' = a.pushTuple msg ↔
      a.Kept ∧ (a.IsMessage → Script.SameToLua msg' msg) := by
  obtain ⟨name, value, rvalue⟩ := a
  cases rvalue with
  | true =>
      show (name, value.movedFrom.push msg') = (name, value.push msg) ↔ _
      rw [Prod.mk.injEq, value.push_movedFrom_iff msg msg']
      exact and_iff_right rfl
  | false =>
      show (name, value.push msg') = (name, value.push msg) ↔ _
      rw [Prod.mk.injEq, value.push_eq_iff msg msg']
      constructor
      · rintro ⟨-, hsame⟩
        exact ⟨Bool.false_ne_true.elim, hsame⟩
      · rintro ⟨-, hsame⟩
        exact ⟨rfl, hsame⟩

/-- The message looks the same to all the callbacks of a run exactly when none
that is followed by another one changes how it looks. -/
theorem messageAt_same_iff (uses : Nat → List MessageCall) (msg : NetworkMessage) (n : Nat) :
    (∀ k, k + 1 < n → Script.SameToLua (messageAt uses msg (k + 1)) msg) ↔
      ∀ k, k + 1 < n → Script.SameToLua (MessageCall.onAll (uses k) msg) msg := by
  have hstep : ∀ k, Script.SameToLua (messageAt uses msg k) msg →
      Script.SameToLua (messageAt uses msg (k + 1)) (MessageCall.onAll (uses k) msg) := by
    intro k hsame
    rw [messageAt_succ]
    exact hsame.onAll (uses k)
  constructor
  · intro h k hk
    have hbefore : Script.SameToLua (messageAt uses msg k) msg := by
      cases k with
      | zero => exact .refl msg
      | succ k => exact h k (by omega)
    exact (hstep k hbefore).symm.trans (h k hk)
  · intro h k
    induction k with
    | zero =>
        intro hk
        exact (hstep 0 (.refl msg)).trans (h 0 hk)
    | succ k ih =>
        intro hk
        exact (hstep (k + 1) (ih (by omega))).trans (h (k + 1) hk)

/-- What a later callback is given against what the first one is given. -/
theorem givenAt_succ_iff (uses : Nat → List MessageCall) (args : List Argument)
    (msg : NetworkMessage) (k : Nat) :
    givenAt uses args msg (k + 1) = givenAt uses args msg 0 ↔
      (∀ a ∈ args, a.Kept) ∧ ((∃ a ∈ args, a.IsMessage) →
        Script.SameToLua (messageAt uses msg (k + 1)) msg) := by
  have hfirst : givenAt uses args msg 0 = args.map (Argument.pushTuple msg) := rfl
  rw [hfirst, givenAt, argsAt_succ, List.map_map, List.map_inj_left]
  constructor
  · intro h
    constructor
    · intro a ha
      exact ((pushTuple_forwarded_iff a _ _).mp (h a ha)).1
    · rintro ⟨a, ha, hmessage⟩
      exact ((pushTuple_forwarded_iff a _ _).mp (h a ha)).2 hmessage
  · rintro ⟨hkept, hsame⟩ a ha
    apply (pushTuple_forwarded_iff a _ _).mpr
    exact ⟨hkept a ha, fun hmessage => hsame ⟨a, ha, hmessage⟩⟩

section
variable {t : Topic} {spare : Spare} {behaviour : Behaviour} {uses : Nat → List MessageCall}
  {args : List Argument} {msg : NetworkMessage} {reg : Registry} {s : Walk Passing}

/-- A run of `emitNoRet` gives each callback it invokes what `givenAt` says. -/
theorem received_eq (h : emitNoRetArgs t spare behaviour uses args msg reg = some s) :
    s.results.received = (List.range s.calls.length).map (givenAt uses args msg) := by
  have hcounts : s.results = _ := emitWith_counts h
  rw [hcounts, passing_eq]

theorem received_get (h : emitNoRetArgs t spare behaviour uses args msg reg = some s) {k : Nat}
    (hk : k < s.calls.length) : s.results.received[k]? = some (givenAt uses args msg k) := by
  rw [received_eq h, List.getElem?_map, List.getElem?_range hk, Option.map_some]

theorem received_succ_iff (h : emitNoRetArgs t spare behaviour uses args msg reg = some s)
    {k : Nat} (hk : k + 1 < s.calls.length) :
    s.results.received[k + 1]? = s.results.received[0]? ↔
      (∀ a ∈ args, a.Kept) ∧ ((∃ a ∈ args, a.IsMessage) →
        Script.SameToLua (messageAt uses msg (k + 1)) msg) := by
  rw [received_get h hk, received_get h (by omega), Option.some_inj]
  exact givenAt_succ_iff uses args msg k

/-- The `k`-th callback of a run is given what the first one is given exactly
when it is the first one, or forwarding leaves every argument as it was and,
with a message among them, the callbacks before it left the message as it was. -/
theorem same_arguments_iff (h : emitNoRetArgs t spare behaviour uses args msg reg = some s)
    {k : Nat} (hk : k < s.calls.length) :
    s.results.received[k]? = s.results.received[0]? ↔
      k = 0 ∨ ((∀ a ∈ args, a.Kept) ∧ ((∃ a ∈ args, a.IsMessage) →
        Script.SameToLua (MessageCall.onAll ((List.range k).flatMap uses) msg) msg)) := by
  cases k with
  | zero => simp
  | succ k =>
      rw [received_succ_iff h hk]
      constructor
      · intro hsame
        exact Or.inr hsame
      · rintro (hzero | hsame)
        · cases hzero
        · exact hsame

/-- With two callbacks or more, all are given the same exactly when forwarding
leaves every argument as it was and no callback but the last does anything to
a message that is among them. -/
theorem all_same_iff (h : emitNoRetArgs t spare behaviour uses args msg reg = some s) :
    (∀ k < s.calls.length, s.results.received[k]? = s.results.received[0]?) ↔
      s.calls.length ≤ 1 ∨ ((∀ a ∈ args, a.Kept) ∧ ((∃ a ∈ args, a.IsMessage) →
        ∀ k, k + 1 < s.calls.length →
          Script.SameToLua (MessageCall.onAll (uses k) msg) msg)) := by
  rw [← messageAt_same_iff]
  constructor
  · intro hall
    rcases Nat.lt_or_ge 1 s.calls.length with hn | hn
    · right
      constructor
      · exact ((received_succ_iff h hn).mp (hall 1 hn)).1
      · intro hmessage k hk
        exact ((received_succ_iff h hk).mp (hall (k + 1) hk)).2 hmessage
    · left
      exact hn
  · intro hcond k hk
    cases k with
    | zero => rfl
    | succ k =>
        rcases hcond with hn | ⟨hkept, hsame⟩
        · omega
        · apply (received_succ_iff h hk).mpr
          exact ⟨hkept, fun hmessage => hsame hmessage k hk⟩

/-- Of a packet only the first subscriber gets the client. -/
theorem receive_same_iff {client : Nat}
    (h : emitNoRetArgs t spare behaviour uses (receiveArgs client) msg reg = some s)
    {k : Nat} (hk : k < s.calls.length) :
    s.results.received[k]? = s.results.received[0]? ↔ k = 0 := by
  cases k with
  | zero => simp
  | succ k =>
      rw [received_succ_iff h hk]
      simp [receiveArgs, Argument.Kept]

end

/-- Two modules connect to one topic. -/
def twoSubscribers (t : Topic) : List Op :=
  [.connect 0 t.event 10 t.identifier, .connect 1 t.event 11 t.identifier]

/-- A string that was passed as a pointer is there for both. -/
theorem pointer_reaches_both :
    ∃ s, emitNoRetArgs (redisTopic [99]) {} (fun _ => {}) (fun _ => []) (redisArgs [104, 105])
        { buffer := fun _ => 0 } (runOps (twoSubscribers (redisTopic [99])) {}) = some s ∧
      s.results.received[1]? = s.results.received[0]? := by
  have hcalls : (emitNoRetArgs (redisTopic [99]) {} (fun _ => {}) (fun _ => [])
      (redisArgs [104, 105]) { buffer := fun _ => 0 }
      (runOps (twoSubscribers (redisTopic [99])) {})).map
        (fun s => s.calls.length) = some 2 := by
    decide +kernel
  obtain ⟨s, hemit, hlen⟩ := Option.map_eq_some_iff.mp hcalls
  use s, hemit
  apply (same_arguments_iff hemit (by omega)).mpr
  right
  constructor
  · simp [redisArgs, Argument.Kept]
  · simp [redisArgs, Argument.IsMessage]

/-- The clients a run handed out. -/
def clients (received : List (List (Bytes × Pushed))) : List (Option (Option Nat)) :=
  received.map fun given =>
    match given.lookup (text "client") with
    | some (.protocol pointer) => some pointer
    | _ => none

/-- The second module gets no client, though none of the callbacks touches
anything. -/
theorem second_client_is_null :
    Reachable (runOps (twoSubscribers (receiveTopic 1)) {}) ∧
      ∃ s, emitNoRetArgs (receiveTopic 1) {} (fun _ => {}) (fun _ => []) (receiveArgs 7)
          { buffer := fun _ => 0 } (runOps (twoSubscribers (receiveTopic 1)) {}) = some s ∧
        clients s.results.received = [some (some 7), some none] ∧
        ¬ ∀ k < s.calls.length, s.results.received[k]? = s.results.received[0]? := by
  have hrun : (emitNoRetArgs (receiveTopic 1) {} (fun _ => {}) (fun _ => []) (receiveArgs 7)
      { buffer := fun _ => 0 } (runOps (twoSubscribers (receiveTopic 1)) {})).map
        (fun s => (s.calls.length, clients s.results.received)) =
          some (2, [some (some 7), some none]) := by
    decide +kernel
  obtain ⟨s, hemit, hs⟩ := Option.map_eq_some_iff.mp hrun
  rw [Prod.mk.injEq] at hs
  obtain ⟨hlen, hclients⟩ := hs
  refine ⟨⟨twoSubscribers (receiveTopic 1), rfl⟩, s, hemit, hclients, ?_⟩
  intro hsame
  have hsecond := (receive_same_iff hemit (k := 1) (by omega)).mp (hsame 1 (by omega))
  cases hsecond

end LoginServer.Core
