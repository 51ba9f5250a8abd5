import LoginServer.Database.DBResult
import LoginServer.Network.Protocol
import LoginServer.Verified.FrameReader

/-!
# The Redis subscriber

`RedisSubscriber::threadMain` waits for its socket, feeds what it reads to the
reader of the client library, and makes a task of every message that is whole.
The library is a `FrameReader`; the replies of a server lie behind one another
in what the socket delivers, and a read ends anywhere in them.

A script that subscribes uses the same `redisContext` from another thread.  Here
the thread is the only one to use it.

## Main results

* `handle_eq_task_iff`, `handle_eq_kept_iff`, `handle_eq_aborted_iff` — what
  becomes of one reply.
* `replies_drained` — the inner loop.
* `messages_in_order` — the thread, over any reads.
-/

namespace LoginServer.Redis

open LoginServer.Network (Bytes text toDecimal toSignedDecimal)
open LoginServer.Verified
open LoginServer.Verified.FrameReader

/-- `redisReply`. -/
inductive RedisReply where
  | string (str : Bytes)
  | status (str : Bytes)
  | error (str : Bytes)
  | integer (integer : Int)
  | nil
  | array (element : List RedisReply)

namespace RedisReply

/-- `reply->str`; `none` is a null pointer. -/
def str : RedisReply → Option Bytes
  | .string str => some str
  | .status str => some str
  | .error str => some str
  | _ => none

def isString : RedisReply → Bool
  | .string _ => true
  | _ => false

/-- The `std::string` of `reply->str` if the reply is a string, and an empty one
otherwise. -/
def stringText : RedisReply → Bytes
  | .string str => cString str
  | _ => []

end RedisReply

/-! ## The loop -/

/-- What the body of the inner loop does with a reply. -/
inductive Handled where
  /-- the constructor of `std::string` throws, and nothing catches -/
  | aborted
  /-- `continue`, which skips `freeReplyObject` -/
  | kept
  | freed
  | task (channel message : Bytes)
  deriving DecidableEq, Repr

def handle : RedisReply → Handled
  | .array [element₀, element₁, element₂] =>
      match element₀.str with
      | none => .aborted
      | some type =>
          let channel := element₁.stringText
          if channel.isEmpty then .kept
          else if cString type = text "message" ∧ element₀.isString then
            let message := element₂.stringText
            if message.isEmpty then .kept else .task channel message
          else .freed
  | _ => .freed

inductive ThreadPosition where
  | loop
  | returned
  | aborted
  /-- not a position of the source -/
  | outOfFuel
  deriving DecidableEq, Repr

structure RedisSubscriber (reader : FrameReader UInt8 RedisReply) where
  buffer : reader.Buffer := reader.start
  position : ThreadPosition := .loop
  /-- what `g_dispatcher.addTask` was given -/
  tasks : List (Bytes × Bytes) := []
  /-- replies that are never freed -/
  kept : List RedisReply := []
  /-- how many bytes have been read -/
  read : Nat := 0

namespace RedisSubscriber
variable {reader : FrameReader UInt8 RedisReply}

/-- The inner loop of `threadMain`. -/
def replies : Nat → RedisSubscriber reader → RedisSubscriber reader
  | 0, s => { s with position := .outOfFuel }
  | fuel + 1, s =>
      match reader.next s.buffer with
      | none => s
      | some (none, buffer) => { s with buffer }
      | some (some reply, buffer) =>
          match handle reply with
          | .aborted => { s with buffer, position := .aborted }
          | .kept => replies fuel { s with buffer, kept := s.kept ++ [reply] }
          | .freed => replies fuel { s with buffer }
          | .task channel message =>
              replies fuel { s with buffer, tasks := s.tasks ++ [(channel, message)] }

end RedisSubscriber

/-- One pass of the outer loop. -/
inductive Pass where
  /-- `getState()` is `Terminated` -/
  | terminated
  /-- `Redis::Select` fails -/
  | selectFailed
  /-- nothing to read within a second -/
  | timeout
  /-- `redisBufferRead` fails -/
  | readFailed
  | read (piece : Bytes)
  deriving DecidableEq, Repr

/-- The pass leaves the loop. -/
def Pass.leaves : Pass → Bool
  | .timeout => false
  | .read _ => false
  | _ => true

namespace RedisSubscriber
variable {reader : FrameReader UInt8 RedisReply}

def pass (s : RedisSubscriber reader) (p : Pass) : RedisSubscriber reader :=
  if s.position = .loop then
    match p with
    | .timeout => s
    | .read piece =>
        let read := s.read + piece.length
        replies (read + 1) { s with buffer := reader.feed s.buffer piece, read }
    | _ => { s with position := .returned }
  else s

/-- `threadMain`. -/
def threadMain (reader : FrameReader UInt8 RedisReply) (passes : List Pass) :
    RedisSubscriber reader :=
  passes.foldl pass {}

end RedisSubscriber

/-- What the socket delivers while the thread is in its loop. -/
def received : List Pass → Bytes
  | [] => []
  | .timeout :: passes => received passes
  | .read piece :: passes => piece ++ received passes
  | _ :: _ => []

/-! ## What becomes of a reply -/

/-- A message on a channel, and both have a text. -/
def delivered : RedisReply → Option (Bytes × Bytes)
  | .array [.string type, .string channel, .string message] =>
      if cString type = text "message" ∧ cString channel ≠ [] ∧ cString message ≠ [] then
        some (cString channel, cString message)
      else none
  | _ => none

/-- Three elements, and the first has no text. -/
def Nameless (reply : RedisReply) : Prop :=
  ∃ element₀ element₁ element₂, reply = .array [element₀, element₁, element₂] ∧
    element₀.str = none

/-- Three elements, and no channel, or a message without a text. -/
def Wordless (reply : RedisReply) : Prop :=
  ∃ element₀ element₁ element₂ type, reply = .array [element₀, element₁, element₂] ∧
    element₀.str = some type ∧ (element₁.stringText = [] ∨
      cString type = text "message" ∧ element₀.isString = true ∧ element₂.stringText = [])

theorem handle_eq_aborted_iff (reply : RedisReply) :
    handle reply = .aborted ↔ Nameless reply := by
  constructor
  · intro h
    unfold handle at h
    split at h
    · rename_i element₀ element₁ element₂
      cases hstr : element₀.str with
      | none => exact ⟨element₀, element₁, element₂, rfl, hstr⟩
      | some type =>
          rw [hstr] at h
          dsimp only at h
          split_ifs at h
    · cases h
  · rintro ⟨element₀, element₁, element₂, rfl, hstr⟩
    simp only [handle, hstr]

theorem string_of_stringText_ne_nil {reply : RedisReply} (h : reply.stringText ≠ []) :
    ∃ str, reply = .string str := by
  cases reply with
  | string str => exact ⟨str, rfl⟩
  | _ => exact absurd rfl h

theorem string_of_isString {reply : RedisReply} (h : reply.isString = true) :
    ∃ str, reply = .string str := by
  cases reply with
  | string str => exact ⟨str, rfl⟩
  | _ => cases h

theorem handle_message (type channel message : Bytes) (htype : cString type = text "message")
    (hchannel : cString channel ≠ []) (hmessage : cString message ≠ []) :
    handle (.array [.string type, .string channel, .string message]) =
      .task (cString channel) (cString message) := by
  simp [handle, RedisReply.str, RedisReply.stringText, RedisReply.isString, htype, hchannel,
    hmessage]

theorem handle_eq_task_iff (reply : RedisReply) (channel message : Bytes) :
    handle reply = .task channel message ↔ delivered reply = some (channel, message) := by
  constructor
  · intro h
    unfold handle at h
    split at h
    · rename_i element₀ element₁ element₂
      cases hstr : element₀.str with
      | none =>
          rw [hstr] at h
          cases h
      | some type =>
          rw [hstr] at h
          dsimp only at h
          split_ifs at h with hchannel htype hmessage
          rw [List.isEmpty_iff] at hchannel hmessage
          obtain ⟨type', rfl⟩ := string_of_isString htype.2
          obtain ⟨channel', rfl⟩ := string_of_stringText_ne_nil hchannel
          obtain ⟨message', rfl⟩ := string_of_stringText_ne_nil hmessage
          cases hstr
          cases h
          exact if_pos ⟨htype.1, hchannel, hmessage⟩
    · cases h
  · intro h
    unfold delivered at h
    split at h
    · split_ifs at h with hall
      cases h
      exact handle_message _ _ _ hall.1 hall.2.1 hall.2.2
    · cases h

theorem delivered_eq_none {reply : RedisReply}
    (h : ∀ channel message, handle reply ≠ .task channel message) : delivered reply = none := by
  cases hreply : delivered reply with
  | none => rfl
  | some task => exact absurd ((handle_eq_task_iff reply task.1 task.2).mpr hreply) (h _ _)

theorem handle_eq_kept_iff (reply : RedisReply) : handle reply = .kept ↔ Wordless reply := by
  constructor
  · intro h
    unfold handle at h
    split at h
    · rename_i element₀ element₁ element₂
      cases hstr : element₀.str with
      | none =>
          rw [hstr] at h
          cases h
      | some type =>
          rw [hstr] at h
          dsimp only at h
          refine ⟨element₀, element₁, element₂, type, rfl, hstr, ?_⟩
          split_ifs at h with hchannel htype hmessage
          · exact .inl (List.isEmpty_iff.mp hchannel)
          · exact .inr ⟨htype.1, htype.2, List.isEmpty_iff.mp hmessage⟩
    · cases h
  · rintro ⟨element₀, element₁, element₂, type, rfl, hstr, hempty⟩
    unfold handle
    simp only [hstr]
    cases hempty with
    | inl hchannel => simp [hchannel]
    | inr hmessage => simp [hmessage]

instance : DecidablePred Nameless := fun reply => decidable_of_iff _ (handle_eq_aborted_iff reply)

instance : DecidablePred Wordless := fun reply => decidable_of_iff _ (handle_eq_kept_iff reply)

/-! ## The inner loop -/

def aborts (got : List RedisReply) : Bool := got.any fun reply => Nameless reply

/-- The replies before the one the thread does not survive. -/
def survived (got : List RedisReply) : List RedisReply :=
  got.takeWhile fun reply => ¬ Nameless reply

theorem aborts_append (got more : List RedisReply) :
    aborts (got ++ more) = (aborts got || aborts more) := List.any_append

theorem not_aborts_singleton {reply : RedisReply} (h : handle reply ≠ .aborted) :
    aborts [reply] = false := by
  simp [aborts, ← handle_eq_aborted_iff, h]

theorem survived_append {got : List RedisReply} (h : aborts got = false)
    (more : List RedisReply) : survived (got ++ more) = got ++ survived more := by
  refine List.takeWhile_append_of_pos fun reply hreply => ?_
  have hnot := List.any_eq_false.mp h reply hreply
  simpa using hnot

theorem survived_of_not_aborts {got : List RedisReply} (h : aborts got = false) :
    survived got = got := by
  have happend := survived_append h []
  simpa [survived] using happend

theorem survived_of_aborts {got : List RedisReply} (h : aborts got = true)
    (more : List RedisReply) : survived (got ++ more) = survived got := by
  induction got with
  | nil => cases h
  | cons reply got ih =>
      by_cases hreply : Nameless reply
      · simp [survived, hreply]
      · have hrest : aborts got = true := by simpa [aborts, hreply] using h
        simpa [survived, hreply] using ih hrest

/-- What the replies `got` change. -/
structure Took (got : List RedisReply) {reader : FrameReader UInt8 RedisReply}
    (s s' : RedisSubscriber reader) : Prop where
  tasks : s'.tasks = s.tasks ++ (survived got).filterMap delivered
  kept : s'.kept = s.kept ++ (survived got).filter (Wordless ·)
  position : s'.position = if aborts got then .aborted else .loop

namespace Took
variable {reader : FrameReader UInt8 RedisReply} {s s' s'' : RedisSubscriber reader}
  {got more : List RedisReply} {reply : RedisReply}

theorem nil {buffer : reader.Buffer} (h : s.position = .loop) :
    Took [] s { s with buffer } :=
  ⟨(List.append_nil _).symm, (List.append_nil _).symm, h⟩

theorem append (h : Took got s s') (hnot : aborts got = false) (h' : Took more s' s'') :
    Took (got ++ more) s s'' where
  tasks := by
    rw [h'.tasks, h.tasks, survived_append hnot, survived_of_not_aborts hnot,
      List.filterMap_append, List.append_assoc]
  kept := by
    rw [h'.kept, h.kept, survived_append hnot, survived_of_not_aborts hnot,
      List.filter_append, List.append_assoc]
  position := by
    rw [h'.position, aborts_append, hnot, Bool.false_or]

theorem abort {buffer : reader.Buffer} (h : handle reply = .aborted) (rest : List RedisReply) :
    Took (reply :: rest) s { s with buffer, position := .aborted } where
  tasks := by simp [survived, ← handle_eq_aborted_iff, h]
  kept := by simp [survived, ← handle_eq_aborted_iff, ← handle_eq_kept_iff, h]
  position := by simp [aborts, ← handle_eq_aborted_iff, h]

theorem keep {buffer : reader.Buffer} (hpos : s.position = .loop) (h : handle reply = .kept) :
    Took [reply] s { s with buffer, kept := s.kept ++ [reply] } where
  tasks := by
    have hnone : delivered reply = none := delivered_eq_none fun _ _ => by rw [h]; nofun
    simp [survived, ← handle_eq_aborted_iff, h, hnone]
  kept := by simp [survived, ← handle_eq_aborted_iff, ← handle_eq_kept_iff, h]
  position := by simp [aborts, ← handle_eq_aborted_iff, h, hpos]

theorem free {buffer : reader.Buffer} (hpos : s.position = .loop) (h : handle reply = .freed) :
    Took [reply] s { s with buffer } where
  tasks := by
    have hnone : delivered reply = none := delivered_eq_none fun _ _ => by rw [h]; nofun
    simp [survived, ← handle_eq_aborted_iff, h, hnone]
  kept := by simp [survived, ← handle_eq_aborted_iff, ← handle_eq_kept_iff, h]
  position := by simp [aborts, ← handle_eq_aborted_iff, h, hpos]

theorem task {buffer : reader.Buffer} {channel message : Bytes} (hpos : s.position = .loop)
    (h : handle reply = .task channel message) :
    Took [reply] s { s with buffer, tasks := s.tasks ++ [(channel, message)] } where
  tasks := by
    have hsome := (handle_eq_task_iff reply channel message).mp h
    simp [survived, ← handle_eq_aborted_iff, h, hsome]
  kept := by simp [survived, ← handle_eq_aborted_iff, ← handle_eq_kept_iff, h]
  position := by simp [aborts, ← handle_eq_aborted_iff, h, hpos]

end Took

section
variable {reader : FrameReader UInt8 RedisReply} {wire : RedisReply → Bytes}
  {frames : List RedisReply} {Unread : reader.Buffer → Bytes → Prop}

/-- The replies `got` were taken out of the bytes `u`. -/
structure Drained (wire : RedisReply → Bytes) (Unread : reader.Buffer → Bytes → Prop)
    (got : List RedisReply) (u : Bytes) (s s' : RedisSubscriber reader) : Prop where
  took : Took got s s'
  left : aborts got = false → ∃ u', u = stream wire got ++ u' ∧ Unread s'.buffer u'

/-- First `got`, and from what is left of `p` and the bytes `piece` behind it `more`. -/
theorem Drained.append {got more : List RedisReply} {p u piece : Bytes}
    {s s' s'' : RedisSubscriber reader} (htook : Took got s s') (hnot : aborts got = false)
    (hu : p = stream wire got ++ u) (h : Drained wire Unread more (u ++ piece) s' s'') :
    Drained wire Unread (got ++ more) (p ++ piece) s s'' := by
  refine ⟨htook.append hnot h.took, fun hnone => ?_⟩
  rw [aborts_append, hnot, Bool.false_or] at hnone
  obtain ⟨u', hu', hbuffer⟩ := h.left hnone
  exact ⟨u', by rw [hu, stream_append, List.append_assoc, List.append_assoc, ← hu'], hbuffer⟩

/-- The pass of the loop that finds no whole reply. -/
theorem replies_waiting (h : Reads reader wire frames Unread) {fs : List RedisReply}
    {s : RedisSubscriber reader} {u : Bytes} (hfs : fs ⊆ frames) (hunread : Unread s.buffer u)
    (hstream : u <+: stream wire fs) (hnone : arrived wire fs u.length = []) (fuel : Nat)
    (hpos : s.position = .loop) :
    Drained wire Unread (arrived wire fs u.length) u s (s.replies (fuel + 1)) := by
  obtain ⟨buffer, hnext, hunread'⟩ := h.next_front hfs hunread hstream hnone
  rw [RedisSubscriber.replies, hnext, hnone]
  exact ⟨Took.nil hpos, fun _ => ⟨u, rfl, hunread'⟩⟩

/-- The replies that have arrived whole, and what is left of the bytes. -/
theorem replies_drained (h : Reads reader wire frames Unread) (fuel : Nat) (fs : List RedisReply)
    (s : RedisSubscriber reader) (u : Bytes) (hfs : fs ⊆ frames) (hunread : Unread s.buffer u)
    (hstream : u <+: stream wire fs) (hfuel : u.length < fuel) (hpos : s.position = .loop) :
    Drained wire Unread (arrived wire fs u.length) u s (s.replies fuel) := by
  induction fs generalizing fuel s u with
  | nil =>
      obtain ⟨fuel, rfl⟩ : ∃ n, fuel = n + 1 := ⟨fuel - 1, by omega⟩
      exact replies_waiting h hfs hunread hstream rfl fuel hpos
  | cons f fs ih =>
      obtain ⟨fuel, rfl⟩ : ∃ n, fuel = n + 1 := ⟨fuel - 1, by omega⟩
      by_cases hlen : (wire f).length ≤ u.length
      · obtain ⟨buffer, u', hnext, rfl, hunread', hstream'⟩ :=
          h.next_whole (hfs List.mem_cons_self) hunread hstream hlen
        have hwritten := List.length_pos_iff.mpr (h.written f (hfs List.mem_cons_self))
        rw [List.length_append] at hfuel
        rw [List.length_append, arrived_of_le (by omega), Nat.add_sub_cancel_left]
        -- the rest of the loop, when the thread survives this reply
        have hrest : ∀ s' : RedisSubscriber reader, Took [f] s s' → s'.buffer = buffer →
            handle f ≠ .aborted →
            Drained wire Unread (f :: arrived wire fs u'.length) (wire f ++ u') s
              (s'.replies fuel) := by
          intro s' htook hbuffer hhandle
          have hnot := not_aborts_singleton hhandle
          have hpos' : s'.position = .loop := by rw [htook.position, hnot, if_neg (by simp)]
          have hone : wire f = stream wire [f] ++ [] := by simp
          exact Drained.append htook hnot hone (ih fuel s' u'
            (fun g hg => hfs (List.mem_cons_of_mem f hg)) (hbuffer ▸ hunread') hstream'
            (by omega) hpos')
        rw [RedisSubscriber.replies, hnext]
        dsimp only
        cases hhandle : handle f with
        | aborted =>
            refine ⟨Took.abort hhandle _, fun hnone => ?_⟩
            simp [aborts, ← handle_eq_aborted_iff, hhandle] at hnone
        | kept => exact hrest _ (Took.keep hpos hhandle) rfl (by simp [hhandle])
        | freed => exact hrest _ (Took.free hpos hhandle) rfl (by simp [hhandle])
        | task => exact hrest _ (Took.task hpos hhandle) rfl (by simp [hhandle])
      · exact replies_waiting h hfs hunread hstream (arrived_of_lt (by omega)) fuel hpos

theorem read_replies (fuel : Nat) (s : RedisSubscriber reader) :
    (s.replies fuel).read = s.read := by
  induction fuel generalizing s with
  | zero => rfl
  | succ fuel ih =>
      unfold RedisSubscriber.replies
      split
      · rfl
      · rfl
      · split
        · rfl
        · exact ih _
        · exact ih _
        · exact ih _

/-! ## The thread -/

theorem Took.of_aborts {got more : List RedisReply} {s s' : RedisSubscriber reader}
    (h : Took got s s') (haborts : aborts got = true) : Took (got ++ more) s s' where
  tasks := by rw [survived_of_aborts haborts, h.tasks]
  kept := by rw [survived_of_aborts haborts, h.kept]
  position := by rw [h.position, aborts_append, haborts, Bool.true_or]

/-- The thread in its loop, after it was given `p`. -/
structure Processed (wire : RedisReply → Bytes) (frames : List RedisReply)
    (Unread : reader.Buffer → Bytes → Prop) (p : Bytes) (s : RedisSubscriber reader) :
    Prop where
  drained : Drained wire Unread (arrived wire frames p.length) p {} s
  read : aborts (arrived wire frames p.length) = false → s.read = p.length

theorem processed_start (h : Reads reader wire frames Unread) :
    Processed wire frames Unread [] ({} : RedisSubscriber reader) := by
  have hnone : arrived wire frames 0 = [] := by
    cases frames with
    | nil => rfl
    | cons f fs => exact arrived_of_lt (List.length_pos_iff.mpr (h.written f List.mem_cons_self))
  refine ⟨?_, fun _ => rfl⟩
  rw [List.length_nil, hnone]
  exact ⟨Took.nil rfl, fun _ => ⟨[], rfl, h.start⟩⟩

/-- A read of a thread that is not in its loop any more. -/
theorem Processed.read_aborted {p piece : Bytes} {s : RedisSubscriber reader}
    (hs : Processed wire frames Unread p s)
    (haborts : aborts (arrived wire frames p.length) = true) :
    Processed wire frames Unread (p ++ piece) (s.pass (.read piece)) := by
  have hpos : s.position = .aborted := by rw [hs.drained.took.position, haborts, if_pos rfl]
  have hpass : s.pass (.read piece) = s := if_neg (by rw [hpos]; nofun)
  have hadd := @arrived_add _ _ wire frames p.length piece.length
  rw [← List.length_append] at hadd
  have hstill : aborts (arrived wire frames (p ++ piece).length) = true := by
    rw [hadd, aborts_append, haborts, Bool.true_or]
  rw [hpass]
  refine ⟨⟨hadd ▸ hs.drained.took.of_aborts haborts, fun hnone => ?_⟩, fun hnone => ?_⟩
  · rw [hstill] at hnone
    cases hnone
  · rw [hstill] at hnone
    cases hnone

/-- One read. -/
theorem Processed.pass_read (h : Reads reader wire frames Unread) {p piece : Bytes}
    {s : RedisSubscriber reader} (hs : Processed wire frames Unread p s)
    (hstream : p ++ piece <+: stream wire frames) :
    Processed wire frames Unread (p ++ piece) (s.pass (.read piece)) := by
  cases haborts : aborts (arrived wire frames p.length) with
  | true => exact hs.read_aborted haborts
  | false =>
      have hread := hs.read haborts
      obtain ⟨u, hu, hunread⟩ := hs.drained.left haborts
      have hpos : s.position = .loop := by
        rw [hs.drained.took.position, haborts, if_neg (by simp)]
      obtain ⟨hpiece, hrest⟩ := arrived_piece rfl hu hstream
      have hlen := congrArg List.length hu
      rw [List.length_append] at hlen
      have hpass : s.pass (.read piece) = RedisSubscriber.replies (s.read + piece.length + 1)
          { s with buffer := reader.feed s.buffer piece, read := s.read + piece.length } :=
        if_pos hpos
      have hdrained := replies_drained h (s.read + piece.length + 1) _
        { s with buffer := reader.feed s.buffer piece, read := s.read + piece.length }
        (u ++ piece) (List.drop_subset _ _) (h.feed _ _ piece hunread) hrest
        (by rw [hread, List.length_append]; omega) hpos
      rw [hpass]
      refine ⟨?_, fun _ => ?_⟩
      · rw [hpiece]
        exact Drained.append hs.drained.took haborts hu
          ⟨⟨hdrained.took.tasks, hdrained.took.kept, hdrained.took.position⟩, hdrained.left⟩
      · rw [read_replies, List.length_append, hread]

/-- A thread that has left its loop does nothing. -/
theorem foldl_pass_of_ne {s : RedisSubscriber reader} (h : s.position ≠ .loop)
    (passes : List Pass) : passes.foldl RedisSubscriber.pass s = s := by
  induction passes with
  | nil => rfl
  | cons p passes ih =>
      have hpass : s.pass p = s := if_neg h
      rw [List.foldl_cons, hpass, ih]

theorem pass_of_leaves {p : Pass} (h : p.leaves = true) (s : RedisSubscriber reader) :
    s.pass p = if s.position = .loop then { s with position := .returned } else s := by
  cases p with
  | terminated => rfl
  | selectFailed => rfl
  | timeout => cases h
  | readFailed => rfl
  | read => cases h

theorem received_of_leaves {p : Pass} (h : p.leaves = true) (passes : List Pass) :
    received (p :: passes) = [] := by
  cases p with
  | terminated => rfl
  | selectFailed => rfl
  | timeout => cases h
  | readFailed => rfl
  | read => cases h

/-- What a run of the thread leaves behind. -/
structure Ran (got : List RedisReply) (passes : List Pass) (s : RedisSubscriber reader) :
    Prop where
  tasks : s.tasks = (survived got).filterMap delivered
  kept : s.kept = (survived got).filter (Wordless ·)
  position : s.position =
    if aborts got then .aborted else if passes.any Pass.leaves then .returned else .loop

theorem Ran.stay {got : List RedisReply} {passes : List Pass} {s : RedisSubscriber reader}
    (h : Ran got passes s) {p : Pass} (hp : p.leaves = false) : Ran got (p :: passes) s :=
  ⟨h.tasks, h.kept, by rw [h.position, List.any_cons, hp, Bool.false_or]⟩

theorem ran_of_leaves {got : List RedisReply} {s : RedisSubscriber reader} (htook : Took got {} s)
    {p : Pass} (hp : p.leaves = true) (passes : List Pass) :
    Ran got (p :: passes) ((p :: passes).foldl RedisSubscriber.pass s) := by
  rw [List.foldl_cons, pass_of_leaves hp]
  cases haborts : aborts got with
  | true =>
      have hpos : s.position = .aborted := by rw [htook.position, haborts, if_pos rfl]
      have hne : s.position ≠ .loop := by rw [hpos]; nofun
      rw [if_neg hne, foldl_pass_of_ne hne]
      exact ⟨htook.tasks, htook.kept, by rw [hpos, haborts, if_pos rfl]⟩
  | false =>
      have hpos : s.position = .loop := by rw [htook.position, haborts, if_neg (by simp)]
      rw [if_pos hpos, foldl_pass_of_ne (by nofun)]
      exact ⟨htook.tasks, htook.kept, by simp [haborts, hp]⟩

theorem processed_foldl (h : Reads reader wire frames Unread) (passes : List Pass) (p : Bytes)
    (s : RedisSubscriber reader) (hs : Processed wire frames Unread p s)
    (hstream : p ++ received passes <+: stream wire frames) :
    Ran (arrived wire frames (p ++ received passes).length) passes
      (passes.foldl RedisSubscriber.pass s) := by
  induction passes generalizing p s with
  | nil =>
      rw [received, List.append_nil]
      exact ⟨hs.drained.took.tasks, hs.drained.took.kept, hs.drained.took.position⟩
  | cons pass passes ih =>
      cases hleaves : pass.leaves with
      | true =>
          rw [received_of_leaves hleaves, List.append_nil]
          exact ran_of_leaves hs.drained.took hleaves passes
      | false =>
          cases pass with
          | timeout =>
              have hpass : s.pass .timeout = s := ite_self _
              rw [List.foldl_cons, hpass]
              exact (ih p s hs hstream).stay hleaves
          | read piece =>
              rw [received, ← List.append_assoc] at hstream ⊢
              have hs' := hs.pass_read h ((List.prefix_append _ _).trans hstream)
              exact (ih (p ++ piece) (s.pass (.read piece)) hs' hstream).stay hleaves
          | _ => cases hleaves

/-- Whatever the reads bring and wherever they end, the tasks are the messages
that have arrived whole, in their order, each of them once. -/
theorem messages_in_order (h : Reads reader wire frames Unread) (passes : List Pass)
    (hstream : received passes <+: stream wire frames) :
    Ran (arrived wire frames (received passes).length) passes
      (RedisSubscriber.threadMain reader passes) :=
  processed_foldl h passes [] {} (processed_start h) hstream

end

/-! ## A message in two reads -/

mutual

/-- RESP. -/
def resp : RedisReply → Bytes
  | .string str => text "$" ++ toDecimal str.length ++ text "\r\n" ++ str ++ text "\r\n"
  | .status str => text "+" ++ str ++ text "\r\n"
  | .error str => text "-" ++ str ++ text "\r\n"
  | .integer integer => text ":" ++ toSignedDecimal integer ++ text "\r\n"
  | .nil => text "$-1\r\n"
  | .array element => text "*" ++ toDecimal element.length ++ text "\r\n" ++ respEach element

def respEach : List RedisReply → Bytes
  | [] => []
  | reply :: replies => resp reply ++ respEach replies

end

/-- The second has no text. -/
def sampleReplies : List RedisReply :=
  [.array [.string (text "subscribe"), .string (text "login"), .integer 1],
    .array [.string (text "message"), .string (text "login"), .string []],
    .array [.string (text "message"), .string (text "login"), .string (text "hi")],
    .array [.string (text "message"), .string (text "login"), .string (text "ho")]]

/-- The first read ends in the third reply, and the second in the fourth. -/
def samplePasses : List Pass :=
  [.read ((stream resp sampleReplies).take 90), .timeout,
    .read (((stream resp sampleReplies).drop 90).take 30)]

theorem messages_in_order_sample :
    (RedisSubscriber.threadMain (tableReader resp sampleReplies) samplePasses).tasks =
        [(text "login", text "hi")] ∧
      (RedisSubscriber.threadMain (tableReader resp sampleReplies) samplePasses).position =
        .loop := by
  have hreads : Reads (tableReader resp sampleReplies) resp sampleReplies Eq :=
    tableReader_reads (by decide) (by decide)
  have hran := messages_in_order hreads samplePasses (by decide)
  exact ⟨hran.tasks.trans (by decide), hran.position.trans (by decide)⟩

end LoginServer.Redis
