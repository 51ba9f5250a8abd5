import LoginServer.Lib.JsonCopies
import LoginServer.Redis.Subscriber
import LoginServer.Script.Relay

/-!
# What is published arrives

One server publishes, the Redis server hands it to the subscribers of the
channel, and the subscriber of another server makes a task of it.  A text is cut
at its first zero on the way, and nothing is left of one that begins with it.
What `json.encode` writes has no zero, so that it arrives as it was written, and
`json.decode` makes the published value of it.  All of this is about the time
when the channels have been subscribed to.

## Main results

* `tasks_of_publications` — the tasks, for anything that is published.
* `published_values_read` — the same for what `json.encode` wrote.
-/

namespace LoginServer.Redis

open LoginServer.Network (Bytes text)
open LoginServer.Script
open LoginServer.Verified
open LoginServer.Verified.FrameReader

/-! ## Publishing -/

/-- `RedisPublisher::publish(channel, data)`: the arguments of `PUBLISH`. -/
def publish (channel data : Bytes) : Bytes × Bytes := (cString channel, cString data)

/-- `g_redis.publish(channel, data)`, of a script. -/
def luaRedisPublish (channel data : Bytes) : Bytes × Bytes :=
  publish (LuaStack.popString channel) (LuaStack.popString data)

theorem cString_cString (s : Bytes) : cString (cString s) = cString s :=
  LuaStack.popString_pushString s

theorem luaRedisPublish_eq (channel data : Bytes) :
    luaRedisPublish channel data = (cString channel, cString data) := by
  rw [luaRedisPublish, publish, LuaStack.popString, LuaStack.popString, cString_cString,
    cString_cString]

/-- What a script publishes. -/
structure Publication where
  channel : Bytes
  data : Bytes

namespace Publication

/-- What the Redis server writes to a subscriber. -/
def reply (p : Publication) : RedisReply :=
  .array [.string (text "message"), .string (luaRedisPublish p.channel p.data).1,
    .string (luaRedisPublish p.channel p.data).2]

/-- What a handler of `onRedisMessage` is going to be called with. -/
def message (p : Publication) : Option (Bytes × Bytes) :=
  if cString p.channel ≠ [] ∧ cString p.data ≠ [] then
    some (cString p.channel, cString p.data)
  else none

theorem delivered_message (channel data : Bytes) :
    delivered (.array [.string (text "message"), .string channel, .string data]) =
      if cString channel ≠ [] ∧ cString data ≠ [] then some (cString channel, cString data)
      else none := by
  have htype : cString (text "message") = text "message" := by decide
  simp [delivered, htype]

theorem delivered_reply (p : Publication) : delivered p.reply = p.message := by
  rw [reply, delivered_message, luaRedisPublish_eq]
  simp only [cString_cString]
  rfl

theorem not_nameless (p : Publication) : ¬ Nameless p.reply := by
  rintro ⟨element₀, element₁, element₂, hreply, hstr⟩
  cases hreply
  cases hstr

end Publication

theorem aborts_publications (publications : List Publication) :
    aborts (publications.map Publication.reply) = false := by
  refine List.any_eq_false.mpr fun reply hreply => ?_
  obtain ⟨p, -, rfl⟩ := List.mem_map.mp hreply
  simpa using p.not_nameless

/-! ## From script to script -/

section
variable {reader : FrameReader UInt8 RedisReply} {wire : RedisReply → Bytes}
  {publications : List Publication} {Unread : reader.Buffer → Bytes → Prop}

theorem ran_of_publications
    (h : Reads reader wire (publications.map Publication.reply) Unread) (passes : List Pass)
    (hstream : received passes <+: stream wire (publications.map Publication.reply)) :
    Ran ((arrived (wire ∘ Publication.reply) publications (received passes).length).map
      Publication.reply) passes (RedisSubscriber.threadMain reader passes) := by
  rw [← arrived_map]
  exact processed_foldl h passes [] {} (processed_start h) hstream

/-- What scripts publish elsewhere is what the handlers here are called with, in
that order, each text up to its first zero. -/
theorem tasks_of_publications
    (h : Reads reader wire (publications.map Publication.reply) Unread) (passes : List Pass)
    (hstream : received passes <+: stream wire (publications.map Publication.reply)) :
    (RedisSubscriber.threadMain reader passes).tasks =
      (arrived (wire ∘ Publication.reply) publications (received passes).length).filterMap
        Publication.message := by
  rw [(ran_of_publications h passes hstream).tasks,
    survived_of_not_aborts (aborts_publications _), List.filterMap_map]
  exact List.filterMap_congr fun p _ => p.delivered_reply

theorem position_of_publications
    (h : Reads reader wire (publications.map Publication.reply) Unread) (passes : List Pass)
    (hstream : received passes <+: stream wire (publications.map Publication.reply)) :
    (RedisSubscriber.threadMain reader passes).position =
      if passes.any Pass.leaves then .returned else .loop := by
  rw [(ran_of_publications h passes hstream).position, aborts_publications, if_neg (by simp)]

end

/-! ## Texts of `json.encode` -/

/-- A value that a script publishes: `data` is what `json.encode` wrote of it. -/
structure ValuePublication (numerals : Lib.Numerals) extends Publication where
  {n : Nat}
  heap : Fin n → Lib.LuaTable (Fin n)
  value : Lib.LuaValue (Fin n)
  channel_ne_nil : channel ≠ []
  channel_no_zero : 0 ∉ channel
  encode_eq : Lib.encode numerals heap value = .ok data

namespace ValuePublication
variable {numerals : Lib.Numerals}

/-- The channel and the text, as they were published. -/
def task (p : ValuePublication numerals) : Bytes × Bytes := (p.channel, p.data)

theorem message_eq (hnumerals : numerals.Documented) (p : ValuePublication numerals) :
    p.toPublication.message = some p.task := by
  obtain ⟨d, -, hrender⟩ := Lib.writes_of_encode p.encode_eq
  unfold Publication.message
  rw [cString_eq_iff.mpr p.channel_no_zero, hrender, Lib.cString_render hnumerals,
    if_pos ⟨p.channel_ne_nil, Lib.render_ne_nil hnumerals d⟩, ← hrender]
  rfl

/-- The text is read as the tree of the value. -/
theorem decode_task (hnumerals : numerals.Documented) (p : ValuePublication numerals) :
    ∃ d, Lib.Unfolds p.heap p.value d ∧
      Lib.decode numerals p.task.2 = .ok (d.read numerals) := by
  obtain ⟨d, hd, hrender⟩ := Lib.writes_of_encode p.encode_eq
  refine ⟨d, hd, ?_⟩
  show Lib.decode numerals p.data = _
  rw [hrender]
  exact Lib.decode_render hnumerals d

end ValuePublication

/-- The values scripts publish elsewhere are what the handlers here are called
with, in that order, each once, as soon as the last byte is there; and
`json.decode` makes of every text the value it was written of. -/
theorem published_values_read {reader : FrameReader UInt8 RedisReply} {wire : RedisReply → Bytes}
    {numerals : Lib.Numerals} {publications : List (ValuePublication numerals)}
    {Unread : reader.Buffer → Bytes → Prop} (hnumerals : numerals.Documented)
    (hreads : Reads reader wire (publications.map fun p => p.reply) Unread) (passes : List Pass)
    (hstream : received passes <+: stream wire (publications.map fun p => p.reply)) :
    (RedisSubscriber.threadMain reader passes).position =
        (if passes.any Pass.leaves then .returned else .loop) ∧
      (RedisSubscriber.threadMain reader passes).tasks =
        (arrived (fun p => wire p.reply) publications (received passes).length).map
          ValuePublication.task ∧
      ∀ p ∈ publications, ∃ d, Lib.Unfolds p.heap p.value d ∧
        Lib.decode numerals p.task.2 = .ok (d.read numerals) := by
  have hmap : (publications.map fun p => p.reply) =
      (publications.map ValuePublication.toPublication).map Publication.reply := by
    rw [List.map_map]
    rfl
  rw [hmap] at hreads hstream
  refine ⟨position_of_publications hreads passes hstream, ?_,
    fun p _ => p.decode_task hnumerals⟩
  rw [tasks_of_publications hreads passes hstream, arrived_map, List.filterMap_map,
    ← List.filterMap_eq_map]
  exact List.filterMap_congr fun p _ => p.message_eq hnumerals

/-! ## One value in two reads -/

/-- `{a = {1, 2}}`, on the channel `login`. -/
def samplePublication : Publication := ⟨text "login", text "\x7b\"a\":[1,2]\x7d"⟩

theorem channel_sample : samplePublication.channel ≠ [] ∧ 0 ∉ samplePublication.channel := by
  decide

theorem encode_sample :
    Lib.encode Lib.wholeNumerals Lib.sampleHeap (.table ⟨0, Nat.zero_lt_two⟩) =
      .ok samplePublication.data := by
  decide

def samplePublications : List (ValuePublication Lib.wholeNumerals) :=
  [{ toPublication := samplePublication, heap := Lib.sampleHeap
     value := .table ⟨0, Nat.zero_lt_two⟩
     channel_ne_nil := channel_sample.1, channel_no_zero := channel_sample.2
     encode_eq := encode_sample }]

/-- The bytes of the sample. -/
def publicationStream : Bytes := stream resp (samplePublications.map fun p => p.reply)

/-- The first read ends in the text. -/
def publicationPasses : List Pass :=
  [.read (publicationStream.take 40), .timeout, .read (publicationStream.drop 40)]

theorem published_values_read_sample :
    (RedisSubscriber.threadMain
        (tableReader resp (samplePublications.map fun p => p.reply)) publicationPasses).tasks =
      [(text "login", text "\x7b\"a\":[1,2]\x7d")] := by
  have hreads : Reads (tableReader resp (samplePublications.map fun p => p.reply)) resp
      (samplePublications.map fun p => p.reply) Eq := tableReader_reads (by decide) (by decide)
  have hall :=
    published_values_read Lib.wholeNumerals_documented hreads publicationPasses (by decide)
  exact hall.2.1.trans (by decide)

end LoginServer.Redis
