import Mathlib.Data.Rat.Defs
import LoginServer.Network.NetworkMessage
import LoginServer.Verified.PartialRun

/-!
# Requests to the central server and their answers

`g_login.requestCentralAnswer` of `lib/login.lua` files a callback under a new
id and publishes the request; `_onRedisMessage` of `modules/login/request.lua`
looks up the id a message carries, runs the callback and takes it out of the
table.  The callback may make requests of its own, or raise an error, which
leaves the handler before the entry is taken out.  Ids are Lua numbers.

Requests are numbered, and the number of a request stands for the callback it
was given.  What has been issued, answered and run is recorded beside the
table.

## Main results

* `Login.Filed` — what the table and the records have to do with each other,
  in every history.
* `answers_correlated_iff` — the histories in which no callback runs twice.
-/

namespace LoginServer.Script

open LoginServer.Network (Bytes)
open LoginServer.Verified

/-- What `json.decode` returns. -/
inductive JsonValue where
  | nil
  | boolean (value : Bool)
  | number (value : Rat)
  /-- an infinity or a NaN, which `tonumber` may give -/
  | nonFinite
  | string (value : Bytes)
  /-- the string keys of a table -/
  | table (fields : List (String × JsonValue))

namespace JsonValue

def truthy : JsonValue → Bool
  | .nil => false
  | .boolean value => value
  | _ => true

/-- `data[name]`; a string is indexed in the string library, which has neither
of the two names. -/
def index (name : String) : JsonValue → Option JsonValue
  | .table fields => some ((fields.lookup name).getD .nil)
  | .string _ => some .nil
  | _ => none

/-- The id of the generator a value equals, if any; nothing else is a key of
`answerCallbacks`. -/
def id : JsonValue → Option Nat
  | .number value => if value.den = 1 ∧ 0 ≤ value.num then some value.num.toNat else none
  | _ => none

end JsonValue

/-- A callback that was run, the id of the answer, and how many answers came
before. -/
structure Run where
  callback : Nat
  answerId : Nat
  earlier : Nat
  deriving DecidableEq, Repr

/-- `g_login`, and the records. -/
structure Login where
  answerIdGenerator : Nat := 0
  answerCallbacks : Nat → Option Nat := fun _ => none
  /-- the id of every request -/
  issued : List Nat := []
  /-- the requests whose `publish` failed -/
  failed : List Nat := []
  /-- the callbacks that raised an error -/
  raised : List Nat := []
  /-- the ids of the answers, and how many requests there were by then -/
  answered : List (Nat × Nat) := []
  runs : List Run := []

/-- How `g_redis.publish("central_login", json.encode(data))` ends. -/
inductive Published where
  | sent
  | failed
  /-- `json.encode` raised an error -/
  | raised
  deriving DecidableEq, Repr

/-- What a callback does: its requests, and whether it raises an error after
them. -/
structure Behaviour where
  requests : List Published := []
  raises : Bool := false

/-- `n + 1` on a double that holds an integer. -/
def luaSucc (n : Nat) : Nat := if n < 2 ^ 53 then n + 1 else n

namespace Login

def file (g : Login) (answerId : Nat) (callback : Option Nat) : Login :=
  { g with answerCallbacks := fun i => if i = answerId then callback else g.answerCallbacks i }

/-- A new id, and the callback under it. -/
def issue (g : Login) : Login :=
  let answerId := luaSucc g.answerIdGenerator
  let callback := g.issued.length
  let g := { g with answerIdGenerator := answerId, issued := g.issued ++ [answerId] }
  g.file answerId (some callback)

/-- `g_login.requestCentralAnswer(data, callback)`. -/
def requestCentralAnswer (published : Published) (g : Login) : Login :=
  let callback := g.issued.length
  let g := g.issue
  match published with
  | .sent => g
  | .failed => { g.file g.answerIdGenerator none with failed := callback :: g.failed }
  | .raised => g

def requests (published : List Published) (g : Login) : Login :=
  published.foldl (fun g p => g.requestCentralAnswer p) g

/-- `callback(data)`, and whether it raised an error. -/
def call (run : Run) (behaviour : Behaviour) (g : Login) : Bool × Login :=
  let g := { g with runs := g.runs ++ [run] }
  let g := g.requests behaviour.requests
  if behaviour.raises then (true, { g with raised := run.callback :: g.raised }) else (false, g)

/-- The handler once it has the id. -/
def answer (answerId : Nat) (behaviour : Behaviour) (g : Login) : Bool × Login :=
  let earlier := g.answered.length
  let g := { g with answered := g.answered ++ [(answerId, g.issued.length)] }
  match g.answerCallbacks answerId with
  | none => (false, g)
  | some callback =>
      let (raised, g) := g.call ⟨callback, answerId, earlier⟩ behaviour
      if raised then (true, g) else (false, g.file answerId none)

/-- `_onRedisMessage(args)`, and whether it raised an error. -/
def onRedisMessage (decode : Bytes → Option JsonValue) (message : Bytes) (behaviour : Behaviour)
    (g : Login) : Bool × Login :=
  match decode message with
  | none => (true, g)
  | some data =>
      match data.index "__answer", data.index "__answerId" with
      | some answer, some answerId =>
          if answer.truthy then
            match answerId.id with
            | none => (false, g)
            | some answerId => g.answer answerId behaviour
          else (false, g)
      | _, _ => (true, g)

/-- `internalCallLuaFieldNoRet`: an error ends the handler and nothing else. -/
def internalCallLuaFieldNoRet (handler : Login → Bool × Login) (g : Login) : Login :=
  (handler g).2

end Login

/-- What happens to `g_login`. -/
inductive LoginEvent where
  | request (published : Published)
  /-- a message on the channel `login` -/
  | message (text : Bytes) (behaviour : Behaviour)

section
variable (decode : Bytes → Option JsonValue)

def LoginEvent.step : LoginEvent → Login → Option Login
  | .request published, g => some (g.requestCentralAnswer published)
  | .message text behaviour, g =>
      some (g.internalCallLuaFieldNoRet (Login.onRedisMessage decode text behaviour))

/-- The id of the answer a message is. -/
def answerIdOf (text : Bytes) : Option Nat := do
  let data ← decode text
  let answer ← data.index "__answer"
  let answerId ← data.index "__answerId"
  if answer.truthy then answerId.id else none

end

/-- No callback runs twice, or without an answer with the id of its request,
or after its `publish` failed, or after an answer with its id. -/
structure Login.Correlated (g : Login) : Prop where
  once : (g.runs.map Run.callback).Nodup
  carried : ∀ run ∈ g.runs, g.issued[run.callback]? = some run.answerId
  published : ∀ run ∈ g.runs, run.callback ∉ g.failed
  last : ∀ run ∈ g.runs, ∀ answer ∈ g.answered.take run.earlier,
    run.callback < answer.2 → answer.1 ≠ run.answerId

/-- The callback the event is going to run, if any, has not raised an error
before. -/
def LoginEvent.Answerable (decode : Bytes → Option JsonValue) (g : Login) : LoginEvent → Prop
  | .request _ => True
  | .message text _ =>
      ∀ answerId ∈ answerIdOf decode text, ∀ callback ∈ g.answerCallbacks answerId,
        callback ∉ g.raised

/-! ## The table and the records -/

namespace Login

/-- What holds of every history. -/
structure Filed (g : Login) : Prop where
  entry : ∀ answerId callback, g.answerCallbacks answerId = some callback →
    g.issued[callback]? = some answerId ∧ callback ∉ g.failed
  /-- what was run and is still there raised an error -/
  raised : ∀ answerId callback, g.answerCallbacks answerId = some callback →
    (callback ∈ g.raised ↔ callback ∈ g.runs.map Run.callback)
  silent : ∀ answerId callback, g.answerCallbacks answerId = some callback →
    callback ∉ g.raised → ∀ answer ∈ g.answered, callback < answer.2 →
      answer.1 ≠ answerId
  run : ∀ run ∈ g.runs, g.issued[run.callback]? = some run.answerId ∧
    run.callback ∉ g.failed
  failed : ∀ callback ∈ g.failed, callback < g.issued.length
  raisers : ∀ callback ∈ g.raised, callback < g.issued.length
  answered : ∀ answer ∈ g.answered, answer.2 ≤ g.issued.length
  earlier : ∀ run ∈ g.runs, run.earlier ≤ g.answered.length

section
variable {g : Login}

theorem filed_empty : Filed {} := by
  constructor
  · exact fun _ _ h => nomatch h
  · exact fun _ _ h => nomatch h
  · exact fun _ _ h => nomatch h
  · exact fun _ h => (List.not_mem_nil h).elim
  · exact fun _ h => (List.not_mem_nil h).elim
  · exact fun _ h => (List.not_mem_nil h).elim
  · exact fun _ h => (List.not_mem_nil h).elim
  · exact fun _ h => (List.not_mem_nil h).elim

theorem issued_append {callback answerId : Nat} (answerId' : Nat)
    (h : g.issued[callback]? = some answerId) :
    (g.issued ++ [answerId'])[callback]? = some answerId := by
  rw [List.getElem?_append_left (List.getElem?_eq_some_iff.mp h).1, h]

theorem Filed.run_lt (h : g.Filed) {callback : Nat} (hrun : callback ∈ g.runs.map Run.callback) :
    callback < g.issued.length := by
  obtain ⟨run, hmem, rfl⟩ := List.mem_map.mp hrun
  exact (List.getElem?_eq_some_iff.mp (h.run run hmem).1).1

/-- Taking an entry out. -/
theorem Filed.erase (h : g.Filed) (answerId : Nat) : (g.file answerId none).Filed := by
  have hold : ∀ i callback, (g.file answerId none).answerCallbacks i = some callback →
      g.answerCallbacks i = some callback := by
    intro i callback hentry
    change (if i = answerId then none else g.answerCallbacks i) = _ at hentry
    split at hentry
    · cases hentry
    · exact hentry
  constructor
  · exact fun i callback hentry => h.entry i callback (hold i callback hentry)
  · exact fun i callback hentry => h.raised i callback (hold i callback hentry)
  · exact fun i callback hentry => h.silent i callback (hold i callback hentry)
  · exact h.run
  · exact h.failed
  · exact h.raisers
  · exact h.answered
  · exact h.earlier

theorem length_issue : g.issue.issued.length = g.issued.length + 1 := List.length_append

theorem entry_issue {answerId callback : Nat}
    (h : g.issue.answerCallbacks answerId = some callback) :
    (answerId = g.issue.answerIdGenerator ∧ callback = g.issued.length) ∨
      g.answerCallbacks answerId = some callback := by
  change (if answerId = _ then some g.issued.length else g.answerCallbacks answerId) = _ at h
  split at h
  · rename_i hi
    cases h
    exact Or.inl ⟨hi, rfl⟩
  · exact Or.inr h

/-- A new callback, under an id which may be in use. -/
theorem Filed.issue (h : g.Filed) : g.issue.Filed := by
  have hle : g.issued.length ≤ g.issue.issued.length :=
    Nat.le_of_lt (Nat.lt_of_lt_of_eq (Nat.lt_succ_self _) length_issue.symm)
  constructor
  · intro answerId callback hentry
    rcases entry_issue hentry with ⟨rfl, rfl⟩ | hold
    · refine ⟨?_, fun hmem => absurd (h.failed _ hmem) (Nat.lt_irrefl _)⟩
      exact List.getElem?_concat_length
    · obtain ⟨hissued, hnot⟩ := h.entry answerId callback hold
      exact ⟨issued_append _ hissued, hnot⟩
  · intro answerId callback hentry
    rcases entry_issue hentry with ⟨rfl, rfl⟩ | hold
    · apply iff_of_false
      · exact fun hmem => absurd (h.raisers _ hmem) (Nat.lt_irrefl _)
      · exact fun hmem => absurd (h.run_lt hmem) (Nat.lt_irrefl _)
    · exact h.raised answerId callback hold
  · intro answerId callback hentry hnot answer hanswer hlt
    rcases entry_issue hentry with ⟨rfl, rfl⟩ | hold
    · exact absurd hlt (Nat.not_lt.mpr (h.answered answer hanswer))
    · exact h.silent answerId callback hold hnot answer hanswer hlt
  · intro run hrun
    obtain ⟨hissued, hnot⟩ := h.run run hrun
    exact ⟨issued_append _ hissued, hnot⟩
  · exact fun callback hmem => Nat.lt_of_lt_of_le (h.failed callback hmem) hle
  · exact fun callback hmem => Nat.lt_of_lt_of_le (h.raisers callback hmem) hle
  · exact fun answer hmem => Nat.le_trans (h.answered answer hmem) hle
  · exact h.earlier

/-- A callback that is in no entry and was not run is given up. -/
theorem Filed.fail (h : g.Filed) {callback : Nat} (hlt : callback < g.issued.length)
    (hentry : ∀ answerId, g.answerCallbacks answerId ≠ some callback)
    (hrun : callback ∉ g.runs.map Run.callback) :
    Filed { g with failed := callback :: g.failed } := by
  constructor
  · intro answerId callback' hi
    obtain ⟨hissued, hnot⟩ := h.entry answerId callback' hi
    refine ⟨hissued, fun hmem => ?_⟩
    rcases List.mem_cons.mp hmem with rfl | hmem
    · exact hentry answerId hi
    · exact hnot hmem
  · exact h.raised
  · exact h.silent
  · intro run hmem
    obtain ⟨hissued, hnot⟩ := h.run run hmem
    refine ⟨hissued, fun hfailed => ?_⟩
    rcases List.mem_cons.mp hfailed with heq | hfailed
    · exact hrun (heq ▸ List.mem_map_of_mem hmem)
    · exact hnot hfailed
  · intro callback' hmem
    rcases List.mem_cons.mp hmem with rfl | hmem
    · exact hlt
    · exact h.failed callback' hmem
  · exact h.raisers
  · exact h.answered
  · exact h.earlier

theorem Filed.requestCentralAnswer (h : g.Filed) (published : Published) :
    (g.requestCentralAnswer published).Filed := by
  have hissue := h.issue
  cases published with
  | sent => exact hissue
  | raised => exact hissue
  | failed =>
      apply (hissue.erase g.issue.answerIdGenerator).fail
      · exact Nat.lt_of_lt_of_eq (Nat.lt_succ_self _) length_issue.symm
      · intro answerId hentry
        change (if answerId = _ then none else g.issue.answerCallbacks answerId) = _ at hentry
        split at hentry
        · cases hentry
        · rename_i hne
          rcases entry_issue hentry with ⟨heq, -⟩ | hold
          · exact hne heq
          · have hissued := (h.entry answerId _ hold).1
            exact absurd (List.getElem?_eq_some_iff.mp hissued).1 (Nat.lt_irrefl _)
      · exact fun hmem => absurd (h.run_lt hmem) (Nat.lt_irrefl _)

theorem Filed.requests (h : g.Filed) (published : List Published) :
    (g.requests published).Filed := by
  induction published generalizing g with
  | nil => exact h
  | cons p published ih => exact ih (h.requestCentralAnswer p)

/-- What a request leaves alone. -/
structure SameRuns (g g' : Login) : Prop where
  raised : g'.raised = g.raised
  answered : g'.answered = g.answered
  runs : g'.runs = g.runs

theorem sameRuns_requestCentralAnswer (published : Published) :
    g.SameRuns (g.requestCentralAnswer published) := by
  cases published <;> exact ⟨rfl, rfl, rfl⟩

theorem sameRuns_requests (published : List Published) : g.SameRuns (g.requests published) := by
  induction published generalizing g with
  | nil => exact ⟨rfl, rfl, rfl⟩
  | cons p published ih =>
      have hone : g.SameRuns (g.requestCentralAnswer p) := sameRuns_requestCentralAnswer p
      have hall := ih (g := g.requestCentralAnswer p)
      exact ⟨hall.raised.trans hone.raised, hall.answered.trans hone.answered,
        hall.runs.trans hone.runs⟩

/-- Requests do not look at who raised an error. -/
theorem requests_raised (published : List Published) (callbacks : List Nat) :
    requests published { g with raised := callbacks } =
      { g.requests published with raised := callbacks } := by
  induction published generalizing g with
  | nil => rfl
  | cons p published ih =>
      show requests published (Login.requestCentralAnswer p { g with raised := callbacks }) = _
      have hone : Login.requestCentralAnswer p { g with raised := callbacks } =
          { g.requestCentralAnswer p with raised := callbacks } := by
        cases p <;> rfl
      rw [hone, ih]
      rfl

/-! ## One message -/

section
variable {answerId callback : Nat}

/-- An answer without a request, or whose request is done. -/
theorem Filed.unknown (h : g.Filed) (hnone : g.answerCallbacks answerId = none) :
    Filed { g with answered := g.answered ++ [(answerId, g.issued.length)] } := by
  constructor
  · exact h.entry
  · exact h.raised
  · intro i c hentry hnot answer hmem hlt
    rcases List.mem_append.mp hmem with hmem | hmem
    · exact h.silent i c hentry hnot answer hmem hlt
    · rw [List.mem_singleton.mp hmem]
      rintro rfl
      change g.answerCallbacks answerId = some c at hentry
      rw [hnone] at hentry
      cases hentry
  · exact h.run
  · exact h.failed
  · exact h.raisers
  · intro answer hmem
    rcases List.mem_append.mp hmem with hmem | hmem
    · exact h.answered answer hmem
    · rw [List.mem_singleton.mp hmem]
  · intro run hmem
    exact Nat.le_trans (h.earlier run hmem) (by rw [List.length_append]; omega)

/-- The state a callback starts in. -/
def start (g : Login) (answerId callback : Nat) : Login :=
  { g with
    answered := g.answered ++ [(answerId, g.issued.length)]
    runs := g.runs ++ [⟨callback, answerId, g.answered.length⟩] }

theorem runs_start (g : Login) (answerId callback : Nat) :
    (g.start answerId callback).runs =
      g.runs ++ [⟨callback, answerId, g.answered.length⟩] := rfl

theorem answered_start (g : Login) (answerId callback : Nat) :
    (g.start answerId callback).answered = g.answered ++ [(answerId, g.issued.length)] := rfl

/-- A callback starts, and is counted among those that raised an error. -/
theorem Filed.start (h : g.Filed) (hentry : g.answerCallbacks answerId = some callback) :
    Filed { g.start answerId callback with raised := callback :: g.raised } := by
  obtain ⟨hissued, hnotFailed⟩ := h.entry answerId callback hentry
  constructor
  · exact h.entry
  · intro i c hi
    have hold := h.raised i c hi
    show c ∈ callback :: g.raised ↔ c ∈ (g.runs ++ [_]).map Run.callback
    rw [List.mem_cons, List.map_append, List.mem_append, hold, or_comm]
    simp
  · intro i c hi hnot answer hmem hlt
    rw [List.mem_cons, not_or] at hnot
    rcases List.mem_append.mp hmem with hmem | hmem
    · exact h.silent i c hi hnot.2 answer hmem hlt
    · rw [List.mem_singleton.mp hmem]
      rintro rfl
      exact hnot.1 (Option.some.inj (hi.symm.trans hentry))
  · intro run hmem
    rcases List.mem_append.mp hmem with hmem | hmem
    · exact h.run run hmem
    · rw [List.mem_singleton.mp hmem]
      exact ⟨hissued, hnotFailed⟩
  · exact h.failed
  · intro c hmem
    rcases List.mem_cons.mp hmem with rfl | hmem
    · exact (List.getElem?_eq_some_iff.mp hissued).1
    · exact h.raisers c hmem
  · intro answer hmem
    rcases List.mem_append.mp hmem with hmem | hmem
    · exact h.answered answer hmem
    · rw [List.mem_singleton.mp hmem]
      exact Nat.le_refl _
  · intro run hmem
    show run.earlier ≤ (g.answered ++ [_]).length
    rw [List.length_append]
    rcases List.mem_append.mp hmem with hmem | hmem
    · exact Nat.le_trans (h.earlier run hmem) (Nat.le_add_right _ _)
    · rw [List.mem_singleton.mp hmem]
      exact Nat.le_add_right _ _

/-- A callback that returned raised no error, and its entry goes. -/
theorem Filed.finish (h : Filed { g with raised := callback :: g.raised })
    (hissued : g.issued[callback]? = some answerId) : (g.file answerId none).Filed := by
  have herase := h.erase answerId
  have hother : ∀ i c, (g.file answerId none).answerCallbacks i = some c → c ≠ callback := by
    rintro i c hi rfl
    obtain ⟨hissued', -⟩ := herase.entry i c hi
    have heq : i = answerId := Option.some.inj (hissued'.symm.trans hissued)
    change (if i = answerId then none else g.answerCallbacks i) = _ at hi
    rw [if_pos heq] at hi
    cases hi
  constructor
  · exact herase.entry
  · intro i c hi
    apply Iff.trans _ (herase.raised i c hi)
    exact (List.mem_cons.trans (or_iff_right (hother i c hi))).symm
  · intro i c hi hnot
    apply herase.silent i c hi
    rw [file, List.mem_cons, not_or]
    exact ⟨hother i c hi, hnot⟩
  · exact herase.run
  · exact herase.failed
  · exact fun c hmem => herase.raisers c (List.mem_cons_of_mem _ hmem)
  · exact herase.answered
  · exact herase.earlier

/-- The two parts of correlation that not every history has. -/
structure Unrepeated (g : Login) : Prop where
  once : (g.runs.map Run.callback).Nodup
  last : ∀ run ∈ g.runs, ∀ answer ∈ g.answered.take run.earlier,
    run.callback < answer.2 → answer.1 ≠ run.answerId

theorem Filed.correlated_iff (h : g.Filed) : g.Correlated ↔ g.Unrepeated :=
  ⟨fun hg => ⟨hg.once, hg.last⟩,
    fun hg => ⟨hg.once, fun run hmem => (h.run run hmem).1, fun run hmem => (h.run run hmem).2,
      hg.last⟩⟩

theorem Unrepeated.congr {g' : Login} (hanswered : g'.answered = g.answered)
    (hruns : g'.runs = g.runs) : g'.Unrepeated ↔ g.Unrepeated := by
  constructor
  · rintro ⟨honce, hlast⟩
    rw [hruns] at honce hlast
    rw [hanswered] at hlast
    exact ⟨honce, hlast⟩
  · rintro ⟨honce, hlast⟩
    constructor
    · rwa [hruns]
    · rwa [hruns, hanswered]

/-- Old runs do not see the new answer. -/
theorem Filed.take_answered (h : g.Filed) (answer : Nat × Nat) {run : Run}
    (hrun : run ∈ g.runs) :
    (g.answered ++ [answer]).take run.earlier = g.answered.take run.earlier :=
  List.take_append_of_le_length (h.earlier run hrun)

/-- A run is no repetition if and only if the callback has not raised an
error before. -/
theorem Filed.unrepeated_start_iff (h : g.Filed)
    (hentry : g.answerCallbacks answerId = some callback) :
    (g.start answerId callback).Unrepeated ↔ g.Unrepeated ∧ callback ∉ g.raised := by
  have hraised := h.raised answerId callback hentry
  constructor
  · rintro ⟨honce, hlast⟩
    rw [runs_start, List.map_append, List.nodup_append] at honce
    rw [runs_start, answered_start] at hlast
    refine ⟨⟨honce.1, ?_⟩, ?_⟩
    · intro run hrun answer hmem
      apply hlast run (List.mem_append_left _ hrun) answer
      rwa [h.take_answered _ hrun]
    · intro hmem
      exact honce.2.2 callback (hraised.mp hmem) callback (List.mem_singleton.mpr rfl) rfl
  · rintro ⟨⟨honce, hlast⟩, hnot⟩
    constructor
    · rw [runs_start, List.map_append, List.nodup_append]
      refine ⟨honce, List.nodup_cons.mpr ⟨List.not_mem_nil, List.nodup_nil⟩, ?_⟩
      intro c hc c' hc' heq
      rw [heq, List.mem_singleton.mp hc'] at hc
      exact hnot (hraised.mpr hc)
    · rw [runs_start, answered_start]
      intro run hrun answer hmem
      rcases List.mem_append.mp hrun with hrun | hrun
      · rw [h.take_answered _ hrun] at hmem
        exact hlast run hrun answer hmem
      · rw [List.mem_singleton.mp hrun] at hmem ⊢
        rw [List.take_left] at hmem
        exact h.silent answerId callback hentry hnot answer hmem

theorem Filed.unrepeated_unknown_iff (h : g.Filed) (answer : Nat × Nat) :
    Unrepeated { g with answered := g.answered ++ [answer] } ↔ g.Unrepeated := by
  constructor
  · rintro ⟨honce, hlast⟩
    refine ⟨honce, fun run hrun => ?_⟩
    rw [← h.take_answered answer hrun]
    exact hlast run hrun
  · rintro ⟨honce, hlast⟩
    refine ⟨honce, fun run hrun => ?_⟩
    rw [h.take_answered answer hrun]
    exact hlast run hrun

/-- The handler of an answer whose callback is there. -/
theorem answer_of_entry (hentry : g.answerCallbacks answerId = some callback)
    (behaviour : Behaviour) :
    (g.answer answerId behaviour).2 =
      if behaviour.raises then
        { (g.start answerId callback).requests behaviour.requests with
          raised := callback :: g.raised }
      else ((g.start answerId callback).requests behaviour.requests).file answerId none := by
  have hsame : (g.start answerId callback).SameRuns
      ((g.start answerId callback).requests behaviour.requests) := sameRuns_requests _
  have hraised : ((g.start answerId callback).requests behaviour.requests).raised = g.raised :=
    hsame.raised
  unfold answer
  dsimp only
  rw [hentry]
  unfold call
  cases behaviour.raises with
  | true =>
      let g' := (g.start answerId callback).requests behaviour.requests
      show { g' with raised := callback :: g'.raised } = { g' with raised := callback :: g.raised }
      rw [show g'.raised = g.raised from hraised]
  | false => rfl

/-- The handler, once it has the id. -/
theorem Filed.answer (h : g.Filed) (answerId : Nat) (behaviour : Behaviour) :
    (g.answer answerId behaviour).2.Filed ∧
      ((g.answer answerId behaviour).2.Unrepeated ↔
        g.Unrepeated ∧ ∀ callback ∈ g.answerCallbacks answerId, callback ∉ g.raised) := by
  cases hentry : g.answerCallbacks answerId with
  | none =>
      have hanswer : (g.answer answerId behaviour).2 =
          { g with answered := g.answered ++ [(answerId, g.issued.length)] } := by
        unfold Login.answer
        dsimp only
        rw [hentry]
      rw [hanswer, h.unrepeated_unknown_iff]
      exact ⟨h.unknown hentry, (and_iff_left (fun callback hmem => nomatch hmem)).symm⟩
  | some callback =>
      have hstart := (h.start hentry).requests behaviour.requests
      rw [requests_raised] at hstart
      have hsame : (g.start answerId callback).SameRuns
          ((g.start answerId callback).requests behaviour.requests) := sameRuns_requests _
      have hiff : ((∀ c ∈ some callback, c ∉ g.raised) ↔ callback ∉ g.raised) := by simp
      rw [answer_of_entry hentry, hiff, ← h.unrepeated_start_iff hentry]
      split
      · exact ⟨hstart, Unrepeated.congr hsame.answered hsame.runs⟩
      · refine ⟨?_, Unrepeated.congr hsame.answered hsame.runs⟩
        have hraised : ((g.start answerId callback).requests behaviour.requests).raised =
            g.raised := hsame.raised
        rw [← hraised] at hstart
        apply hstart.finish
        apply (hstart.run ⟨callback, answerId, g.answered.length⟩ _).1
        show _ ∈ ((g.start answerId callback).requests behaviour.requests).runs
        rw [hsame.runs]
        exact List.mem_append_right _ List.mem_cons_self

end

end

end Login

section
variable {decode : Bytes → Option JsonValue} {g g' : Login}

/-- The handler does nothing with a message that is no answer. -/
theorem onRedisMessage_eq (text : Bytes) (behaviour : Behaviour) :
    (g.onRedisMessage decode text behaviour).2 =
      match answerIdOf decode text with
      | none => g
      | some answerId => (g.answer answerId behaviour).2 := by
  unfold Login.onRedisMessage answerIdOf
  cases hdata : decode text with
  | none => rfl
  | some data =>
      simp only [Option.bind_eq_bind, Option.bind_some]
      cases hanswer : data.index "__answer" with
      | none => rfl
      | some answer =>
          cases hanswerId : data.index "__answerId" with
          | none => rfl
          | some answerId =>
              simp only [Option.bind_some]
              split
              · cases answerId.id <;> rfl
              · rfl

/-- What one event does to the table and the records. -/
theorem step_filed {event : LoginEvent} (h : g.Filed) (hstep : event.step decode g = some g') :
    g'.Filed ∧ (g'.Unrepeated ↔ g.Unrepeated ∧ event.Answerable decode g) := by
  cases event with
  | request published =>
      cases hstep
      have hsame := Login.sameRuns_requestCentralAnswer (g := g) published
      refine ⟨h.requestCentralAnswer published, ?_⟩
      rw [Login.Unrepeated.congr hsame.answered hsame.runs]
      exact (and_iff_left trivial).symm
  | message text behaviour =>
      cases hstep
      unfold Login.internalCallLuaFieldNoRet LoginEvent.Answerable
      rw [onRedisMessage_eq]
      cases hid : answerIdOf decode text with
      | none => simp [h, hid]
      | some answerId =>
          obtain ⟨hfiled, hiff⟩ := h.answer answerId behaviour
          refine ⟨hfiled, hiff.trans ?_⟩
          simp [hid]

/-- In a history of requests and messages every callback is run once at most,
with an answer to its request that comes first, exactly if no answer finds a
callback that raised an error on an earlier one. -/
theorem answers_correlated_iff (decode : Bytes → Option JsonValue) (events : List LoginEvent)
    (g : Login) (h : PartialRun.run (LoginEvent.step decode) events {} = some g) :
    g.Correlated ↔
      PartialRun.Obeys (LoginEvent.step decode) (fun event g => event.Answerable decode g)
        events {} := by
  have hfiled : g.Filed := PartialRun.run_preserves
    (fun _ _ _ hs hstep => (step_filed hs hstep).1) events {} g Login.filed_empty h
  have hall : PartialRun.Obeys (LoginEvent.step decode) (fun _ _ => True) events {} :=
    PartialRun.obeys_of_forall (fun _ _ => trivial) events _
  rw [hfiled.correlated_iff, PartialRun.run_iff_obeys
    (fun _ _ _ hs _ hstep => step_filed hs hstep) events {} g Login.filed_empty hall h]
  apply and_iff_right
  exact ⟨List.nodup_nil, fun run hrun => (List.not_mem_nil hrun).elim⟩

end

/-- `{"__answer":true,"__answerId":1}`. -/
def firstAnswer : Bytes :=
  [123, 34, 95, 95, 97, 110, 115, 119, 101, 114, 34, 58, 116, 114, 117, 101, 44, 34, 95, 95, 97,
    110, 115, 119, 101, 114, 73, 100, 34, 58, 49, 125]

/-- What `json.decode` makes of it. -/
def decodeSample (text : Bytes) : Option JsonValue :=
  if text = firstAnswer then
    some (.table [("__answer", .boolean true), ("__answerId", .number 1)])
  else none

instance (g : Login) : (event : LoginEvent) → Decidable (event.Answerable decodeSample g)
  | .request _ => .isTrue trivial
  | .message text _ =>
      inferInstanceAs (Decidable (∀ answerId ∈ answerIdOf decodeSample text,
        ∀ callback ∈ g.answerCallbacks answerId, callback ∉ g.raised))

/-- The answer comes twice, and the callback makes another request. -/
theorem answers_correlated_sample :
    ∃ g, PartialRun.run (LoginEvent.step decodeSample)
        [.request .sent, .message firstAnswer { requests := [.sent, .failed] },
          .message firstAnswer {}] {} = some g ∧
      (g.Correlated ↔
        PartialRun.Obeys (LoginEvent.step decodeSample)
          (fun event g => event.Answerable decodeSample g)
          [.request .sent, .message firstAnswer { requests := [.sent, .failed] },
            .message firstAnswer {}] {}) :=
  ⟨_, rfl, answers_correlated_iff decodeSample _ _ rfl⟩

/-- A request, an answer on which the callback raises an error, and the same
answer again. -/
def answeredTwice : List LoginEvent :=
  [.request .sent, .message firstAnswer { raises := true }, .message firstAnswer {}]

theorem raised_callback_runs_again :
    ∃ g, PartialRun.run (LoginEvent.step decodeSample) answeredTwice {} = some g ∧
      ¬ g.Correlated := by
  refine ⟨_, rfl, fun h => ?_⟩
  have hruns : ¬ [0, 0].Nodup := by decide
  exact hruns h.once

end LoginServer.Script
