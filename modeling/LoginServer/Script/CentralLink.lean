import LoginServer.Lib.JsonCopies
import LoginServer.Script.LoginRequests

/-!
# What goes to the central server and what comes back

The request `requestCentralAnswer` publishes is the text `json.encode` makes of
a table with five fields, in the order `pairs` gives them; the script filled
two of them with what a client sent.  What arrives on the channel `login` goes
through `json.decode`.

## Main results

* `request_read` — whatever a client sent, the request says what was meant and
  nothing else, and none of it is lost on the way.
-/

namespace LoginServer.Script

open LoginServer.Network (Bytes text)
open LoginServer.Lib (Tree Key Numerals Printable)
open LoginServer.Verified

/-! ## What comes back -/

/-- A string of the source, as a key. -/
def keyString (s : Bytes) : String := String.ofList (s.map fun c => Char.ofNat c.toNat)

mutual

/-- What is looked at of a decoded value: the entries with a name. -/
def jsonValue : Tree → JsonValue
  | .nil => .nil
  | .boolean value => .boolean value
  | .number (.finite value) => .number value
  | .number _ => .nonFinite
  | .string value => .string value
  | .table entries => .table (jsonFields entries)

def jsonFields : List (Key × Tree) → List (String × JsonValue)
  | [] => []
  | (.name s, x) :: entries => (keyString s, jsonValue x) :: jsonFields entries
  | (.index _, _) :: entries => jsonFields entries

end

/-- `json.decode(message)`; `none` is an error. -/
def decodeJson (numerals : Numerals) (message : Bytes) : Option JsonValue :=
  match Lib.decode numerals message with
  | .ok x => some (jsonValue x)
  | .error _ => none

/-! ## What goes out -/

/-- The fields of the request, in any order. -/
def requestFields (instanceName instanceId : Bytes) (answerId : Nat) :
    List (Bytes × Lib.LuaValue (Fin 1)) :=
  [(text "action", .string (text "game-server-host")),
    (text "instanceName", .string instanceName), (text "instanceId", .string instanceId),
    (text "__answer", .boolean true), (text "__answerId", .index answerId)]

/-- The fields as they are read. -/
def requestTree (instanceName instanceId : Bytes) (answerId : Nat) : List (Bytes × Tree) :=
  [(text "action", .string (text "game-server-host")),
    (text "instanceName", .string instanceName), (text "instanceId", .string instanceId),
    (text "__answer", .boolean true), (text "__answerId", .number (.finite answerId))]

/-- A table whose keys are strings. -/
def objectTable {ρ : Type} [DecidableEq ρ] (fields : List (Bytes × Lib.LuaValue ρ))
    (hnames : (fields.map Prod.fst).Nodup) (hvalues : ∀ field ∈ fields, field.2 ≠ .nil) :
    Lib.LuaTable ρ where
  entries := fields.map fun field => (.string field.1, field.2)
  border := 0
  nodup := by
    rw [List.map_map]
    have hmap := hnames.map (f := (Lib.LuaValue.string : Bytes → Lib.LuaValue ρ))
      fun _ _ h => Lib.LuaValue.string.inj h
    rwa [List.map_map] at hmap
  keys := by
    intro e he
    obtain ⟨field, -, rfl⟩ := List.mem_map.mp he
    exact ⟨nofun, nofun⟩
  values := by
    intro e he
    obtain ⟨field, hfield, rfl⟩ := List.mem_map.mp he
    exact hvalues field hfield
  isBorder := by
    refine ⟨Or.inl rfl, ?_⟩
    have hnone : (fields.map fun field => ((.string field.1 : Lib.LuaValue ρ), field.2)).lookup
        (.index (0 + 1)) = none := by
      rw [List.lookup_eq_none_iff]
      intro e he
      obtain ⟨field, -, rfl⟩ := List.mem_map.mp he
      rfl
    rw [Lib.rawgetOf, hnone]
    rfl

section
variable {instanceName instanceId : Bytes} {answerId : Nat}
  {fields : List (Bytes × Lib.LuaValue (Fin 1))}

theorem nodup_requestFields :
    ((requestFields instanceName instanceId answerId).map Prod.fst).Nodup := by
  have hnodup : [text "action", text "instanceName", text "instanceId", text "__answer",
    text "__answerId"].Nodup := by decide
  exact hnodup

/-- A value without tables, as a tree. -/
def scalarDocument : Lib.LuaValue (Fin 1) → Lib.Document
  | .boolean value => .boolean value
  | .number (.finite value) => .number value
  | .string value => .string value
  | _ => .null

theorem requestFields_cases {field : Bytes × Lib.LuaValue (Fin 1)}
    (h : field ∈ requestFields instanceName instanceId answerId) :
    (∃ s, field.2 = .string s) ∨ (∃ b, field.2 = .boolean b) ∨
    field.2 = .index answerId := by
  simp only [requestFields, List.mem_cons, List.not_mem_nil, or_false] at h
  rcases h with rfl | rfl | rfl | rfl | rfl
  · exact Or.inl ⟨_, rfl⟩
  · exact Or.inl ⟨_, rfl⟩
  · exact Or.inl ⟨_, rfl⟩
  · exact Or.inr (Or.inl ⟨_, rfl⟩)
  · exact Or.inr (Or.inr rfl)

/-- The table `data`; `fields` is the order of `pairs`. -/
def requestTable (h : fields.Perm (requestFields instanceName instanceId answerId)) :
    Lib.LuaTable (Fin 1) :=
  objectTable fields ((h.map Prod.fst).nodup_iff.mpr nodup_requestFields) (by
    intro field hfield
    rcases requestFields_cases (h.mem_iff.mp hfield) with ⟨s, hs⟩ | ⟨b, hb⟩ | hid
    · rw [hs]
      exact nofun
    · rw [hb]
      exact nofun
    · rw [hid]
      exact nofun)

/-- `json.encode(data)`. -/
def requestText (numerals : Numerals)
    (h : fields.Perm (requestFields instanceName instanceId answerId)) :
    Except Lib.EncodeError Bytes :=
  Lib.encode numerals (fun _ => requestTable h) (.table 0)

theorem unfolds_scalar (heap : Fin 1 → Lib.LuaTable (Fin 1))
    {field : Bytes × Lib.LuaValue (Fin 1)}
    (h : field ∈ requestFields instanceName instanceId answerId) :
    Lib.Unfolds heap field.2 (scalarDocument field.2) := by
  rcases requestFields_cases h with ⟨s, hs⟩ | ⟨b, hb⟩ | hid
  · rw [hs]
    exact Lib.Unfolds.string s
  · rw [hb]
    exact Lib.Unfolds.boolean b
  · rw [hid]
    exact Lib.Unfolds.number _

/-- The request, as a tree. -/
def requestDocument (fields : List (Bytes × Lib.LuaValue (Fin 1))) : Lib.Document :=
  .object (fields.map fun field => (field.1, scalarDocument field.2))

theorem unfolds_request (h : fields.Perm (requestFields instanceName instanceId answerId)) :
    Lib.Unfolds (fun _ => requestTable h) (.table 0) (requestDocument fields) := by
  apply Lib.Unfolds.object
  · rintro (hfirst | hempty)
    · exact hfirst (requestTable h).isBorder.2
    · have hlength := congrArg List.length hempty
      rw [show (requestTable h).entries = fields.map _ from rfl, List.length_map,
        h.length_eq] at hlength
      cases hlength
  · show (fields.map _).map _ = (fields.map _).map _
    rw [List.map_map, List.map_map]
    rfl
  · intro i hi hi'
    have hfield : i < fields.length := by simpa using hi'
    have hmem : fields[i] ∈ requestFields instanceName instanceId answerId :=
      h.mem_iff.mp (List.getElem_mem hfield)
    have hunfolds := unfolds_scalar (fun _ => requestTable h) hmem
    simpa [requestTable, objectTable] using hunfolds

/-- A whole number of at most fourteen digits is read as it was. -/
theorem reread_whole {numerals : Numerals} (hnumerals : numerals.Documented)
    (hid : answerId < 10 ^ 14) : numerals.reread answerId = .finite answerId := by
  rw [Numerals.reread, hnumerals.whole answerId hid, hnumerals.tonumber_whole answerId hid,
    Option.getD_some]

theorem read_requestFields {numerals : Numerals} (hnumerals : numerals.Documented)
    (hid : answerId < 10 ^ 14) :
    ((requestFields instanceName instanceId answerId).map fun field =>
        (field.1, (scalarDocument field.2).read numerals)) =
      requestTree instanceName instanceId answerId := by
  show [_, _, _, _, (_, Tree.number (numerals.reread answerId))] = _
  rw [reread_whole hnumerals hid]
  rfl

/-- What the decoder makes of a request. -/
theorem get_requestDocument {numerals : Numerals} (hnumerals : numerals.Documented)
    (h : fields.Perm (requestFields instanceName instanceId answerId))
    (hid : answerId < 10 ^ 14) :
    ∃ entries : Lib.Entries, (requestDocument fields).read numerals = .table entries ∧
      (∀ k, entries.get (.name k) =
        ((requestTree instanceName instanceId answerId).lookup k).getD .nil) ∧
      ∀ n, entries.get (.index n) = .nil := by
  have hnodup : (fields.map Prod.fst).Nodup := (h.map Prod.fst).nodup_iff.mpr nodup_requestFields
  refine ⟨_, rfl, fun k => ?_, fun n => Lib.get_fillNames_index [] n _⟩
  rw [Lib.readFields_eq, List.map_map, Lib.get_fillNames (by rwa [List.map_map])]
  show Option.getD (List.lookup k (fields.map fun field =>
    (field.1, (scalarDocument field.2).read numerals))) .nil = _
  rw [KeyedEntries.lookup_map_value (fun v => (scalarDocument v).read numerals),
    KeyedEntries.lookup_perm h nodup_requestFields, ← KeyedEntries.lookup_map_value,
    read_requestFields hnumerals hid]

/-- The text of a request has no zero. -/
theorem cString_request {numerals : Numerals} (hnumerals : numerals.Documented)
    (fields : List (Bytes × Lib.LuaValue (Fin 1))) :
    cString ((requestDocument fields).render numerals) =
      (requestDocument fields).render numerals :=
  Lib.cString_render hnumerals _

/-- The text of a request is not cut at a zero, and it is read as the five
fields: nothing in a name a client sent changes the others, or adds any. -/
theorem request_read {numerals : Numerals} (hnumerals : numerals.Documented)
    (h : fields.Perm (requestFields instanceName instanceId answerId))
    (hid : answerId < 10 ^ 14) :
    ∃ s, ∃ entries : Lib.Entries, requestText numerals h = .ok s ∧ cString s = s ∧
      Lib.decode numerals s = .ok (.table entries) ∧
      (∀ k, entries.get (.name k) =
        ((requestTree instanceName instanceId answerId).lookup k).getD .nil) ∧
      ∀ n, entries.get (.index n) = .nil := by
  obtain ⟨entries, hread, hnames, hindices⟩ := get_requestDocument hnumerals h hid
  refine ⟨_, entries, Lib.encode_of_unfolds numerals (unfolds_request h),
    cString_request hnumerals fields, ?_, hnames, hindices⟩
  rw [Lib.decode_render hnumerals, hread]

/-- A name with a quote and a control character, and the fields backwards. -/
theorem request_read_sample :
    ∃ s, ∃ entries : Lib.Entries,
      requestText Lib.wholeNumerals
          (List.reverse_perm (requestFields [34, 44, 34] [10] 7)) = .ok s ∧ cString s = s ∧
        Lib.decode Lib.wholeNumerals s = .ok (.table entries) ∧
        (∀ k, entries.get (.name k) = ((requestTree [34, 44, 34] [10] 7).lookup k).getD .nil) ∧
        ∀ n, entries.get (.index n) = .nil :=
  request_read Lib.wholeNumerals_documented (List.reverse_perm _) (by decide)

end

end LoginServer.Script
