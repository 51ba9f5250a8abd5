import LoginServer.Lib.JsonRoundTrip

/-!
# Copies of Lua values

What `json.decode` makes of the text `json.encode` wrote is a copy of the value
when it answers every key as the value does.  It is not always one: the encoder
counts the keys of a table it takes for an array and compares the count with
`#`, and a table with holes may have a border at its count.  `ipairs` then
stops before the first hole, and the entries behind it are not written.

## Main results

* `Entries.get_set` — storing into the tables the decoder makes.
* `LuaTable.IsSequence.ipairs_length` — an array without holes is visited to
  its end.
* `copied_iff` — the values of which the decoder makes copies.
-/

namespace LoginServer.Lib

open LoginServer.Network (Bytes text)
open LoginServer.Verified

/-! ## The tables the decoder makes -/

/-- `t[key]`. -/
def Entries.get (entries : Entries) (key : Key) : Tree := (entries.lookup key).getD .nil

theorem Entries.get_set (entries : Entries) (key key' : Key) (x : Tree) :
    (entries.set key x).get key' = if key' = key then x else entries.get key' := by
  unfold Entries.get
  cases x with
  | nil =>
      rw [Entries.set, KeyedEntries.lookup_erase]
      split <;> rfl
  | boolean | number | string | table =>
      rw [Entries.set.eq_def]
      dsimp only
      rw [KeyedEntries.lookup_store]
      split <;> rfl

theorem fillIndices_cons (res : Entries) (n : Nat) (x : Tree) (xs : List Tree) :
    fillIndices res n (x :: xs) = fillIndices (res.set (.index n) x) (n + 1) xs := rfl

theorem get_fillIndices_of_lt (res : Entries) {n m : Nat} (xs : List Tree) (hlt : m < n) :
    (fillIndices res n xs).get (.index m) = res.get (.index m) := by
  induction xs generalizing res n with
  | nil => rfl
  | cons x xs ih =>
      rw [fillIndices_cons, ih _ (Nat.lt_succ_of_lt hlt), Entries.get_set,
        if_neg (by simpa using Nat.ne_of_lt hlt)]

theorem get_fillIndices_index (res : Entries) (n m : Nat) (xs : List Tree) (hle : n ≤ m) :
    (fillIndices res n xs).get (.index m) = xs[m - n]?.getD (res.get (.index m)) := by
  induction xs generalizing res n with
  | nil => rfl
  | cons x xs ih =>
      rw [fillIndices_cons]
      rcases Nat.lt_or_eq_of_le hle with hlt | rfl
      · rw [ih _ (n + 1) hlt, Entries.get_set, if_neg (by simpa using Nat.ne_of_gt hlt),
          show m - n = m - (n + 1) + 1 by omega, List.getElem?_cons_succ]
      · rw [get_fillIndices_of_lt _ _ (Nat.lt_succ_self _), Entries.get_set, if_pos rfl,
          Nat.sub_self, List.getElem?_cons_zero, Option.getD_some]

theorem get_fillIndices_name (res : Entries) (n : Nat) (s : Bytes) (xs : List Tree) :
    (fillIndices res n xs).get (.name s) = res.get (.name s) := by
  induction xs generalizing res n with
  | nil => rfl
  | cons x xs ih => rw [fillIndices_cons, ih, Entries.get_set, if_neg nofun]

theorem fillNames_cons (res : Entries) (field : Bytes × Tree) (fields : List (Bytes × Tree)) :
    fillNames res (field :: fields) = fillNames (res.set (.name field.1) field.2) fields := rfl

theorem get_fillNames_index (res : Entries) (m : Nat) (fields : List (Bytes × Tree)) :
    (fillNames res fields).get (.index m) = res.get (.index m) := by
  induction fields generalizing res with
  | nil => rfl
  | cons field fields ih => rw [fillNames_cons, ih, Entries.get_set, if_neg nofun]

theorem get_fillNames_of_notMem {s : Bytes} {fields : List (Bytes × Tree)} (res : Entries)
    (h : s ∉ fields.map Prod.fst) : (fillNames res fields).get (.name s) = res.get (.name s) := by
  induction fields generalizing res with
  | nil => rfl
  | cons field fields ih =>
      rw [List.map_cons, List.mem_cons, not_or] at h
      rw [fillNames_cons, ih _ h.2, Entries.get_set, if_neg (by simpa using h.1)]

theorem get_fillNames_of_mem {field : Bytes × Tree} {fields : List (Bytes × Tree)}
    (res : Entries) (hnodup : (fields.map Prod.fst).Nodup) (h : field ∈ fields) :
    (fillNames res fields).get (.name field.1) = field.2 := by
  induction fields generalizing res with
  | nil => exact (List.not_mem_nil h).elim
  | cons first fields ih =>
      obtain ⟨hfirst, hrest⟩ := List.nodup_cons.mp hnodup
      rw [fillNames_cons]
      rcases List.mem_cons.mp h with rfl | h
      · rw [get_fillNames_of_notMem _ hfirst, Entries.get_set, if_pos rfl]
      · exact ih _ hrest h

/-- What an object has under a name. -/
theorem get_fillNames {fields : List (Bytes × Tree)} (hnodup : (fields.map Prod.fst).Nodup)
    (s : Bytes) : (fillNames [] fields).get (.name s) = (fields.lookup s).getD .nil := by
  cases hlookup : fields.lookup s with
  | some x => exact get_fillNames_of_mem [] hnodup (KeyedEntries.mem_of_lookup hlookup)
  | none =>
      apply get_fillNames_of_notMem
      intro hmem
      obtain ⟨field, hfield, rfl⟩ := List.mem_map.mp hmem
      rw [KeyedEntries.lookup_of_mem hnodup hfield] at hlookup
      cases hlookup

/-! ## The tables of the program -/

section
variable {ρ : Type} [DecidableEq ρ]

namespace LuaTable
variable {t : LuaTable ρ}

theorem rawget_of_mem {e : LuaValue ρ × LuaValue ρ} (h : e ∈ t.entries) :
    t.rawget e.1 = e.2 := by
  rw [rawget, rawgetOf, KeyedEntries.lookup_of_mem t.nodup h, Option.getD_some]

theorem mem_of_rawget {k : LuaValue ρ} (h : t.rawget k ≠ .nil) :
    (k, t.rawget k) ∈ t.entries := by
  unfold rawget rawgetOf at h ⊢
  cases hlookup : t.entries.lookup k with
  | none =>
      rw [hlookup] at h
      exact absurd rfl h
  | some v => exact KeyedEntries.mem_of_lookup hlookup

theorem ipairs_length_le : t.ipairs.length ≤ t.entries.length := by
  have hle := (List.takeWhile_prefix (l := (List.range t.entries.length).map fun i =>
    t.rawget (.index (i + 1))) (fun v => decide (v ≠ .nil))).length_le
  rwa [List.length_map, List.length_range] at hle

theorem ipairs_getElem {i : Nat} (hi : i < t.ipairs.length) :
    t.ipairs[i] = t.rawget (.index (i + 1)) ∧ t.ipairs[i] ≠ .nil := by
  constructor
  · have hfront := List.takeWhile_prefix (l := (List.range t.entries.length).map fun i =>
      t.rawget (.index (i + 1))) (fun v => decide (v ≠ .nil))
    exact (hfront.getElem hi).trans (by simp)
  · simpa using List.mem_takeWhile_imp (List.getElem_mem hi)

/-- The keys are the numbers from one on. -/
def IsSequence (t : LuaTable ρ) : Prop :=
  ∀ e ∈ t.entries, ∃ i < t.entries.length, e.1 = .index (i + 1)

/-- Every index of a sequence has an entry. -/
theorem IsSequence.rawget_ne_nil (h : t.IsSequence) {i : Nat} (hi : i < t.entries.length) :
    t.rawget (.index (i + 1)) ≠ .nil := by
  have hsubset : t.entries.map Prod.fst ⊆
      (List.range t.entries.length).map fun i => (.index (i + 1) : LuaValue ρ) := by
    intro k hk
    obtain ⟨e, he, rfl⟩ := List.mem_map.mp hk
    obtain ⟨j, hj, heq⟩ := h e he
    exact List.mem_map.mpr ⟨j, List.mem_range.mpr hj, heq.symm⟩
  have hperm := (List.subperm_of_subset t.nodup hsubset).perm_of_length_le (by simp)
  have hmem : (.index (i + 1) : LuaValue ρ) ∈ t.entries.map Prod.fst :=
    hperm.mem_iff.mpr (List.mem_map.mpr ⟨i, List.mem_range.mpr hi, rfl⟩)
  obtain ⟨e, he, heq⟩ := List.mem_map.mp hmem
  rw [← heq, rawget_of_mem he]
  exact t.values e he

theorem IsSequence.ipairs_length (h : t.IsSequence) : t.ipairs.length = t.entries.length := by
  have hall : t.ipairs = (List.range t.entries.length).map fun i => t.rawget (.index (i + 1)) := by
    apply List.takeWhile_eq_self_iff.mpr
    intro v hv
    obtain ⟨i, hi, rfl⟩ := List.mem_map.mp hv
    simpa using h.rawget_ne_nil (List.mem_range.mp hi)
  rw [hall, List.length_map, List.length_range]

end LuaTable

/-! ## Copies -/

/-- The key, as a value of the program. -/
def Key.value : Key → LuaValue ρ
  | .index n => .index n
  | .name s => .string s

/-- The tree answers every key as the value does, and the value has no key
besides. -/
inductive Copies (heap : ρ → LuaTable ρ) : LuaValue ρ → Tree → Prop
  | nil : Copies heap .nil .nil
  | boolean (value : Bool) : Copies heap (.boolean value) (.boolean value)
  | number (value : Number) : Copies heap (.number value) (.number value)
  | string (value : Bytes) : Copies heap (.string value) (.string value)
  | table {r : ρ} {entries : Entries}
      (hkeys : ∀ e ∈ (heap r).entries, ∃ key : Key, e.1 = key.value)
      (hget : ∀ key : Key, Copies heap ((heap r).rawget key.value) (entries.get key)) :
      Copies heap (.table r) (.table entries)

variable {heap : ρ → LuaTable ρ} {numerals : Numerals}

/-- The names of the fields of an object are distinct. -/
theorem nodup_names {r : ρ} {fields : List (Bytes × Document)}
    (hkeys : (heap r).entries.map Prod.fst = fields.map fun field => .string field.1) :
    (fields.map Prod.fst).Nodup := by
  have hnodup := (heap r).nodup
  rw [hkeys] at hnodup
  exact List.Nodup.of_map LuaValue.string (by rwa [List.map_map])

theorem key_getElem {r : ρ} {fields : List (Bytes × Document)}
    (hkeys : (heap r).entries.map Prod.fst = fields.map fun field => .string field.1) {i : Nat}
    (hi : i < (heap r).entries.length) (hi' : i < fields.length) :
    (heap r).entries[i].1 = .string fields[i].1 := by
  have hget := congrArg (fun keys : List (LuaValue ρ) => keys[i]?) hkeys
  simpa [hi, hi'] using hget

theorem length_fields {r : ρ} {fields : List (Bytes × Document)}
    (hkeys : (heap r).entries.map Prod.fst = fields.map fun field => .string field.1) :
    (heap r).entries.length = fields.length := by
  simpa using congrArg List.length hkeys

/-- What the decoder has under the name of a field. -/
theorem get_readFields {fields : List (Bytes × Document)} (hnodup : (fields.map Prod.fst).Nodup)
    {field : Bytes × Document} (h : field ∈ fields) :
    (fillNames [] (Document.readFields numerals fields)).get (.name field.1) =
      field.2.read numerals := by
  rw [readFields_eq]
  have hmem : (field.1, field.2.read numerals) ∈
      fields.map fun field => (field.1, field.2.read numerals) := List.mem_map_of_mem h
  refine get_fillNames_of_mem [] ?_ hmem
  rwa [List.map_map]

theorem get_readItems {items : List Document} {i : Nat} (hi : i < items.length) :
    (fillIndices [] 1 (Document.readItems numerals items)).get (.index (i + 1)) =
      items[i].read numerals := by
  rw [get_fillIndices_index _ _ _ _ (Nat.le_add_left 1 i), readItems_eq, Nat.add_sub_cancel]
  simp [hi]

theorem get_readItems_eq_nil {items : List Document} {n : Nat}
    (h : ∀ i < items.length, n ≠ i + 1) :
    (fillIndices [] 1 (Document.readItems numerals items)).get (.index n) = .nil := by
  cases n with
  | zero => exact get_fillIndices_of_lt _ _ Nat.one_pos
  | succ i =>
      have hi : items.length ≤ i := Nat.not_lt.mp fun hlt => h i hlt rfl
      rw [get_fillIndices_index _ _ _ _ (Nat.le_add_left 1 i), readItems_eq, Nat.add_sub_cancel,
        List.getElem?_eq_none (by simpa using hi)]
      rfl

theorem Copies.eq_nil {v : LuaValue ρ} (h : Copies heap v .nil) : v = .nil := by
  cases h
  rfl

/-- What a copy of a value has of what can be reached from it. -/
theorem Copies.reaches {v w : LuaValue ρ} {d : Document} (hreach : Reaches heap v w)
    (hd : Unfolds heap v d) (hcopy : Copies heap v (d.read numerals)) :
    ∃ d', Unfolds heap w d' ∧ Copies heap w (d'.read numerals) := by
  induction hreach generalizing d with
  | refl => exact ⟨d, hd, hcopy⟩
  | @step r c w hc _ ih =>
      cases hd with
      | @array _ items harray hkeys hcount hlength hitems =>
          rw [children_array heap harray] at hc
          obtain ⟨i, hi, rfl⟩ := List.getElem_of_mem hc
          have hi' : i < items.length := hlength ▸ hi
          cases hcopy with
          | table _ hget =>
              have hitem := hget (.index (i + 1))
              rw [get_readItems hi'] at hitem
              change Copies heap ((heap r).rawget (.index (i + 1))) _ at hitem
              rw [← (LuaTable.ipairs_getElem hi).1] at hitem
              exact ih (hitems i hi hi') hitem
      | @object _ fields hobject hkeys hfields =>
          rw [children_object heap hobject] at hc
          obtain ⟨i, hi, rfl⟩ := List.getElem_of_mem hc
          rw [List.length_map] at hi
          have hi' : i < fields.length := length_fields hkeys ▸ hi
          rw [List.getElem_map] at ih
          cases hcopy with
          | table _ hget =>
              have hfield := hget (.name fields[i].1)
              rw [get_readFields (nodup_names hkeys) (List.getElem_mem hi')] at hfield
              change Copies heap ((heap r).rawget (.string fields[i].1)) _ at hfield
              rw [← key_getElem hkeys hi hi',
                LuaTable.rawget_of_mem (List.getElem_mem hi)] at hfield
              exact ih (hfields i hi hi') hfield

/-- A table that was taken for an array and copied is a sequence. -/
theorem isSequence_of_copies {r : ρ} {d : Document} (harray : (heap r).IsArray)
    (hd : Unfolds heap (.table r) d) (hcopy : Copies heap (.table r) (d.read numerals)) :
    (heap r).IsSequence := by
  cases hd with
  | object hobject => exact absurd harray hobject
  | @array _ items _ hkeys hcount hlength _ =>
      cases hcopy with
      | table hkeys' hget =>
          intro e he
          obtain ⟨key, hkey⟩ := hkeys' e he
          cases key with
          | name s =>
              have hnumber := hkeys e he
              rw [hkey] at hnumber
              cases hnumber
          | index n =>
              have hvalue := hget (.index n)
              rw [← hkey, LuaTable.rawget_of_mem he] at hvalue
              by_contra hnone
              have hout : ∀ i < items.length, n ≠ i + 1 := by
                rintro i hi rfl
                have hle := (heap r).ipairs_length_le
                exact hnone ⟨i, by omega, hkey⟩
              rw [get_readItems_eq_nil hout] at hvalue
              exact (heap r).values e he hvalue.eq_nil

theorem LuaTable.IsSequence.rawget_eq_nil {t : LuaTable ρ} (h : t.IsSequence) {k : LuaValue ρ}
    (hk : ∀ i < t.entries.length, k ≠ .index (i + 1)) : t.rawget k = .nil := by
  by_contra hne
  obtain ⟨i, hi, hkey⟩ := h _ (LuaTable.mem_of_rawget hne)
  exact hk i hi hkey

omit [DecidableEq ρ] in
theorem index_inj {m n : Nat} : (LuaValue.index m : LuaValue ρ) = .index n ↔ m = n := by
  simp [LuaValue.index]

/-- An array is copied when it is a sequence and its elements are copied. -/
theorem copies_array {r : ρ} {items : List Document} (hsequence : (heap r).IsSequence)
    (hlength : (heap r).ipairs.length = items.length)
    (hitems : ∀ i (hi : i < (heap r).ipairs.length) (hi' : i < items.length),
      Copies heap (heap r).ipairs[i] (items[i].read numerals)) :
    Copies heap (.table r) (.table (fillIndices [] 1 (Document.readItems numerals items))) := by
  refine Copies.table ?_ ?_
  · intro e he
    obtain ⟨i, -, hkey⟩ := hsequence e he
    exact ⟨.index (i + 1), hkey⟩
  · intro key
    cases key with
    | name s =>
        have hnil : (heap r).rawget (.string s) = .nil :=
          hsequence.rawget_eq_nil fun i _ h => nomatch h
        show Copies heap ((heap r).rawget (.string s)) _
        rw [get_fillIndices_name, hnil]
        exact Copies.nil
    | index n =>
        show Copies heap ((heap r).rawget (.index n)) _
        by_cases hin : ∃ i < items.length, n = i + 1
        · obtain ⟨i, hi', rfl⟩ := hin
          have hi : i < (heap r).ipairs.length := hlength ▸ hi'
          rw [get_readItems hi', ← (LuaTable.ipairs_getElem hi).1]
          exact hitems i hi hi'
        · have hout : ∀ i < items.length, n ≠ i + 1 := fun i hi h => hin ⟨i, hi, h⟩
          have hnil : (heap r).rawget (.index n) = .nil := by
            apply hsequence.rawget_eq_nil
            intro i hi h
            rw [← hsequence.ipairs_length, hlength] at hi
            exact hout i hi (index_inj.mp h)
          rw [get_readItems_eq_nil hout, hnil]
          exact Copies.nil

/-- An object is copied when its values are. -/
theorem copies_object {r : ρ} {fields : List (Bytes × Document)}
    (hkeys : (heap r).entries.map Prod.fst = fields.map fun field => .string field.1)
    (hfields : ∀ i (hi : i < (heap r).entries.length) (hi' : i < fields.length),
      Copies heap (heap r).entries[i].2 (fields[i].2.read numerals)) :
    Copies heap (.table r) (.table (fillNames [] (Document.readFields numerals fields))) := by
  have hlength := length_fields hkeys
  have hname : ∀ e ∈ (heap r).entries, ∃ field ∈ fields, e.1 = .string field.1 := by
    intro e he
    obtain ⟨i, hi, rfl⟩ := List.getElem_of_mem he
    exact ⟨_, List.getElem_mem (hlength ▸ hi), key_getElem hkeys hi (hlength ▸ hi)⟩
  refine Copies.table ?_ ?_
  · intro e he
    obtain ⟨field, -, hkey⟩ := hname e he
    exact ⟨.name field.1, hkey⟩
  · intro key
    cases key with
    | index n =>
        have hnil : (heap r).rawget (.index n) = .nil := by
          by_contra hne
          obtain ⟨field, -, hkey⟩ := hname _ (LuaTable.mem_of_rawget hne)
          cases hkey
        show Copies heap ((heap r).rawget (.index n)) _
        rw [get_fillNames_index, hnil]
        exact Copies.nil
    | name s =>
        show Copies heap ((heap r).rawget (.string s)) _
        by_cases hin : s ∈ fields.map Prod.fst
        · obtain ⟨field, hfield, rfl⟩ := List.mem_map.mp hin
          obtain ⟨i, hi', rfl⟩ := List.getElem_of_mem hfield
          have hi : i < (heap r).entries.length := hlength ▸ hi'
          rw [get_readFields (nodup_names hkeys) hfield, ← key_getElem hkeys hi hi',
            LuaTable.rawget_of_mem (List.getElem_mem hi)]
          exact hfields i hi hi'
        · have hnil : (heap r).rawget (.string s) = .nil := by
            by_contra hne
            obtain ⟨field, hfield, hkey⟩ := hname _ (LuaTable.mem_of_rawget hne)
            cases hkey
            exact hin (List.mem_map_of_mem hfield)
          have hout : s ∉ (Document.readFields numerals fields).map Prod.fst := by
            rw [readFields_eq, List.map_map]
            exact hin
          rw [get_fillNames_of_notMem _ hout, hnil]
          exact Copies.nil

/-- A value is copied when its arrays are sequences and its numbers are read as
they were. -/
theorem Unfolds.copies {v : LuaValue ρ} {d : Document} (hd : Unfolds heap v d)
    (hseq : ∀ r, Reaches heap v (.table r) → (heap r).IsArray → (heap r).IsSequence)
    (hnum : ∀ x, Reaches heap v (.number (.finite x)) → numerals.reread x = .finite x) :
    Copies heap v (d.read numerals) := by
  induction hd with
  | nil => exact Copies.nil
  | boolean b => exact Copies.boolean b
  | string s => exact Copies.string s
  | number x =>
      rw [Document.read, hnum x (Reaches.refl _)]
      exact Copies.number _
  | @array r items harray _ _ hlength _ ih =>
      apply copies_array (hseq r (Reaches.refl _) harray) hlength
      intro i hi hi'
      have hchild : (heap r).ipairs[i] ∈ children heap r := by
        rw [children_array heap harray]
        exact List.getElem_mem hi
      exact ih i hi hi' (fun r' h => hseq r' (Reaches.step hchild h))
        fun x h => hnum x (Reaches.step hchild h)
  | @object r fields hobject hkeys _ ih =>
      apply copies_object hkeys
      intro i hi hi'
      have hchild : (heap r).entries[i].2 ∈ children heap r := by
        rw [children_object heap hobject]
        exact List.mem_map_of_mem (List.getElem_mem hi)
      exact ih i hi hi' (fun r' h => hseq r' (Reaches.step hchild h))
        fun x h => hnum x (Reaches.step hchild h)

/-- What was written is read, and what is read is a copy when every array in
reach is a sequence and every number in reach has no more digits than are
printed. -/
theorem copied_iff [Fintype ρ] (hnumerals : numerals.Documented) {v : LuaValue ρ} {s : Bytes}
    (h : encode numerals heap v = .ok s) :
    ∃ x, decode numerals s = .ok x ∧
      (Copies heap v x ↔
        (∀ r, Reaches heap v (.table r) → (heap r).IsArray → (heap r).IsSequence) ∧
          ∀ y, Reaches heap v (.number (.finite y)) → numerals.reread y = .finite y) := by
  obtain ⟨d, hd, rfl⟩ := writes_of_encode h
  refine ⟨_, decode_render hnumerals d, ?_, fun hexact => hd.copies hexact.1 hexact.2⟩
  intro hcopy
  constructor
  · intro r hreach harray
    obtain ⟨d', hd', hcopy'⟩ := Copies.reaches hreach hd hcopy
    exact isSequence_of_copies harray hd' hcopy'
  · intro y hreach
    obtain ⟨d', hd', hcopy'⟩ := Copies.reaches hreach hd hcopy
    cases hd' with
    | number =>
        rw [Document.read] at hcopy'
        generalize numerals.reread y = z at hcopy'
        cases hcopy'
        rfl

end

/-! ## A value with an array in it -/

/-- `{1, 2}`. -/
def sampleArray : LuaTable (Fin 2) where
  entries := [(.index 1, .index 1), (.index 2, .index 2)]
  border := 2
  nodup := by decide
  keys := by decide
  values := by decide
  isBorder := by decide

/-- `{a = {1, 2}}`. -/
def sampleObject : LuaTable (Fin 2) where
  entries := [(.string (text "a"), .table 1)]
  border := 0
  nodup := by decide
  keys := by decide
  values := by decide
  isBorder := by decide

def sampleHeap : Fin 2 → LuaTable (Fin 2)
  | 0 => sampleObject
  | 1 => sampleArray

theorem copied_sample :
    ∃ x, decode wholeNumerals (text "\x7b\"a\":[1,2]\x7d") = .ok x ∧
      (Copies sampleHeap (.table 0) x ↔
        (∀ r, Reaches sampleHeap (.table 0) (.table r) → (sampleHeap r).IsArray →
          (sampleHeap r).IsSequence) ∧
          ∀ y, Reaches sampleHeap (.table 0) (.number (.finite y)) →
            wholeNumerals.reread y = .finite y) :=
  copied_iff wholeNumerals_documented (by decide)

/-- `{[1] = 1, [4] = 4, [0] = 0, [-1] = 0}`, where `#` may answer four. -/
def holedArray : LuaTable (Fin 1) where
  entries := [(.index 1, .index 1), (.index 4, .index 4), (.index 0, .index 0),
    (.number (.finite (-1)), .index 0)]
  border := 4
  nodup := by decide
  keys := by decide
  values := by decide
  isBorder := by decide

example : encode wholeNumerals (fun _ => holedArray) (.table 0) = .ok (text "[1]") := by decide

end LoginServer.Lib
