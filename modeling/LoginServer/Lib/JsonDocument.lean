import Mathlib.Data.List.Forall2
import LoginServer.Lib.JsonEncode

/-!
# What `json.encode` writes

A Lua value that holds no table twice on one path unfolds into a tree, and the
encoder writes that tree down.  The encoder follows a table by its `ipairs` or
by all its entries; what it meets on the way and cannot write is a defect.

`stack` does not occur in any of this.  It only has to find the cycles, and to
find nothing else: a table that is held twice, but not by itself, is written
twice.

## Main results

* `encodeValue_outcome` — a call of the encoder writes the tree of its argument
  and leaves `stack` as it was, or meets a defect.
* `encode_eq_ok_iff` — `json.encode` writes exactly the values that unfold.
* `encode_error_iff` — `json.encode` raises an error exactly when a defect can
  be reached, and the error is that of a defect that can.
-/

namespace LoginServer.Lib

open LoginServer.Network (Bytes text)
open LoginServer.Verified.PathMarks

/-! ## Trees -/

/-- A tree of values. -/
inductive Document where
  | null
  | boolean (value : Bool)
  | number (value : Rat)
  | string (value : Bytes)
  | array (items : List Document)
  | object (fields : List (Bytes × Document))

section
variable (numerals : Numerals)

mutual

/-- The text of a tree. -/
def Document.render : Document → Bytes
  | .null => text "null"
  | .boolean value => encodeBoolean value
  | .number value => numerals.format value
  | .string value => encodeString value
  | .array items => text "[" ++ (concat (Document.renderItems items) ++ text "]")
  | .object fields => text "\x7b" ++ (concat (Document.renderFields fields) ++ text "\x7d")

def Document.renderItems : List Document → List Bytes
  | [] => []
  | item :: items => item.render :: Document.renderItems items

def Document.renderFields : List (Bytes × Document) → List Bytes
  | [] => []
  | (k, v) :: fields => (encodeString k ++ (text ":" ++ v.render)) :: Document.renderFields fields

end

theorem renderItems_eq (items : List Document) :
    Document.renderItems numerals items = items.map (Document.render numerals) := by
  induction items with
  | nil => rfl
  | cons item items ih => rw [Document.renderItems, ih, List.map_cons]

/-- The text of a field. -/
def renderField (field : Bytes × Document) : Bytes :=
  encodeString field.1 ++ (text ":" ++ field.2.render numerals)

theorem renderFields_eq (fields : List (Bytes × Document)) :
    Document.renderFields numerals fields = fields.map (renderField numerals) := by
  induction fields with
  | nil => rfl
  | cons field fields ih => rw [Document.renderFields, ih, List.map_cons, renderField]

end

section
variable {ρ : Type} [DecidableEq ρ] (heap : ρ → LuaTable ρ)

/-- What the encoder follows from a table. -/
def children (r : ρ) : List (LuaValue ρ) :=
  if (heap r).IsArray then (heap r).ipairs else (heap r).entries.map Prod.snd

theorem children_array {r : ρ} (h : (heap r).IsArray) : children heap r = (heap r).ipairs :=
  if_pos h

theorem children_object {r : ρ} (h : ¬ (heap r).IsArray) :
    children heap r = (heap r).entries.map Prod.snd := if_neg h

/-- One table holds another. -/
def Edge (r r' : ρ) : Prop := .table r' ∈ children heap r

/-- What the encoder follows from a value. -/
inductive Reaches : LuaValue ρ → LuaValue ρ → Prop
  | refl (v : LuaValue ρ) : Reaches v v
  | step {r : ρ} {c w : LuaValue ρ} (hc : c ∈ children heap r) (h : Reaches c w) :
      Reaches (.table r) w

/-- The value unfolds into the tree. -/
inductive Unfolds : LuaValue ρ → Document → Prop
  | nil : Unfolds .nil .null
  | boolean (value : Bool) : Unfolds (.boolean value) (.boolean value)
  | number (value : Rat) : Unfolds (.number (.finite value)) (.number value)
  | string (value : Bytes) : Unfolds (.string value) (.string value)
  | array {r : ρ} {items : List Document} (harray : (heap r).IsArray)
      (hkeys : ∀ e ∈ (heap r).entries, e.1.isNumber = true)
      (hcount : (heap r).entries.length = (heap r).border)
      (hlength : (heap r).ipairs.length = items.length)
      (hitems : ∀ i (hi : i < (heap r).ipairs.length) (hi' : i < items.length),
        Unfolds (heap r).ipairs[i] items[i]) :
      Unfolds (.table r) (.array items)
  | object {r : ρ} {fields : List (Bytes × Document)} (hobject : ¬ (heap r).IsArray)
      (hkeys : (heap r).entries.map Prod.fst = fields.map fun field => .string field.1)
      (hfields : ∀ i (hi : i < (heap r).entries.length) (hi' : i < fields.length),
        Unfolds (heap r).entries[i].2 fields[i].2) :
      Unfolds (.table r) (.object fields)

/-- What the encoder cannot write, and the error it raises there. -/
inductive Defect : LuaValue ρ → EncodeError → Prop
  | circular {r : ρ} (h : Relation.TransGen (Edge heap) r r) :
      Defect (.table r) .circularReference
  | mixedArray {r : ρ} (harray : (heap r).IsArray) {e : LuaValue ρ × LuaValue ρ}
      (he : e ∈ (heap r).entries) (hkey : e.1.isNumber = false) : Defect (.table r) .mixedKeys
  | sparse {r : ρ} (harray : (heap r).IsArray)
      (hcount : (heap r).entries.length ≠ (heap r).border) : Defect (.table r) .sparseArray
  | mixedObject {r : ρ} (hobject : ¬ (heap r).IsArray) {e : LuaValue ρ × LuaValue ρ}
      (he : e ∈ (heap r).entries) (hkey : e.1.isString = false) : Defect (.table r) .mixedKeys
  | number {val : Number} (hval : ∀ value, val ≠ .finite value) :
      Defect (.number val) (.unexpectedNumber val)
  | type (type : OtherType) (id : Nat) : Defect (.other type id) (.unexpectedType type)

/-- A defect the encoder may meet. -/
def Meets (v : LuaValue ρ) (e : EncodeError) : Prop := ∃ w, Reaches heap v w ∧ Defect heap w e

/-! ## Values that unfold have no defect -/

variable {heap}

/-- A child of a table that unfolds does. -/
theorem Unfolds.child {r : ρ} {d : Document} {c : LuaValue ρ} (h : Unfolds heap (.table r) d)
    (hc : c ∈ children heap r) : ∃ d', Unfolds heap c d' := by
  cases h with
  | array harray _ _ hlength hitems =>
      rw [children_array heap harray] at hc
      obtain ⟨i, hi, rfl⟩ := List.getElem_of_mem hc
      exact ⟨_, hitems i hi (hlength ▸ hi)⟩
  | @object _ fields hobject hkeys hfields =>
      rw [children_object heap hobject] at hc
      obtain ⟨i, hi, rfl⟩ := List.getElem_of_mem hc
      have hlength : (heap r).entries.length = fields.length := by
        simpa using congrArg List.length hkeys
      rw [List.length_map] at hi
      rw [List.getElem_map]
      exact ⟨_, hfields i hi (hlength ▸ hi)⟩

theorem Unfolds.reaches {v w : LuaValue ρ} {d : Document} (h : Unfolds heap v d)
    (hreach : Reaches heap v w) : ∃ d', Unfolds heap w d' := by
  induction hreach generalizing d with
  | refl => exact ⟨d, h⟩
  | step hc _ ih =>
      obtain ⟨d', hd'⟩ := h.child hc
      exact ih hd'

/-- Below a table that unfolds every way ends. -/
theorem Unfolds.acc {v : LuaValue ρ} {d : Document} (h : Unfolds heap v d) :
    ∀ r, v = .table r → Acc (fun r' r => Edge heap r r') r := by
  induction h with
  | nil => exact fun _ h => nomatch h
  | boolean => exact fun _ h => nomatch h
  | number => exact fun _ h => nomatch h
  | string => exact fun _ h => nomatch h
  | @array r items harray _ _ hlength _ ih =>
      intro _ hr
      cases hr
      refine Acc.intro r fun r' hedge => ?_
      rw [Edge, children_array heap harray] at hedge
      obtain ⟨i, hi, hget⟩ := List.getElem_of_mem hedge
      exact ih i hi (hlength ▸ hi) r' hget
  | @object r fields hobject hkeys _ ih =>
      intro _ hr
      cases hr
      refine Acc.intro r fun r' hedge => ?_
      rw [Edge, children_object heap hobject] at hedge
      obtain ⟨i, hi, hget⟩ := List.getElem_of_mem hedge
      have hlength : (heap r).entries.length = fields.length := by
        simpa using congrArg List.length hkeys
      rw [List.length_map] at hi
      rw [List.getElem_map] at hget
      exact ih i hi (hlength ▸ hi) r' hget

theorem Unfolds.not_defect {v : LuaValue ρ} {d : Document} {e : EncodeError}
    (h : Unfolds heap v d) : ¬ Defect heap v e := by
  intro hdefect
  cases hdefect with
  | circular hcycle => exact not_cycle_of_acc (h.acc _ rfl) hcycle
  | mixedArray harray he hkey =>
      cases h with
      | array _ hkeys => exact absurd (hkeys _ he) (by simp [hkey])
      | object hobject => exact hobject harray
  | sparse harray hcount =>
      cases h with
      | array _ _ hcount' => exact hcount hcount'
      | object hobject => exact hobject harray
  | mixedObject hobject he hkey =>
      cases h with
      | array harray => exact hobject harray
      | object _ hkeys =>
          have hmem := List.mem_map_of_mem (f := Prod.fst) he
          rw [hkeys] at hmem
          obtain ⟨field, -, hfield⟩ := List.mem_map.mp hmem
          rw [← hfield] at hkey
          cases hkey
  | number hval =>
      cases h with
      | number value => exact hval value rfl
  | type => cases h

theorem Meets.child {r : ρ} {c : LuaValue ρ} {e : EncodeError} (h : Meets heap c e)
    (hc : c ∈ children heap r) : Meets heap (.table r) e := by
  obtain ⟨w, hreach, hdefect⟩ := h
  exact ⟨w, Reaches.step hc hreach, hdefect⟩

theorem Defect.meets {v : LuaValue ρ} {e : EncodeError} (h : Defect heap v e) : Meets heap v e :=
  ⟨v, Reaches.refl v, h⟩

/-! ## The calls of the encoder -/

/-- The call returns something with `P` and leaves `stack` as it was, or raises
an error with `Q`. -/
def Outcome {β : Type} (P : β → Prop) (Q : EncodeError → Prop) (stack : Stack ρ) :
    Except EncodeError (β × Stack ρ) → Prop
  | .ok (res, stack') => stack' = stack ∧ P res
  | .error e => Q e

omit [DecidableEq ρ] in
theorem Outcome.imp {β : Type} {P P' : β → Prop} {Q Q' : EncodeError → Prop}
    {stack : Stack ρ}
    {result : Except EncodeError (β × Stack ρ)} (h : Outcome P Q stack result)
    (hP : ∀ res, P res → P' res) (hQ : ∀ e, Q e → Q' e) : Outcome P' Q' stack result := by
  cases result with
  | error e => exact hQ e h
  | ok res => exact ⟨h.1, hP _ h.2⟩

/-- The loop is over, and the table is taken off the stack. -/
theorem Outcome.leave {P : List Bytes → Prop} {P' : Bytes → Prop} {Q : EncodeError → Prop}
    {stack : Stack ρ} {r : ρ} {opening closing : Bytes}
    {each : Except EncodeError (List Bytes × Stack ρ)} (h : Outcome P Q (mark stack r) each)
    (hmark : stack r = false) (hP : ∀ res, P res → P' (opening ++ (concat res ++ closing))) :
    Outcome P' Q stack (leaveTable opening closing r each) := by
  cases each with
  | error e => exact h
  | ok res =>
      obtain ⟨res, stack'⟩ := res
      obtain ⟨rfl, hres⟩ := h
      exact ⟨unmark_mark hmark, hP res hres⟩

omit [DecidableEq ρ] in
theorem outcome_encodeEach {α : Type} {P : α → Bytes → Prop} {Q : EncodeError → Prop}
    {stack : Stack ρ} {f : α → Stack ρ → Except EncodeError (Bytes × Stack ρ)}
    {xs : List α}
    (hf : ∀ x ∈ xs, Outcome (P x) Q stack (f x stack)) :
    Outcome (List.Forall₂ P xs) Q stack (encodeEach f xs stack) := by
  induction xs with
  | nil => exact ⟨rfl, List.Forall₂.nil⟩
  | cons x xs ih =>
      have hx := hf x List.mem_cons_self
      have hxs := ih fun y hy => hf y (List.mem_cons_of_mem x hy)
      unfold encodeEach
      cases hfx : f x stack with
      | error e =>
          rw [hfx] at hx
          exact hx
      | ok first =>
          obtain ⟨s, stack'⟩ := first
          rw [hfx] at hx
          obtain ⟨rfl, hs⟩ := hx
          dsimp only
          cases hrest : encodeEach f xs stack' with
          | error e =>
              rw [hrest] at hxs
              exact hxs
          | ok rest =>
              obtain ⟨res, stack''⟩ := rest
              rw [hrest] at hxs
              obtain ⟨rfl, hres⟩ := hxs
              exact ⟨rfl, List.Forall₂.cons hs hres⟩

variable (numerals : Numerals)

/-- The text of a value. -/
def Writes (heap : ρ → LuaTable ρ) (v : LuaValue ρ) (s : Bytes) : Prop :=
  ∃ d, Unfolds heap v d ∧ s = d.render numerals

/-- The text of a field of an object. -/
def WritesField (heap : ρ → LuaTable ρ) (e : LuaValue ρ × LuaValue ρ) (s : Bytes) : Prop :=
  ∃ field : Bytes × Document,
    (e.1 = .string field.1 ∧ Unfolds heap e.2 field.2) ∧ s = renderField numerals field

/-- What a call of the encoder does. -/
def Encodes (heap : ρ → LuaTable ρ) (v : LuaValue ρ) (stack : Stack ρ) :
    Except EncodeError (Bytes × Stack ρ) → Prop :=
  Outcome (Writes numerals heap v) (Meets heap v) stack

/-- What a list of texts was written from. -/
theorem exists_sources {α β : Type} {R : α → β → Prop} {g : β → Bytes} {xs : List α}
    {res : List Bytes} (h : List.Forall₂ (fun x s => ∃ d, R x d ∧ s = g d) xs res) :
    ∃ ds, List.Forall₂ R xs ds ∧ res = ds.map g := by
  induction h with
  | nil => exact ⟨[], List.Forall₂.nil, rfl⟩
  | cons hx _ ih =>
      obtain ⟨d, hd, rfl⟩ := hx
      obtain ⟨ds, hds, rfl⟩ := ih
      exact ⟨d :: ds, List.Forall₂.cons hd hds, rfl⟩

variable {numerals} {rec : LuaValue ρ → Stack ρ → Except EncodeError (Bytes × Stack ρ)}
  {r : ρ} {stack : Stack ρ}

/-- The loop over an array. -/
theorem outcome_array (hmark : stack r = false) (harray : (heap r).IsArray)
    (hrec : ∀ c ∈ children heap r,
      Encodes numerals heap c (mark stack r) (rec c (mark stack r))) :
    Encodes numerals heap (.table r) stack (encodeTable heap rec r stack) := by
  have hunmarked : ¬ stack r = true := by simp [hmark]
  unfold encodeTable
  rw [if_neg hunmarked, if_pos harray]
  split
  · rename_i hany
    obtain ⟨e, he, hkey⟩ := List.any_eq_true.mp hany
    exact ⟨_, Reaches.refl _, Defect.mixedArray harray he (by simpa using hkey)⟩
  rename_i hany
  split
  · rename_i hcount
    exact ⟨_, Reaches.refl _, Defect.sparse harray hcount⟩
  rename_i hcount
  have hkeys : ∀ e ∈ (heap r).entries, e.1.isNumber = true := by simpa using hany
  have heach : Outcome (List.Forall₂ (Writes numerals heap) (heap r).ipairs)
      (Meets heap (.table r)) (mark stack r) (encodeEach rec (heap r).ipairs (mark stack r)) := by
    apply outcome_encodeEach
    intro c hc
    have hchild : c ∈ children heap r := (children_array heap harray).symm ▸ hc
    exact (hrec c hchild).imp (fun _ hs => hs) fun e he => he.child hchild
  refine heach.leave hmark fun res hres => ?_
  obtain ⟨items, hitems, rfl⟩ := exists_sources hres
  obtain ⟨hlength, hget⟩ := List.forall₂_iff_get.mp hitems
  exact ⟨.array items, Unfolds.array harray hkeys (not_not.mp hcount) hlength hget,
    by rw [Document.render, renderItems_eq]⟩

/-- One round of the loop over an object. -/
theorem outcome_encodeField (hobject : ¬ (heap r).IsArray) {e : LuaValue ρ × LuaValue ρ}
    (he : e ∈ (heap r).entries) (hrec : Encodes numerals heap e.2 stack (rec e.2 stack)) :
    Outcome (WritesField numerals heap e) (Meets heap (.table r)) stack
      (encodeField rec e stack) := by
  obtain ⟨k, v⟩ := e
  have hchild : v ∈ children heap r := by
    rw [children_object heap hobject]
    exact List.mem_map_of_mem (f := Prod.snd) he
  cases k with
  | string k =>
      change Encodes numerals heap v stack (rec v stack) at hrec
      unfold encodeField
      dsimp only
      cases hv : rec v stack with
      | error e =>
          rw [hv] at hrec
          exact Meets.child hrec hchild
      | ok res =>
          rw [hv] at hrec
          obtain ⟨hstack, d, hd, hs⟩ := hrec
          exact ⟨hstack, (k, d), ⟨rfl, hd⟩, by rw [hs, renderField]⟩
  | nil => exact (Defect.mixedObject hobject he rfl).meets
  | boolean => exact (Defect.mixedObject hobject he rfl).meets
  | number => exact (Defect.mixedObject hobject he rfl).meets
  | table => exact (Defect.mixedObject hobject he rfl).meets
  | other => exact (Defect.mixedObject hobject he rfl).meets

/-- The loop over an object. -/
theorem outcome_object (hmark : stack r = false) (hobject : ¬ (heap r).IsArray)
    (hrec : ∀ c ∈ children heap r,
      Encodes numerals heap c (mark stack r) (rec c (mark stack r))) :
    Encodes numerals heap (.table r) stack (encodeTable heap rec r stack) := by
  have hunmarked : ¬ stack r = true := by simp [hmark]
  unfold encodeTable
  rw [if_neg hunmarked, if_neg hobject]
  have heach : Outcome (List.Forall₂ (WritesField numerals heap) (heap r).entries)
      (Meets heap (.table r)) (mark stack r)
      (encodeEach (encodeField rec) (heap r).entries (mark stack r)) := by
    apply outcome_encodeEach
    intro e he
    apply outcome_encodeField hobject he
    apply hrec
    rw [children_object heap hobject]
    exact List.mem_map_of_mem (f := Prod.snd) he
  refine heach.leave hmark fun res hres => ?_
  obtain ⟨fields, hfields, rfl⟩ := exists_sources hres
  obtain ⟨hlength, hget⟩ := List.forall₂_iff_get.mp hfields
  refine ⟨.object fields, Unfolds.object hobject ?_ fun i hi hi' => (hget i hi hi').2,
    by rw [Document.render, renderFields_eq]⟩
  apply List.ext_getElem (by simpa using hlength)
  intro i hi hi'
  rw [List.getElem_map, List.getElem_map]
  exact (hget i _ _).1

/-- A call of the encoder, while there is fuel for the tables it is not inside
of. -/
theorem encodeValue_outcome (numerals : Numerals) (heap : ρ → LuaTable ρ) (fuel : Nat)
    [Fintype ρ] :
    ∀ (v : LuaValue ρ) (stack : Stack ρ), free stack < fuel →
      (∀ r, v = .table r → LeadsTo (Edge heap) stack r) →
      Encodes numerals heap v stack (encodeValue numerals heap fuel v stack) := by
  induction fuel with
  | zero => exact fun _ _ hfree => absurd hfree (Nat.not_lt_zero _)
  | succ fuel ih =>
      intro v stack hfree hpath
      cases v with
      | nil => exact ⟨rfl, .null, Unfolds.nil, rfl⟩
      | boolean b => exact ⟨rfl, .boolean b, Unfolds.boolean b, rfl⟩
      | string s => exact ⟨rfl, .string s, Unfolds.string s, rfl⟩
      | other type id => exact (Defect.type type id).meets
      | number x =>
          cases x with
          | finite x => exact ⟨rfl, .number x, Unfolds.number x, rfl⟩
          | infinite negative => exact (Defect.number (by simp)).meets
          | nan => exact (Defect.number (by simp)).meets
      | table r =>
          show Encodes numerals heap _ stack
            (encodeTable heap (encodeValue numerals heap fuel) r stack)
          have hleads : LeadsTo (Edge heap) stack r := hpath r rfl
          cases hmark : stack r with
          | true =>
              unfold encodeTable
              rw [if_pos hmark]
              exact (Defect.circular (hleads.cycle hmark)).meets
          | false =>
              have hrec : ∀ c ∈ children heap r, Encodes numerals heap c (mark stack r)
                  (encodeValue numerals heap fuel c (mark stack r)) := by
                intro c hc
                apply ih c (mark stack r)
                · exact Nat.lt_of_lt_of_le (free_mark hmark) (Nat.le_of_lt_succ hfree)
                · intro r' hr'
                  subst hr'
                  exact hleads.mark hc
              by_cases harray : (heap r).IsArray
              · exact outcome_array hmark harray hrec
              · exact outcome_object hmark harray hrec

/-- What `json.encode` does. -/
theorem encode_outcome [Fintype ρ] (numerals : Numerals) (heap : ρ → LuaTable ρ)
    (v : LuaValue ρ) :
    match encode numerals heap v with
    | .ok s => Writes numerals heap v s
    | .error e => Meets heap v e := by
  have hfree : free (fun _ : ρ => false) < Fintype.card ρ + 1 :=
    Nat.lt_succ_of_le (free_le _)
  have hcall := encodeValue_outcome numerals heap _ v (fun _ => false) hfree
    fun r _ => leadsTo_start
  unfold encode
  cases hres : encodeValue numerals heap (Fintype.card ρ + 1) v (fun _ => false) with
  | error e =>
      rw [hres] at hcall
      exact hcall
  | ok res =>
      rw [hres] at hcall
      exact hcall.2

theorem writes_of_encode [Fintype ρ] {numerals : Numerals} {v : LuaValue ρ} {s : Bytes}
    (h : encode numerals heap v = .ok s) : Writes numerals heap v s := by
  have houtcome := encode_outcome numerals heap v
  rw [h] at houtcome
  exact houtcome

/-- A value unfolds in one way. -/
theorem Unfolds.unique {v : LuaValue ρ} {d d' : Document} (h : Unfolds heap v d)
    (h' : Unfolds heap v d') : d = d' := by
  induction h generalizing d' with
  | nil => cases h'; rfl
  | boolean => cases h'; rfl
  | number => cases h'; rfl
  | string => cases h'; rfl
  | array harray _ _ hlength _ ih =>
      cases h' with
      | object hobject => exact absurd harray hobject
      | array _ _ _ hlength' hitems' =>
          congr 1
          apply List.ext_getElem (hlength.symm.trans hlength')
          intro i hi hi'
          exact ih i (hlength ▸ hi) hi (hitems' i (hlength ▸ hi) hi')
  | @object r fields hobject hkeys _ ih =>
      cases h' with
      | array harray => exact absurd harray hobject
      | @object _ fields' _ hkeys' hfields' =>
          have hsame := hkeys.symm.trans hkeys'
          have hcount : (heap r).entries.length = fields.length := by
            simpa using congrArg List.length hkeys
          congr 1
          apply List.ext_getElem (by simpa using congrArg List.length hsame)
          intro i hi hi'
          apply Prod.ext
          · have hname := congrArg (fun names : List (LuaValue ρ) => names[i]?) hsame
            simpa [hi, hi'] using hname
          · exact ih i (hcount ▸ hi) hi (hfields' i (hcount ▸ hi) hi')

/-- A value that unfolds is written. -/
theorem encode_of_unfolds [Fintype ρ] (numerals : Numerals) {v : LuaValue ρ} {d : Document}
    (hd : Unfolds heap v d) : encode numerals heap v = .ok (d.render numerals) := by
  have houtcome := encode_outcome numerals heap v
  cases hres : encode numerals heap v with
  | error e =>
      rw [hres] at houtcome
      obtain ⟨w, hreach, hdefect⟩ := houtcome
      obtain ⟨d', hd'⟩ := hd.reaches hreach
      exact absurd hdefect hd'.not_defect
  | ok s =>
      rw [hres] at houtcome
      obtain ⟨d', hd', rfl⟩ := houtcome
      rw [hd.unique hd']

/-- `json.encode` writes the values that unfold, and writes down their trees. -/
theorem encode_eq_ok_iff [Fintype ρ] (numerals : Numerals) (heap : ρ → LuaTable ρ)
    (v : LuaValue ρ) (s : Bytes) :
    encode numerals heap v = .ok s ↔ ∃ d, Unfolds heap v d ∧ s = d.render numerals := by
  constructor
  · exact writes_of_encode
  · rintro ⟨d, hd, rfl⟩
    exact encode_of_unfolds numerals hd

/-- `json.encode` raises an error when there is a defect in reach of the value,
and only the error of such a defect. -/
theorem encode_error_iff [Fintype ρ] (numerals : Numerals) (heap : ρ → LuaTable ρ)
    (v : LuaValue ρ) :
    ((∃ e, encode numerals heap v = .error e) ↔
        ∃ w e, Reaches heap v w ∧ Defect heap w e) ∧
      ∀ e, encode numerals heap v = .error e → ∃ w, Reaches heap v w ∧ Defect heap w e := by
  have houtcome := encode_outcome numerals heap v
  have hmeets : ∀ e, encode numerals heap v = .error e → Meets heap v e := by
    intro e he
    rw [he] at houtcome
    exact houtcome
  refine ⟨⟨?_, ?_⟩, hmeets⟩
  · rintro ⟨e, he⟩
    obtain ⟨w, hw⟩ := hmeets e he
    exact ⟨w, e, hw⟩
  · rintro ⟨w, e, hreach, hdefect⟩
    cases hres : encode numerals heap v with
    | error e => exact ⟨e, rfl⟩
    | ok s =>
        rw [hres] at houtcome
        obtain ⟨d, hd, -⟩ := houtcome
        obtain ⟨d', hd'⟩ := hd.reaches hreach
        exact absurd hdefect hd'.not_defect

end

end LoginServer.Lib
