import LoginServer.Verified.ByteMemory

/-!
# A reader that refuses to pass the end

`Reader` is the plain meaning of a cursor over a finite byte string: `take n`
gives the next `n` bytes, or nothing and a sticky flag when there are not
that many.  `Window` says that a range of a `Memory` with a cursor in it is
such a reader.

## Main results

* `take_append` — what was laid down is taken back, and the rest remains.
* `take_after` — a take does not depend on what was read before.
* `Window.take` — a take that is granted reads the memory at the cursor.
-/

namespace LoginServer.Verified.BoundedReader

open LoginServer.Verified.ByteMemory

/-- A byte string, how far it was read, and whether a take was refused. -/
structure Reader where
  data : List UInt8
  offset : Nat := 0
  overrun : Bool := false

namespace Reader

/-- The bytes not read yet. -/
def rest (r : Reader) : List UInt8 := r.data.drop r.offset

/-- There are `n` more bytes. -/
def Has (r : Reader) (n : Nat) : Prop := r.offset + n ≤ r.data.length

instance (r : Reader) (n : Nat) : Decidable (r.Has n) :=
  inferInstanceAs (Decidable (_ ≤ _))

/-- The next `n` bytes. -/
def take (r : Reader) (n : Nat) : List UInt8 × Reader :=
  if r.Has n then (r.rest.take n, { r with offset := r.offset + n })
  else ([], { r with overrun := true })

theorem take_of_has {r : Reader} {n : Nat} (h : r.Has n) :
    r.take n = (r.rest.take n, { r with offset := r.offset + n }) := by
  rw [take, if_pos h]

theorem take_of_not_has {r : Reader} {n : Nat} (h : ¬ r.Has n) :
    r.take n = ([], { r with overrun := true }) := by
  rw [take, if_neg h]

theorem length_rest (r : Reader) : r.rest.length = r.data.length - r.offset := by
  rw [rest, List.length_drop]

/-- Taking a string that lies at the cursor. -/
theorem take_append {r : Reader} (xs : List UInt8) {ys : List UInt8}
    (h : r.rest = xs ++ ys) (hoffset : r.offset ≤ r.data.length) :
    (r.take xs.length).1 = xs ∧ (r.take xs.length).2.rest = ys ∧
      (r.take xs.length).2.offset ≤ (r.take xs.length).2.data.length ∧
      (r.take xs.length).2.overrun = r.overrun := by
  have hlen := r.length_rest
  rw [h, List.length_append] at hlen
  have hhas : r.Has xs.length := by
    unfold Has
    omega
  rw [take_of_has hhas]
  refine ⟨?_, ?_, hhas, rfl⟩
  · rw [h, List.take_left' rfl]
  · show r.data.drop (r.offset + xs.length) = ys
    rw [← List.drop_drop]
    show r.rest.drop xs.length = ys
    rw [h, List.drop_left' rfl]

/-- A take from the first of two strings does not depend on the second. -/
theorem take_left {xs : List UInt8} (ys : List UInt8) {offset n : Nat} {overrun : Bool}
    (h : offset + n ≤ xs.length) :
    (⟨xs ++ ys, offset, overrun⟩ : Reader).take n =
      ((xs.drop offset).take n, ⟨xs ++ ys, offset + n, overrun⟩) := by
  have hhas : (⟨xs ++ ys, offset, overrun⟩ : Reader).Has n := by
    show offset + n ≤ (xs ++ ys).length
    rw [List.length_append]
    omega
  rw [take_of_has hhas]
  congr 1
  show ((xs ++ ys).drop offset).take n = _
  rw [List.drop_append_of_le_length (by omega),
    List.take_append_of_le_length (by rw [List.length_drop]; omega)]

/-- The same reader with `xs` in front of what it has read. -/
def after (xs : List UInt8) (r : Reader) : Reader :=
  { r with data := xs ++ r.data, offset := xs.length + r.offset }

/-- What lies in front of the cursor does not matter. -/
theorem take_after (xs : List UInt8) (r : Reader) (n : Nat) :
    (r.after xs).take n = ((r.take n).1, (r.take n).2.after xs) := by
  have hhas : (r.after xs).Has n ↔ r.Has n := by
    simp only [Has, after, List.length_append]
    omega
  by_cases h : r.Has n
  · rw [take_of_has h, take_of_has (hhas.mpr h)]
    simp only [after, rest, Nat.add_assoc]
    rw [← List.drop_drop, List.drop_left' rfl]
  · rw [take_of_not_has h, take_of_not_has (fun h' => h (hhas.mp h'))]
    rfl

end Reader

/-- The bytes of `mem` from `base` on are the reader's data. -/
structure Window (mem : Memory) (base : Nat) (r : Reader) : Prop where
  data : read mem base r.data.length = r.data
  offset : r.offset ≤ r.data.length

theorem Window.take {mem : Memory} {base : Nat} {r : Reader} (h : Window mem base r)
    {n : Nat} (hhas : r.Has n) :
    (r.take n).1 = read mem (base + r.offset) n ∧ Window mem base (r.take n).2 := by
  rw [Reader.take_of_has hhas]
  constructor
  · show (r.data.drop r.offset).take n = _
    rw [← h.data, read_sub mem base hhas]
  · exact ⟨h.data, hhas⟩

theorem Window.refuse {mem : Memory} {base : Nat} {r : Reader} (h : Window mem base r) :
    Window mem base { r with overrun := true } :=
  ⟨h.data, h.offset⟩

end LoginServer.Verified.BoundedReader
