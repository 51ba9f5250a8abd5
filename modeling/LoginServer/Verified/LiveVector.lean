import Mathlib.Data.List.Basic

/-!
# Loops over a vector that changes meanwhile

A range-based `for` takes the begin and the end of its vector once and then
walks the storage between them.  A `LiveVector` is that storage: the cells of
the block, which keep their old contents behind the end when the vector
shrinks, or nothing once the block was freed because the vector was destroyed
or had to grow past its capacity.  Reading a freed block is undefined.

## Main results

* `read_of_shows` — a loop over an unchanged vector reads its elements.
* `follow_same` — an operation that leaves the vector alone is not noticed.
-/

namespace LoginServer.Verified

variable {α : Type}

/-- The storage a loop walks. -/
structure LiveVector (α : Type) where
  cells : Option (List α)
  capacity : Nat

namespace LiveVector

/-- The storage of a vector when the loop starts; `spare` more elements fit. -/
def ofList (xs : List α) (spare : Nat) : LiveVector α := ⟨some xs, xs.length + spare⟩

/-- The cell at an index. -/
def read (v : LiveVector α) (i : Nat) : Option α := v.cells.bind fun cells => cells[i]?

/-- The storage after the vector got new contents; `none` means that it was
destroyed. -/
def follow (v : LiveVector α) (current : Option (List α)) : LiveVector α :=
  match v.cells, current with
  | some cells, some xs =>
      if xs.length ≤ v.capacity then { v with cells := some (xs ++ cells.drop xs.length) }
      else { v with cells := none }
  | _, _ => { v with cells := none }

/-- The storage holds the vector and nothing else. -/
structure Shows (v : LiveVector α) (xs : List α) : Prop where
  cells : v.cells = some xs
  room : xs.length ≤ v.capacity

theorem shows_ofList (xs : List α) (spare : Nat) : (ofList xs spare).Shows xs :=
  ⟨rfl, Nat.le_add_right _ _⟩

theorem read_of_shows {v : LiveVector α} {xs : List α} (h : v.Shows xs) (i : Nat) :
    v.read i = xs[i]? := by
  rw [read, h.cells]
  rfl

theorem follow_same {v : LiveVector α} {xs : List α} (h : v.Shows xs) :
    v.follow (some xs) = v := by
  obtain ⟨cells, capacity⟩ := v
  obtain ⟨hcells, hroom⟩ := h
  cases hcells
  show (if xs.length ≤ capacity then _ else _) = _
  rw [if_pos hroom, List.drop_length, List.append_nil]

end LiveVector

end LoginServer.Verified
