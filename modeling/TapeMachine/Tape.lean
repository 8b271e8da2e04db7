/-!
# The tape

The tape is unbounded to the right and every cell holds a byte, zero at first. Only the cells up to
the last one that was ever given a nonzero value are stored: a zero written beyond them changes
nothing, and what is stored never shrinks.

`Tape.get` is the view of the tape as a map from all cells to bytes; `get_set` says that a write
changes this map at one cell, whatever it does to what is stored.
-/

namespace TapeMachine

/-- The stored cells of a tape, from its left end. -/
structure Tape where
  cells : Array UInt8 := #[]
  deriving DecidableEq, Repr

namespace Tape

def size (t : Tape) : Nat := t.cells.size

/-- The value of a cell; zero where nothing is stored. -/
def get (t : Tape) (cell : Nat) : UInt8 := t.cells[cell]?.getD 0

/-- Writes a cell. Beyond what is stored, a zero is there already and any other value makes the
stored part end at this cell. -/
def set (t : Tape) (cell : Nat) (value : UInt8) : Tape :=
  if cell < t.cells.size then ⟨t.cells.setIfInBounds cell value⟩
  else if value = 0 then t
  else ⟨(t.cells ++ Array.replicate (cell - t.cells.size) 0).push value⟩

def increment (t : Tape) (cell : Nat) : Tape := t.set cell (t.get cell + 1)

def decrement (t : Tape) (cell : Nat) : Tape := t.set cell (t.get cell - 1)

inductive Edit where
  | set (cell : Nat) (value : UInt8)
  | increment (cell : Nat)
  | decrement (cell : Nat)
  deriving DecidableEq, Repr

def apply (t : Tape) : Edit → Tape
  | .set cell value => t.set cell value
  | .increment cell => t.increment cell
  | .decrement cell => t.decrement cell

/-! ## The view as a map -/

@[simp] theorem get_empty (c : Nat) : ({} : Tape).get c = 0 := by
  simp [get]

theorem get_set (t : Tape) (c d : Nat) (v : UInt8) :
    (t.set c v).get d = if d = c then v else t.get d := by
  simp only [get, set]
  split
  · rename_i h
    by_cases hd : d = c
    · subst hd; simp [h]
    · simp [Ne.symm hd, hd]
  · rename_i h
    have hc : t.cells.size ≤ c := Nat.le_of_not_lt h
    split
    · rename_i hv
      by_cases hd : d = c
      · subst hd; simp [hc, hv]
      · simp [hd]
    · rw [Array.getElem?_push]
      simp only [Array.size_append, Array.size_replicate, Nat.add_sub_cancel' hc]
      by_cases hd : d = c
      · simp [hd]
      · rw [if_neg hd, if_neg hd, Array.getElem?_append]
        split
        · rfl
        · rename_i hlt
          simp only [Array.getElem?_replicate]
          split <;> simp_all

@[simp] theorem get_set_self (t : Tape) (c : Nat) (v : UInt8) : (t.set c v).get c = v := by
  simp [get_set]

/-- The stored part grows just as far as a nonzero write needs. -/
theorem size_set (t : Tape) (c : Nat) (v : UInt8) :
    (t.set c v).size = if v = 0 then t.size else max t.size (c + 1) := by
  simp only [set, size]
  split
  · rename_i h
    split
    · simp
    · simp only [Array.size_setIfInBounds]
      omega
  · rename_i h
    split
    · rfl
    · simp only [Array.size_push, Array.size_append, Array.size_replicate]
      omega

end Tape

end TapeMachine
