/-!
# The layout of the tape

Cells are numbered from the left end of the tape. The generator divides them once and for all: four
scratch cells that serve as a stack of loop counters, one accumulator, and after it the named
registers.

* `Region.of`, `Region.cell`: the region of a cell and the cell of a region. They are inverse on
  the regions that exist (`Region.cell_of`, `Region.of_cell`).
-/

namespace TapeMachine

namespace Layout

def scratchSlots : Nat := 4

def lastScratchSlot : Nat := scratchSlots - 1

/-- The accumulator stands right after the scratch cells. -/
def accumulator : Nat := lastScratchSlot + 1

/-- The first register stands right after the accumulator. -/
def registerBase : Nat := accumulator + 1

def register (key : Nat) : Nat := registerBase + key

/-- The cell of a scratch slot, if there is such a slot. -/
def scratchSlot? (slot : Nat) : Option Nat := if slot < scratchSlots then some slot else none

end Layout

/-- A cell by the part of the layout that it belongs to. -/
inductive Region where
  | scratch (slot : Nat)
  | accumulator
  | register (key : Nat)
  deriving DecidableEq, Repr

namespace Region

def of (cell : Nat) : Region :=
  if cell < Layout.scratchSlots then .scratch cell
  else if cell = Layout.accumulator then .accumulator
  else .register (cell - Layout.registerBase)

def cell : Region → Nat
  | scratch slot => slot
  | accumulator => Layout.accumulator
  | register key => Layout.register key

/-- The generator keeps all cells but the registers for itself. -/
def isReserved : Region → Bool
  | register _ => false
  | _ => true

/-- The short form in which a region is shown to a reader. -/
def label : Region → String
  | scratch slot => "scratch[" ++ toString slot ++ "]"
  | accumulator => "acc"
  | register key => "r" ++ toString key

/-- The long form, with the name of the part written out. -/
def describe : Region → String
  | scratch slot => "Scratch(" ++ toString slot ++ ")"
  | accumulator => "Accumulator"
  | register key => "Register(" ++ toString key ++ ")"

@[simp] theorem cell_of (c : Nat) : (of c).cell = c := by
  unfold of
  split
  · rfl
  · split
    · simp_all [cell]
    · simp only [cell, Layout.register, Layout.registerBase, Layout.accumulator,
        Layout.lastScratchSlot, Layout.scratchSlots] at *
      omega

/-- A scratch slot that exists, the accumulator and every register are told apart by their cell. -/
theorem of_cell (r : Region) (h : ∀ slot, r = .scratch slot → slot < Layout.scratchSlots) :
    of r.cell = r := by
  cases r with
  | scratch slot => simp [of, cell, h slot rfl]
  | accumulator => decide
  | register key =>
    have h₁ : ¬ Layout.registerBase + key < Layout.scratchSlots := by
      simp only [Layout.registerBase, Layout.accumulator, Layout.lastScratchSlot,
        Layout.scratchSlots]
      omega
    have h₂ : Layout.registerBase + key ≠ Layout.accumulator := by
      simp only [Layout.registerBase]
      omega
    simp [of, cell, h₁, h₂, Layout.register]

end Region

end TapeMachine
