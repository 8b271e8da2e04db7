import Mathlib.Data.List.Induction
import Mathlib.Logic.Function.Basic
import Mathlib.Order.Bounds.Defs
import TapeMachine.Tape

/-!
# The tape as a map

A tape stores a stretch of cells and stands for a map from all cells to bytes. Here are both after any
edits of a blank tape: the map is the one that the edits make as point updates, and the stretch ends at
the last cell in which a nonzero byte was ever stored.

* `Tape.Edit.mapAfter` : edits as point updates of a map that is zero everywhere;
* `Tape.get_foldl_apply` : the map of a tape after edits;
* `Tape.size_foldl_apply_le_iff` : the bounds on the stretch are the bounds on the cells in which a nonzero
  byte was stored (`Tape.Edit.StoresNonzero`);
* `Tape.Edit.storesNonzero_iff_mem` : these are the cells of the edits that do more than write a zero;
* `Tape.foldl_apply_refines_map` : all of it.
-/

namespace TapeMachine.Tape

namespace Edit

def cell : Edit → Nat
  | .set cell _ => cell
  | .increment cell => cell
  | .decrement cell => cell

/-- The byte that is stored, given what the cells hold. -/
def stored (m : Nat → UInt8) : Edit → UInt8
  | .set _ value => value
  | .increment cell => m cell + 1
  | .decrement cell => m cell - 1

def update (m : Nat → UInt8) (e : Edit) : Nat → UInt8 := Function.update m e.cell (e.stored m)

/-- The map that some edits make of the map that is zero everywhere. -/
def mapAfter (es : List Edit) : Nat → UInt8 := es.foldl update fun _ => 0

/-- One of the edits stores a nonzero byte in the cell. -/
def StoresNonzero (es : List Edit) (c : Nat) : Prop :=
  ∃ past e future, es = past ++ e :: future ∧ e.cell = c ∧ e.stored (mapAfter past) ≠ 0

/-- At some moment between the edits the cell is nonzero. -/
def BecomesNonzero (es : List Edit) (c : Nat) : Prop := ∃ past, past <+: es ∧ mapAfter past c ≠ 0

variable {es es' : List Edit} {e : Edit} {c : Nat}

theorem mapAfter_concat (es : List Edit) (e : Edit) :
    mapAfter (es ++ [e]) = update (mapAfter es) e := by
  simp [mapAfter]

theorem update_apply (m : Nat → UInt8) (e : Edit) (c : Nat) :
    update m e c = if c = e.cell then e.stored m else m c := by
  unfold update
  exact Function.update_apply m _ _ c

theorem not_storesNonzero_nil : ¬ StoresNonzero [] c := by
  rintro ⟨past, e, future, hes, -⟩
  simp at hes

theorem storesNonzero_concat : StoresNonzero (es ++ [e]) c ↔
    StoresNonzero es c ∨ e.cell = c ∧ e.stored (mapAfter es) ≠ 0 := by
  constructor
  · rintro ⟨past, d, future, hes, hd⟩
    rcases List.eq_nil_or_concat future with rfl | ⟨future, f, rfl⟩
    · obtain ⟨rfl, hlast⟩ := List.append_inj' hes rfl
      cases hlast
      exact .inr hd
    · rw [List.concat_eq_append, ← List.cons_append, ← List.append_assoc] at hes
      obtain ⟨rfl, -⟩ := List.append_inj' hes rfl
      exact .inl ⟨past, d, future, rfl, hd⟩
  · rintro (⟨past, d, future, rfl, hd⟩ | he)
    · exact ⟨past, d, future ++ [e], by simp, hd⟩
    · exact ⟨es, e, [], rfl, he⟩

/-- A byte that is stored is there at the moment after. -/
theorem becomesNonzero_iff_storesNonzero : BecomesNonzero es c ↔ StoresNonzero es c := by
  constructor
  · rintro ⟨past, ⟨future, rfl⟩, hc⟩
    -- back from the moment at which the cell is nonzero to the edit that made it so
    induction past using List.reverseRecOn generalizing future with
    | nil => exact absurd rfl hc
    | append_singleton past e ih =>
      rw [mapAfter_concat, update_apply] at hc
      rw [List.append_assoc, List.singleton_append]
      split at hc
      · exact ⟨past, e, future, rfl, Eq.symm ‹_›, hc⟩
      · exact ih hc (e :: future)
  · rintro ⟨past, e, future, rfl, rfl, he⟩
    refine ⟨past ++ [e], ⟨future, by simp⟩, ?_⟩
    rwa [mapAfter_concat, update_apply, if_pos rfl]

theorem stored_ne_zero_or {m : Nat → UInt8} (he : ∀ d, e ≠ .set d 0) :
    e.stored m ≠ 0 ∨ m e.cell ≠ 0 := by
  cases e with
  | set d value =>
    left
    rintro rfl
    exact he d rfl
  | increment d =>
    by_cases hd : m d = 0
    · left
      simp [stored, hd]
    · exact .inr hd
  | decrement d =>
    by_cases hd : m d = 0
    · left
      simp [stored, hd]
    · exact .inr hd

/-- Whether a nonzero byte is ever stored in a cell does not depend on the order of the edits, but on whether
any of them does more there than write a zero. -/
theorem storesNonzero_iff_mem : StoresNonzero es c ↔ ∃ e ∈ es, e.cell = c ∧ ∀ d, e ≠ .set d 0 := by
  constructor
  · rintro ⟨past, e, future, rfl, hcell, he⟩
    refine ⟨e, by simp, hcell, ?_⟩
    rintro d rfl
    exact he rfl
  · rintro ⟨e, hmem, rfl, he⟩
    obtain ⟨past, future, rfl⟩ := List.append_of_mem hmem
    rcases stored_ne_zero_or he (m := mapAfter past) with hstored | hbefore
    · exact ⟨past, e, future, rfl, rfl, hstored⟩
    · exact becomesNonzero_iff_storesNonzero.mp ⟨past, List.prefix_append _ _, hbefore⟩

end Edit

open Edit

/-! ## One edit -/

theorem apply_eq_set (t : Tape) (e : Edit) : t.apply e = t.set e.cell (e.stored t.get) := by
  cases e <;> rfl

theorem get_apply (t : Tape) (e : Edit) : (t.apply e).get = e.update t.get := by
  funext c
  rw [apply_eq_set, get_set, update_apply]

theorem size_apply_le_iff (t : Tape) (e : Edit) (n : Nat) :
    (t.apply e).size ≤ n ↔ t.size ≤ n ∧ (e.stored t.get ≠ 0 → e.cell < n) := by
  rw [apply_eq_set, size_set]
  by_cases hzero : e.stored t.get = 0
  · rw [if_pos hzero]
    exact (and_iff_left fun hne => absurd hzero hne).symm
  · rw [if_neg hzero, Nat.max_le]
    exact and_congr_right fun _ => ⟨fun hlt _ => hlt, fun hlt => hlt hzero⟩

/-! ## Any number of edits -/

theorem get_foldl_apply (es : List Edit) (t : Tape) :
    (es.foldl apply t).get = es.foldl update t.get := by
  induction es generalizing t with
  | nil => rfl
  | cons e es ih => rw [List.foldl_cons, ih, get_apply, List.foldl_cons]

theorem get_foldl_apply_empty (es : List Edit) : (es.foldl apply {}).get = mapAfter es := by
  rw [get_foldl_apply]
  congr 1

/-- The bounds on the stored cells are the bounds on the cells in which a nonzero byte was stored. -/
theorem size_foldl_apply_le_iff (es : List Edit) (n : Nat) :
    (es.foldl apply {}).size ≤ n ↔ ∀ c, StoresNonzero es c → c < n := by
  induction es using List.reverseRecOn with
  | nil => simp [not_storesNonzero_nil, size]
  | append_singleton es e ih =>
    rw [List.foldl_append, List.foldl_cons, List.foldl_nil, size_apply_le_iff, ih,
      get_foldl_apply_empty]
    simp only [storesNonzero_concat]
    constructor
    · rintro ⟨hpast, hlast⟩ c (hc | ⟨rfl, he⟩)
      · exact hpast c hc
      · exact hlast he
    · intro h
      exact ⟨fun c hc => h c (.inl hc), fun he => h _ (.inr ⟨rfl, he⟩)⟩

theorem size_foldl_apply_eq_zero_iff (es : List Edit) :
    (es.foldl apply {}).size = 0 ↔ ∀ c, ¬ StoresNonzero es c := by
  rw [← Nat.le_zero, size_foldl_apply_le_iff]
  simp

theorem size_foldl_apply_eq_succ_iff (es : List Edit) (c : Nat) :
    (es.foldl apply {}).size = c + 1 ↔ IsGreatest {d | StoresNonzero es d} c := by
  constructor
  · intro hsize
    have hupper := (size_foldl_apply_le_iff es (c + 1)).mp (Nat.le_of_eq hsize)
    have hlower : ¬ ∀ d, StoresNonzero es d → d < c := by
      rw [← size_foldl_apply_le_iff]
      omega
    simp only [not_forall] at hlower
    obtain ⟨d, hd, hge⟩ := hlower
    obtain rfl : d = c := by
      have := hupper d hd
      omega
    exact ⟨hd, fun d hd => Nat.le_of_lt_succ (hupper d hd)⟩
  · rintro ⟨hmem, hupper⟩
    have hle : (es.foldl apply {}).size ≤ c + 1 :=
      (size_foldl_apply_le_iff es (c + 1)).mpr fun d hd => Nat.lt_succ_of_le (hupper hd)
    have hlt : ¬ (es.foldl apply {}).size ≤ c := by
      rw [size_foldl_apply_le_iff]
      exact fun h => absurd (h c hmem) (Nat.lt_irrefl c)
    omega

theorem size_foldl_apply_congr {es es' : List Edit}
    (h : ∀ c, StoresNonzero es c ↔ StoresNonzero es' c) :
    (es.foldl apply {}).size = (es'.foldl apply {}).size := by
  have hbounds : ∀ n, (es.foldl apply {}).size ≤ n ↔ (es'.foldl apply {}).size ≤ n := by
    intro n
    simp only [size_foldl_apply_le_iff, h]
  exact Nat.le_antisymm ((hbounds _).mpr (Nat.le_refl _)) ((hbounds _).mp (Nat.le_refl _))

theorem size_le_size_foldl_apply (t : Tape) (es : List Edit) : t.size ≤ (es.foldl apply t).size := by
  induction es generalizing t with
  | nil => exact Nat.le_refl _
  | cons e es ih =>
    have hstep := ((size_apply_le_iff t e _).mp (Nat.le_refl _)).1
    exact Nat.le_trans hstep (ih (t.apply e))

/-- After any edits a blank tape holds what point updates make of a map, and it ends at the last cell in which
a nonzero byte was ever stored. -/
theorem foldl_apply_refines_map (es : List Edit) :
    let t : Tape := es.foldl apply {}
    (∀ c, t.get c = mapAfter es c) ∧
    (t.size = 0 ↔ ∀ c, ¬ StoresNonzero es c) ∧
    (∀ c, t.size = c + 1 ↔ IsGreatest {d | StoresNonzero es d} c) ∧
    (∀ more : List Edit, t.size ≤ ((es ++ more).foldl apply {}).size) ∧
    (∀ es' : List Edit, (∀ c, BecomesNonzero es c ↔ BecomesNonzero es' c) →
      t.size = (es'.foldl apply {}).size) ∧
    ∀ es' : List Edit, (∀ e, (∀ c, e ≠ .set c 0) → (e ∈ es ↔ e ∈ es')) →
      t.size = (es'.foldl apply {}).size := by
  intro t
  refine ⟨fun c => congrFun (get_foldl_apply_empty es) c, size_foldl_apply_eq_zero_iff es,
    size_foldl_apply_eq_succ_iff es, fun more => ?_, fun es' hsame => ?_, fun es' hsame => ?_⟩
  · rw [List.foldl_append]
    exact size_le_size_foldl_apply t more
  · refine size_foldl_apply_congr fun c => ?_
    rw [← becomesNonzero_iff_storesNonzero, ← becomesNonzero_iff_storesNonzero]
    exact hsame c
  · refine size_foldl_apply_congr fun c => ?_
    rw [storesNonzero_iff_mem, storesNonzero_iff_mem]
    constructor
    · rintro ⟨e, hmem, hcell, he⟩
      exact ⟨e, (hsame e he).mp hmem, hcell, he⟩
    · rintro ⟨e, hmem, hcell, he⟩
      exact ⟨e, (hsame e he).mpr hmem, hcell, he⟩

/-- A cell that is taken below zero and back counts, a zero written farther to the right does not. -/
theorem foldl_apply_refines_map_shuffled :
    let es : List Edit := [.decrement 3, .set 9 0, .increment 3, .set 1 2]
    let es' : List Edit := [.set 1 2, .increment 3, .decrement 3]
    (∀ e, (∀ c, e ≠ .set c 0) → (e ∈ es ↔ e ∈ es')) ∧
      (es.foldl apply {}).size = (es'.foldl apply {}).size ∧
      IsGreatest {c | StoresNonzero es c} 3 ∧ mapAfter es 3 = 0 := by
  intro es es'
  have hsame : ∀ e, (∀ c, e ≠ .set c 0) → (e ∈ es ↔ e ∈ es') := by
    intro e he
    have hblank := he 9
    simp only [es, es', List.mem_cons, List.not_mem_nil, or_false]
    tauto
  obtain ⟨hget, -, hsize, -, -, horder⟩ := foldl_apply_refines_map es
  exact ⟨hsame, horder es' hsame, (hsize 3).mp rfl, (hget 3).symm.trans rfl⟩

end TapeMachine.Tape
