import TapeMachine.Proofs.Fragment

/-!
# What transfers do, from anywhere

A transfer counts a cell down and adds something to certain cells in every round. So one round changes
the cells by constants, `k` rounds change them by `k` times these, and all that is left to say is how
many rounds there are: as many as it takes for the counted cell to be zero. Where it is added to
itself, this can be fewer than it held at first, or no number at all.

* `Memory.shift m step` : to every cell is added what `step` says; `Behaviour.Shifts` : a behaviour
  that does this and nothing else;
* `Behaviour.Shifts.countDown` : counting down with such a body, for a known number of rounds;
  `Behaviour.Shifts.drains` : it is the number in the cell, if the body leaves the cell alone;
* `Generator.Emits.forever` : if no number of rounds makes the cell zero, the code is never left;
* `Generator.copy_achieves`, `Generator.arithmetic_achieves` : what the calls do to cells that are not
  the same;
* `Generator.aliased_achieves` : what they do where a cell is named twice.
-/

namespace TapeMachine

/-- Adds to every cell what `step` says, modulo 256. -/
def Memory.shift (m : Memory) (step : Nat → UInt8) : Memory :=
  { m with cells := fun c => m.cells c + step c }

/-- A cell is counted down to zero, and `step` is added to the other cells as often as it said. -/
def Memory.drained (m : Memory) (cell : Nat) (step : Nat → UInt8) : Memory :=
  { m with
    cells := Function.update (fun c => m.cells c + m.cells cell * step c) cell 0, head := cell }

def single (cell : Nat) (v : UInt8) : Nat → UInt8 := fun c => if c = cell then v else 0

@[simp] theorem single_self (cell : Nat) (v : UInt8) : single cell v cell = v := if_pos rfl

theorem single_of_ne {cell c : Nat} (h : c ≠ cell) (v : UInt8) : single cell v c = 0 := if_neg h

theorem Memory.drained_single (m : Memory) (cell a : Nat) (v : UInt8) :
    m.drained cell (single a v) = { m with
      cells := Function.update (Function.update m.cells a (m.cells a + m.cells cell * v)) cell 0
      head := cell } := by
  simp only [drained, Memory.mk.injEq, and_true]
  funext c
  simp only [Function.update_apply, single]
  grind

theorem Memory.take_eq_shift (m : Memory) (cell : Nat) : m.take cell = m.shift (single cell (-1)) := by
  simp only [Memory.take, Memory.shift, Memory.mk.injEq, and_true]
  funext c
  by_cases hc : c = cell
  · rw [hc, Function.update_self, single_self]
    grind
  · rw [Function.update_of_ne hc, single_of_ne hc]
    grind

namespace Behaviour

/-- Adds to every cell what `step` says, and leaves the head at `head`. -/
def Shifts (R : Behaviour) (step : Nat → UInt8) (head : Nat) : Prop :=
  ∀ m, R m (.completed ((m.shift step).go head))

variable {R S : Behaviour} {p q step : Nat → UInt8} {a b cell : Nat}

theorem Shifts.andThen (hR : R.Shifts p a) (hS : S.Shifts q b) :
    (R.andThen S).Shifts (fun c => p c + q c) b := by
  intro m
  have hsum : ((m.shift fun c => p c + q c).go b) = ((((m.shift p).go a).shift q).go b) := by
    simp only [Memory.shift, Memory.go, Memory.mk.injEq, and_true]
    funext c
    grind
  rw [hsum]
  exact andThen_completed (hR m) (hS _)

theorem Shifts.round (hR : R.Shifts step a) (cell : Nat) :
    ((update fun m => m.take cell).andThen (R.andThen (go cell))).Shifts
      (fun c => step c - single cell 1 c) cell := by
  intro m
  have hround : ((m.shift fun c => step c - single cell 1 c).go cell) =
      (((m.take cell).shift step).go a).go cell := by
    rw [Memory.take_eq_shift]
    simp only [Memory.shift, Memory.go, Memory.mk.injEq, and_true]
    funext c
    by_cases hc : c = cell
    · rw [hc, single_self, single_self]
      grind
    · rw [single_of_ne hc, single_of_ne hc]
      grind
  rw [hround, update_andThen]
  exact andThen_completed (hR _) rfl

/-- A loop is over after the first number of rounds that make the cell zero. -/
theorem Shifts.loop (hR : R.Shifts step cell) (k : Nat) : ∀ m : Memory, m.head = cell →
    (∀ j < k, m.cells cell + UInt8.ofNat j * step cell ≠ 0) →
      m.cells cell + UInt8.ofNat k * step cell = 0 →
        loop (fun m => m.cells cell ≠ 0) R m
          (.completed (m.shift fun c => UInt8.ofNat k * step c)) := by
  induction k with
  | zero =>
    intro m _ _ hk
    have hsame : (m.shift fun c => UInt8.ofNat 0 * step c) = m := by
      simp only [Memory.shift]
      congr
      funext c
      simp
    rw [hsame]
    exact .stop (not_not.mpr (by simpa using hk))
  | succ k ih =>
    intro m hm hbefore hk
    have hnext : ∀ j c, ((m.shift step).go cell).cells c + UInt8.ofNat j * step c =
        m.cells c + UInt8.ofNat (j + 1) * step c := by
      intro j c
      show m.cells c + step c + UInt8.ofNat j * step c = _
      rw [UInt8.ofNat_add]
      grind
    have hrest := ih ((m.shift step).go cell) rfl
      (fun j hj => by rw [hnext]; exact hbefore (j + 1) (by omega)) (by rw [hnext]; exact hk)
    have hfinal : (((m.shift step).go cell).shift fun c => UInt8.ofNat k * step c) =
        m.shift fun c => UInt8.ofNat (k + 1) * step c := by
      simp only [Memory.shift, Memory.go, Memory.mk.injEq, hm, and_true]
      funext c
      exact hnext k c
    rw [hfinal] at hrest
    exact .again (by simpa using hbefore 0 (by omega)) (hR m) hrest

/-- Counting a cell down, where it is known how many rounds make the cell zero. -/
theorem Shifts.countDown (hR : R.Shifts step a) (cell k : Nat) (m : Memory)
    (hbefore : ∀ j < k, m.cells cell + UInt8.ofNat j * (step cell - 1) ≠ 0)
    (hk : m.cells cell + UInt8.ofNat k * (step cell - 1) = 0) :
    Behaviour.countDown cell R m
      (.completed ((m.shift fun c => UInt8.ofNat k * (step c - single cell 1 c)).go cell)) := by
  have hloop := (hR.round cell).loop k (m.go cell) rfl
  rw [single_self] at hloop
  exact andThen_completed rfl (hloop hbefore hk)

theorem countDown_of_zero {m : Memory} (h : m.cells cell = 0) :
    countDown cell R m (.completed (m.go cell)) :=
  andThen_completed rfl (.stop (not_not.mpr h))

theorem ofNat_ne_of_lt {v : UInt8} {j : Nat} (h : j < v.toNat) : UInt8.ofNat j ≠ v := by
  rintro rfl
  rw [UInt8.toNat_ofNat'] at h
  exact absurd h (Nat.not_lt.mpr (Nat.mod_le _ _))

/-- Counting down a cell that the body leaves alone: there are as many rounds as the cell says. -/
theorem Shifts.drains (hR : R.Shifts step a) (hcell : step cell = 0) (m : Memory) :
    Behaviour.countDown cell R m (.completed (m.drained cell step)) := by
  have hcount := hR.countDown cell (m.cells cell).toNat m
  rw [hcell, UInt8.ofNat_toNat] at hcount
  have hfinal : ((m.shift fun c => m.cells cell * (step c - single cell 1 c)).go cell) =
      m.drained cell step := by
    simp only [Memory.shift, Memory.go, Memory.drained, Memory.mk.injEq, and_true]
    funext c
    by_cases hc : c = cell
    · rw [hc, Function.update_self, single_self, hcell]
      grind
    · rw [Function.update_of_ne hc, single_of_ne hc]
      grind
  rw [hfinal] at hcount
  refine hcount (fun j hj h0 => ofNat_ne_of_lt hj ?_) (by grind)
  grind

end Behaviour

/-! ## Steps of transfers -/

section Steps
variable (eof : EofPolicy)

theorem shifts_raise_by (cell n : Nat) :
    ((Routine.line [.go cell, .raise n]).runs eof).Shifts (single cell (UInt8.ofNat n)) cell := by
  intro m
  rw [Routine.runs_raise]
  simp only [Memory.shift, Memory.go, Memory.put, Final.completed.injEq, Memory.mk.injEq, and_true]
  funext c
  by_cases hc : c = cell
  · rw [hc, Function.update_self, single_self]
  · rw [Function.update_of_ne hc, single_of_ne hc]
    grind

theorem shifts_raise (cell : Nat) :
    ((Routine.line [.go cell, .raise 1]).runs eof).Shifts (single cell 1) cell :=
  shifts_raise_by eof cell 1

theorem shifts_lower (cell : Nat) :
    ((Routine.line [.go cell, .lower 1]).runs eof).Shifts (single cell (-1)) cell := by
  intro m
  have hlower : (m.shift (single cell (-1))).go cell = (m.go cell).take cell := by
    rw [← Memory.take_eq_shift]
    rfl
  rw [hlower, Routine.line, Routine.runs_act rfl, Routine.line, Routine.runs_act rfl]
  rfl

theorem shifts_raise_raise (a b : Nat) :
    ((Routine.line [.go a, .raise 1, .go b, .raise 1]).runs eof).Shifts
      (fun c => single a 1 c + single b 1 c) b := by
  have hsplit : Routine.line [.go a, .raise 1, .go b, .raise 1] =
      Routine.line [.go a, .raise 1] ++ Routine.line [.go b, .raise 1] := rfl
  rw [hsplit, Routine.runs_append]
  exact (shifts_raise eof a).andThen (shifts_raise eof b)

end Steps

theorem runs_countDown_done {eof : EofPolicy} {cell : Nat} {body : Routine} {m : Memory} {e : Final}
    (h : Behaviour.countDown cell (body.runs eof) m e) :
    (Routine.countDown cell body .done).runs eof m e := by
  rw [Routine.runs, Routine.runs, Behaviour.andThen_skip]
  exact h

/-- Where no number of rounds makes the counted cell zero, the code that counts it down is never
left. -/
theorem Generator.Emits.forever {g h : Generator} (front : Routine) {body rest : Routine} {d cell a : Nat}
    {step : Nat → UInt8} {text : String} {ops : Array Op} {eof : EofPolicy} {s : Store} {m : Memory}
    (he : g.Emits h (front ++ .countDown cell body rest) d) (hb : h.Begins text ops)
    (hbody : (body.runs eof).Shifts step a) (hs : s.head = g.cursor)
    (hfront : front.runs eof s.memory (.completed m))
    (hne : ∀ k, m.cells cell + UInt8.ofNat k * (step cell - 1) ≠ 0) :
    Forever ops eof (Inside g.size h.size) (s.toState g.size) := by
  obtain ⟨hp, hsize⟩ := hb.placed he.symbols
  rw [Routine.code_append, Routine.code, ← LoopTree.append_assoc] at hp hsize
  obtain ⟨hfirst, hloop⟩ := hp.append
  have hruns : (front.code g.cursor ++ .moves (front.after g.cursor) cell).runs eof s.memory
      (.completed (m.go cell)) := by
    rw [LoopTree.runs_append]
    refine Behaviour.andThen_completed ((front.runs_code_iff g.cursor s.memory _ hs).mpr hfront) ?_
    exact (runs_moves _ cell m _ (front.lands g.cursor s.memory m hs hfront)).mpr rfl
  obtain ⟨t, ht, hmemory⟩ := crosses_of_runs hfirst hruns
  have hforever := forever_of_rounds eof hloop
    (fun n => n.head = cell ∧ ∀ k, n.cells cell + UInt8.ofNat k * (step cell - 1) ≠ 0) ?_ ?_ t ?_
  · rw [LoopTree.length_append, LoopTree.length] at hsize
    refine .of_walks (Walks.mono ht ?_) (hforever.mono ?_)
    · rintro i ⟨hlo, hhi⟩
      exact ⟨hlo, by omega⟩
    · rintro i ⟨hlo, hhi⟩
      exact ⟨by omega, by omega⟩
  · rintro n ⟨rfl, hn⟩
    show n.cells n.head ≠ 0
    simpa using hn 0
  · rintro n ⟨hhead, hn⟩
    refine ⟨_, ((body.runs_code_iff cell).round (body.lands cell) n _ hhead).mpr (hbody.round cell n), rfl, ?_⟩
    intro k
    have hnext := hn (k + 1)
    rw [UInt8.ofNat_add] at hnext
    show n.cells cell + (step cell - single cell 1 cell) + UInt8.ofNat k * (step cell - 1) ≠ 0
    rw [single_self]
    grind
  · rw [hmemory]
    exact ⟨rfl, hne⟩

/-! ## Different cells -/

/-- Copying, where the source is counted down and not added to before it is zero. -/
theorem runs_copy (eof : EofPolicy) (depth : Nat) {source target : Nat} (hst : source ≠ target)
    (hsa : source ≠ Layout.accumulator) (m : Memory) :
    ((Action.copy source target).routine depth).runs eof m
      (.completed ((((m.go target).put 0).drained source
        fun c => single Layout.accumulator 1 c + single target 1 c).drained Layout.accumulator
          (single source 1))) := by
  have hsource : single Layout.accumulator 1 source + single target 1 source = 0 := by
    rw [single_of_ne hsa, single_of_ne hst]
    rfl
  rw [Action.routine, Routine.runs_append]
  refine Behaviour.andThen_completed ((Routine.runs_clear eof target m _).mpr rfl) ?_
  rw [Routine.runs]
  refine Behaviour.andThen_completed ((shifts_raise_raise eof _ target).drains hsource _) ?_
  exact runs_countDown_done ((shifts_raise eof source).drains (single_of_ne hsa.symm 1) _)

namespace Generator

/-- Copying does the same from every context: the target gets the value of the source, and the source takes
up what the accumulator held. -/
theorem copy_achieves (g : Generator) {source target : Nat} (hst : source ≠ target)
    (hsa : source ≠ Layout.accumulator) (hta : target ≠ Layout.accumulator) :
    g.Achieves (g.copy source target) (fun m => { m with
      cells := Function.update (Function.update (Function.update m.cells target (m.cells source))
        source (m.cells source + m.cells Layout.accumulator)) Layout.accumulator 0
      head := Layout.accumulator }) ∧
    (g.copy source target).cursor = Layout.accumulator := by
  refine ⟨(Emits.copy g source target).achieves fun eof m => ?_, rfl⟩
  have hfinal : (((m.go target).put 0).drained source
      fun c => single Layout.accumulator 1 c + single target 1 c).drained Layout.accumulator
        (single source 1) = { m with
    cells := Function.update (Function.update (Function.update m.cells target (m.cells source))
      source (m.cells source + m.cells Layout.accumulator)) Layout.accumulator 0
    head := Layout.accumulator } := by
    simp only [Memory.drained, Memory.put, Memory.go, Memory.mk.injEq, and_true]
    funext c
    simp only [Function.update_apply, single]
    grind
  rw [← hfinal]
  exact runs_copy eof 0 hst hsa m

/-- A register is copied to a scratch cell, where the accumulator is not zero: the source takes up what
it held, modulo 256. -/
theorem copy_achieves_over_accumulator :
    let g := ({} : Generator).moveTo 9
    let s : Store := { head := 9, tape := ⟨#[7, 7, 7, 7, 10, 7, 250]⟩ }
    (6 ≠ 1 ∧ 6 ≠ Layout.accumulator ∧ 1 ≠ Layout.accumulator) ∧
      ∃ ops, (g.copy 6 1).Begins (g.copy 6 1).program.text ops ∧
        ∀ eof, ∃ t : Store, Crosses ops eof g.size (g.copy 6 1).size s t ∧
          (List.range 8).map t.memory.cells = [7, 250, 7, 7, 0, 7, 4, 0] ∧ t.memory.head = 4 := by
  intro g s
  have hne : 6 ≠ 1 ∧ 6 ≠ Layout.accumulator ∧ 1 ≠ Layout.accumulator := by decide
  have hbegins := ((Emits.moveTo {} 9).trans (Emits.copy g 6 1)).begins
  refine ⟨hne, _, hbegins, fun eof => ?_⟩
  obtain ⟨t, ht, hmemory⟩ := (copy_achieves g hne.1 hne.2.1 hne.2.2).1 hbegins eof s rfl
  refine ⟨t, ht, ?_, ?_⟩
  · rw [hmemory]
    decide
  · rw [hmemory]
    rfl

/-- Clearing, setting, adding and subtracting do the same from every context, and change no cell but those
that are named. -/
theorem arithmetic_achieves (g : Generator) :
    (∀ cell, g.Achieves (g.clear cell)
        (fun m => { m with cells := Function.update m.cells cell 0, head := cell }) ∧
      (g.clear cell).cursor = cell) ∧
    (∀ cell value, g.Achieves (g.set cell value)
        (fun m => { m with cells := Function.update m.cells cell value, head := cell }) ∧
      (g.set cell value).cursor = cell) ∧
    (∀ sum addend, sum ≠ addend → g.Achieves (g.add sum addend)
        (fun m => { m with
          cells := Function.update (Function.update m.cells sum (m.cells sum + m.cells addend)) addend 0
          head := addend }) ∧
      (g.add sum addend).cursor = addend) ∧
    ∀ minuend subtrahend, minuend ≠ subtrahend → g.Achieves (g.subtract minuend subtrahend)
        (fun m => { m with
          cells := Function.update (Function.update m.cells minuend
            (m.cells minuend - m.cells subtrahend)) subtrahend 0
          head := subtrahend }) ∧
      (g.subtract minuend subtrahend).cursor = subtrahend := by
  refine ⟨fun cell => ⟨?_, rfl⟩, fun cell value => ⟨?_, rfl⟩, fun sum addend hne => ⟨?_, rfl⟩,
    fun minuend subtrahend hne => ⟨?_, rfl⟩⟩
  · exact (Emits.clear g cell).achieves fun eof m => (Routine.runs_clear eof cell m _).mpr rfl
  · exact (Emits.set g cell value).achieves fun eof m => (Routine.runs_set eof cell value m _).mpr rfl
  · refine (Emits.add g sum addend).achieves fun eof m => runs_countDown_done ?_
    have hdrain := (shifts_raise eof sum).drains (single_of_ne hne.symm 1) m
    rwa [Memory.drained_single, UInt8.mul_one] at hdrain
  · refine (Emits.subtract g minuend subtrahend).achieves fun eof m => runs_countDown_done ?_
    have hdrain := (shifts_lower eof minuend).drains (single_of_ne hne.symm (-1)) m
    have hminus : m.cells minuend + m.cells subtrahend * -1 =
        m.cells minuend - m.cells subtrahend := by grind
    rwa [Memory.drained_single, hminus] at hdrain

/-- A sum and a difference that leave the range of a byte. -/
theorem arithmetic_achieves_wrapped :
    let g := ({} : Generator).moveTo 2
    let s : Store := { head := 2, tape := ⟨#[0, 0, 0, 0, 0, 100, 200]⟩ }
    5 ≠ 6 ∧
      (∃ ops, (g.add 5 6).Begins (g.add 5 6).program.text ops ∧
        ∀ eof, ∃ t : Store, Crosses ops eof g.size (g.add 5 6).size s t ∧
          t.memory.cells 5 = 44 ∧ t.memory.cells 6 = 0 ∧ t.memory.head = 6) ∧
      ∃ ops, (g.subtract 5 6).Begins (g.subtract 5 6).program.text ops ∧
        ∀ eof, ∃ t : Store, Crosses ops eof g.size (g.subtract 5 6).size s t ∧
          t.memory.cells 5 = 156 ∧ t.memory.cells 6 = 0 ∧ t.memory.head = 6 := by
  intro g s
  have hne : 5 ≠ 6 := by decide
  obtain ⟨-, -, hadd, hsubtract⟩ := arithmetic_achieves g
  have hsum := ((Emits.moveTo {} 2).trans (Emits.add g 5 6)).begins
  have hdifference := ((Emits.moveTo {} 2).trans (Emits.subtract g 5 6)).begins
  refine ⟨hne, ⟨_, hsum, fun eof => ?_⟩, ⟨_, hdifference, fun eof => ?_⟩⟩
  · obtain ⟨t, ht, hmemory⟩ := (hadd 5 6 hne).1 hsum eof s rfl
    refine ⟨t, ht, ?_⟩
    rw [hmemory]
    decide
  · obtain ⟨t, ht, hmemory⟩ := (hsubtract 5 6 hne).1 hdifference eof s rfl
    refine ⟨t, ht, ?_⟩
    rw [hmemory]
    decide

/-! ## The same cell twice -/

/-- The number of rounds in which a cell is counted down to zero by twos. -/
theorem add_mul_neg_two_eq_zero_iff (v : UInt8) (k : Nat) :
    v + UInt8.ofNat k * (-1 - 1) = 0 ↔ v.toNat = 2 * k % 256 := by
  have hdouble : v + UInt8.ofNat k * (-1 - 1) = 0 ↔ v = UInt8.ofNat (2 * k) := by
    rw [UInt8.ofNat_mul, show UInt8.ofNat 2 = 2 from rfl]
    grind
  rw [hdouble, ← UInt8.toNat_inj, UInt8.toNat_ofNat']

/-- Counting down a cell from which the body takes one more. -/
theorem runs_subtract_self (eof : EofPolicy) (depth : Nat) {cell : Nat} {m : Memory}
    (h : (m.cells cell).toNat % 2 = 0) :
    ((Action.subtract cell cell).routine depth).runs eof m
      (.completed { m with cells := Function.update m.cells cell 0, head := cell }) := by
  have hlt := (m.cells cell).toNat_lt
  have hend : m.cells cell + UInt8.ofNat ((m.cells cell).toNat / 2) * (-1 - 1) = 0 := by
    rw [add_mul_neg_two_eq_zero_iff]
    omega
  have hcount := (shifts_lower eof cell).countDown cell ((m.cells cell).toNat / 2) m
  rw [single_self] at hcount
  have hfinal : ((m.shift fun c => UInt8.ofNat ((m.cells cell).toNat / 2) *
      (single cell (-1) c - single cell 1 c)).go cell) =
        { m with cells := Function.update m.cells cell 0, head := cell } := by
    simp only [Memory.shift, Memory.go, Memory.mk.injEq, and_true]
    funext c
    by_cases hc : c = cell
    · rw [hc, Function.update_self, single_self, single_self, hend]
    · rw [Function.update_of_ne hc, single_of_ne hc, single_of_ne hc]
      grind
  rw [hfinal] at hcount
  refine runs_countDown_done (hcount (fun j hj h0 => ?_) hend)
  rw [add_mul_neg_two_eq_zero_iff] at h0
  omega

theorem runs_copy_of_zero {eof : EofPolicy} (depth : Nat) {source target : Nat} {m n : Memory}
    (h : ((m.go target).put 0).cells source = 0)
    (hback : Behaviour.countDown Layout.accumulator ((Routine.line [.go source, .raise 1]).runs eof)
      (((m.go target).put 0).go source) (.completed n)) :
    ((Action.copy source target).routine depth).runs eof m (.completed n) := by
  rw [Action.routine, Routine.runs_append]
  refine Behaviour.andThen_completed ((Routine.runs_clear eof target m _).mpr rfl) ?_
  rw [Routine.runs]
  exact Behaviour.andThen_completed (Behaviour.countDown_of_zero h) (runs_countDown_done hback)

theorem runs_copy_self (eof : EofPolicy) (depth : Nat) {cell : Nat} (hcell : cell ≠ Layout.accumulator)
    (m : Memory) : ((Action.copy cell cell).routine depth).runs eof m (.completed { m with
      cells := Function.update (Function.update m.cells cell (m.cells Layout.accumulator))
        Layout.accumulator 0
      head := Layout.accumulator }) := by
  have hzero : ((m.go cell).put 0).cells cell = 0 := Function.update_self _ _ _
  have hback := (shifts_raise eof cell).drains (single_of_ne hcell.symm 1) (((m.go cell).put 0).go cell)
  have hfinal : (((m.go cell).put 0).go cell).drained Layout.accumulator (single cell 1) = { m with
      cells := Function.update (Function.update m.cells cell (m.cells Layout.accumulator))
        Layout.accumulator 0
      head := Layout.accumulator } := by
    simp only [Memory.drained_single, Memory.put, Memory.go, Memory.mk.injEq, and_true]
    funext c
    simp only [Function.update_apply]
    grind
  rw [hfinal] at hback
  exact runs_copy_of_zero depth hzero hback

/-- The accumulator is raised twice in each round, and counted down into the source. -/
theorem runs_copy_accumulator (eof : EofPolicy) (depth : Nat) {source : Nat}
    (hsource : source ≠ Layout.accumulator) (m : Memory) :
    ((Action.copy source Layout.accumulator).routine depth).runs eof m (.completed { m with
      cells := Function.update (Function.update m.cells source (2 * m.cells source))
        Layout.accumulator 0
      head := Layout.accumulator }) := by
  have hcopy := runs_copy eof depth hsource hsource m
  have hfinal : (((m.go Layout.accumulator).put 0).drained source
      fun c => single Layout.accumulator 1 c + single Layout.accumulator 1 c).drained
        Layout.accumulator (single source 1) = { m with
    cells := Function.update (Function.update m.cells source (2 * m.cells source))
      Layout.accumulator 0
    head := Layout.accumulator } := by
    simp only [Memory.drained, Memory.put, Memory.go, Memory.mk.injEq, and_true]
    funext c
    simp only [Function.update_apply, single]
    grind
  rwa [hfinal] at hcopy

/-- What the calls do where a cell is named twice, or where the accumulator is named: some never end, and
some lose a value. -/
theorem aliased_achieves (g : Generator) :
    (∀ cell, g.AchievesOnly (g.add cell cell) (fun m => m.cells cell = 0) (fun m => m.go cell)) ∧
    (∀ cell, g.AchievesOnly (g.subtract cell cell) (fun m => (m.cells cell).toNat % 2 = 0)
      (fun m => { m with cells := Function.update m.cells cell 0, head := cell })) ∧
    (∀ cell, cell ≠ Layout.accumulator → g.Achieves (g.copy cell cell) (fun m => { m with
      cells := Function.update (Function.update m.cells cell (m.cells Layout.accumulator))
        Layout.accumulator 0
      head := Layout.accumulator })) ∧
    (∀ source, source ≠ Layout.accumulator → g.Achieves (g.copy source Layout.accumulator)
      (fun m => { m with
        cells := Function.update (Function.update m.cells source (2 * m.cells source))
          Layout.accumulator 0
        head := Layout.accumulator })) ∧
    ∀ target, target ≠ Layout.accumulator → g.AchievesOnly (g.copy Layout.accumulator target)
      (fun m => m.cells Layout.accumulator = 0) (fun m => { m with
        cells := Function.update m.cells target 0, head := Layout.accumulator }) := by
  refine ⟨fun cell => ?_, fun cell => ?_, fun cell hcell => ?_, fun source hsource => ?_,
    fun target htarget => ?_⟩
  · refine (Emits.add g cell cell).achievesOnly
      (fun eof m h => runs_countDown_done (Behaviour.countDown_of_zero h)) ?_
    intro text ops hb eof s hs hP
    -- a round gives back what it takes
    refine (Emits.add g cell cell).forever .done hb (shifts_raise eof cell) hs rfl fun k => ?_
    rw [single_self]
    have hP : s.memory.cells cell ≠ 0 := hP
    grind
  · refine (Emits.subtract g cell cell).achievesOnly
      (fun eof m h => runs_subtract_self eof 0 h) ?_
    intro text ops hb eof s hs hP
    -- a round takes two, and 256 is even
    refine (Emits.subtract g cell cell).forever .done hb (shifts_lower eof cell) hs rfl
      fun k h0 => hP ?_
    rw [single_self, id, add_mul_neg_two_eq_zero_iff] at h0
    show (s.memory.cells cell).toNat % 2 = 0
    omega
  · exact (Emits.copy g cell cell).achieves fun eof m => runs_copy_self eof 0 hcell m
  · exact (Emits.copy g source Layout.accumulator).achieves fun eof m =>
      runs_copy_accumulator eof 0 hsource m
  · have hacc : ∀ m : Memory, ((m.go target).put 0).cells Layout.accumulator =
        m.cells Layout.accumulator := fun m => Function.update_of_ne htarget.symm _ _
    refine (Emits.copy g Layout.accumulator target).achievesOnly (fun eof m h => ?_) ?_
    · have hzero : ((m.go target).put 0).cells Layout.accumulator = 0 := (hacc m).trans h
      exact runs_copy_of_zero 0 hzero (Behaviour.countDown_of_zero hzero)
    · intro text ops hb eof s hs hP
      -- the first loop counts the accumulator down and up again in every round
      refine (Emits.copy g Layout.accumulator target).forever _ hb
        (shifts_raise_raise eof Layout.accumulator target) hs
        ((Routine.runs_clear eof target _ _).mpr rfl) fun k => ?_
      have hP : s.memory.cells Layout.accumulator ≠ 0 := hP
      rw [hacc, single_self, single_of_ne htarget.symm]
      grind

/-- Three, taken from itself, is not used up by any number of cycles, while what is copied to itself is
lost. -/
theorem aliased_achieves_three :
    let g := ({} : Generator).set 5 3
    let s : Store := { head := 5, tape := ⟨#[0, 0, 0, 0, 0, 3]⟩ }
    5 ≠ Layout.accumulator ∧
      (∀ eof, ∃ n, ∀ config : Config, config.eof = eof → n ≤ config.maxCycles →
        ∃ r, (execute (g.subtract 5 5).program.text [] config).result = .ok r ∧
          r.halt = .cycleLimit ∧ r.cycles = config.maxCycles) ∧
      ∃ ops, (g.copy 5 5).Begins (g.copy 5 5).program.text ops ∧
        ∀ eof, ∃ t : Store, Crosses ops eof g.size (g.copy 5 5).size s t ∧
          t.memory.cells 5 = 0 := by
  intro g s
  have hne : 5 ≠ Layout.accumulator := by decide
  obtain ⟨-, hsubtract, hcopy, -⟩ := aliased_achieves g
  refine ⟨hne, fun eof => ?_, ?_⟩
  · have hset := Emits.set {} 5 3
    have hbegins := (hset.trans (Emits.subtract g 5 5)).begins
    obtain ⟨x, hx, hmemory⟩ := hset.crosses (hbegins.of_append (Emits.subtract g 5 5).symbols) rfl
      ((Routine.runs_set eof 5 3 (Store.start []).memory _).mpr rfl)
    have hhead : x.head = 5 := congrArg Memory.head hmemory
    have hodd : ¬ (x.memory.cells 5).toNat % 2 = 0 := by
      rw [hmemory]
      decide
    obtain ⟨-, hnever⟩ := (hsubtract 5 hbegins eof x hhead).2 hodd
    refine ⟨x.cycles, ?_⟩
    rintro config rfl hn
    have hrun := hnever config (Machine.start []) rfl rfl ⟨Walks.reaches hx, hn⟩
    rw [Machine.result_run] at hrun
    rw [result_execute [] hbegins.decode]
    exact hrun
  · have hbegins := ((Emits.set {} 5 3).trans (Emits.copy g 5 5)).begins
    refine ⟨_, hbegins, fun eof => ?_⟩
    obtain ⟨t, ht, hmemory⟩ := hcopy 5 hne hbegins eof s rfl
    refine ⟨t, ht, ?_⟩
    rw [hmemory]
    decide

end Generator

end TapeMachine
