import TapeMachine.CommandLine.Report
import TapeMachine.Proofs.Cost
import TapeMachine.Proofs.Transfer

/-!
# Two bytes and their sum

The built-in script reads two bytes and writes their sum. Here is what its program does on every input,
under every policy at the end of the input and at every limit, to the cycle.

* `Adder.code n` : the code that adds `n` besides, which is how the listing of the script differs from its
  program: the plus sign in a comment is executed;
* `Adder.spins_drip` : a cell is drained into the cell on its left in five cycles for each unit;
* `Adder.exists_result_sum`, `Adder.exists_result_short` : the runs of such code with and without a sum;
* `Script.adder_writes_sum` : the runs of the program;
* `CommandLine.listing_adds_one` : the runs of the listing beside them.
-/

namespace TapeMachine

open Machine LoopTree

theorem runs_read_of_blank {eof : EofPolicy} {m : Memory} (hz : m.value = 0)
    (henough : eof = .halt → m.inputs ≠ []) :
    Basic.read.runs eof m
      (.completed { m.put (m.inputs.getD 0 0) with inputs := m.inputs.tail }) := by
  show _ = m.read eof
  have hput : m.put 0 = m := by rw [← hz, Memory.put_value]
  obtain ⟨cells, head, _ | ⟨byte, rest⟩, outputs⟩ := m
  · cases eof with
    | halt => exact absurd rfl (henough rfl)
    | zero => rfl
    | unchanged => exact congrArg Final.completed hput
  · rfl

namespace Adder

variable {eof : EofPolicy} {cell n : Nat}

/-! ## Draining a cell -/

/-- Takes one from the cell under the head and adds it to the cell on its left. -/
def drip : LoopTree := .basic .decrement (.basic .left (.basic .increment (.basic .right .done)))

def dripped (m : Memory) (cell : Nat) : Memory :=
  (((m.put (m.value - 1)).go cell).put (m.cells cell + 1)).go (cell + 1)

theorem takes_drip {m : Memory} (hm : m.head = cell + 1) : drip.takes eof m 4 (dripped m cell) := by
  have hleft : ((m.put (m.value - 1)).go cell).value = m.cells cell := by
    simp [Memory.value, Memory.go, Memory.put, hm]
  have hraise : Basic.increment.runs eof ((m.put (m.value - 1)).go cell)
      (.completed (((m.put (m.value - 1)).go cell).put (m.cells cell + 1))) := by
    rw [← hleft]
    rfl
  refine takes_basic rfl (takes_basic ⟨cell, hm, rfl⟩ ?_)
  exact takes_basic hraise (takes_basic rfl (takes_done _))

/-- Draining a cell takes a test and, for each unit of the cell, a drip and a test. -/
theorem spins_drip {m : Memory} (hm : m.head = cell + 1) :
    Spins (drip.takes eof) m (1 + 5 * m.value.toNat) (m.drained (cell + 1) (single cell 1)) := by
  -- on what is left in the cell: a drip takes one, and what the rest drains to is the same as before
  induction hv : m.value.toNat generalizing m with
  | zero =>
    have hz : m.value = 0 := UInt8.toNat_inj.mp hv
    have hsame : m.drained (cell + 1) (single cell 1) = m := by
      obtain ⟨cells, head, inputs, outputs⟩ := m
      obtain rfl : head = cell + 1 := hm
      have hcell : cells (cell + 1) = 0 := hz
      simp [Memory.drained_single, hcell]
    rw [hsame]
    exact .stop hz
  | succ n ih =>
    have hnz : m.value ≠ 0 := by
      intro hz
      rw [hz] at hv
      cases hv
    have hless : (dripped m cell).value.toNat = n := by
      have hone := toNat_sub_one hnz
      have hvalue : (dripped m cell).value = m.value - 1 := by
        simp [dripped, Memory.value, Memory.go, Memory.put, hm]
      rw [hvalue]
      omega
    have hsame : (dripped m cell).drained (cell + 1) (single cell 1) =
        m.drained (cell + 1) (single cell 1) := by
      simp only [Memory.drained_single, dripped, Memory.go, Memory.put, Memory.value, hm,
        Memory.mk.injEq, and_true]
      funext c
      simp only [Function.update_apply]
      grind
    have hrest := ih (m := dripped m cell) rfl hless
    rw [hsame] at hrest
    have hcost : 4 + (1 + 5 * n) + 1 = 1 + 5 * (n + 1) := by omega
    rw [← hcost]
    exact .again hnz (takes_drip hm) hrest

/-! ## The code -/

def approach : LoopTree := .times .right 5

def opening : LoopTree := approach ++ .basic .read (.basic .right .done)

/-- Adds `n` to the second register, drains it into the first and goes there. -/
def adding (n : Nat) : LoopTree := .times .increment n ++ .loop drip (.basic .left .done)

/-- The code of an adder that adds `n` to what it read last. -/
def code (n : Nat) : LoopTree := opening ++ .basic .read (adding n ++ .basic .write .done)

theorem code_eq_approach (n : Nat) : code n = approach ++
    .basic .read (.basic .right (.basic .read (adding n ++ .basic .write .done))) := by
  unfold code opening
  rw [append_assoc]
  rfl

theorem code_eq_write (n : Nat) :
    code n = (opening ++ .basic .read (adding n)) ++ .basic .write .done := by
  rw [append_assoc]
  rfl

def opened (inputs : List UInt8) : Memory :=
  { cells := Function.update (fun _ => 0) 5 (inputs.getD 0 0), head := 6, inputs := inputs.tail
    outputs := #[] }

theorem cells_opened (inputs : List UInt8) (c : Nat) :
    (opened inputs).cells c = if c = Layout.register 0 then inputs.getD 0 0 else 0 := by
  simp only [opened, Function.update_apply]
  rfl

theorem takes_approach (inputs : List UInt8) :
    approach.takes eof (Memory.start inputs) 5 ((Memory.start inputs).go 5) :=
  takes_times_right 5 (Memory.start inputs)

theorem takes_opening {inputs : List UInt8} (hone : eof = .halt → inputs ≠ []) :
    opening.takes eof (Memory.start inputs) 7 (opened inputs) := by
  have hread := runs_read_of_blank (m := (Memory.start inputs).go 5) rfl hone
  have hmove : (basic .right done).takes eof
      { ((Memory.start inputs).go 5).put (inputs.getD 0 0) with inputs := inputs.tail } 1
        (opened inputs) :=
    takes_basic rfl (takes_done _)
  exact takes_append (takes_approach inputs) (takes_basic hread hmove)

theorem takes_adding (n : Nat) {m : Memory} (hm : m.head = cell + 1) :
    (adding n).takes eof m (n + (1 + 5 * (m.value + UInt8.ofNat n).toNat + 1))
      (((m.put (m.value + UInt8.ofNat n)).drained (cell + 1) (single cell 1)).go cell) := by
  have hspins : Spins (drip.takes eof) (m.put (m.value + UInt8.ofNat n)) _ _ := spins_drip hm
  rw [Memory.value_put] at hspins
  refine takes_append (takes_times_increment n m) (takes_loop hspins ?_)
  exact takes_basic ⟨cell, rfl, rfl⟩ (takes_done _)

/-- The sum of the first two bytes and `n`, where a byte that is missing counts as zero. -/
def sum (inputs : List UInt8) (n : Nat) : UInt8 :=
  inputs.getD 0 0 + (inputs.getD 1 0 + UInt8.ofNat n)

/-- The cycles that it takes to read two bytes and write their sum and `n`. -/
def cost (inputs : List UInt8) (n : Nat) : Nat :=
  11 + n + 5 * (inputs.getD 1 0 + UInt8.ofNat n).toNat

def summed (inputs : List UInt8) (n : Nat) : Memory :=
  { cells := Function.update (fun _ => 0) 5 (sum inputs n), head := 5, inputs := inputs.tail.tail
    outputs := #[] }

theorem cells_summed (inputs : List UInt8) (n c : Nat) :
    (summed inputs n).cells c = if c = Layout.register 0 then sum inputs n else 0 := by
  simp only [summed, Function.update_apply]
  rfl

theorem takes_summed {inputs : List UInt8} (n : Nat) (htwo : eof = .halt → 2 ≤ inputs.length) :
    ∃ k, cost inputs n = k + 1 ∧
      (opening ++ .basic .read (adding n)).takes eof (Memory.start inputs) k (summed inputs n) := by
  have hsecond : inputs.tail.getD 0 0 = inputs.getD 1 0 := by
    rcases inputs with _ | ⟨a, _ | ⟨b, rest⟩⟩ <;> rfl
  have hone : eof = .halt → inputs ≠ [] := by
    rintro heof rfl
    exact absurd (htwo heof) (by decide)
  have hmore : eof = .halt → inputs.tail ≠ [] := by
    intro heof hnil
    have hlength := htwo heof
    have htail := congrArg List.length hnil
    rw [List.length_tail, List.length_nil] at htail
    omega
  have hread := runs_read_of_blank (m := opened inputs) rfl hmore
  rw [show (opened inputs).inputs = inputs.tail from rfl, hsecond] at hread
  generalize hm :
    { (opened inputs).put (inputs.getD 1 0) with inputs := inputs.tail.tail } = m at hread
  have hhead : m.head = 5 + 1 := by
    rw [← hm]
    rfl
  have hadding : (adding n).takes eof m _ _ := takes_adding n hhead
  have hvalue : m.value = inputs.getD 1 0 := by
    rw [← hm]
    simp [Memory.value, Memory.put]
  have hlast : ((m.put (m.value + UInt8.ofNat n)).drained (5 + 1) (single 5 1)).go 5 =
      summed inputs n := by
    rw [hvalue, ← hm]
    simp only [Memory.go, Memory.put, Memory.drained_single, opened, summed, sum,
      Memory.mk.injEq, and_true]
    funext c
    simp only [Function.update_apply]
    grind
  rw [hlast, hvalue] at hadding
  refine ⟨_, ?_, takes_append (takes_opening hone) (takes_basic hread hadding)⟩
  unfold cost
  omega

/-! ## Runs -/

section Runs
variable {text : String} {inputs : List UInt8} {config : Config}

/-- Where the input suffices, or need not, the sum is written in the last of the cycles. -/
theorem exists_result_sum (inputs : List UInt8) (config : Config)
    (htext : (Program.ofText text).symbols = (code n).symbols)
    (htwo : config.eof = .halt → 2 ≤ inputs.length) :
    ∃ r, (execute text inputs config).result = .ok r ∧
      (cost inputs n ≤ config.maxCycles → r.halt = .completed ∧ r.cycles = cost inputs n ∧
        r.outputs = #[sum inputs n] ∧
        ∀ c, r.cell c = if c = Layout.register 0 then sum inputs n else 0) ∧
      (config.maxCycles < cost inputs n → r.halt = .cycleLimit ∧ r.cycles = config.maxCycles ∧
        r.outputs = #[]) := by
  obtain ⟨k, hcost, htakes⟩ := takes_summed n htwo
  rw [code_eq_write] at htext
  rw [hcost]
  by_cases hle : k + 1 ≤ config.maxCycles
  · have hwrite : (basic .write done).takes config.eof (summed inputs n) 1 (summed inputs n).write :=
      takes_basic rfl (takes_done _)
    obtain ⟨r, hr, ⟨hhalt, houtputs, hcells⟩, hcycles⟩ :=
      exists_result_of_takes htext (takes_append htakes hwrite) hle
    refine ⟨r, hr, fun _ => ⟨hhalt, hcycles, ?_, fun c => ?_⟩, fun hlt => by omega⟩
    · rw [houtputs]
      simp [Memory.write, Memory.value, summed]
    · rw [hcells]
      exact cells_summed inputs n c
  · obtain ⟨r, hr, hhalt, houtputs, hcycles⟩ := exists_result_of_cut htext htakes (by omega)
    refine ⟨r, hr, fun hle' => absurd hle' hle, fun _ => ⟨hhalt, hcycles, ?_⟩⟩
    exact Array.toList_eq_nil_iff.mp (List.prefix_nil.mp houtputs)

/-- Where code comes to a read and the input is used up, a run stops that is not cut off before. -/
theorem exists_result_starved {front rest : LoopTree} {k : Nat} {m : Memory}
    (htext : (Program.ofText text).symbols = (front ++ .basic .read rest).symbols)
    (htakes : front.takes config.eof (Memory.start inputs) k m) (hm : m.inputs = [])
    (houtputs : m.outputs = #[]) (heof : config.eof = .halt) :
    ∃ r, (execute text inputs config).result = .ok r ∧ r.outputs = #[] ∧
      (k < config.maxCycles → r.halt = .inputExhausted front.length ∧ r.cycles = k ∧
        ∀ c, r.cell c = m.cells c) ∧
      (config.maxCycles ≤ k → r.halt = .cycleLimit ∧ r.cycles = config.maxCycles) := by
  by_cases hlt : k < config.maxCycles
  · obtain ⟨r, hr, hhalt, hout, hcells, hcycles⟩ :=
      exists_result_of_starved htext htakes hm heof hlt
    exact ⟨r, hr, hout.trans houtputs, fun _ => ⟨hhalt, hcycles, hcells⟩, fun hle => by omega⟩
  · obtain ⟨r, hr, hhalt, hout, hcycles⟩ := exists_result_of_cut htext htakes (by omega)
    rw [houtputs] at hout
    refine ⟨r, hr, ?_, fun hlt' => absurd hlt' hlt, fun _ => ⟨hhalt, hcycles⟩⟩
    exact Array.toList_eq_nil_iff.mp (List.prefix_nil.mp hout)

theorem exists_result_short (htext : (Program.ofText text).symbols = (code n).symbols)
    (heof : config.eof = .halt) (hshort : inputs.length < 2) :
    ∃ r, (execute text inputs config).result = .ok r ∧ r.outputs = #[] ∧
      (5 + 2 * inputs.length < config.maxCycles →
        r.halt = .inputExhausted (5 + 2 * inputs.length) ∧ r.cycles = 5 + 2 * inputs.length ∧
        ∀ c, r.cell c = if c = Layout.register 0 then inputs.getD 0 0 else 0) ∧
      (config.maxCycles ≤ 5 + 2 * inputs.length →
        r.halt = .cycleLimit ∧ r.cycles = config.maxCycles) := by
  rcases inputs with _ | ⟨a, _ | ⟨b, rest⟩⟩
  · rw [code_eq_approach] at htext
    obtain ⟨r, hr, houtputs, hstop, hcut⟩ :=
      exists_result_starved htext (takes_approach []) rfl rfl heof
    refine ⟨r, hr, houtputs, fun hlt => ?_, hcut⟩
    obtain ⟨hhalt, hcycles, hcells⟩ := hstop hlt
    refine ⟨hhalt, hcycles, fun c => ?_⟩
    rw [hcells]
    exact (ite_self 0).symm
  · obtain ⟨r, hr, houtputs, hstop, hcut⟩ :=
      exists_result_starved htext (takes_opening fun _ => List.cons_ne_nil a []) rfl rfl heof
    refine ⟨r, hr, houtputs, fun hlt => ?_, hcut⟩
    obtain ⟨hhalt, hcycles, hcells⟩ := hstop hlt
    refine ⟨hhalt, hcycles, fun c => ?_⟩
    rw [hcells]
    exact cells_opened [a] c
  · rw [List.length_cons, List.length_cons] at hshort
    omega

/-- Input behind the second byte is left alone. -/
theorem result_take_two (htext : (Program.ofText text).symbols = (code n).symbols)
    (inputs : List UInt8) (config : Config) :
    (execute text (inputs.take 2) config).result = (execute text inputs config).result := by
  rcases inputs with _ | ⟨a, _ | ⟨b, rest⟩⟩
  · rfl
  · rfl
  · have hdecode := decode_of_symbols text (code n) htext
    -- what does not stop for want of input stops nowhere else with more of it
    obtain ⟨r, hr, hdone, hcut⟩ :=
      exists_result_sum [a, b] { config with eof := .halt } htext fun _ => Nat.le_refl 2
    rw [result_execute [a, b] hdecode] at hr
    have hnot : ∀ r' pc, outcome ((code n).ops 0).toArray
        { config with eof := .halt } (start [a, b]) = .ok r' →
        r'.halt ≠ .inputExhausted pc := by
      intro r' pc hr' hhalt
      cases Except.ok.inj (hr.symm.trans hr')
      rcases Nat.lt_or_ge config.maxCycles (cost [a, b] n) with hlt | hge
      · cases hhalt.symm.trans (hcut hlt).1
      · cases hhalt.symm.trans (hdone hge).1
    have hsupplied := outcome_supplied (s := start [a, b]) rfl (Nat.zero_le _) hnot config.eof
    rw [result_execute _ hdecode, result_execute _ hdecode]
    exact (hsupplied []).trans (hsupplied rest).symm

end Runs

end Adder

/-! ## The script -/

theorem Script.symbols_adder :
    (Program.ofText CommandLine.adderGenerator.program.text).symbols = (Adder.code 0).symbols := by
  rw [Program.ofText_text]
  rfl

/-- The adder on every input, under every policy and at every limit: the cycles it takes, the sum it writes,
and where it stops for want of input. Bytes behind the second have no bearing. -/
theorem Script.adder_writes_sum (inputs : List UInt8) (config : Config) :
    let a := inputs.getD 0 0
    let b := inputs.getD 1 0
    let due := 11 + 5 * b.toNat
    let place := 5 + 2 * inputs.length
    ∃ p r, adder.generate = .ok p ∧ p = CommandLine.adderGenerator.program ∧
      (execute p.text inputs config).result = .ok r ∧
      ((config.eof = .halt → 2 ≤ inputs.length) →
        (r.halt = .completed ↔ due ≤ config.maxCycles) ∧
        (due ≤ config.maxCycles → r.cycles = due ∧ r.outputs = #[a + b] ∧
          r.cell (Layout.register 0) = a + b ∧ r.cell (Layout.register 1) = 0) ∧
        (config.maxCycles < due →
          r.halt = .cycleLimit ∧ r.cycles = config.maxCycles ∧ r.outputs = #[])) ∧
      (config.eof = .halt → inputs.length < 2 → r.outputs = #[] ∧
        (r.halt = .inputExhausted place ↔ place < config.maxCycles) ∧
        (place < config.maxCycles → r.cycles = place) ∧
        (config.maxCycles ≤ place → r.halt = .cycleLimit ∧ r.cycles = config.maxCycles)) ∧
      (execute p.text (inputs.take 2) config).result = .ok r := by
  intro a b due place
  have hcost : Adder.cost inputs 0 = due := by
    simp [Adder.cost, due, b]
  have hsum : Adder.sum inputs 0 = a + b := by
    simp [Adder.sum, a, b]
  have htake := Adder.result_take_two symbols_adder inputs config
  by_cases htwo : config.eof = .halt → 2 ≤ inputs.length
  · obtain ⟨r, hr, hdone, hcut⟩ := Adder.exists_result_sum inputs config symbols_adder htwo
    rw [hcost, hsum] at hdone
    rw [hcost] at hcut
    refine ⟨_, r, rfl, rfl, hr, fun _ => ⟨⟨fun hhalt => ?_, fun hle => (hdone hle).1⟩, ?_, hcut⟩, ?_,
      htake.trans hr⟩
    · by_contra hlt
      cases hhalt.symm.trans (hcut (by omega)).1
    · intro hle
      obtain ⟨-, hcycles, houtputs, hcells⟩ := hdone hle
      exact ⟨hcycles, houtputs, by rw [hcells, if_pos rfl], by rw [hcells, if_neg (by decide)]⟩
    · intro heof hshort
      have := htwo heof
      omega
  · obtain ⟨heof, hshort⟩ := Classical.not_imp.mp htwo
    obtain ⟨r, hr, houtputs, hstop, hcut⟩ :=
      Adder.exists_result_short symbols_adder heof (Nat.lt_of_not_le hshort)
    refine ⟨_, r, rfl, rfl, hr, fun htwo' => absurd htwo' htwo,
      fun _ _ => ⟨houtputs, ⟨?_, ?_⟩, ?_, hcut⟩, htake.trans hr⟩
    · intro hhalt
      by_contra hlt
      cases hhalt.symm.trans (hcut (by omega)).1
    · exact fun hlt => (hstop hlt).1
    · exact fun hlt => (hstop hlt).2.1

/-- A sum that is carried over, with just enough cycles and with one too few, and a run that stops at the
second read in the last of its cycles. -/
theorem Script.adder_writes_sum_carried :
    let run (inputs : List UInt8) (maxCycles : Nat) :=
      (execute CommandLine.adderGenerator.program.text inputs { maxCycles }).result
    (∃ r, run [200, 100, 7] 511 = .ok r ∧ r.halt = .completed ∧ r.outputs = #[44]) ∧
    (∃ r, run [200, 100, 7] 510 = .ok r ∧ r.halt = .cycleLimit ∧ r.outputs = #[]) ∧
    ∃ r, run [9] 8 = .ok r ∧ r.halt = .inputExhausted 7 ∧ r.cycles = 7 := by
  intro run
  obtain ⟨_, r, -, rfl, hr, htwo, -⟩ := adder_writes_sum [200, 100, 7] { maxCycles := 511 }
  obtain ⟨_, s, -, rfl, hs, htwo', -⟩ := adder_writes_sum [200, 100, 7] { maxCycles := 510 }
  obtain ⟨_, t, -, rfl, ht, -, hshort, -⟩ := adder_writes_sum [9] { maxCycles := 8 }
  obtain ⟨hhalt, hdone, -⟩ := htwo (by decide)
  obtain ⟨-, -, hcut⟩ := htwo' (by decide)
  obtain ⟨-, hstop, hcycles, -⟩ := hshort rfl (by decide)
  exact ⟨⟨r, hr, hhalt.mpr (by decide), (hdone (by decide)).2.1⟩,
    ⟨s, hs, (hcut (by decide)).1, (hcut (by decide)).2.2⟩,
    ⟨t, ht, hstop.mpr (by decide), hcycles (by decide)⟩⟩

/-! ## The listing of the script -/

namespace CommandLine

/-- What is printed for a reader has one symbol more than what is printed for the machine: the comment
before the sum has a plus sign. -/
theorem symbols_printed (file : Except ReadError ByteArray) (debug : Bool) :
    (Program.ofText ((Command.emit debug).report file).output).symbols =
      (Adder.code debug.toNat).symbols := by
  cases debug with
  | true =>
    show (Program.ofText adderGenerator.render).symbols = (Adder.code 1).symbols
    rfl
  | false =>
    show (Program.ofText (adderGenerator.program.text ++ "\n")).symbols = _
    rw [Program.ofText_append, Program.symbols_append, Script.symbols_adder]
    rfl

theorem cost_le (inputs : List UInt8) (debug : Bool) : Adder.cost inputs debug.toNat ≤ 1287 := by
  have hbyte := (inputs.getD 1 0 + UInt8.ofNat debug.toNat).toNat_lt
  have hmark := debug.toNat_le
  unfold Adder.cost
  omega

/-- The sum of the first two bytes, and one more where the listing is executed. -/
theorem exists_result_printed (file : Except ReadError ByteArray) (inputs : List UInt8)
    (config : Config) (htwo : config.eof = .halt → 2 ≤ inputs.length)
    (henough : 1287 ≤ config.maxCycles) (debug : Bool) :
    ∃ r, (execute ((Command.emit debug).report file).output inputs config).result = .ok r ∧
      r.outputs = #[Adder.sum inputs debug.toNat] ∧
      ∀ c, r.cell c = if c = Layout.register 0 then Adder.sum inputs debug.toNat else 0 := by
  obtain ⟨r, hr, hdone, -⟩ := Adder.exists_result_sum inputs config (symbols_printed file debug) htwo
  obtain ⟨-, -, houtputs, hcells⟩ := hdone (Nat.le_trans (cost_le inputs debug) henough)
  exact ⟨r, hr, houtputs, hcells⟩

/-- Wherever the adder comes to a sum, its listing comes to one more: the plus sign in its comments is
executed with the head at the second register. -/
theorem listing_adds_one (file : Except ReadError ByteArray) (inputs : List UInt8) (config : Config)
    (henough : 1287 ≤ config.maxCycles) :
    let printed (debug : Bool) := ((Command.emit debug).report file).output
    let sum := inputs.getD 0 0 + inputs.getD 1 0
    ∃ r r', (execute (printed false) inputs config).result = .ok r ∧
      (execute (printed true) inputs config).result = .ok r' ∧
      ((r'.outputs = r.outputs ∧
          ∀ key, r'.cell (Layout.register key) = r.cell (Layout.register key)) ↔
        config.eof = .halt ∧ inputs.length < 2) ∧
      ((config.eof = .halt → 2 ≤ inputs.length) →
        r.outputs = #[sum] ∧ r'.outputs = #[sum + 1] ∧
        ∀ c, r.cell c = (if c = Layout.register 0 then sum else 0) ∧
          r'.cell c = if c = Layout.register 0 then sum + 1 else 0) := by
  intro printed sum
  have hzero : Adder.sum inputs false.toNat = sum := by
    simp [Adder.sum, sum]
  have hone : Adder.sum inputs true.toNat = sum + 1 := by
    simp [Adder.sum, sum, UInt8.add_assoc]
  by_cases htwo : config.eof = .halt → 2 ≤ inputs.length
  · obtain ⟨r, hr, houtputs, hcells⟩ :=
      exists_result_printed file inputs config htwo henough false
    obtain ⟨r', hr', houtputs', hcells'⟩ :=
      exists_result_printed file inputs config htwo henough true
    rw [hzero] at houtputs hcells
    rw [hone] at houtputs' hcells'
    refine ⟨r, r', hr, hr', ⟨?_, ?_⟩,
      fun _ => ⟨houtputs, houtputs', fun c => ⟨hcells c, hcells' c⟩⟩⟩
    · rintro ⟨hsame, -⟩
      rw [houtputs, houtputs'] at hsame
      simp at hsame
    · rintro ⟨heof, hshort⟩
      have := htwo heof
      omega
  · obtain ⟨heof, hshort⟩ := Classical.not_imp.mp htwo
    have hless : inputs.length < 2 := Nat.lt_of_not_le hshort
    obtain ⟨r, hr, houtputs, hstop, -⟩ :=
      Adder.exists_result_short (symbols_printed file false) heof hless
    obtain ⟨r', hr', houtputs', hstop', -⟩ :=
      Adder.exists_result_short (symbols_printed file true) heof hless
    obtain ⟨-, -, hcells⟩ := hstop (by omega)
    obtain ⟨-, -, hcells'⟩ := hstop' (by omega)
    refine ⟨r, r', hr, hr', ⟨fun _ => ⟨heof, hless⟩, fun _ => ⟨?_, fun key => ?_⟩⟩,
      fun htwo' => absurd htwo' htwo⟩
    · rw [houtputs, houtputs']
    · rw [hcells, hcells']

/-- Five and seven are twelve for the program and thirteen for the listing. -/
theorem listing_adds_one_thirteen :
    let printed (debug : Bool) := ((Command.emit debug).report (.error .missing)).output
    1287 ≤ ({} : Config).maxCycles ∧
      ∃ r r', (execute (printed false) [5, 7] {}).result = .ok r ∧
        (execute (printed true) [5, 7] {}).result = .ok r' ∧ r.outputs = #[12] ∧ r'.outputs = #[13] := by
  intro printed
  have henough : 1287 ≤ ({} : Config).maxCycles := by decide
  obtain ⟨r, r', hr, hr', -, hsums⟩ := listing_adds_one (.error .missing) [5, 7] {} henough
  obtain ⟨houtputs, houtputs', -⟩ := hsums fun _ => Nat.le_refl 2
  exact ⟨henough, r, r', hr, hr', houtputs, houtputs'⟩

/-- The listing cannot stand in for the program. -/
theorem listing_differs : ¬ ∀ (inputs : List UInt8) (eof : EofPolicy), ∃ enough, ∀ config : Config,
    config.eof = eof → enough ≤ config.maxCycles →
      let run (debug : Bool) :=
        (execute ((Command.emit debug).report (.error .missing)).output inputs config).result
      ∃ r r', run false = .ok r ∧ run true = .ok r' ∧ r'.outputs = r.outputs ∧
        ∀ key, r'.cell (Layout.register key) = r.cell (Layout.register key) := by
  intro hclaim
  obtain ⟨enough, hruns⟩ := hclaim [5, 7] .halt
  have hmany : 1287 ≤ enough + 1287 := by omega
  obtain ⟨r, r', hr, hr', hsame, -⟩ := hruns { maxCycles := enough + 1287 } rfl (by simp)
  have hrun := exists_result_printed (.error .missing) [5, 7] { maxCycles := enough + 1287 }
    (fun _ => Nat.le_refl 2) hmany
  obtain ⟨s, hs, houtputs, -⟩ := hrun false
  obtain ⟨s', hs', houtputs', -⟩ := hrun true
  cases Except.ok.inj (hr.symm.trans hs)
  cases Except.ok.inj (hr'.symm.trans hs')
  rw [houtputs, houtputs'] at hsame
  exact absurd hsame (by decide)

end CommandLine

end TapeMachine
