import TapeMachine.Proofs.JumpTargets

/-!
# How runs end

Before each op the machine looks whether there is an op at all, then whether the cycles allow it, and
only then executes it; a read may stop the machine there, and a move to the left may fail. So where a
run ends tells why it ends, once it is known that no jump leads beyond the end of the program.

* `Turn ops config s t` : the machine goes on from `s` to `t`. It does so in one way at most;
* `Visits ops config s t` : turns lead from `s` to `t`. What is visited is within the program and within
  the allowed cycles (`Visits.pc_le`, `Visits.cycles_le`);
* `Result.Reports r ops config t` : the reason in a result is what the last state `t` says;
* `execute_comes_to_end` : every run comes to a last state, which its result reports.
-/

namespace TapeMachine

open Machine

/-! ## Turns -/

/-- The machine goes on from `s` to `t`: the cycles allow one more op, and the op at the program counter
neither fails nor stops the machine. -/
def Turn (ops : Array Op) (config : Config) (s t : State) : Prop :=
  s.cycles < config.maxCycles ∧ next? ops config.eof s = some t

/-- Turns lead from one state to another. -/
def Visits (ops : Array Op) (config : Config) : State → State → Prop :=
  Relation.ReflTransGen (Turn ops config)

section Turns
variable {text : String} {ops : Array Op} {config : Config} {s t u : State}
  {x : Except Fault Result}

theorem turn_rightUnique : Relator.RightUnique (Turn ops config) :=
  fun _ _ _ h h' => Option.some.inj (h.2.symm.trans h'.2)

/-- A jump leads behind an op of the program, and every other op to the next one. -/
theorem pc_le_of_next? (hdecode : Op.decode text = .ok ops) {eof : EofPolicy}
    (h : next? ops eof s = some t) : t.pc ≤ ops.size := by
  obtain ⟨tree, -, rfl⟩ := exists_tree_of_decode hdecode
  obtain ⟨op, u, hop, hu, -, rfl⟩ := next?_eq_some_iff.mp h
  have hpc : s.pc < (tree.ops 0).toArray.size := (Array.getElem?_eq_some_iff.mp hop).1
  have hsize : (tree.ops 0).toArray.size = 0 + tree.length := by simp
  rw [hsize] at hpc ⊢
  exact (leads_of_placed (Placed.whole _) ⟨Nat.zero_le _, hpc⟩ hop s u rfl hu).2

namespace Visits

theorem reaches (h : Visits ops config s t) : Reaches ops config.eof s t :=
  Relation.ReflTransGen.mono (fun _ _ hturn => hturn.2) _ _ h

theorem pc_le (hdecode : Op.decode text = .ok ops) (h : Visits ops config s t)
    (hs : s.pc ≤ ops.size) : t.pc ≤ ops.size := by
  induction h with
  | refl => exact hs
  | tail _ hlast _ => exact pc_le_of_next? hdecode hlast.2

theorem cycles_le (h : Visits ops config s t) (hs : s.cycles ≤ config.maxCycles) :
    t.cycles ≤ config.maxCycles := by
  induction h with
  | refl => exact hs
  | tail _ hlast _ =>
    rw [cycles_of_next? hlast.2]
    exact hlast.1

/-- What steps reach within the allowed cycles is visited, as no step takes a cycle back. -/
theorem of_passes (h : Passes ops config s t) : Visits ops config s t := by
  obtain ⟨hreach, ht⟩ := h
  induction hreach with
  | refl => exact .refl
  | tail _ hlast ih =>
    have hcycles := cycles_of_next? hlast
    exact (ih (by omega)).tail ⟨by omega, hlast⟩

/-- Turns are taken in one way, so all that is visited comes before a state without a turn. -/
theorem before_last (h : Visits ops config s t) (hu : Visits ops config s u)
    (hlast : ∀ v, ¬ Turn ops config t v) : Visits ops config u t := by
  rcases Relation.ReflTransGen.total_of_right_unique turn_rightUnique h hu with htu | hut
  · rcases Relation.ReflTransGen.cases_head htu with rfl | ⟨v, hv, -⟩
    · exact .refl
    · exact absurd hv (hlast v)
  · exact hut

/-- A run can be taken up in any state that it visits. -/
theorem result_run (h : Visits ops config s t) (hs : s.cycles ≤ config.maxCycles) :
    (run { ops, config, state := t }).result = (run { ops, config, state := s }).result := by
  rw [Machine.result_run, Machine.result_run]
  exact (outcome_of_reaches h.reaches (h.cycles_le hs)).symm

end Visits

theorem Machine.EndsAt.not_turn (h : EndsAt ops config t x) (v : State) : ¬ Turn ops config t v := by
  rintro ⟨hlt, hnext⟩
  obtain ⟨op, u, hop, hu, hhalt, -⟩ := next?_eq_some_iff.mp hnext
  cases h with
  | completed hnone => cases hop.symm.trans hnone
  | cycleLimit _ hcycles => omega
  | inputExhausted hread _ hpending heof =>
    cases hop.symm.trans hread
    simp only [Op.execute, Channel.read?, hpending, heof, Except.ok.injEq] at hu
    subst hu
    cases hhalt
  | tapeUnderflow hleft _ hhead =>
    cases hop.symm.trans hleft
    simp only [Op.execute, hhead] at hu
    cases hu

end Turns

/-! ## Reasons -/

/-- What a result says of the last state `t` of a run: it holds what was counted, written and stored
there, and its reason can be read off the place of `t` in the program. -/
structure Result.Reports (r : Result) (ops : Array Op) (config : Config) (t : State) : Prop where
  cycles : r.cycles = t.cycles
  outputs : r.outputs = t.channel.written
  tape : r.tape = t.tape
  completed : r.halt = .completed ↔ t.pc = ops.size
  cycleLimit : r.halt = .cycleLimit ↔ t.pc < ops.size ∧ t.cycles = config.maxCycles
  inputExhausted : ∀ pc, r.halt = .inputExhausted pc ↔ pc = t.pc ∧ ops[pc]? = some .read ∧
    t.channel.pending = [] ∧ config.eof = .halt ∧ t.cycles < config.maxCycles

theorem Machine.EndsAt.reports {ops : Array Op} {config : Config} {t : State} {r : Result}
    (h : EndsAt ops config t (.ok r)) (hpc : t.pc ≤ ops.size) : r.Reports ops config t := by
  cases h with
  | completed hop =>
    have hsize : ops.size ≤ t.pc := Array.getElem?_eq_none_iff.mp hop
    refine ⟨rfl, rfl, rfl, iff_of_true rfl (by omega), iff_of_false nofun (by omega), fun pc => ?_⟩
    refine iff_of_false nofun ?_
    rintro ⟨rfl, hread, -⟩
    cases hop.symm.trans hread
  | cycleLimit hop hcycles =>
    have hlt : t.pc < ops.size := (Array.getElem?_eq_some_iff.mp hop).1
    refine ⟨rfl, rfl, rfl, iff_of_false nofun (by omega), iff_of_true rfl ⟨hlt, hcycles⟩, fun pc => ?_⟩
    refine iff_of_false nofun ?_
    rintro ⟨-, -, -, -, hless⟩
    omega
  | inputExhausted hop hcycles hpending heof =>
    have hlt : t.pc < ops.size := (Array.getElem?_eq_some_iff.mp hop).1
    refine ⟨rfl, rfl, rfl, iff_of_false nofun (by omega), iff_of_false nofun (by omega),
      fun pc => ⟨fun hpc => ?_, ?_⟩⟩
    · cases hpc
      exact ⟨rfl, hop, hpending, heof, hcycles⟩
    · rintro ⟨rfl, -⟩
      rfl

/-- Every run comes to an end, in a last state that it visits. A result says why it ended there, and a
fault is a move to the left from the first cell. -/
theorem execute_comes_to_end {text : String} {ops : Array Op} (hdecode : Op.decode text = .ok ops)
    (inputs : List UInt8) (config : Config) :
    let result := (execute text inputs config).result
    (∀ s, Visits ops config (start inputs) s → s.pc ≤ ops.size ∧ s.cycles ≤ config.maxCycles ∧
      (run { ops, config, state := s }).result = result) ∧
    ∃ t, Visits ops config (start inputs) t ∧ (∀ s, ¬ Turn ops config t s) ∧
      (∀ s, Visits ops config (start inputs) s → Visits ops config s t) ∧
      (∀ r, result = .ok r → r.Reports ops config t) ∧
      ∀ fault, result = .error fault →
        fault = .tapeUnderflow t.pc ∧ ops[t.pc]? = some .left ∧ t.head = 0 := by
  intro result
  have hrun : result = (run { ops, config, state := start inputs }).result := by
    show (execute text inputs config).result = _
    rw [execute, load, hdecode]
    rfl
  have hpc : ∀ {s}, Visits ops config (start inputs) s → s.pc ≤ ops.size :=
    fun hs => hs.pc_le hdecode (Nat.zero_le _)
  refine ⟨fun s hs => ⟨hpc hs, hs.cycles_le (Nat.zero_le _), ?_⟩, ?_⟩
  · rw [hrun]
    exact hs.result_run (Nat.zero_le _)
  · obtain ⟨t, hpasses, hend⟩ := exists_endsAt (s := start inputs) ops config rfl (Nat.zero_le _)
    have hvisits := Visits.of_passes hpasses
    rw [← result_run { ops, config, state := start inputs }, ← hrun] at hend
    refine ⟨t, hvisits, hend.not_turn, fun s hs => hvisits.before_last hs hend.not_turn, ?_, ?_⟩
    · intro r hr
      rw [hr] at hend
      exact hend.reports (hpc hvisits)
    · intro fault hfault
      rw [hfault] at hend
      exact hend.of_error

/-- A loop that reads until it has read zero, and a move to the left behind it: with input that lacks the
zero the last state is before the read, and with the zero it is before the move, at the first cell. -/
theorem execute_comes_to_end_reading :
    ∃ ops, Op.decode "+[,]<" = .ok ops ∧
      (∃ t, Visits ops {} (start [1]) t ∧ ops[2]? = some .read ∧ t.pc = 2 ∧ t.cycles = 4 ∧
        t.channel.pending = []) ∧
      ∃ t, Visits ops {} (start [0]) t ∧ ops[4]? = some .left ∧ t.pc = 4 ∧ t.head = 0 := by
  have hdecode : Op.decode "+[,]<" =
    .ok #[.increment, .jumpIfZero 3, .read, .jumpUnlessZero 1, .left] := rfl
  have hlack : (execute "+[,]<" [1] {}).result =
    .ok { cycles := 4, outputs := #[], halt := .inputExhausted 2, tape := ⟨#[1]⟩ } := rfl
  have hfault : (execute "+[,]<" [0] {}).result = .error (.tapeUnderflow 4) := rfl
  obtain ⟨-, t, ht, -, -, hreports, -⟩ := execute_comes_to_end hdecode [1] {}
  obtain ⟨-, u, hu, -, -, -, hfails⟩ := execute_comes_to_end hdecode [0] {}
  have hreport := hreports _ hlack
  obtain ⟨hpc, hread, hpending, -⟩ := (hreport.inputExhausted 2).mp rfl
  obtain ⟨heq, -, hhead⟩ := hfails _ hfault
  exact ⟨_, hdecode, ⟨t, ht, hread, hpc.symm, hreport.cycles.symm, hpending⟩,
    u, hu, rfl, (Fault.tapeUnderflow.inj heq).symm, hhead⟩

end TapeMachine
