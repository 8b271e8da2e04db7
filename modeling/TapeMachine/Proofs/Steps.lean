import Mathlib.Logic.Relation
import TapeMachine.Machine

/-!
# Steps of a run

A run is a walk from state to state, each by the op at the program counter, until there is no op,
the cycles are used up, or the op stops the machine or fails.

* `next?` : the state after the op at the program counter;
* `Reaches ops eof s t` : steps lead from `s` to `t`;
* `outcome` : what a run from a state on leaves. It is the same from every state of a walk that the
  cycles allow (`outcome_of_reaches`), and there is one lemma for each of the four endings;
* `EndsAt ops config t x` : all ways in which a run can end in `t`. Every run ends in one of them
  (`exists_endsAt`).
-/

namespace TapeMachine.Machine

/-- The state after the op at the program counter; none where there is no op, where the op fails and
where it stops the machine. -/
def next? (ops : Array Op) (eof : EofPolicy) (s : State) : Option State :=
  match ops[s.pc]? with
  | none => none
  | some op =>
    match op.execute eof s with
    | .error _ => none
    | .ok t => if t.isHalted then none else some t.tick

def start (inputs : List UInt8) : State := { channel := { pending := inputs } }

/-- Steps lead from one state to another. -/
def Reaches (ops : Array Op) (eof : EofPolicy) : State → State → Prop :=
  Relation.ReflTransGen fun s t => next? ops eof s = some t

/-- What a run from `s` on leaves, or the fault in which it ends. -/
def outcome (ops : Array Op) (config : Config) (s : State) : Except Fault Result :=
  (advance ops config (config.maxCycles - s.cycles) s #[]).1.map conclude

section Next
variable {ops : Array Op} {eof : EofPolicy} {s t u : State}

theorem next?_eq_some_iff : next? ops eof s = some t ↔
    ∃ op u, ops[s.pc]? = some op ∧ op.execute eof s = .ok u ∧ u.isHalted = false ∧ t = u.tick := by
  unfold next?
  constructor
  · intro h
    split at h
    · cases h
    · rename_i op hop
      split at h
      · cases h
      · rename_i u hu
        split at h
        · cases h
        · rename_i hhalt
          exact ⟨op, u, hop, hu, by simpa using hhalt, (Option.some.inj h).symm⟩
  · rintro ⟨op, u, hop, hu, hhalt, rfl⟩
    simp [hop, hu, hhalt]

theorem execute_cycles {op : Op} (h : op.execute eof s = .ok t) : t.cycles = s.cycles := by
  cases op with
  | left =>
    simp only [Op.execute] at h
    split at h
    · cases h
    · cases h
      rfl
  | read =>
    simp only [Op.execute] at h
    split at h
    · cases h
      rfl
    · split at h <;> cases h <;> rfl
  | _ =>
    cases h
    rfl

theorem cycles_of_next? (h : next? ops eof s = some t) : t.cycles = s.cycles + 1 := by
  obtain ⟨op, u, _, hu, _, rfl⟩ := next?_eq_some_iff.mp h
  rw [State.tick, execute_cycles hu]

theorem Reaches.refl (s : State) : Reaches ops eof s s := Relation.ReflTransGen.refl

theorem Reaches.trans (h : Reaches ops eof s t) (h' : Reaches ops eof t u) : Reaches ops eof s u :=
  Relation.ReflTransGen.trans h h'

theorem Reaches.step (h : next? ops eof s = some t) : Reaches ops eof s t :=
  Relation.ReflTransGen.single h

theorem halt_of_next? (h : next? ops eof s = some t) : t.halt = none := by
  obtain ⟨op, u, -, -, hhalt, rfl⟩ := next?_eq_some_iff.mp h
  have hu : u.halt = none := by simpa [State.isHalted] using hhalt
  exact hu

theorem Reaches.halt (h : Reaches ops eof s t) (hs : s.halt = none) : t.halt = none := by
  induction h with
  | refl => exact hs
  | tail _ hlast _ => exact halt_of_next? hlast

end Next

section Outcome
variable {ops : Array Op} {config : Config} {s t : State} {op : Op}

theorem advance_fst (budget : Nat) : ∀ (s : State) (log log' : Array MachineEvent),
    (advance ops config budget s log).1 = (advance ops config budget s log').1 := by
  induction budget with
  | zero =>
    intro s log log'
    unfold advance
    cases ops[s.pc]? <;> rfl
  | succ budget ih =>
    intro s log log'
    unfold advance
    cases ops[s.pc]? with
    | none => rfl
    | some op =>
      simp only
      cases op.execute config.eof s with
      | error fault => rfl
      | ok t =>
        simp only
        split
        · rfl
        · exact ih t.tick _ _

/-- A run can be watched from its second state on. -/
theorem outcome_of_next? (h : next? ops config.eof s = some t) (hs : s.cycles < config.maxCycles) :
    outcome ops config s = outcome ops config t := by
  have hcycles := cycles_of_next? h
  obtain ⟨op, u, hop, hu, hhalt, rfl⟩ := next?_eq_some_iff.mp h
  obtain ⟨budget, hbudget⟩ := Nat.exists_eq_add_one.mpr (Nat.sub_pos_of_lt hs)
  have hrest : config.maxCycles - u.tick.cycles = budget := by omega
  unfold outcome
  rw [hbudget, hrest]
  congr 1
  rw [advance]
  simp only [hop, hu, hhalt]
  exact advance_fst budget u.tick _ _

theorem outcome_of_reaches (h : Reaches ops config.eof s t) (ht : t.cycles ≤ config.maxCycles) :
    outcome ops config s = outcome ops config t := by
  induction h with
  | refl => rfl
  | tail _ hlast ih =>
    have hcycles := cycles_of_next? hlast
    rw [ih (by omega), outcome_of_next? hlast (by omega)]

/-! ## The four endings -/

theorem outcome_of_end (h : ops[s.pc]? = none) :
    outcome ops config s = .ok (conclude (s.stop .completed)) := by
  unfold outcome advance
  rw [h]
  rfl

theorem outcome_of_limit (h : ops[s.pc]? = some op) (hs : config.maxCycles ≤ s.cycles) :
    outcome ops config s = .ok (conclude (s.stop .cycleLimit)) := by
  unfold outcome
  rw [Nat.sub_eq_zero_of_le hs, advance, h]
  rfl

theorem outcome_of_stop (h : ops[s.pc]? = some op) (hs : s.cycles < config.maxCycles)
    (ht : op.execute config.eof s = .ok t) (hhalt : t.isHalted = true) :
    outcome ops config s = .ok (conclude t) := by
  obtain ⟨budget, hbudget⟩ := Nat.exists_eq_add_one.mpr (Nat.sub_pos_of_lt hs)
  unfold outcome
  rw [hbudget, advance, h]
  simp only [ht, hhalt]
  rfl

theorem outcome_of_fault {fault : Fault} (h : ops[s.pc]? = some op)
    (hs : s.cycles < config.maxCycles) (hf : op.execute config.eof s = .error fault) :
    outcome ops config s = .error fault := by
  obtain ⟨budget, hbudget⟩ := Nat.exists_eq_add_one.mpr (Nat.sub_pos_of_lt hs)
  unfold outcome
  rw [hbudget, advance, h]
  simp only [hf]
  rfl

/-- All that an op can come to while the machine runs: only a read can stop it, and only a move to the
left can fail. -/
theorem execute_cases (op : Op) (eof : EofPolicy) (hs : s.halt = none) :
    (∃ t, op.execute eof s = .ok t ∧ t.isHalted = false) ∨
      (op = .read ∧ s.channel.pending = [] ∧ eof = .halt ∧
        op.execute eof s = .ok (s.stop (.inputExhausted s.pc))) ∨
          (op = .left ∧ s.head = 0 ∧ op.execute eof s = .error (.tapeUnderflow s.pc)) := by
  obtain ⟨pc, head, cycles, halt, tape, ⟨pending, written⟩⟩ := s
  obtain rfl : halt = none := hs
  cases op with
  | left =>
    cases head with
    | zero => exact .inr (.inr ⟨rfl, rfl, rfl⟩)
    | succ head => exact .inl ⟨_, rfl, rfl⟩
  | read =>
    cases pending with
    | nil =>
      cases eof with
      | halt => exact .inr (.inl ⟨rfl, rfl, rfl, rfl⟩)
      | zero => exact .inl ⟨_, rfl, rfl⟩
      | unchanged => exact .inl ⟨_, rfl, rfl⟩
    | cons byte pending => exact .inl ⟨_, rfl, rfl⟩
  | _ => exact .inl ⟨_, rfl, rfl⟩

/-- What a run comes to in the state `t`, if it ends there. -/
inductive EndsAt (ops : Array Op) (config : Config) (t : State) : Except Fault Result → Prop where
  | completed (hop : ops[t.pc]? = none) : EndsAt ops config t (.ok (conclude (t.stop .completed)))
  | cycleLimit {op : Op} (hop : ops[t.pc]? = some op) (hcycles : t.cycles = config.maxCycles) :
      EndsAt ops config t (.ok (conclude (t.stop .cycleLimit)))
  | inputExhausted (hop : ops[t.pc]? = some .read) (hcycles : t.cycles < config.maxCycles)
      (hpending : t.channel.pending = []) (heof : config.eof = .halt) :
      EndsAt ops config t (.ok (conclude (t.stop (.inputExhausted t.pc))))
  | tapeUnderflow (hop : ops[t.pc]? = some .left) (hcycles : t.cycles < config.maxCycles)
      (hhead : t.head = 0) : EndsAt ops config t (.error (.tapeUnderflow t.pc))

/-- The run from `s` on comes through `t`: steps lead there, and the cycles allow it. -/
def Passes (ops : Array Op) (config : Config) (s t : State) : Prop :=
  Reaches ops config.eof s t ∧ t.cycles ≤ config.maxCycles

theorem EndsAt.outcome_eq {x : Except Fault Result} (h : EndsAt ops config t x) :
    outcome ops config t = x := by
  cases h with
  | completed hop => exact outcome_of_end hop
  | cycleLimit hop hcycles => exact outcome_of_limit hop (Nat.le_of_eq hcycles.symm)
  | inputExhausted hop hcycles hpending heof =>
    refine outcome_of_stop hop hcycles ?_ rfl
    simp [Op.execute, Channel.read?, hpending, heof]
  | tapeUnderflow hop hcycles hhead =>
    refine outcome_of_fault hop hcycles ?_
    simp [Op.execute, hhead]

/-- The only fault is that of a move to the left from the first cell. -/
theorem EndsAt.of_error {fault : Fault} (h : EndsAt ops config t (.error fault)) :
    fault = .tapeUnderflow t.pc ∧ ops[t.pc]? = some .left ∧ t.head = 0 := by
  cases h with
  | tapeUnderflow hop _ hhead => exact ⟨rfl, hop, hhead⟩

/-- Every run ends, in one of the four ways, in a state that it comes through. -/
theorem exists_endsAt (ops : Array Op) (config : Config) (hs : s.halt = none)
    (hcycles : s.cycles ≤ config.maxCycles) :
    ∃ t, Passes ops config s t ∧ EndsAt ops config t (outcome ops config s) := by
  generalize hbudget : config.maxCycles - s.cycles = budget
  induction budget generalizing s with
  | zero =>
    refine ⟨s, ⟨.refl s, hcycles⟩, ?_⟩
    cases hop : ops[s.pc]? with
    | none => exact outcome_of_end hop ▸ .completed hop
    | some op =>
      have heq : s.cycles = config.maxCycles := by omega
      exact outcome_of_limit hop (Nat.le_of_eq heq.symm) ▸ .cycleLimit hop heq
  | succ budget ih =>
    have hlt : s.cycles < config.maxCycles := by omega
    cases hop : ops[s.pc]? with
    | none => exact ⟨s, ⟨.refl s, hcycles⟩, outcome_of_end hop ▸ .completed hop⟩
    | some op =>
      rcases execute_cases op config.eof hs with
        ⟨t, ht, hhalt⟩ | ⟨rfl, hpending, heof, ht⟩ | ⟨rfl, hhead, ht⟩
      · have hnext : next? ops config.eof s = some t.tick :=
          next?_eq_some_iff.mpr ⟨op, t, hop, ht, hhalt, rfl⟩
        have htick := cycles_of_next? hnext
        obtain ⟨u, ⟨hu, hle⟩, hend⟩ := ih (halt_of_next? hnext) (by omega) (by omega)
        rw [outcome_of_next? hnext hlt]
        exact ⟨u, ⟨(Reaches.step hnext).trans hu, hle⟩, hend⟩
      · exact ⟨s, ⟨.refl s, hcycles⟩, outcome_of_stop hop hlt ht rfl ▸
          .inputExhausted hop hlt hpending heof⟩
      · exact ⟨s, ⟨.refl s, hcycles⟩, outcome_of_fault hop hlt ht ▸ .tapeUnderflow hop hlt hhead⟩

theorem result_run (m : Machine) : m.run.result = outcome m.ops m.config m.state := by
  unfold run outcome
  split
  · rename_i s log h
    rw [h]
    rfl
  · rename_i fault log h
    rw [h]
    rfl

end Outcome

end TapeMachine.Machine
