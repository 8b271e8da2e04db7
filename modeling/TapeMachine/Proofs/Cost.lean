import TapeMachine.Proofs.Fragment

/-!
# What code costs

How a run ends at a given limit depends on how many cycles its code needs: one for each symbol, and for
a loop one for the test on entering it and one for the test after each round. Where this number is known,
so is the run at every limit.

* `LoopTree.takes eof m n l` : the code of a tree leads from the memory `m` to `l` in just `n` cycles;
* `ArrivesIn ops eof s n stop l` : steps lead there from `s`, in `n` cycles. So it is on the ops of a tree,
  wherever they are placed (`arrivesIn_of_takes`);
* `exists_result_of_takes` : a program that comes to its end within the limit;
  `exists_result_of_starved` : one that comes to a read without input;
  `exists_result_of_cut` : one of which a part needs all the cycles that are allowed.
-/

namespace TapeMachine

open Machine

/-- The rounds of a loop whose body leads from memory to memory in so many cycles. -/
inductive Spins (body : Memory → Nat → Memory → Prop) : Memory → Nat → Memory → Prop where
  | stop {m : Memory} (hz : m.value = 0) : Spins body m 1 m
  | again {m k l : Memory} {i n : Nat} (hnz : m.value ≠ 0) (hround : body m i k)
      (hrest : Spins body k n l) : Spins body m (i + n + 1) l

namespace LoopTree

/-- The code of a tree leads from `m` to `l` in just `n` cycles. -/
def takes (eof : EofPolicy) : LoopTree → Memory → Nat → Memory → Prop
  | done, m, n, l => n = 0 ∧ l = m
  | basic b rest, m, n, l => ∃ k j, n = j + 1 ∧ b.runs eof m (.completed k) ∧ rest.takes eof k j l
  | loop body rest, m, n, l =>
    ∃ k i j, n = i + j ∧ Spins (body.takes eof) m i k ∧ rest.takes eof k j l

variable {eof : EofPolicy} {t u : LoopTree} {b : Basic} {k l m : Memory} {i j n : Nat}

theorem takes_done (m : Memory) : done.takes eof m 0 m := ⟨rfl, rfl⟩

theorem takes_basic (hb : b.runs eof m (.completed k)) (ht : t.takes eof k n l) :
    (basic b t).takes eof m (n + 1) l :=
  ⟨k, n, rfl, hb, ht⟩

theorem takes_loop (hspins : Spins (t.takes eof) m i k) (hu : u.takes eof k j l) :
    (loop t u).takes eof m (i + j) l :=
  ⟨k, i, j, rfl, hspins, hu⟩

theorem takes_append (ht : t.takes eof m i k) (hu : u.takes eof k j l) :
    (t ++ u).takes eof m (i + j) l := by
  induction t generalizing m i with
  | done =>
    obtain ⟨rfl, rfl⟩ := ht
    rwa [Nat.zero_add]
  | basic b rest ih =>
    obtain ⟨m', i', rfl, hb, hrest⟩ := ht
    rw [Nat.add_right_comm]
    exact takes_basic hb (ih hrest)
  | loop body rest _ ih =>
    obtain ⟨m', i', j', rfl, hspins, hrest⟩ := ht
    rw [Nat.add_assoc]
    exact takes_loop hspins (ih hrest)

theorem takes_times_right (n : Nat) (m : Memory) :
    (times .right n).takes eof m n (m.go (m.head + n)) := by
  induction n generalizing m with
  | zero => exact takes_done m
  | succ n ih =>
    have hhead : m.head + (n + 1) = m.head + 1 + n := by omega
    rw [hhead]
    exact takes_basic rfl (ih (m.go (m.head + 1)))

theorem takes_times_increment (n : Nat) (m : Memory) :
    (times .increment n).takes eof m n (m.put (m.value + UInt8.ofNat n)) := by
  induction n generalizing m with
  | zero =>
    rw [show UInt8.ofNat 0 = 0 from rfl, UInt8.add_zero, Memory.put_value]
    exact takes_done m
  | succ n ih =>
    have hrest := ih (m.put (m.value + 1))
    rw [Memory.put_put, Memory.value_put, UInt8.add_assoc, UInt8.add_comm 1, ← UInt8.ofNat_one,
      ← UInt8.ofNat_add] at hrest
    exact takes_basic rfl hrest

end LoopTree

/-! ## Steps that are counted -/

/-- Steps from `s` lead to the op `stop` with the memory `l`, in `n` cycles. -/
def ArrivesIn (ops : Array Op) (eof : EofPolicy) (s : State) (n stop : Nat) (l : Memory) : Prop :=
  ∃ t : Store, t.memory = l ∧ t.cycles = s.cycles + n ∧ Reaches ops eof s (t.toState stop)

section ArrivesIn
variable {ops : Array Op} {eof : EofPolicy} {k l : Memory} {i j n pc stop : Nat}

theorem ArrivesIn.step {s s' : State} (hstep : next? ops eof s = some s')
    (h : ArrivesIn ops eof s' n stop l) : ArrivesIn ops eof s (n + 1) stop l := by
  obtain ⟨t, hmemory, hcycles, hreach⟩ := h
  have htick := cycles_of_next? hstep
  exact ⟨t, hmemory, by omega, (Reaches.step hstep).trans hreach⟩

theorem ArrivesIn.trans {s : State} {mid : Nat} (h : ArrivesIn ops eof s i mid k)
    (h' : ∀ t : Store, t.memory = k → ArrivesIn ops eof (t.toState mid) j stop l) :
    ArrivesIn ops eof s (i + j) stop l := by
  obtain ⟨t, hmemory, hcycles, hreach⟩ := h
  obtain ⟨u, hu, hmore, hrest⟩ := h' t hmemory
  have hmid : (t.toState mid).cycles = t.cycles := rfl
  exact ⟨u, hu, by omega, hreach.trans hrest⟩

theorem arrivesIn_basic {b : Basic} {s : Store} (hop : ops[pc]? = some b.op)
    (hb : b.runs eof s.memory (.completed k)) :
    ArrivesIn ops eof (s.toState pc) 1 (pc + 1) k := by
  rw [b.runs_memory_iff eof pc] at hb
  rcases b.perform_cases eof pc s with ⟨t, ht⟩ | ⟨-, -, -, ht⟩ | ⟨-, -, ht⟩
  · rw [ht] at hb
    cases hb
    exact ⟨t, rfl, cycles_of_next? (next?_basic hop ht), .step (next?_basic hop ht)⟩
  · rw [ht] at hb
    cases hb
  · rw [ht] at hb
    cases hb

theorem arrivesIn_loop {body : Memory → Nat → Memory → Prop} {len : Nat}
    (hopen : ops[pc]? = some (.jumpIfZero (pc + len + 1)))
    (hclose : ops[pc + len + 1]? = some (.jumpUnlessZero pc))
    (hbody : ∀ (s : Store) (i : Nat) (k : Memory), body s.memory i k →
      ArrivesIn ops eof (s.toState (pc + 1)) i (pc + len + 1) k)
    {s : Store} (h : Spins body s.memory n l) :
    ArrivesIn ops eof (s.toState pc) n (pc + len + 2) l := by
  -- the first test is the one at `pc`, every later one stands at the end of the body
  have tests : ∀ {m l : Memory} {n : Nat}, Spins body m n l → ∀ s : Store, s.memory = m →
      ∀ place : Nat, next? ops eof (s.toState place) =
          some (s.tick.toState (if s.cell = 0 then pc + len + 2 else pc + 1)) →
        ArrivesIn ops eof (s.toState place) n (pc + len + 2) l := by
    intro m l n h
    induction h with
    | @stop m hz =>
      rintro s rfl place hnext
      rw [if_pos (show s.cell = 0 from hz)] at hnext
      exact .step hnext ⟨s.tick, rfl, rfl, .refl _⟩
    | @again m k l i n hnz hround _ ih =>
      rintro s rfl place hnext
      rw [if_neg (show s.cell ≠ 0 from hnz)] at hnext
      refine .step hnext ((hbody s.tick i k hround).trans fun t ht => ?_)
      exact ih t ht _ (next?_jumpUnlessZero hclose)
  exact tests h s rfl pc (next?_jumpIfZero hopen)

/-- The machine needs as many cycles for the ops of a tree as the tree takes. -/
theorem arrivesIn_of_takes (tree : LoopTree) : ∀ (pc n : Nat) (s : Store) (l : Memory),
    Placed ops pc (tree.ops pc) → tree.takes eof s.memory n l →
      ArrivesIn ops eof (s.toState pc) n (pc + tree.length) l := by
  induction tree with
  | done =>
    rintro pc n s l - ⟨rfl, rfl⟩
    exact ⟨s, rfl, rfl, .refl _⟩
  | basic b rest ih =>
    rintro pc n s l hp ⟨k, j, rfl, hb, hrest⟩
    rw [Nat.add_comm j 1, LoopTree.length, Nat.add_comm rest.length 1, ← Nat.add_assoc]
    refine (arrivesIn_basic hp.head hb).trans ?_
    rintro t rfl
    exact ih (pc + 1) j t l hp.tail hrest
  | loop body rest ihb ihr =>
    rintro pc n s l hp ⟨k, i, j, rfl, hspins, hrest⟩
    obtain ⟨hinner, hclose, hbehind⟩ := hp.loop
    have hend : pc + (LoopTree.loop body rest).length = pc + body.length + 2 + rest.length := by
      simp only [LoopTree.length]
      omega
    rw [hend]
    refine (arrivesIn_loop hp.head hclose ?_ hspins).trans ?_
    · intro t i k ht
      have hround := ihb (pc + 1) i t k hinner ht
      rwa [Nat.add_right_comm] at hround
    · rintro t rfl
      exact ihr (pc + body.length + 2) j t l hbehind hrest

end ArrivesIn

/-! ## Runs at every limit -/

section Runs
variable {ops : Array Op} {config : Config} {s t : State}

/-- A run that is on its way to an op when the cycles are used up is cut off on this way. -/
theorem exists_cut (h : Reaches ops config.eof s t) {op : Op} (hop : ops[t.pc]? = some op)
    (hs : s.cycles ≤ config.maxCycles) (ht : config.maxCycles ≤ t.cycles) :
    ∃ u, Reaches ops config.eof u t ∧ u.cycles = config.maxCycles ∧
      outcome ops config s = .ok (conclude (u.stop .cycleLimit)) := by
  induction h using Relation.ReflTransGen.head_induction_on with
  | refl =>
    have heq : t.cycles = config.maxCycles := by omega
    exact ⟨t, .refl t, heq, outcome_of_limit hop (by omega)⟩
  | @head s v hstep hrest ih =>
    have htick := cycles_of_next? hstep
    by_cases hlt : s.cycles < config.maxCycles
    · obtain ⟨u, hu, hcycles, hout⟩ := ih (by omega)
      exact ⟨u, hu, hcycles, (outcome_of_next? hstep hlt).trans hout⟩
    · obtain ⟨op, -, hop, -⟩ := next?_eq_some_iff.mp hstep
      have hreach : Reaches ops config.eof s t := (Reaches.step hstep).trans hrest
      exact ⟨s, hreach, by omega, outcome_of_limit hop (by omega)⟩

end Runs

section Programs
variable {text : String} {front rest tree : LoopTree} {inputs : List UInt8} {config : Config}
  {n : Nat} {m : Memory}

/-- A program that comes to its end within the limit. -/
theorem exists_result_of_takes (htext : (Program.ofText text).symbols = tree.symbols)
    (h : tree.takes config.eof (Memory.start inputs) n m) (hn : n ≤ config.maxCycles) :
    ∃ r, (execute text inputs config).result = .ok r ∧ r.Shows (.completed m) ∧ r.cycles = n := by
  rw [← memory_start] at h
  obtain ⟨t, rfl, hcycles, hreach⟩ := arrivesIn_of_takes tree 0 n _ _ (.whole (tree.ops 0)) h
  have hzero : ((Store.start inputs).toState 0).cycles = 0 := rfl
  refine ⟨t.result .completed, ?_, ⟨rfl, rfl, fun c => rfl⟩, by show t.cycles = n; omega⟩
  rw [result_execute inputs (LoopTree.decode_of_symbols text tree htext),
    outcome_of_reaches hreach (by show t.cycles ≤ _; omega)]
  exact outcome_of_end (by simp [Store.toState])

theorem exists_reaches_of_takes (htext : (Program.ofText text).symbols = (front ++ rest).symbols)
    (h : front.takes config.eof (Memory.start inputs) n m) :
    ∃ (ops : Array Op) (t : Store), (execute text inputs config).result = outcome ops config (start inputs) ∧
      Placed ops front.length (rest.ops front.length) ∧ t.memory = m ∧ t.cycles = n ∧
        Reaches ops config.eof (start inputs) (t.toState front.length) := by
  rw [← memory_start] at h
  obtain ⟨hfront, hrest⟩ := Placed.append (Placed.whole ((front ++ rest).ops 0))
  obtain ⟨t, hmemory, hcycles, hreach⟩ := arrivesIn_of_takes front 0 n _ m hfront h
  have hzero : ((Store.start inputs).toState 0).cycles = 0 := rfl
  rw [Nat.zero_add] at hrest hreach
  exact ⟨_, t, result_execute inputs (LoopTree.decode_of_symbols text _ htext), hrest, hmemory,
    by omega, hreach⟩

/-- A program that comes to a read without input, where this is a reason to stop. -/
theorem exists_result_of_starved
    (htext : (Program.ofText text).symbols = (front ++ .basic .read rest).symbols)
    (h : front.takes config.eof (Memory.start inputs) n m) (hm : m.inputs = [])
    (heof : config.eof = .halt) (hn : n < config.maxCycles) :
    ∃ r, (execute text inputs config).result = .ok r ∧ r.halt = .inputExhausted front.length ∧
      r.outputs = m.outputs ∧ (∀ c, r.cell c = m.cells c) ∧ r.cycles = n := by
  obtain ⟨ops, t, hrun, hplaced, rfl, rfl, hreach⟩ := exists_reaches_of_takes htext h
  refine ⟨t.result (.inputExhausted front.length), ?_, rfl, rfl, fun c => rfl, rfl⟩
  rw [hrun, outcome_of_reaches hreach (Nat.le_of_lt hn)]
  exact outcome_of_stop hplaced.head hn (execute_read_of_pending hm heof) rfl

/-- A program of which a part needs all the cycles that are allowed, where this is not the whole of it. -/
theorem exists_result_of_cut {b : Basic}
    (htext : (Program.ofText text).symbols = (front ++ .basic b rest).symbols)
    (h : front.takes config.eof (Memory.start inputs) n m) (hn : config.maxCycles ≤ n) :
    ∃ r, (execute text inputs config).result = .ok r ∧ r.halt = .cycleLimit ∧
      r.outputs.toList <+: m.outputs.toList ∧ r.cycles = config.maxCycles := by
  obtain ⟨ops, t, hrun, hplaced, rfl, rfl, hreach⟩ := exists_reaches_of_takes htext h
  obtain ⟨u, hu, hcycles, hout⟩ := exists_cut hreach hplaced.head (Nat.zero_le _) hn
  exact ⟨_, hrun.trans hout, rfl, hu.grows.outputs, hcycles⟩

end Programs

end TapeMachine
