import Mathlib.Logic.Function.Basic
import TapeMachine.Proofs.Structured

/-!
# What code does to the cells

Where cycles and places in the program do not count, code is a relation between a memory, which is a
map from all cells to bytes with a head and a channel, and the ways in which it can end.

* `Memory`, `Final` : memories, and the two endings of code that ends;
* `Behaviour` : the relation, put together by `andThen` and `loop`. Code that goes on for ever is
  related to no ending;
* `LoopTree.runs` : the behaviour of a tree, with no cycles and no places in it;
* `arrives_of_runs` : where the tree ends, the machine comes to the end of its ops;
* `runs_of_exec` : where the machine comes to an end, the tree ends.
-/

namespace TapeMachine

open Machine

/-- The cells of the tape, the cell under the head, the bytes yet to be read and the bytes written. -/
structure Memory where
  cells : Nat → UInt8
  head : Nat
  inputs : List UInt8
  outputs : Array UInt8

inductive Final where
  /-- It was run to its end. -/
  | completed (m : Memory)
  /-- It stopped at a read, as there was no input. -/
  | exhausted (m : Memory)

namespace Memory

def start (inputs : List UInt8) : Memory := { cells := fun _ => 0, head := 0, inputs, outputs := #[] }

def value (m : Memory) : UInt8 := m.cells m.head

def go (m : Memory) (cell : Nat) : Memory := { m with head := cell }

def put (m : Memory) (value : UInt8) : Memory :=
  { m with cells := Function.update m.cells m.head value }

/-- Takes one from a cell, wherever the head is. -/
def take (m : Memory) (cell : Nat) : Memory :=
  { m with cells := Function.update m.cells cell (m.cells cell - 1) }

def write (m : Memory) : Memory := { m with outputs := m.outputs.push m.value }

def read (eof : EofPolicy) (m : Memory) : Final :=
  match m.inputs with
  | byte :: inputs => .completed { m.put byte with inputs }
  | [] =>
    match eof with
    | .halt => .exhausted m
    | .zero => .completed (m.put 0)
    | .unchanged => .completed m

end Memory

/-- What code does: the endings that it can come to from a memory. -/
abbrev Behaviour := Memory → Final → Prop

namespace Behaviour

def ofFinal (f : Memory → Final) : Behaviour := fun m e => e = f m

def update (f : Memory → Memory) : Behaviour := ofFinal fun m => .completed (f m)

def skip : Behaviour := update id

/-- One after the other, unless the first has stopped at a read. -/
def andThen (R S : Behaviour) : Behaviour := fun m e =>
  (∃ n, R m (.completed n) ∧ S n e) ∨ ∃ n, R m (.exhausted n) ∧ e = .exhausted n

/-- Again and again while the test holds. -/
inductive loop (test : Memory → Prop) (R : Behaviour) : Behaviour where
  | stop {m : Memory} (h : ¬ test m) : loop test R m (.completed m)
  | again {m n : Memory} {e : Final} (h : test m) (hbody : R m (.completed n))
      (hrest : loop test R n e) : loop test R m e
  | starve {m n : Memory} (h : test m) (hbody : R m (.exhausted n)) :
      loop test R m (.exhausted n)

end Behaviour

/-- The behaviour of a symbol that is no bracket. No ending is reached from the left end of the tape
by a move to the left. -/
def Basic.runs (eof : EofPolicy) : Basic → Behaviour
  | right => .update fun m => m.go (m.head + 1)
  | left => fun m e => ∃ head, m.head = head + 1 ∧ e = .completed (m.go head)
  | increment => .update fun m => m.put (m.value + 1)
  | decrement => .update fun m => m.put (m.value - 1)
  | write => .update Memory.write
  | read => .ofFinal (Memory.read eof)

def LoopTree.runs (eof : EofPolicy) : LoopTree → Behaviour
  | done => .skip
  | basic b rest => (b.runs eof).andThen (rest.runs eof)
  | loop body rest => (Behaviour.loop (fun m => m.value ≠ 0) (body.runs eof)).andThen (rest.runs eof)

/-! ## Laws -/

namespace Behaviour

variable {R S T : Behaviour} {m n : Memory} {e : Final}

theorem andThen_completed (hR : R m (.completed n)) (hS : S n e) : R.andThen S m e :=
  Or.inl ⟨n, hR, hS⟩

theorem andThen_exhausted (hR : R m (.exhausted n)) : R.andThen S m (.exhausted n) :=
  Or.inr ⟨n, hR, rfl⟩

theorem andThen_completed_iff :
    R.andThen S m (.completed n) ↔ ∃ k, R m (.completed k) ∧ S k (.completed n) := by
  constructor
  · rintro (⟨k, hR, hS⟩ | ⟨k, -, h⟩)
    · exact ⟨k, hR, hS⟩
    · cases h
  · rintro ⟨k, hR, hS⟩
    exact andThen_completed hR hS

theorem andThen_assoc (R S T : Behaviour) :
    (R.andThen S).andThen T = R.andThen (S.andThen T) := by
  funext m e
  apply propext
  constructor
  · rintro (⟨n, ⟨k, hR, hS⟩ | ⟨k, _, h⟩, hT⟩ | ⟨n, ⟨k, hR, hS⟩ | ⟨k, hR, h⟩, rfl⟩)
    · exact andThen_completed hR (andThen_completed hS hT)
    · cases h
    · exact andThen_completed hR (andThen_exhausted hS)
    · cases h
      exact andThen_exhausted hR
  · rintro (⟨n, hR, ⟨k, hS, hT⟩ | ⟨k, hS, rfl⟩⟩ | ⟨n, hR, rfl⟩)
    · exact andThen_completed (andThen_completed hR hS) hT
    · exact andThen_exhausted (andThen_completed hR hS)
    · exact andThen_exhausted (andThen_exhausted hR)

theorem update_andThen (f : Memory → Memory) (R : Behaviour) (m : Memory) (e : Final) :
    (update f).andThen R m e ↔ R (f m) e := by
  constructor
  · rintro (⟨n, h, hR⟩ | ⟨n, h, -⟩)
    · cases h
      exact hR
    · cases h
  · intro h
    exact andThen_completed rfl h

theorem skip_andThen (R : Behaviour) : skip.andThen R = R := by
  funext m e
  exact propext (update_andThen id R m e)

theorem andThen_skip (R : Behaviour) : R.andThen skip = R := by
  funext m e
  apply propext
  constructor
  · rintro (⟨n, hR, h⟩ | ⟨n, hR, rfl⟩)
    · cases h
      exact hR
    · exact hR
  · intro h
    cases e with
    | completed n => exact andThen_completed h rfl
    | exhausted n => exact andThen_exhausted h

theorem loop_of_invariant {test test' : Memory → Prop} (inv : Memory → Prop)
    (htest : ∀ m, inv m → (test m ↔ test' m))
    (hbody : ∀ m e, inv m → R m e → S m e)
    (hinv : ∀ m n, inv m → R m (.completed n) → inv n)
    (h : loop test R m e) (hm : inv m) : loop test' S m e := by
  induction h with
  | stop ht => exact .stop fun ht' => ht ((htest _ hm).mpr ht')
  | again ht hround _ ih =>
    exact .again ((htest _ hm).mp ht) (hbody _ _ hm hround) (ih (hinv _ _ hm hround))
  | starve ht hround => exact .starve ((htest _ hm).mp ht) (hbody _ _ hm hround)

end Behaviour

theorem LoopTree.runs_append (eof : EofPolicy) (t u : LoopTree) :
    (t ++ u).runs eof = (t.runs eof).andThen (u.runs eof) := by
  induction t with
  | done => exact (Behaviour.skip_andThen _).symm
  | basic b rest ih => rw [basic_append, runs, ih, runs, Behaviour.andThen_assoc]
  | loop body rest _ ih => rw [loop_append, runs, ih, runs, Behaviour.andThen_assoc]

/-! ## Stores as memories -/

namespace Store

def memory (s : Store) : Memory :=
  { cells := s.tape.get, head := s.head, inputs := s.channel.pending, outputs := s.channel.written }

theorem value_memory (s : Store) : s.memory.value = s.cell := rfl

/-- A write to the tape is a write to the map of its cells. -/
theorem get_set_eq_update (t : Tape) (c : Nat) (v : UInt8) :
    (t.set c v).get = Function.update t.get c v := by
  funext d
  rw [Tape.get_set, Function.update_apply]

end Store

/-- The ending of an execution, where it was neither cut off nor left the tape. -/
def Ending.final? : Ending → Option Final
  | through s => some (.completed s.memory)
  | starved _ s => some (.exhausted s.memory)
  | _ => none

theorem Ending.final?_andThen {e : Ending} {f : Store → Ending} {x : Final}
    (h : (e.andThen f).final? = some x) :
    (∃ s, e = .through s ∧ (f s).final? = some x) ∨ ∃ pc s, e = .starved pc s ∧
      x = .exhausted s.memory := by
  cases e with
  | through s => exact Or.inl ⟨s, rfl, h⟩
  | starved pc s => exact Or.inr ⟨pc, s, rfl, (Option.some.inj h).symm⟩
  | cut s => cases h
  | fell pc => cases h

theorem Behaviour.ofFinal_iff {f : Memory → Final} {m : Memory} {e : Final} {final : Option Final}
    (h : final = some (f m)) : ofFinal f m e ↔ final = some e := by
  rw [h]
  exact ⟨fun he => congrArg some he.symm, fun he => (Option.some.inj he).symm⟩

/-- A symbol does to a store what it does to the memory of the store. -/
theorem Basic.runs_memory_iff (b : Basic) (eof : EofPolicy) (pc : Nat) (s : Store) (e : Final) :
    b.runs eof s.memory e ↔ (b.perform eof pc s).final? = some e := by
  obtain ⟨head, cycles, tape, ⟨pending, written⟩⟩ := s
  have hput : ∀ v : UInt8, (tape.set head v).get = Function.update tape.get head v :=
    Store.get_set_eq_update tape head
  cases b with
  | right => exact Behaviour.ofFinal_iff rfl
  | left =>
    cases head with
    | zero =>
      constructor
      · rintro ⟨_, h, _⟩
        cases h
      · intro h
        cases h
    | succ head =>
      constructor
      · rintro ⟨_, h, rfl⟩
        cases h
        rfl
      · intro h
        exact ⟨head, rfl, (Option.some.inj h).symm⟩
  | increment =>
    apply Behaviour.ofFinal_iff
    simp only [Basic.perform, Ending.final?, Store.memory, hput]
    rfl
  | decrement =>
    apply Behaviour.ofFinal_iff
    simp only [Basic.perform, Ending.final?, Store.memory, hput]
    rfl
  | write => exact Behaviour.ofFinal_iff rfl
  | read =>
    apply Behaviour.ofFinal_iff
    cases pending with
    | nil =>
      cases eof with
      | halt => rfl
      | zero =>
        simp only [Basic.perform, Ending.final?, Store.memory, hput]
        rfl
      | unchanged => rfl
    | cons byte pending =>
      simp only [Basic.perform, Ending.final?, Store.memory, hput]
      rfl

/-! ## From the cells to the machine -/

/-- Steps from `s` lead to an ending: to the op `stop` with the memory that was completed, or to a
read that finds no input and stops the machine. -/
def Arrives (ops : Array Op) (eof : EofPolicy) (s : State) (stop : Nat) : Final → Prop
  | .completed m => ∃ t : Store, t.memory = m ∧ Reaches ops eof s (t.toState stop)
  | .exhausted m => ∃ (t : Store) (pc : Nat), t.memory = m ∧ Reaches ops eof s (t.toState pc) ∧
      ops[pc]? = some .read ∧ t.channel.pending = [] ∧ eof = .halt

section Arrives
variable {ops : Array Op} {eof : EofPolicy} {stop : Nat}

theorem Arrives.of_reaches {s t : State} {e : Final} (h : Reaches ops eof s t)
    (he : Arrives ops eof t stop e) : Arrives ops eof s stop e := by
  cases e with
  | completed m =>
    obtain ⟨u, hu, hreach⟩ := he
    exact ⟨u, hu, h.trans hreach⟩
  | exhausted m =>
    obtain ⟨u, pc, hu, hreach, hop⟩ := he
    exact ⟨u, pc, hu, h.trans hreach, hop⟩

theorem arrives_basic {b : Basic} {pc : Nat} {s : Store} {e : Final} (h : ops[pc]? = some b.op)
    (he : b.runs eof s.memory e) : Arrives ops eof (s.toState pc) (pc + 1) e := by
  rw [b.runs_memory_iff eof pc] at he
  rcases b.perform_cases eof pc s with ⟨t, ht⟩ | ⟨rfl, hpending, heof, ht⟩ | ⟨rfl, -, ht⟩
  · rw [ht] at he
    cases he
    exact ⟨t, rfl, .step (next?_basic h ht)⟩
  · rw [ht] at he
    cases he
    exact ⟨s, pc, rfl, .refl _, h, hpending, heof⟩
  · rw [ht] at he
    cases he

theorem Arrives.andThen {R S : Behaviour} {s : Store} {pc : Nat} {e : Final} (mid : Nat)
    (h : R.andThen S s.memory e)
    (hR : ∀ e, R s.memory e → Arrives ops eof (s.toState pc) mid e)
    (hS : ∀ t : Store, S t.memory e → Arrives ops eof (t.toState mid) stop e) :
    Arrives ops eof (s.toState pc) stop e := by
  rcases h with ⟨m, hr, hs⟩ | ⟨m, hr, rfl⟩
  · obtain ⟨t, rfl, hreach⟩ := hR _ hr
    exact .of_reaches hreach (hS t hs)
  · exact hR _ hr

theorem arrives_loop {R : Behaviour} {pc len : Nat}
    (hopen : ops[pc]? = some (.jumpIfZero (pc + len + 1)))
    (hclose : ops[pc + len + 1]? = some (.jumpUnlessZero pc))
    (hR : ∀ (s : Store) (e : Final), R s.memory e →
      Arrives ops eof (s.toState (pc + 1)) (pc + len + 1) e)
    {s : Store} {e : Final} (h : Behaviour.loop (fun m => m.value ≠ 0) R s.memory e) :
    Arrives ops eof (s.toState pc) (pc + len + 2) e := by
  -- the first round is entered at `pc`, every later one from the end of the round before it
  have rounds : ∀ {m : Memory} {e : Final}, Behaviour.loop (fun m => m.value ≠ 0) R m e →
      ∀ s : Store, s.memory = m →
        Arrives ops eof (s.tick.toState (if s.cell = 0 then pc + len + 2 else pc + 1))
          (pc + len + 2) e := by
    intro m e h
    induction h with
    | @stop m hz =>
      rintro s rfl
      rw [Store.value_memory, not_not] at hz
      rw [if_pos hz]
      exact ⟨s.tick, rfl, .refl _⟩
    | @again m n e hnz hbody hrest ih =>
      rintro s rfl
      rw [if_neg (show s.cell ≠ 0 from hnz)]
      obtain ⟨t, rfl, hreach⟩ := hR s.tick _ hbody
      exact (ih t rfl).of_reaches (hreach.trans (.step (next?_jumpUnlessZero hclose)))
    | @starve m n hnz hbody =>
      rintro s rfl
      rw [if_neg (show s.cell ≠ 0 from hnz)]
      exact hR s.tick _ hbody
  exact (rounds h s rfl).of_reaches (.step (next?_jumpIfZero hopen))

/-- Where a tree comes to an ending, the machine does so on the ops of the tree. -/
theorem arrives_of_runs (tree : LoopTree) : ∀ (pc : Nat) (s : Store) (e : Final),
    Placed ops pc (tree.ops pc) → tree.runs eof s.memory e →
      Arrives ops eof (s.toState pc) (pc + tree.length) e := by
  induction tree with
  | done =>
    rintro pc s e - rfl
    exact ⟨s, rfl, .refl _⟩
  | basic b rest ih =>
    intro pc s e hp h
    refine Arrives.andThen (pc + 1) h (fun e he => arrives_basic hp.head he) ?_
    intro t ht
    have hrec := ih (pc + 1) t e hp.tail ht
    rwa [Nat.add_assoc, Nat.add_comm 1] at hrec
  | loop body rest ihb ihr =>
    intro pc s e hp h
    obtain ⟨hinner, hclose, hrest⟩ := hp.loop
    refine Arrives.andThen (pc + body.length + 2) h (fun e he => ?_) (fun t ht => ?_)
    · refine arrives_loop hp.head hclose (fun s e hs => ?_) he
      have hrec := ihb (pc + 1) s e hinner hs
      rwa [Nat.add_right_comm] at hrec
    · have hrec := ihr (pc + body.length + 2) t e hrest ht
      have hend : pc + (LoopTree.loop body rest).length = pc + body.length + 2 + rest.length := by
        simp only [LoopTree.length]
        omega
      rwa [hend]

end Arrives

/-! ## From the machine to the cells -/

section Exec
variable {limit : Nat} {eof : EofPolicy}

theorem loop_of_rounds {R : Behaviour} {body : Store → Ending}
    (hbody : ∀ (s : Store) (e : Final), (body s).final? = some e → R s.memory e) (n : Nat) :
    ∀ (s : Store) (e : Final), s.cell ≠ 0 → (LoopTree.rounds limit body n s).final? = some e →
      Behaviour.loop (fun m => m.value ≠ 0) R s.memory e := by
  induction n with
  | zero =>
    intro s e _ h
    cases h
  | succ n ih =>
    intro s e hnz h
    rw [LoopTree.rounds] at h
    rcases Ending.final?_andThen h with ⟨t, ht, h⟩ | ⟨pc, t, ht, rfl⟩
    · have hround : R s.memory (.completed t.memory) := hbody s _ (by rw [ht]; rfl)
      split at h
      · split at h
        · rename_i hz
          cases h
          exact .again hnz hround (.stop (not_not.mpr hz))
        · rename_i hz
          exact .again hnz hround (ih t.tick e hz h)
      · cases h
    · exact .starve hnz (hbody s _ (by rw [ht]; rfl))

/-- Where the execution of a tree is not cut off and does not leave the tape, its ending is one that
the tree comes to. -/
theorem runs_of_exec (tree : LoopTree) : ∀ (pc : Nat) (s : Store) (e : Final),
    (tree.exec limit eof pc s).final? = some e → tree.runs eof s.memory e := by
  induction tree with
  | done =>
    intro pc s e h
    cases h
    rfl
  | basic b rest ih =>
    intro pc s e h
    rw [LoopTree.exec] at h
    split at h
    · rcases Ending.final?_andThen h with ⟨t, ht, h⟩ | ⟨q, t, ht, rfl⟩
      · exact Or.inl ⟨t.memory, (b.runs_memory_iff eof pc s _).mpr (by rw [ht]; rfl), ih _ t e h⟩
      · exact Or.inr ⟨t.memory, (b.runs_memory_iff eof pc s _).mpr (by rw [ht]; rfl), rfl⟩
    · cases h
  | loop body rest ihb ihr =>
    intro pc s e h
    rw [LoopTree.exec] at h
    split at h
    · have hloop : ∀ x : Final, (if s.cell = 0 then Ending.through s.tick
          else LoopTree.rounds limit (body.exec limit eof (pc + 1)) limit s.tick).final? = some x →
            Behaviour.loop (fun m => m.value ≠ 0) (body.runs eof) s.memory x := by
        intro x hx
        split at hx
        · rename_i hz
          cases hx
          exact .stop (not_not.mpr hz)
        · rename_i hz
          exact loop_of_rounds (ihb (pc + 1)) limit s.tick x hz hx
      rcases Ending.final?_andThen h with ⟨t, ht, h⟩ | ⟨q, t, ht, rfl⟩
      · exact Or.inl ⟨t.memory, hloop _ (by rw [ht]; rfl), ihr _ t e h⟩
      · exact Or.inr ⟨t.memory, hloop _ (by rw [ht]; rfl), rfl⟩
    · cases h

end Exec

/-! ## Whole programs -/

/-- The result of a run shows an ending: it has the reason to stop, the output and all cells. -/
def Result.Shows (r : Result) : Final → Prop
  | .completed m => r.halt = .completed ∧ r.outputs = m.outputs ∧ ∀ c, r.cell c = m.cells c
  | .exhausted m =>
    (∃ pc, r.halt = .inputExhausted pc) ∧ r.outputs = m.outputs ∧ ∀ c, r.cell c = m.cells c

theorem memory_start (inputs : List UInt8) : (Store.start inputs).memory = Memory.start inputs := by
  simp only [Store.memory, Store.start, Memory.start, Memory.mk.injEq, and_true]
  funext c
  exact Tape.get_empty c

/-- A run of a text with enough cycles shows the ending that the tree of the text comes to. -/
theorem exists_shows_of_runs {text : String} {tree : LoopTree} {inputs : List UInt8}
    {eof : EofPolicy} {e : Final} (htext : (Program.ofText text).symbols = tree.symbols)
    (h : tree.runs eof (Memory.start inputs) e) :
    ∃ n, ∀ config : Config, config.eof = eof → n ≤ config.maxCycles →
      ∃ r, (execute text inputs config).result = .ok r ∧ r.Shows e := by
  rw [← memory_start] at h
  have harrive := arrives_of_runs tree 0 _ e (Placed.whole (tree.ops 0)) h
  have hdecode := LoopTree.decode_of_symbols text tree htext
  cases e with
  | completed m =>
    obtain ⟨t, rfl, hreach⟩ := harrive
    refine ⟨t.cycles, ?_⟩
    rintro config rfl hn
    refine ⟨t.result .completed, ?_, rfl, rfl, fun c => rfl⟩
    rw [result_execute inputs hdecode, outcome_of_reaches hreach hn]
    exact outcome_of_end (by simp [Store.toState])
  | exhausted m =>
    obtain ⟨t, pc, rfl, hreach, hop, hpending, heof⟩ := harrive
    refine ⟨t.cycles + 1, ?_⟩
    rintro config rfl hn
    refine ⟨t.result (.inputExhausted pc), ?_, ⟨pc, rfl⟩, rfl, fun c => rfl⟩
    have hcycles : (t.toState pc).cycles < config.maxCycles := hn
    rw [result_execute inputs hdecode, outcome_of_reaches hreach (Nat.le_of_lt hcycles)]
    exact outcome_of_stop hop hcycles (execute_read_of_pending hpending heof) rfl

/-- A run of a text whose tree comes to no ending is cut off, however many cycles there are, unless
it leaves the tape. -/
theorem exists_cycleLimit_of_not_runs {text : String} {tree : LoopTree} {inputs : List UInt8}
    {config : Config} (htext : (Program.ofText text).symbols = tree.symbols)
    (h : ∀ e, ¬ tree.runs config.eof (Memory.start inputs) e)
    (hfell : ∀ pc, (execute text inputs config).result ≠ .error (.tapeUnderflow pc)) :
    ∃ r, (execute text inputs config).result = .ok r ∧ r.halt = .cycleLimit ∧
      r.cycles = config.maxCycles := by
  rw [result_execute_of_symbols text inputs config tree htext] at hfell ⊢
  have hwithin := LoopTree.exec_within config.maxCycles config.eof tree 0 (Store.start inputs)
    (Nat.zero_le _)
  have hruns := @runs_of_exec config.maxCycles config.eof tree 0 (Store.start inputs)
  rw [memory_start] at hruns
  cases he : tree.exec config.maxCycles config.eof 0 (Store.start inputs) with
  | through s =>
    rw [he] at hruns
    exact absurd (hruns _ rfl) (h _)
  | cut s =>
    rw [he] at hwithin
    exact ⟨s.result .cycleLimit, rfl, rfl, hwithin⟩
  | starved pc s =>
    rw [he] at hruns
    exact absurd (hruns _ rfl) (h _)
  | fell pc =>
    rw [he] at hfell
    exact absurd rfl (hfell pc)

end TapeMachine
