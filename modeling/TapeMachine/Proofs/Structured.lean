import TapeMachine.Proofs.Decode
import TapeMachine.Proofs.Steps

/-!
# Structured execution

A loop tree can be executed as it stands, without ops and jumps: a symbol has its effect, and a loop
runs its body as long as the cell under the head is not zero. `LoopTree.exec` does so and counts the
cycles: one for a symbol, one for the test on entering a loop, one for the test after each round,
none for a read that stops. The count is also what cuts an execution off.

* `Store` : what code works on, which is a state less its place in the program;
* `LoopTree.exec` : the execution of a tree, whose first symbol stands at a given place;
* `outcome_exec` : the machine does the same on the ops of the tree, wherever they are placed;
* `exists_tree_result_execute` : so running a text whose brackets nest is executing its tree.
-/

namespace TapeMachine

open Machine

/-- What code works on: the head, the tape, the channel, and the cycles that were used so far. -/
structure Store where
  head : Nat := 0
  cycles : Nat := 0
  tape : Tape := {}
  channel : Channel := {}
  deriving DecidableEq, Repr

namespace Store

def start (inputs : List UInt8) : Store := { channel := { pending := inputs } }

def cell (s : Store) : UInt8 := s.tape.get s.head

def tick (s : Store) : Store := { s with cycles := s.cycles + 1 }

/-- The state of a machine that works on the store and has come to `pc`. -/
def toState (s : Store) (pc : Nat) : State :=
  { pc, head := s.head, cycles := s.cycles, tape := s.tape, channel := s.channel }

def result (s : Store) (reason : HaltReason) : Result :=
  { cycles := s.cycles, outputs := s.channel.written, halt := reason, tape := s.tape }

end Store

inductive Ending where
  /-- The code was executed to its end. -/
  | through (s : Store)
  /-- The cycles are used up. -/
  | cut (s : Store)
  /-- The read at `pc` found no input. -/
  | starved (pc : Nat) (s : Store)
  /-- The symbol at `pc` would move the head off the tape. -/
  | fell (pc : Nat)
  deriving DecidableEq, Repr

namespace Ending

def andThen (e : Ending) (next : Store → Ending) : Ending :=
  match e with
  | through s => next s
  | _ => e

/-- What an execution leaves, where `next` says so for code that was executed to its end. -/
def resume (e : Ending) (next : Store → Except Fault Result) : Except Fault Result :=
  match e with
  | through s => next s
  | cut s => .ok (s.result .cycleLimit)
  | starved pc s => .ok (s.result (.inputExhausted pc))
  | fell pc => .error (.tapeUnderflow pc)

def result (e : Ending) : Except Fault Result := e.resume fun s => .ok (s.result .completed)

theorem resume_andThen (e : Ending) (f : Store → Ending) (g : Store → Except Fault Result) :
    (e.andThen f).resume g = e.resume fun s => (f s).resume g := by
  cases e <;> rfl

end Ending

/-- The effect of a symbol that is no bracket and stands at `pc`. -/
def Basic.perform (eof : EofPolicy) (pc : Nat) (s : Store) : Basic → Ending
  | right => .through { s.tick with head := s.head + 1 }
  | left =>
    match s.head with
    | 0 => .fell pc
    | head + 1 => .through { s.tick with head }
  | increment => .through { s.tick with tape := s.tape.set s.head (s.cell + 1) }
  | decrement => .through { s.tick with tape := s.tape.set s.head (s.cell - 1) }
  | write => .through { s.tick with channel := s.channel.write s.cell }
  | read =>
    match s.channel.pending with
    | byte :: pending =>
      .through { s.tick with
        tape := s.tape.set s.head byte, channel := { s.channel with pending } }
    | [] =>
      match eof with
      | .halt => .starved pc s
      | .zero => .through { s.tick with tape := s.tape.set s.head 0 }
      | .unchanged => .through s.tick

namespace LoopTree

/-- Executes a body again and again until the cell under the head is zero after a round, with one
cycle for each such test. A round costs a cycle at least, so that `n` rounds are enough where there
are no more than `n` cycles left. -/
def rounds (limit : Nat) (body : Store → Ending) : Nat → Store → Ending
  | 0, s => .cut s
  | n + 1, s => (body s).andThen fun t =>
    if t.cycles < limit then
      if t.cell = 0 then .through t.tick else rounds limit body n t.tick
    else .cut t

/-- Executes the code of a tree whose first symbol stands at `pc`, and cuts it off when `limit`
cycles are used. -/
def exec (limit : Nat) (eof : EofPolicy) : LoopTree → Nat → Store → Ending
  | done, _, s => .through s
  | basic b rest, pc, s =>
    if s.cycles < limit then (b.perform eof pc s).andThen (exec limit eof rest (pc + 1))
    else .cut s
  | loop body rest, pc, s =>
    if s.cycles < limit then
      (if s.cell = 0 then .through s.tick
        else rounds limit (exec limit eof body (pc + 1)) limit s.tick).andThen
        (exec limit eof rest (pc + body.length + 2))
    else .cut s

end LoopTree

/-! ## Cycles -/

/-- What the cycles of an ending can be, for code that was begun with `s`. -/
def Ending.Within (limit : Nat) (s : Store) : Ending → Prop
  | through t => s.cycles ≤ t.cycles ∧ t.cycles ≤ limit
  | cut t => t.cycles = limit
  | starved _ t => t.cycles < limit
  | fell _ => True

theorem Ending.Within.mono {limit : Nat} {s t : Store} {e : Ending} (h : e.Within limit t)
    (hst : s.cycles ≤ t.cycles) : e.Within limit s := by
  cases e with
  | through u => exact ⟨Nat.le_trans hst h.1, h.2⟩
  | _ => exact h

theorem Ending.Within.andThen {limit : Nat} {s : Store} {e : Ending} {f : Store → Ending}
    (h : e.Within limit s) (hf : ∀ t, t.cycles ≤ limit → (f t).Within limit t) :
    (e.andThen f).Within limit s := by
  cases e with
  | through t => exact (hf t h.2).mono h.1
  | _ => exact h

theorem Basic.perform_within {limit : Nat} (b : Basic) (eof : EofPolicy) (pc : Nat) (s : Store)
    (h : s.cycles < limit) : (b.perform eof pc s).Within limit s := by
  have htick : s.cycles ≤ s.tick.cycles ∧ s.tick.cycles ≤ limit := ⟨Nat.le_succ _, h⟩
  cases b with
  | left =>
    simp only [Basic.perform]
    split
    · trivial
    · exact htick
  | read =>
    simp only [Basic.perform]
    split
    · exact htick
    · split
      · exact h
      · exact htick
      · exact htick
  | _ => exact htick

namespace LoopTree

theorem rounds_within {limit : Nat} {body : Store → Ending}
    (hbody : ∀ s, s.cycles ≤ limit → (body s).Within limit s) (n : Nat) : ∀ s : Store,
    s.cycles ≤ limit → limit < n + s.cycles → (rounds limit body n s).Within limit s := by
  induction n with
  | zero =>
    intro s hs hn
    omega
  | succ n ih =>
    intro s hs hn
    have hb := hbody s hs
    rw [rounds]
    cases ht : body s with
    | through t =>
      rw [ht] at hb
      obtain ⟨hst, htl⟩ := hb
      have htick : t.tick.cycles = t.cycles + 1 := rfl
      simp only [Ending.andThen]
      split
      · split
        · exact ⟨by omega, by omega⟩
        · exact (ih t.tick (by omega) (by omega)).mono (by omega)
      · exact Nat.le_antisymm htl (by omega)
    | _ =>
      rw [ht] at hb
      exact hb

theorem exec_within (limit : Nat) (eof : EofPolicy) (t : LoopTree) : ∀ (pc : Nat) (s : Store),
    s.cycles ≤ limit → (t.exec limit eof pc s).Within limit s := by
  induction t with
  | done =>
    intro pc s hs
    exact ⟨Nat.le_refl _, hs⟩
  | basic b rest ih =>
    intro pc s hs
    rw [exec]
    split
    · rename_i hlt
      exact (b.perform_within eof pc s hlt).andThen (ih (pc + 1))
    · exact Nat.le_antisymm hs (by omega)
  | loop body rest ihb ihr =>
    intro pc s hs
    have htick : s.tick.cycles = s.cycles + 1 := rfl
    rw [exec]
    split
    · refine Ending.Within.andThen ?_ (ihr (pc + body.length + 2))
      split
      · exact ⟨by omega, by omega⟩
      · exact (rounds_within (ihb (pc + 1)) limit s.tick (by omega) (by omega)).mono (by omega)
    · exact Nat.le_antisymm hs (by omega)

end LoopTree

/-! ## The machine on the ops of a tree -/

section Ops
variable {ops : Array Op} {config : Config} {eof : EofPolicy} {pc : Nat} {s t : Store}

theorem next?_basic {b : Basic} (h : ops[pc]? = some b.op) (ht : b.perform eof pc s = .through t) :
    next? ops eof (s.toState pc) = some (t.toState (pc + 1)) := by
  rw [next?_eq_some_iff]
  refine ⟨b.op, { t.toState (pc + 1) with cycles := s.cycles }, h, ?_, rfl, ?_⟩
  all_goals
    obtain ⟨head, cycles, tape, channel⟩ := s
    cases b with
    | left =>
      cases head with
      | zero => cases ht
      | succ head =>
        cases ht
        rfl
    | read =>
      obtain ⟨pending, written⟩ := channel
      cases pending with
      | nil => cases eof <;> cases ht <;> rfl
      | cons byte pending =>
        cases ht
        rfl
    | _ =>
      cases ht
      rfl

theorem next?_jumpIfZero {stop : Nat} (h : ops[pc]? = some (.jumpIfZero stop)) :
    next? ops eof (s.toState pc) =
      some (s.tick.toState (if s.cell = 0 then stop + 1 else pc + 1)) := by
  rw [next?_eq_some_iff]
  exact ⟨_, _, h, rfl, rfl, rfl⟩

theorem next?_jumpUnlessZero {start : Nat} (h : ops[pc]? = some (.jumpUnlessZero start)) :
    next? ops eof (s.toState pc) =
      some (s.tick.toState (if s.cell = 0 then pc + 1 else start + 1)) := by
  rw [next?_eq_some_iff]
  exact ⟨_, _, h, rfl, rfl, rfl⟩

/-- All that a symbol can come to: only a read can be starved, and only a move to the left can leave
the tape. -/
theorem Basic.perform_cases (b : Basic) (eof : EofPolicy) (pc : Nat) (s : Store) :
    (∃ t, b.perform eof pc s = .through t) ∨
      (b = .read ∧ s.channel.pending = [] ∧ eof = .halt ∧ b.perform eof pc s = .starved pc s) ∨
        (b = .left ∧ s.head = 0 ∧ b.perform eof pc s = .fell pc) := by
  obtain ⟨head, cycles, tape, ⟨pending, written⟩⟩ := s
  cases b with
  | left =>
    cases head with
    | zero => exact Or.inr (Or.inr ⟨rfl, rfl, rfl⟩)
    | succ head => exact Or.inl ⟨_, rfl⟩
  | read =>
    cases pending with
    | nil =>
      cases eof with
      | halt => exact Or.inr (Or.inl ⟨rfl, rfl, rfl, rfl⟩)
      | zero => exact Or.inl ⟨_, rfl⟩
      | unchanged => exact Or.inl ⟨_, rfl⟩
    | cons byte pending => exact Or.inl ⟨_, rfl⟩
  | _ => exact Or.inl ⟨_, rfl⟩

/-- A read at the end of the input stops the machine where it stands, and nothing else is changed. -/
theorem execute_read_of_pending (h : s.channel.pending = []) (heof : eof = .halt) :
    Op.read.execute eof (s.toState pc) = .ok ((s.toState pc).stop (.inputExhausted pc)) := by
  simp [Op.execute, Channel.read?, Store.toState, h, heof]

theorem execute_left_of_head (h : s.head = 0) :
    Op.left.execute eof (s.toState pc) = .error (.tapeUnderflow pc) := by
  simp [Op.execute, Store.toState, h]

theorem outcome_basic {b : Basic} (h : ops[pc]? = some b.op) (hs : s.cycles < config.maxCycles) :
    outcome ops config (s.toState pc) =
      (b.perform config.eof pc s).resume fun t => outcome ops config (t.toState (pc + 1)) := by
  rcases b.perform_cases config.eof pc s with ⟨t, ht⟩ | ⟨rfl, hpending, heof, ht⟩ | ⟨rfl, hhead, ht⟩
  · rw [ht]
    exact outcome_of_next? (next?_basic h ht) hs
  · rw [ht]
    exact outcome_of_stop h hs (execute_read_of_pending hpending heof) rfl
  · rw [ht]
    exact outcome_of_fault h hs (execute_left_of_head hhead)

/-- Rounds of a body that stands right after the op at `pc`, up to and over the end of its loop. -/
theorem outcome_rounds {body : Store → Ending} {len : Nat}
    (hclose : ops[pc + len + 1]? = some (.jumpUnlessZero pc))
    (hwithin : ∀ s, s.cycles ≤ config.maxCycles → (body s).Within config.maxCycles s)
    (hbody : ∀ s : Store, s.cycles ≤ config.maxCycles → outcome ops config (s.toState (pc + 1)) =
      (body s).resume fun t => outcome ops config (t.toState (pc + len + 1)))
    (n : Nat) : ∀ s : Store, s.cycles ≤ config.maxCycles → config.maxCycles < n + s.cycles →
      outcome ops config (s.toState (pc + 1)) =
        (LoopTree.rounds config.maxCycles body n s).resume fun t =>
          outcome ops config (t.toState (pc + len + 2)) := by
  -- `n` exceeds the cycles that are left, and every round uses one at least
  induction n with
  | zero =>
    intro s hs hn
    omega
  | succ n ih =>
    intro s hs hn
    rw [hbody s hs, LoopTree.rounds, Ending.resume_andThen]
    have hw := hwithin s hs
    cases ht : body s with
    | through t =>
      rw [ht] at hw
      obtain ⟨hst, htl⟩ := hw
      have htick : t.tick.cycles = t.cycles + 1 := rfl
      simp only [Ending.resume]
      by_cases hlt : t.cycles < config.maxCycles
      · rw [if_pos hlt, outcome_of_next? (next?_jumpUnlessZero hclose) hlt]
        by_cases hz : t.cell = 0
        · rw [if_pos hz, if_pos hz]
        · rw [if_neg hz, if_neg hz]
          exact ih t.tick (by omega) (by omega)
      · rw [if_neg hlt]
        exact outcome_of_limit hclose (by show config.maxCycles ≤ t.cycles; omega)
    | _ => rfl

/-- The machine does on the ops of a tree what the execution of the tree says. -/
theorem outcome_exec (tree : LoopTree) : ∀ (pc : Nat) (s : Store),
    Placed ops pc (tree.ops pc) → s.cycles ≤ config.maxCycles →
      outcome ops config (s.toState pc) =
        (tree.exec config.maxCycles config.eof pc s).resume fun t =>
          outcome ops config (t.toState (pc + tree.length)) := by
  induction tree with
  | done =>
    intro pc s _ _
    rfl
  | basic b rest ih =>
    intro pc s hp hs
    rw [LoopTree.exec]
    by_cases hlt : s.cycles < config.maxCycles
    · rw [if_pos hlt, Ending.resume_andThen, outcome_basic hp.head hlt]
      have hw := b.perform_within config.eof pc s hlt
      cases ht : b.perform config.eof pc s with
      | through t =>
        rw [ht] at hw
        have hrec := ih (pc + 1) t hp.tail hw.2
        rwa [Nat.add_assoc, Nat.add_comm 1] at hrec
      | _ => rfl
    · rw [if_neg hlt]
      exact outcome_of_limit hp.head (Nat.le_of_not_lt hlt)
  | loop body rest ihb ihr =>
    intro pc s hp hs
    obtain ⟨hinner, hclose, hrest⟩ := hp.loop
    rw [LoopTree.exec]
    by_cases hlt : s.cycles < config.maxCycles
    · rw [if_pos hlt, Ending.resume_andThen, outcome_of_next? (next?_jumpIfZero hp.head) hlt]
      have hend : pc + (LoopTree.loop body rest).length = pc + body.length + 2 + rest.length := by
        simp only [LoopTree.length]
        omega
      have htick : s.tick.cycles = s.cycles + 1 := rfl
      rw [hend]
      by_cases hz : s.cell = 0
      · rw [if_pos hz, if_pos hz]
        exact ihr (pc + body.length + 2) s.tick hrest (by omega)
      · rw [if_neg hz, if_neg hz]
        have hbody : ∀ t : Store, t.cycles ≤ config.maxCycles →
            outcome ops config (t.toState (pc + 1)) =
              (body.exec config.maxCycles config.eof (pc + 1) t).resume fun u =>
                outcome ops config (u.toState (pc + body.length + 1)) := by
          intro t ht
          rw [ihb (pc + 1) t hinner ht, Nat.add_right_comm]
        have hwithin := LoopTree.exec_within config.maxCycles config.eof body (pc + 1)
        rw [outcome_rounds hclose hwithin hbody config.maxCycles s.tick (by omega) (by omega)]
        have hw := LoopTree.rounds_within hwithin config.maxCycles s.tick (by omega) (by omega)
        cases hr : LoopTree.rounds config.maxCycles
            (body.exec config.maxCycles config.eof (pc + 1)) config.maxCycles s.tick with
        | through t =>
          rw [hr] at hw
          exact ihr (pc + body.length + 2) t hrest hw.2
        | _ => rfl
    · rw [if_neg hlt]
      exact outcome_of_limit hp.head (Nat.le_of_not_lt hlt)

end Ops

theorem result_execute {text : String} {ops : Array Op} {config : Config} (inputs : List UInt8)
    (h : Op.decode text = .ok ops) :
    (execute text inputs config).result = outcome ops config ((Store.start inputs).toState 0) := by
  rw [execute, load, h]
  exact result_run _

/-- Running a text is executing its tree. -/
theorem result_execute_of_symbols (text : String) (inputs : List UInt8) (config : Config)
    (tree : LoopTree) (h : (Program.ofText text).symbols = tree.symbols) :
    (execute text inputs config).result =
      (tree.exec config.maxCycles config.eof 0 (Store.start inputs)).result := by
  have hend : ∀ t : Store, outcome (tree.ops 0).toArray config (t.toState (0 + tree.length)) =
      .ok (t.result .completed) := by
    intro t
    exact outcome_of_end (by simp [Store.toState])
  rw [result_execute inputs (LoopTree.decode_of_symbols text tree h),
    outcome_exec tree 0 _ (Placed.whole (tree.ops 0)) (Nat.zero_le _), Ending.result, funext hend]

/-- A text whose brackets nest is written from one tree only, and running the text gives what the execution
of this tree gives. -/
theorem exists_tree_result_execute (text : String) (inputs : List UInt8) (config : Config)
    (h : (Program.ofText text).validate = .ok ()) :
    ∃ tree : LoopTree, (∀ t : LoopTree, t.symbols = (Program.ofText text).symbols ↔ t = tree) ∧
      (execute text inputs config).result =
        (tree.exec config.maxCycles config.eof 0 (Store.start inputs)).result := by
  obtain ⟨tree, htree⟩ := LoopTree.exists_symbols_of_validate h
  refine ⟨tree, fun t => ⟨fun ht => LoopTree.symbols_inj (ht.trans htree.symm), ?_⟩, ?_⟩
  · rintro rfl
    exact htree
  · exact result_execute_of_symbols text inputs config tree htree.symm

/-- The tree of a text with a remark and a loop in a loop, which may fall off the tape. -/
theorem exists_tree_result_execute_nested :
    (Program.ofText "in: ,[<[-]+]").validate = .ok () ∧
      ∀ (inputs : List UInt8) (config : Config),
        (execute "in: ,[<[-]+]" inputs config).result =
          ((LoopTree.basic .read (.loop (.basic .left (.loop (.basic .decrement .done)
            (.basic .increment .done))) .done)).exec config.maxCycles config.eof 0
              (Store.start inputs)).result := by
  have hvalid : (Program.ofText "in: ,[<[-]+]").validate = .ok () := rfl
  refine ⟨hvalid, fun inputs config => ?_⟩
  obtain ⟨tree, hunique, hresult⟩ := exists_tree_result_execute _ inputs config hvalid
  obtain rfl := (hunique (.basic .read (.loop (.basic .left (.loop (.basic .decrement .done)
    (.basic .increment .done))) .done))).mp (by decide)
  exact hresult

end TapeMachine
