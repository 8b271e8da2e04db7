import Mathlib.Logic.Function.Iterate
import TapeMachine.Proofs.Fragment

/-!
# The rounds of a loop

A call with a body generates a loop around the body's code. The rest of the loop's code is its frame:
it sets the counter, if the loop has one of its own, tests the counter, takes one from it, and moves
the head to where the body starts and back.

* `LoopSite` : where a loop and its body stand in a program, and for which cells they are made;
* `Rounds ops eof site n pc s t` : from `s` at `pc` the loop comes to its end with `t`, and on the way
  the body is run `n` times;
* `Block.entered`, `Block.begun` : the generator from which the body is generated, and the memory from
  which the rounds are counted;
* `Block.runs_rounds` : the body is run as often as the counter says, whatever it does, if only its
  brackets match, it leaves the counter alone, and it leaves the head where the generator takes it to
  be. All but that it leaves the counter alone is so for a script that catches no refusal and whose raw
  code holds no moves and no brackets;
* `Block.bodyRuns_not_sufficient` : for other raw code it need not be so.
-/

namespace TapeMachine

open Machine

/-! ## Loops in a program -/

structure LoopSite where
  /-- The first place of its code, and the one behind it. -/
  start : Nat
  stop : Nat
  /-- The first place of the body's code, and the one behind it. -/
  first : Nat
  last : Nat
  /-- The cell that is counted down. -/
  counter : Nat
  /-- The cell at which the body starts. -/
  origin : Nat

/-- The places of a loop that are not its body's. -/
def LoopSite.Frame (l : LoopSite) (pc : Nat) : Prop :=
  Inside l.start l.stop pc ∧ ¬ Inside l.first l.last pc

/-- From `s` at `pc`, steps by the frame of the loop and `n` runs of its body lead to `t` at the end.
Before every run the frame takes one from the counter, which then is the number of runs yet to come,
and moves the head to the cell at which the body starts; after the last it only moves the head there. -/
inductive Rounds (ops : Array Op) (eof : EofPolicy) (l : LoopSite) :
    Nat → Nat → Store → Store → Prop where
  | stop {pc : Nat} {s t : Store} (hleave : Walks ops eof l.Frame (s.toState pc) (t.toState l.stop))
      (hmemory : t.memory = s.memory.go l.origin) : Rounds ops eof l 0 pc s t
  | again {n pc : Nat} {s e x t : Store}
      (henter : Walks ops eof l.Frame (s.toState pc) (e.toState l.first))
      (hmemory : e.memory = (s.memory.take l.counter).go l.origin)
      (hcounter : (e.memory.cells l.counter).toNat = n)
      (hbody : Crosses ops eof l.first l.last e x) (hrest : Rounds ops eof l n l.last x t) :
      Rounds ops eof l (n + 1) pc s t

namespace Rounds

variable {ops : Array Op} {eof : EofPolicy} {l : LoopSite} {n pc : Nat} {s t : Store}

theorem walks (h : Rounds ops eof l n pc s t) (hfirst : l.start ≤ l.first) (hlast : l.last ≤ l.stop) :
    Walks ops eof (Inside l.start l.stop) (s.toState pc) (t.toState l.stop) := by
  induction h with
  | stop hleave _ => exact hleave.mono fun _ hpc => hpc.1
  | again henter _ _ hbody _ ih =>
    refine (henter.mono fun _ hpc => hpc.1).trans (Walks.trans (Walks.mono hbody ?_) ih)
    exact fun _ hpc => ⟨Nat.le_trans hfirst hpc.1, Nat.lt_of_lt_of_le hpc.2 hlast⟩

theorem head (h : Rounds ops eof l n pc s t) : t.head = l.origin := by
  induction h with
  | stop _ hmemory => exact congrArg Memory.head hmemory
  | again _ _ _ _ _ ih => exact ih

/-- What the body does to the memory is done as often as there are rounds. -/
theorem memory {f : Memory → Memory} (h : Rounds ops eof l n pc s t)
    (hf : ∀ e x : Store, e.head = l.origin → Crosses ops eof l.first l.last e x →
      x.memory = f e.memory) :
    t.memory = ((fun m => f ((m.take l.counter).go l.origin))^[n] s.memory).go l.origin := by
  induction h with
  | stop _ hmemory => exact hmemory
  | again _ hmemory _ hbody _ ih =>
    rw [ih, hf _ _ (congrArg Memory.head hmemory) hbody, hmemory]
    rfl

end Rounds

/-! ## One round -/

/-- A loop that counts a cell down, where `body` starts at `origin` and ends at `landing`. The head is
left at `origin`. -/
def LoopTree.counted (counter origin : Nat) (body : LoopTree) (landing : Nat) : LoopTree :=
  .loop (.basic .decrement (.moves counter origin ++ (body ++ .moves landing counter)))
    (.moves counter origin)

/-- The frame of a loop, with the test before the rounds at `pc` and the test after each of them at
`close`, for a body that ends at `landing`. -/
structure LoopSite.Holds (l : LoopSite) (ops : Array Op) (landing pc close : Nat) : Prop where
  test : ops[pc]? = some (.jumpIfZero close)
  retest : ops[close]? = some (.jumpUnlessZero pc)
  enter : Placed ops (pc + 1) ((LoopTree.basic .decrement (.moves l.counter l.origin)).ops (pc + 1))
  back : Placed ops l.last ((LoopTree.moves landing l.counter).ops l.last)
  leave : Placed ops (close + 1) ((LoopTree.moves l.counter l.origin).ops (close + 1))
  start_le : l.start ≤ pc
  first_eq : l.first = pc + 1 + (LoopTree.basic .decrement (.moves l.counter l.origin)).length
  first_le : l.first ≤ l.last
  close_eq : close = l.last + (LoopTree.moves landing l.counter).length
  stop_eq : l.stop = close + 1 + (LoopTree.moves l.counter l.origin).length

theorem LoopSite.frame_of_not_inside {l : LoopSite} {pc : Nat} (hstart : l.start ≤ pc)
    (hstop : pc < l.stop) (hbody : pc < l.first ∨ l.last ≤ pc) : l.Frame pc := by
  refine ⟨⟨hstart, hstop⟩, ?_⟩
  rintro ⟨hfirst, hlast⟩
  omega

theorem Crosses.frame {ops : Array Op} {eof : EofPolicy} {l : LoopSite} {a b : Nat} {s t : Store}
    (h : Crosses ops eof a b s t) (ha : l.start ≤ a) (hb : b ≤ l.stop)
    (hbody : b ≤ l.first ∨ l.last ≤ a) : Walks ops eof l.Frame (s.toState a) (t.toState b) := by
  refine Walks.mono h ?_
  rintro pc ⟨hlo, hhi⟩
  exact LoopSite.frame_of_not_inside (by omega) (by omega) (by omega)

namespace LoopSite

variable {l : LoopSite} {ops : Array Op} {eof : EofPolicy} {landing pc close : Nat}

theorem holds_of_placed {body : LoopTree}
    (hp : Placed ops pc ((LoopTree.counted l.counter l.origin body landing).ops pc))
    (hstart : l.start ≤ pc)
    (hfirst : l.first = pc + 2 + (LoopTree.moves l.counter l.origin).length)
    (hlast : l.last = l.first + body.length)
    (hstop : l.stop = pc + (LoopTree.counted l.counter l.origin body landing).length) :
    l.Holds ops landing pc (l.last + (LoopTree.moves landing l.counter).length) := by
  have hlength : (LoopTree.basic .decrement (.moves l.counter l.origin ++
      (body ++ .moves landing l.counter))).length = (LoopTree.moves l.counter l.origin).length +
        (body.length + (LoopTree.moves landing l.counter).length) + 1 := by
    rw [LoopTree.length, LoopTree.length_append, LoopTree.length_append]
  have hclose : pc + (LoopTree.basic .decrement (.moves l.counter l.origin ++
      (body ++ .moves landing l.counter))).length + 1 =
        l.last + (LoopTree.moves landing l.counter).length := by omega
  obtain ⟨hround, hretest, hleave⟩ := hp.loop
  have htest := hp.head
  rw [hclose] at hretest htest
  rw [← Nat.add_assoc _ 1 1, hclose] at hleave
  rw [← LoopTree.basic_append, ← LoopTree.append_assoc] at hround
  obtain ⟨hround, hback⟩ := hround.append
  obtain ⟨henter, -⟩ := hround.append
  have hbody : pc + 1 + (LoopTree.basic .decrement (.moves l.counter l.origin) ++ body).length =
      l.last := by
    rw [LoopTree.length_append, LoopTree.length]
    omega
  rw [hbody] at hback
  refine ⟨htest, hretest, henter, hback, hleave, hstart, ?_, by omega, rfl, ?_⟩
  · rw [LoopTree.length]
    omega
  · rw [hstop, LoopTree.counted, LoopTree.length]
    omega

/-- From `s` at a place, the loop tests its counter: it gets behind the last test if the counter is
zero, and else behind the first. -/
def Tests (l : LoopSite) (ops : Array Op) (eof : EofPolicy) (pc close place : Nat) (s : Store) : Prop :=
  ∃ r : Store, Walks ops eof l.Frame (s.toState place)
    (r.toState (if s.memory.cells l.counter = 0 then close + 1 else pc + 1)) ∧
      r.memory = s.memory.go l.counter

namespace Holds

theorem order (h : l.Holds ops landing pc close) :
    l.start ≤ pc ∧ pc < l.first ∧ l.first ≤ l.last ∧ l.last ≤ close ∧ close < l.stop := by
  obtain ⟨-, -, -, -, -, hstart, hfirst, hlast, hclose, hstop⟩ := h
  omega

/-- From behind a test that has found a number, the loop takes one from the counter and goes to its
body. -/
theorem exists_enter (h : l.Holds ops landing pc close) {s : Store} (hs : s.head = l.counter) :
    ∃ e : Store, Walks ops eof l.Frame (s.toState (pc + 1)) (e.toState l.first) ∧
      e.memory = (s.memory.take l.counter).go l.origin := by
  have hruns : (LoopTree.basic .decrement (.moves l.counter l.origin)).runs eof s.memory
      (.completed ((s.memory.take l.counter).go l.origin)) := by
    rw [LoopTree.runs, Basic.runs, Behaviour.update_andThen, ← hs]
    exact (runs_moves s.head l.origin _ _ rfl).mpr rfl
  obtain ⟨e, he, hmemory⟩ := crosses_of_runs h.enter hruns
  rw [← h.first_eq] at he
  have horder := h.order
  exact ⟨e, he.frame (by omega) (by omega) (.inl (Nat.le_refl _)), hmemory⟩

theorem exists_leave (h : l.Holds ops landing pc close) {s : Store} (hs : s.head = l.counter) :
    ∃ t : Store, Walks ops eof l.Frame (s.toState (close + 1)) (t.toState l.stop) ∧
      t.memory = s.memory.go l.origin := by
  have hruns : (LoopTree.moves l.counter l.origin).runs eof s.memory
      (.completed (s.memory.go l.origin)) := (runs_moves l.counter l.origin s.memory _ hs).mpr rfl
  obtain ⟨t, ht, hmemory⟩ := crosses_of_runs h.leave hruns
  rw [← h.stop_eq] at ht
  have horder := h.order
  exact ⟨t, ht.frame (by omega) (by omega) (.inr (by omega)), hmemory⟩

theorem exists_test (h : l.Holds ops landing pc close) {s : Store} (hs : s.head = l.counter) :
    Tests l ops eof pc close pc s := by
  have horder := h.order
  have hplace : l.Frame pc := frame_of_not_inside (by omega) (by omega) (.inl (by omega))
  refine ⟨s.tick, .step hplace ?_, ?_⟩
  · rw [next?_jumpIfZero h.test, ← hs]
    rfl
  · rw [← hs]
    rfl

theorem exists_retest (h : l.Holds ops landing pc close) {s : Store} (hs : s.head = landing) :
    Tests l ops eof pc close l.last s := by
  have hruns : (LoopTree.moves landing l.counter).runs eof s.memory
      (.completed (s.memory.go l.counter)) := (runs_moves landing l.counter s.memory _ hs).mpr rfl
  obtain ⟨r, hr, hmemory⟩ := crosses_of_runs h.back hruns
  rw [← h.close_eq] at hr
  have hcell : r.cell = s.memory.cells l.counter := by
    rw [← Store.value_memory, hmemory]
    rfl
  have hstep : next? ops eof (r.toState close) = some (r.tick.toState
      (if s.memory.cells l.counter = 0 then close + 1 else pc + 1)) := by
    rw [next?_jumpUnlessZero h.retest, hcell]
  have horder := h.order
  have hplace : l.Frame close := frame_of_not_inside (by omega) (by omega) (.inr (by omega))
  have hback := hr.frame (l := l) (by omega) (by omega) (.inr (Nat.le_refl _))
  exact ⟨r.tick, hback.trans (.step hplace hstep), hmemory⟩

/-- The loop comes to its end from where its counter is tested, after as many rounds as the counter
says: with every round there is one less to come. -/
theorem exists_rounds (h : l.Holds ops landing pc close)
    (hbody : ∀ e : Store, e.head = l.origin → ∃ x : Store, Crosses ops eof l.first l.last e x ∧
      x.memory.cells l.counter = e.memory.cells l.counter ∧ x.head = landing) (n : Nat) :
    ∀ (place : Nat) (s : Store), Tests l ops eof pc close place s →
      (s.memory.cells l.counter).toNat = n →
        ∃ t : Store, Rounds ops eof l n place s t ∧ t.memory.cells l.counter = 0 := by
  induction n with
  | zero =>
    rintro place s ⟨r, hr, hmemory⟩ hn
    have hzero : s.memory.cells l.counter = 0 := UInt8.toNat_inj.mp hn
    rw [if_pos hzero] at hr
    obtain ⟨t, ht, hfinal⟩ := h.exists_leave (congrArg Memory.head hmemory)
    rw [hmemory] at hfinal
    exact ⟨t, .stop (hr.trans ht) hfinal, by rw [hfinal]; exact hzero⟩
  | succ n ih =>
    rintro place s ⟨r, hr, hmemory⟩ hn
    have hne : s.memory.cells l.counter ≠ 0 := by
      intro hzero
      rw [hzero] at hn
      cases hn
    rw [if_neg hne] at hr
    obtain ⟨e, he, hentered⟩ := h.exists_enter (congrArg Memory.head hmemory)
    rw [hmemory] at hentered
    have hcounter : (e.memory.cells l.counter).toNat = n := by
      have hone := toNat_sub_one hne
      have htaken : e.memory.cells l.counter = s.memory.cells l.counter - 1 := by
        rw [hentered]
        exact Function.update_self _ _ _
      rw [htaken]
      omega
    -- the body ends where the next test starts, and the test finds the counter as it was entered with
    obtain ⟨x, hx, hkept, hlanded⟩ := hbody e (congrArg Memory.head hentered)
    obtain ⟨t, ht, hzero⟩ := ih l.last x (h.exists_retest hlanded) (by rw [hkept, hcounter])
    exact ⟨t, .again (hr.trans he) hentered hcounter hx ht, hzero⟩

end Holds

end LoopSite

/-! ## Where code leaves the head -/

/-- Level code keeps head and drift together, wherever it is placed. -/
theorem LoopTree.head_of_walks {tree : LoopTree} {ops : Array Op} {eof : EofPolicy}
    (before : List Symbol) {s t : State} (hlevel : tree.Level)
    (hp : Placed ops before.length (tree.ops before.length))
    (h : Walks ops eof (Inside before.length (before.length + tree.length)) s t) :
    (t.head : Int) - drift ((before ++ tree.symbols).take t.pc) =
      s.head - drift ((before ++ tree.symbols).take s.pc) := by
  have halong : Along (Op.Keeps (before ++ tree.symbols) eof) before.length
      (tree.ops before.length) :=
    tree.along_keeps_ops before [] hlevel (List.append_nil _).symm
  rw [← LoopTree.length_ops tree before.length] at h
  induction h with
  | refl => rfl
  | tail _ hlast ih =>
    obtain ⟨hinside, hnext⟩ := hlast
    obtain ⟨op, u, hop, hu, -, rfl⟩ := next?_eq_some_iff.mp hnext
    rw [← ih]
    exact halong.of_placed hp hinside hop _ u rfl hu

/-- The code of a routine leaves the head at the cursor. -/
theorem Generator.Emits.head_of_crosses {g h : Generator} {r : Routine} {d : Nat} {text : String}
    {ops : Array Op} {eof : EofPolicy} {s t : Store} (he : g.Emits h r d) (hb : h.Begins text ops)
    (hs : s.head = g.cursor) (hc : Crosses ops eof g.size h.size s t) : t.head = h.cursor := by
  obtain ⟨hp, hsize⟩ := hb.placed he.symbols
  unfold Crosses at hc
  rw [hsize] at hc
  have hkept := LoopTree.head_of_walks g.program.symbols (r.level_code g.cursor) hp hc
  have hdrift := drift_of_walk (r.walk_code g.cursor)
  have hfirst : drift ((g.program.symbols ++ (r.code g.cursor).symbols).take g.size) =
      drift g.program.symbols := drift_take _ rfl rfl
  have hlast : drift ((g.program.symbols ++ (r.code g.cursor).symbols).take
      (g.size + (r.code g.cursor).length)) =
        drift g.program.symbols + drift (r.code g.cursor).symbols := by
    rw [← drift_append]
    exact drift_take _ (List.append_nil _).symm (by simp; rfl)
  change (t.head : Int) - drift (List.take (g.size + _) _) = s.head - drift (List.take g.size _) at hkept
  rw [hfirst, hlast] at hkept
  rw [he.cursor]
  omega

/-! ## The loops of a generator -/

theorem LoopTree.moves_self (cell : Nat) : LoopTree.moves cell cell = .done := by
  unfold moves
  rw [if_neg (Nat.lt_irrefl cell), Nat.sub_self, times]

namespace Block

variable {head : Block} {body : Generator → Run} {g : Generator}

/-- The cell that the loop counts down. A loop of a given number of rounds claims the first scratch slot
that is not held. -/
def counter (g : Generator) : Block → Nat
  | countDown cell => cell
  | countDownAccumulator => Layout.accumulator
  | repeated _ => g.depth
  | attempt => g.cursor

/-- The cell at which the body starts, and the one at which the loop ends. -/
def origin (g : Generator) : Block → Nat
  | countDown cell => cell
  | countDownAccumulator => Layout.accumulator
  | repeated _ => g.cursor
  | attempt => g.cursor

def entered (g : Generator) : Block → Generator
  | countDown cell => g.openLoop cell
  | countDownAccumulator => g.openLoop Layout.accumulator
  | repeated n =>
    match g.push n with
    | .ok (slot, h) => (h.openLoop slot).moveTo g.cursor
    | .error _ => g
  | attempt => g

/-- The memory with which the loop first tests its counter. -/
def begun (g : Generator) (m : Memory) : Block → Memory
  | countDown cell => m.go cell
  | countDownAccumulator => m.go Layout.accumulator
  | repeated n => (m.go g.depth).put n
  | attempt => m.go g.cursor

/-- How often the body is to be run, where the code of the block is entered with `m`. -/
def count (m : Memory) : Block → UInt8
  | countDown cell => m.cells cell
  | countDownAccumulator => m.cells Layout.accumulator
  | repeated n => n
  | attempt => 1

theorem head_begun (head : Block) (g : Generator) (m : Memory) :
    (head.begun g m).head = head.counter g := by
  cases head <;> rfl

theorem counter_begun (hhead : head ≠ .attempt) (g : Generator) (m : Memory) :
    (head.begun g m).cells (head.counter g) = head.count m := by
  cases head with
  | repeated n => exact Function.update_self _ _ _
  | attempt => exact absurd rfl hhead
  | _ => rfl

def site (head : Block) (body : Generator → Run) (g : Generator) : LoopSite where
  start := g.size
  stop := (head.run body g).generator.size
  first := (head.entered g).size
  last := (body (head.entered g)).generator.size
  counter := head.counter g
  origin := head.origin g

/-- The code that a block adds before its body, with `front` before the loop, and behind it. -/
structure Laid (head : Block) (body : Generator → Run) (g : Generator) (front : LoopTree) :
    Prop where
  ok : ∃ reply, (body (head.entered g)).outcome = .ok reply
  entered : (head.entered g).program.symbols = g.program.symbols ++ (front.symbols ++
    .loopStart :: .decrement :: (LoopTree.moves (head.counter g) (head.origin g)).symbols)
  cursor_entered : (head.entered g).cursor = head.origin g
  run : (head.run body g).generator.program.symbols =
    (body (head.entered g)).generator.program.symbols ++
      ((LoopTree.moves (body (head.entered g)).generator.cursor (head.counter g)).symbols ++
        .loopEnd :: (LoopTree.moves (head.counter g) (head.origin g)).symbols)
  cursor_run : (head.run body g).generator.cursor = head.origin g
  front : ∀ eof m, m.head = g.cursor → front.runs eof m (.completed (head.begun g m))

theorem laid_countDown (cell : Nat) {reply : Reply}
    (hok : ((countDown cell).run body g).outcome = .ok reply) :
    (countDown cell).Laid body g (.moves g.cursor cell) := by
  obtain ⟨hbody, -, hg⟩ := Run.exists_of_andThen hok
  have hrun : ((countDown cell).run body g).generator =
      (body (g.openLoop cell)).generator.closeLoop cell := hg
  refine ⟨hbody, ?_, rfl, ?_, by rw [hrun]; rfl, fun eof m hm => ?_⟩
  · rw [counter, origin, LoopTree.moves_self]
    exact Generator.Emits.symbols_openLoop g cell
  · rw [hrun, counter, origin, LoopTree.moves_self]
    exact Generator.Emits.symbols_closeLoop _ cell
  · exact (runs_moves g.cursor cell m _ hm).mpr rfl

theorem laid_repeated {n : UInt8} {reply : Reply}
    (hok : ((repeated n).run body g).outcome = .ok reply) :
    (repeated n).Laid body g
      ((Routine.line [.go g.depth, .clear, .raise n.toNat]).code g.cursor) := by
  rw [run, runRepeated] at hok
  cases hpush : g.push n with
  | error e =>
    simp only [hpush] at hok
    cases hok
  | ok pushed =>
    obtain ⟨slot, h⟩ := pushed
    simp only [hpush] at hok
    obtain ⟨rfl, hslot⟩ := Generator.Emits.push hpush
    obtain ⟨⟨popped, hpopped⟩, -, hg⟩ := Run.exists_of_andThen hok
    obtain ⟨⟨looped, hlooped⟩, hpop, hpg⟩ := Run.exists_of_andThen hpopped
    obtain ⟨hbody, -, hloop⟩ := Run.exists_of_andThen hlooped
    have hentered : (repeated n).entered g = (h.openLoop g.depth).moveTo g.cursor := by
      simp only [entered, hpush]
    have hrun : ((repeated n).run body g).generator = (Run.pop
        ((body ((repeated n).entered g)).generator.closeLoop g.depth)).generator.moveTo g.cursor := by
      rw [hentered]
      simp only [run, runRepeated, hpush]
      rw [hg, hpg]
      exact congrArg (fun k => (Run.pop k).generator.moveTo g.cursor) hloop
    have hpop : (Run.pop ((body ((repeated n).entered g)).generator.closeLoop g.depth)).outcome =
        .ok popped := by
      rw [hentered]
      exact (congrArg (fun k => (Run.pop k).outcome) hloop).symm.trans hpop
    have hreleased := Run.emits_pop hpop
    have hslotted : h.cursor = g.depth := hslot.cursor
    refine ⟨hentered ▸ hbody, ?_, by rw [hentered]; rfl, ?_, by rw [hrun]; rfl, fun eof m hm => ?_⟩
    · have hopened : (h.openLoop g.depth).cursor = g.depth := rfl
      rw [hentered, Generator.program_moveTo, Program.symbols_append, symbols_ofText_seek, hopened,
        Generator.Emits.symbols_openLoop, hslot.symbols, hslotted, LoopTree.moves_self]
      simp [LoopTree.symbols, counter, origin]
    · have hclosed : (Run.pop ((body ((repeated n).entered g)).generator.closeLoop
          g.depth)).generator.cursor = g.depth := hreleased.cursor
      rw [hrun, Generator.program_moveTo, Program.symbols_append, symbols_ofText_seek, hclosed,
        hreleased.symbols, Generator.Emits.symbols_closeLoop]
      simp [Routine.code, LoopTree.symbols, counter, origin]
    · exact (Routine.runs_code_iff _ g.cursor m _ hm).mpr ((Routine.runs_set eof g.depth n m _).mpr rfl)

theorem exists_laid {reply : Reply} (hhead : head ≠ .attempt)
    (hok : (head.run body g).outcome = .ok reply) : ∃ front, head.Laid body g front := by
  cases head with
  | countDown cell => exact ⟨_, laid_countDown cell hok⟩
  | countDownAccumulator =>
    obtain ⟨hbody, hentered, hcursor, hrun, hfinal, hfront⟩ := laid_countDown Layout.accumulator hok
    exact ⟨_, hbody, hentered, hcursor, hrun, hfinal, hfront⟩
  | repeated n => exact ⟨_, laid_repeated hok⟩
  | attempt => exact absurd rfl hhead

theorem Laid.holds {front tree : LoopTree} {text : String} {ops : Array Op}
    (hl : head.Laid body g front)
    (hcode : (body (head.entered g)).generator.program.symbols =
      (head.entered g).program.symbols ++ tree.symbols)
    (hb : (head.run body g).generator.Begins text ops) :
    Placed ops g.size (front.ops g.size) ∧ ∃ close, (head.site body g).Holds ops
      (body (head.entered g)).generator.cursor (g.size + front.length) close := by
  have hentered : (head.entered g).size = g.size + front.length + 2 +
      (LoopTree.moves (head.counter g) (head.origin g)).length := by
    unfold Generator.size Program.length
    rw [hl.entered]
    simp
    omega
  have hleft : (body (head.entered g)).generator.size = (head.entered g).size + tree.length := by
    unfold Generator.size Program.length
    rw [hcode, List.length_append, LoopTree.length_symbols]
  have hsymbols : (head.run body g).generator.program.symbols = g.program.symbols ++
      (front ++ .counted (head.counter g) (head.origin g) tree
        (body (head.entered g)).generator.cursor).symbols := by
    rw [hl.run, hcode, hl.entered]
    simp [LoopTree.counted, LoopTree.symbols, Basic.symbol]
  obtain ⟨hp, hsize⟩ := hb.placed hsymbols
  obtain ⟨hfront, hloop⟩ := hp.append
  rw [LoopTree.length_append, ← Nat.add_assoc] at hsize
  exact ⟨hfront, _, LoopSite.holds_of_placed hloop (Nat.le_add_right _ _) hentered hleft hsize⟩

/-- Wherever its code is entered with the head at the cell for which it was generated, the body is run
to its end, and the counter is then what it was. -/
def BodyRuns (head : Block) (body : Generator → Run) (g : Generator) (ops : Array Op)
    (eof : EofPolicy) : Prop :=
  ∀ e : Store, e.head = (head.entered g).cursor →
    ∃ x : Store, Crosses ops eof (head.site body g).first (head.site body g).last e x ∧
      x.tape.get (head.counter g) = e.tape.get (head.counter g)

/-- At the end of the body the head is where the generator takes it to be. -/
def BodyLands (head : Block) (body : Generator → Run) (g : Generator) (ops : Array Op)
    (eof : EofPolicy) : Prop :=
  ∀ e x : Store, e.head = (head.entered g).cursor →
    Crosses ops eof (head.site body g).first (head.site body g).last e x →
      x.head = (body (head.entered g)).generator.cursor

/-- A body that does what a plain script does is the code of a tree, and leaves the head where the
generator takes it to be. -/
theorem bodyLands_of_plain {script : Script} {reply : Reply} {text : String} {ops : Array Op}
    (hplain : script.Plain) (hscript : body (head.entered g) = script.run (head.entered g))
    (hhead : head ≠ .attempt) (hok : (head.run body g).outcome = .ok reply)
    (hbegins : (head.run body g).generator.Begins text ops) :
    (∃ tree : LoopTree, (body (head.entered g)).generator.program.symbols =
      (head.entered g).program.symbols ++ tree.symbols) ∧
    ∀ eof, head.BodyLands body g ops eof := by
  obtain ⟨front, hlaid⟩ := exists_laid hhead hok
  obtain ⟨first, hfirst⟩ := hlaid.ok
  have hemits := script.emits_run hplain (head.entered g) first (hscript ▸ hfirst)
  rw [← hscript] at hemits
  refine ⟨⟨_, hemits.symbols⟩, fun eof e x hs hx => ?_⟩
  exact hemits.head_of_crosses (hbegins.of_append hlaid.run) hs hx

/-- A body that does `f` to the memory, where `f` leaves the counter alone. -/
theorem bodyRuns_of_achieves {f : Memory → Memory} {reply : Reply} {text : String} {ops : Array Op}
    (hf : (head.entered g).Achieves (body (head.entered g)).generator f)
    (hcounter : ∀ m, m.head = head.origin g → (f m).cells (head.counter g) = m.cells (head.counter g))
    (hhead : head ≠ .attempt) (hok : (head.run body g).outcome = .ok reply)
    (hbegins : (head.run body g).generator.Begins text ops) (eof : EofPolicy) :
    head.BodyRuns body g ops eof ∧ ∀ e x : Store, e.head = head.origin g →
      Crosses ops eof (head.site body g).first (head.site body g).last e x →
        x.memory = f e.memory := by
  obtain ⟨front, hlaid⟩ := exists_laid hhead hok
  have hruns := hf (hbegins.of_append hlaid.run) eof
  constructor
  · intro e he
    obtain ⟨x, hx, hmemory⟩ := hruns e he
    refine ⟨x, hx, ?_⟩
    show x.memory.cells _ = e.memory.cells _
    rw [hmemory, hcounter _ (he.trans hlaid.cursor_entered)]
  · intro e x he hx
    obtain ⟨y, hy, hmemory⟩ := hruns e (he.trans hlaid.cursor_entered.symm)
    rw [hx.unique hy, hmemory]

/-- A loop runs its body as often as the counter says, if the body's code is a tree's, leaves the counter
alone, and leaves the head at the cursor. The first and the last are so for plain scripts. -/
theorem runs_rounds {reply : Reply} {text : String} {ops : Array Op} (hhead : head ≠ .attempt)
    (hok : (head.run body g).outcome = .ok reply)
    (hbegins : (head.run body g).generator.Begins text ops) :
    (∀ (tree : LoopTree) (eof : EofPolicy),
      (body (head.entered g)).generator.program.symbols =
        (head.entered g).program.symbols ++ tree.symbols →
      head.BodyRuns body g ops eof → head.BodyLands body g ops eof →
      ∀ s : Store, s.head = g.cursor →
      ∃ (pc : Nat) (b t : Store),
        Walks ops eof (head.site body g).Frame (s.toState g.size) (b.toState pc) ∧
        b.memory = head.begun g s.memory ∧
        Rounds ops eof (head.site body g) (head.count s.memory).toNat pc b t ∧
        Crosses ops eof g.size (head.run body g).generator.size s t ∧
        t.tape.get (head.counter g) = 0 ∧ t.head = head.origin g ∧
        (head.run body g).generator.cursor = head.origin g ∧
        ∀ f : Memory → Memory,
          (∀ e x : Store, e.head = head.origin g →
            Crosses ops eof (head.site body g).first (head.site body g).last e x →
              x.memory = f e.memory) →
          t.memory = ((fun m => f ((m.take (head.counter g)).go (head.origin g)))^[
            (head.count s.memory).toNat] (head.begun g s.memory)).go (head.origin g)) ∧
    ∀ script : Script, script.Plain → body (head.entered g) = script.run (head.entered g) →
      (∃ tree : LoopTree, (body (head.entered g)).generator.program.symbols =
        (head.entered g).program.symbols ++ tree.symbols) ∧
      ∀ eof, head.BodyLands body g ops eof := by
  refine ⟨fun tree eof hcode hbody hlands s hs => ?_, fun script hplain hscript =>
    bodyLands_of_plain hplain hscript hhead hok hbegins⟩
  obtain ⟨front, hlaid⟩ := exists_laid hhead hok
  obtain ⟨hfront, close, hholds⟩ := hlaid.holds hcode hbegins
  have horder := hholds.order
  obtain ⟨b, hb, hmemory⟩ := crosses_of_runs hfront (hlaid.front eof s.memory hs)
  have hcounter : b.head = head.counter g := (congrArg Memory.head hmemory).trans (head.head_begun g _)
  have hcount : b.memory.cells (head.counter g) = head.count s.memory := by
    rw [hmemory, counter_begun hhead]
  have hround : ∀ e : Store, e.head = (head.site body g).origin →
      ∃ x : Store, Crosses ops eof (head.site body g).first (head.site body g).last e x ∧
        x.memory.cells (head.counter g) = e.memory.cells (head.counter g) ∧
          x.head = (body (head.entered g)).generator.cursor := by
    intro e he
    have he : e.head = (head.entered g).cursor := he.trans hlaid.cursor_entered.symm
    obtain ⟨x, hx, hcounter⟩ := hbody e he
    exact ⟨x, hx, hcounter, hlands e x he hx⟩
  obtain ⟨t, ht, hzero⟩ := hholds.exists_rounds hround _ _ b (hholds.exists_test hcounter)
    (congrArg UInt8.toNat hcount)
  have hwalk : Walks ops eof (head.site body g).Frame (s.toState g.size)
      (b.toState (g.size + front.length)) :=
    hb.frame (Nat.le_refl _) (by omega) (.inl (by omega))
  refine ⟨_, b, t, hwalk, hmemory, ht, ?_, hzero, ht.head, hlaid.cursor_run, fun f hf => ?_⟩
  · exact (hwalk.mono fun _ hpc => hpc.1).trans (ht.walks (by omega) (by omega))
  · rw [← hmemory]
    exact ht.memory hf

/-- Three rounds of a body that goes to another cell and does not go back. -/
theorem runs_rounds_three :
    let g := ({} : Generator).moveTo 5
    let script := Script.ofActions [.moveTo 12, .increment 100]
    let h := ((repeated 3).run script.run g).generator
    let s : Store := { head := 5, tape := ⟨#[9, 0, 0, 0, 0, 254]⟩ }
    ∃ ops, h.Begins h.program.text ops ∧ ∀ eof,
      (repeated 3).BodyRuns script.run g ops eof ∧ (repeated 3).BodyLands script.run g ops eof ∧
      ∃ t : Store, Crosses ops eof g.size h.size s t ∧
        (List.range 13).map t.memory.cells = [0, 0, 0, 0, 0, 254, 0, 0, 0, 0, 0, 0, 44] ∧
          t.head = 5 := by
  intro g script h s
  have hhead : repeated 3 ≠ .attempt := nofun
  have hok : ((repeated 3).run script.run g).outcome = .ok .done := rfl
  have hplain : script.Plain := by decide
  have hbegins := ((Generator.Emits.moveTo {} 5).trans
    (emits_run (script.emits_run hplain) hhead hok)).begins
  refine ⟨_, hbegins, fun eof => ?_⟩
  obtain ⟨hrounds, hscripts⟩ := runs_rounds hhead hok hbegins
  obtain ⟨⟨tree, hcode⟩, hlands⟩ := hscripts script hplain rfl
  let f : Memory → Memory := fun m => (m.go 12).put (m.cells 12 + 100)
  have hachieves : ((repeated 3).entered g).Achieves
      (script.run ((repeated 3).entered g)).generator f :=
    ((Generator.Emits.moveTo _ 12).trans (.raise _ 100)).achieves fun eof m =>
      (Routine.runs_raise eof 12 100 m _).mpr rfl
  obtain ⟨hbody, heffect⟩ :=
    bodyRuns_of_achieves hachieves (fun _ _ => rfl) hhead hok hbegins eof
  obtain ⟨-, -, t, -, -, -, ht, -, hlanded, -, hmemory⟩ :=
    hrounds tree eof hcode hbody (hlands eof) s rfl
  refine ⟨hbody, hlands eof, t, ht, ?_, hlanded⟩
  rw [hmemory f heffect]
  decide

/-! ## Raw code that the generator does not see through -/

def emitting (raw : String) : Generator → Run := fun g => (Action.emit raw).run g

/-- The code of a loop around raw code. The brackets of the loop need not match each other. -/
theorem symbols_emitting (raw : String) (g : Generator) :
    ((countDown g.cursor).entered g).program.symbols =
      g.program.symbols ++ [.loopStart, .decrement] ∧
    (emitting raw ((countDown g.cursor).entered g)).generator.program.symbols =
      g.program.symbols ++ .loopStart :: .decrement :: (Program.ofText raw).symbols ∧
    ((countDown g.cursor).run (emitting raw) g).generator.program.symbols = g.program.symbols ++
      .loopStart :: .decrement :: ((Program.ofText raw).symbols ++ [.loopEnd]) := by
  obtain ⟨-, hentered, -, hrun, -, -⟩ : (countDown g.cursor).Laid (emitting raw) g _ :=
    laid_countDown g.cursor rfl
  have hcursor : (emitting raw ((countDown g.cursor).entered g)).generator.cursor = g.cursor := rfl
  have hemit : (emitting raw ((countDown g.cursor).entered g)).generator.program =
      ((countDown g.cursor).entered g).program ++ Program.ofText raw := Generator.program_emit _ raw
  rw [hcursor, hemit] at hrun
  rw [hemit]
  rw [counter, origin, LoopTree.moves_self] at hentered hrun
  simp [hentered, hrun, LoopTree.symbols]

/-- The body runs to its end and leaves the counter alone wherever it is entered, but from `s` the loop
does not come to its end with zero in the counter. -/
def Miscounts (head : Block) (body : Generator → Run) (g : Generator) (s : Store) : Prop :=
  let h := (head.run body g).generator
  ∃ ops, h.Begins h.program.text ops ∧ ∀ eof, head.BodyRuns body g ops eof ∧ s.head = g.cursor ∧
    ¬ ∃ t : Store, Crosses ops eof g.size h.size s t ∧ t.tape.get (head.counter g) = 0

/-- If the code of a loop around raw code is that of a tree, if the raw code leaves the counter alone,
and if the tree leaves a number in it, then the loop is left too early. -/
theorem miscounts_emitting {raw : String} {tree : LoopTree}
    (htree : tree.symbols = .loopStart :: .decrement :: ((Program.ofText raw).symbols ++ [.loopEnd]))
    (hbody : ∀ {ops eof pc}, Placed ops pc (tree.ops pc) → ∀ e : Store, e.head = 5 →
      ∃ x : Store, Crosses ops eof (pc + 2) (pc + (tree.length - 1)) e x ∧
        x.tape.get 5 = e.tape.get 5) {s : Store} (hs : s.head = 5)
    (hend : ∀ eof, ∃ m, tree.runs eof s.memory (.completed m) ∧ m.cells 5 ≠ 0) :
    (countDown 5).Miscounts (emitting raw) (({} : Generator).set 5 3) s := by
  let g := ({} : Generator).set 5 3
  obtain ⟨hentered, hleft, hrun⟩ := symbols_emitting raw g
  rw [← htree] at hrun
  have hprogram : ((countDown 5).run (emitting raw) g).generator.program.symbols =
      ((Routine.line [.go 5, .clear, .raise 3]).code 0 ++ tree).symbols := by
    rw [LoopTree.symbols_append]
    exact hrun.trans (congrArg (· ++ tree.symbols) (Generator.Emits.set {} 5 3).symbols)
  have hbegins := Generator.Begins.whole hprogram
  obtain ⟨hp, hsize⟩ := hbegins.placed hrun
  have hfirst : ((countDown 5).site (emitting raw) g).first = g.size + 2 := by
    refine (congrArg List.length hentered).trans ?_
    rw [List.length_append]
    rfl
  have hlast : ((countDown 5).site (emitting raw) g).last = g.size + (tree.length - 1) := by
    refine (congrArg List.length hleft).trans ?_
    rw [← LoopTree.length_symbols, htree]
    simp
    rfl
  refine ⟨_, hbegins, fun eof => ⟨fun e he => ?_, hs, ?_⟩⟩
  · rw [hfirst, hlast]
    exact hbody hp e he
  · rintro ⟨t, ht, hzero⟩
    obtain ⟨m, hm, hne⟩ := hend eof
    obtain ⟨x, hx, rfl⟩ := crosses_of_runs hp hm
    rw [hsize] at ht
    obtain rfl := ht.unique hx
    exact hne hzero

theorem crosses_right {ops : Array Op} {eof : EofPolicy} {pc : Nat}
    (hp : Placed ops pc ((LoopTree.loop (.basic .decrement (.basic .right .done)) .done).ops pc))
    (e : Store) : ∃ x : Store, Crosses ops eof (pc + 2) (pc + 3) e x ∧
      x.tape.get 5 = e.tape.get 5 := by
  have hruns : (LoopTree.basic .right .done).runs eof e.memory
      (.completed (e.memory.go (e.head + 1))) := Behaviour.andThen_completed rfl rfl
  obtain ⟨x, hx, hmemory⟩ := crosses_of_runs hp.loop.1.tail hruns
  exact ⟨x, hx, congrFun (congrArg Memory.cells hmemory) 5⟩

/-- The code `[->[-]]+[<]`, in which the loop that is opened first is closed in the middle. -/
def twisted : LoopTree :=
  .loop (.basic .decrement ((Routine.line [.go 6, .clear]).code 5))
    (.basic .increment .done ++ .loop (.moves 6 5) .done)

theorem crosses_twisted {ops : Array Op} {eof : EofPolicy} {pc : Nat}
    (hp : Placed ops pc (twisted.ops pc)) {e : Store} (he : e.head = 5) :
    ∃ x : Store, Crosses ops eof (pc + 2) (pc + 10) e x ∧ x.tape.get 5 = e.tape.get 5 := by
  obtain ⟨hfirst, hclose, hrest⟩ := hp.loop
  obtain ⟨hraise, hloop⟩ := hrest.append
  have hclose : ops[pc + 6]? = some (.jumpUnlessZero pc) := hclose
  have hopen : ops[pc + 8]? = some (.jumpIfZero (pc + 10)) := hloop.head
  have hcleared : ((Routine.line [.go 6, .clear]).code 5).runs eof e.memory
      (.completed ((e.memory.go 6).put 0)) :=
    (Routine.runs_code_iff _ 5 e.memory _ he).mpr ((Routine.runs_clear eof 6 e.memory _).mpr rfl)
  obtain ⟨a, ha, hzero⟩ := crosses_of_runs hfirst.tail hcleared
  have hout : next? ops eof (a.toState (pc + 6)) = some (a.tick.toState (pc + 7)) := by
    have hcell : a.cell = 0 := by
      rw [← Store.value_memory, hzero, Memory.value_put]
    rw [next?_jumpUnlessZero hclose, if_pos hcell]
  have hraised : (LoopTree.basic .increment .done).runs eof a.tick.memory
      (.completed (a.memory.put (a.memory.value + 1))) := Behaviour.andThen_completed rfl rfl
  obtain ⟨b, hb, hone⟩ := crosses_of_runs hraise hraised
  rw [hzero, Memory.value_put, Memory.put_put] at hone
  have hin : next? ops eof (b.toState (pc + 8)) = some (b.tick.toState (pc + 9)) := by
    have hcell : b.cell ≠ 0 := by
      rw [← Store.value_memory, hone, Memory.value_put]
      decide
    rw [next?_jumpIfZero hopen, if_neg hcell]
  have hback : (LoopTree.moves 6 5).runs eof b.tick.memory (.completed (b.memory.go 5)) :=
    (runs_moves 6 5 b.memory _ (congrArg Memory.head hone)).mpr rfl
  obtain ⟨x, hx, hfinal⟩ := crosses_of_runs hloop.loop.1 hback
  have ha : Crosses ops eof (pc + 2) (pc + 6) e a := ha
  have hb : Crosses ops eof (pc + 7) (pc + 8) a.tick b := hb
  have hx : Crosses ops eof (pc + 9) (pc + 10) b.tick x := hx
  have hat : ∀ i, pc + 2 ≤ i → i < pc + 10 → Inside (pc + 2) (pc + 10) i := fun _ => .intro
  refine ⟨x, ?_, ?_⟩
  · refine (((Walks.mono ha ?_).trans (.step (hat (pc + 6) (by omega) (by omega)) hout)).trans
      (Walks.mono hb ?_)).trans ((Walks.step (hat (pc + 8) (by omega) (by omega)) hin).trans
        (Walks.mono hx ?_))
    all_goals
      rintro i ⟨hlo, hhi⟩
      exact hat i (by omega) (by omega)
  · show x.memory.cells 5 = e.memory.cells 5
    rw [hfinal, hone]
    rfl

/-- It is not enough that the body runs to its end and leaves the counter alone: raw code may leave the head
elsewhere, or have brackets that match those of the loop. -/
theorem bodyRuns_not_sufficient :
    (countDown 5).Miscounts (emitting ">") (({} : Generator).set 5 3)
      { head := 5, tape := ⟨#[0, 0, 0, 0, 0, 3]⟩ } ∧
    (countDown 5).Miscounts (emitting ">[-]]+[<") (({} : Generator).set 5 3)
      { head := 5, tape := ⟨#[0, 0, 0, 0, 0, 3]⟩ } := by
  constructor
  · refine miscounts_emitting (by decide) (fun hp e _ => crosses_right hp e) rfl fun eof => ?_
    exact ⟨_, runs_of_exec _ 0 _ _ (rfl : (LoopTree.exec 20 eof _ 0 _).final? = _), by decide⟩
  · refine miscounts_emitting (by decide) (fun hp e he => crosses_twisted hp he) rfl fun eof => ?_
    exact ⟨_, runs_of_exec _ 0 _ _ (rfl : (LoopTree.exec 20 eof _ 0 _).final? = _), by decide⟩

end Block

end TapeMachine
