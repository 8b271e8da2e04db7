import Mathlib.Data.Nat.Find
import TapeMachine.Proofs.Tracking
import TapeMachine.Proofs.Transfer

/-!
# Repeated increments

A repeated increment adds to the cell at the cursor as often as its loop has rounds. Two things have to
be so: the head is at the cursor where the loop begins, which the generator knows unless raw code has moved
the head; and the counter of the loop, which is kept in the next slot, is another cell than the one that is
added to.

* `Eventually text inputs eof Q` : with enough cycles the text leaves a result as `Q` says;
* `Generator.Achieves.completes` : code that comes to its end may be put behind a program that is completed.
  Code that is never left makes the program run into every limit (`AchievesOnly.cut_off`);
* `Generator.repeated_increment_adds` : what a repeated increment adds;
* `Generator.achievesOnly_repeatIncrement` : what it comes to on the slot itself, where a new generator is.
-/

namespace TapeMachine

open Machine

/-! ## Programs that are added to -/

theorem exists_decode_of_result {text : String} {inputs : List UInt8} {config : Config} {r : Result}
    (hrun : (execute text inputs config).result = .ok r) : ∃ ops, Op.decode text = .ok ops := by
  cases hdecode : Op.decode text with
  | error e =>
    rw [execute, load, hdecode] at hrun
    cases hrun
  | ok ops => exact ⟨ops, rfl⟩

theorem exists_runs_of_completed {text : String} {inputs : List UInt8} {config : Config} {r : Result}
    (hrun : (execute text inputs config).result = .ok r) (hhalt : r.halt = .completed) :
    ∃ (tree : LoopTree) (m : Memory), (Program.ofText text).symbols = tree.symbols ∧
      tree.runs config.eof (Memory.start inputs) (.completed m) ∧ r.Shows (.completed m) := by
  obtain ⟨ops, hdecode⟩ := exists_decode_of_result hrun
  obtain ⟨tree, htree, -⟩ := exists_tree_of_decode hdecode
  have hruns := @runs_of_exec config.maxCycles config.eof tree 0 (Store.start inputs)
  rw [result_execute_of_symbols text inputs config tree htree.symm] at hrun
  rw [memory_start] at hruns
  cases he : tree.exec config.maxCycles config.eof 0 (Store.start inputs) with
  | through s =>
    rw [he] at hrun hruns
    cases hrun
    exact ⟨tree, s.memory, htree.symm, hruns _ rfl, rfl, rfl, fun c => rfl⟩
  | cut s =>
    rw [he] at hrun
    cases hrun
    cases hhalt
  | starved pc s =>
    rw [he] at hrun
    cases hrun
    cases hhalt
  | fell pc =>
    rw [he] at hrun
    cases hrun

/-- Once enough cycles are allowed, a run of the text leaves a result as `Q` says. -/
def Eventually (text : String) (inputs : List UInt8) (eof : EofPolicy) (Q : Result → Prop) : Prop :=
  ∃ bound, ∀ config : Config, config.eof = eof → bound ≤ config.maxCycles →
    ∃ r, (execute text inputs config).result = .ok r ∧ Q r

section Eventually
variable {text : String} {inputs : List UInt8} {eof : EofPolicy} {Q Q' : Result → Prop}

theorem Eventually.mono (h : Eventually text inputs eof Q) (hQ : ∀ r, Q r → Q' r) :
    Eventually text inputs eof Q' := by
  obtain ⟨bound, hruns⟩ := h
  refine ⟨bound, fun config heof hbound => ?_⟩
  obtain ⟨r, hr, hq⟩ := hruns config heof hbound
  exact ⟨r, hr, hQ r hq⟩

theorem eventually_of_reaches {ops : Array Op} {t : State} (hdecode : Op.decode text = .ok ops)
    (hreach : Reaches ops eof (start inputs) t) (hend : ops[t.pc]? = none) :
    Eventually text inputs eof (· = conclude (t.stop .completed)) := by
  refine ⟨t.cycles, fun config heof hbound => ⟨_, ?_, rfl⟩⟩
  rw [result_execute inputs hdecode]
  exact outcome_of_endsAt ⟨heof ▸ hreach, hbound⟩ (.completed hend)

theorem eventually_of_completed {config : Config} {r : Result}
    (hrun : (execute text inputs config).result = .ok r) (hhalt : r.halt = .completed) :
    Eventually text inputs config.eof (· = r) := by
  obtain ⟨ops, hdecode⟩ := exists_decode_of_result hrun
  have houtcome : outcome ops config (start inputs) = .ok r :=
    (result_execute inputs hdecode).symm.trans hrun
  obtain ⟨t, ⟨hreach, -⟩, hend⟩ := exists_endsAt (s := start inputs) ops config rfl (Nat.zero_le _)
  rw [houtcome] at hend
  cases hend with
  | completed hop => exact eventually_of_reaches hdecode hreach hop
  | cycleLimit => cases hhalt
  | inputExhausted => cases hhalt

/-- What is true of runs in the end is true of one result. -/
theorem Eventually.exists_both (h : Eventually text inputs eof Q)
    (h' : Eventually text inputs eof Q') : ∃ r, Q r ∧ Q' r := by
  obtain ⟨bound, hruns⟩ := h
  obtain ⟨bound', hruns'⟩ := h'
  obtain ⟨r, hr, hq⟩ := hruns { maxCycles := max bound bound', eof } rfl (Nat.le_max_left _ _)
  obtain ⟨r', hr', hq'⟩ := hruns' { maxCycles := max bound bound', eof } rfl (Nat.le_max_right _ _)
  cases hr.symm.trans hr'
  exact ⟨r, hq, hq'⟩

end Eventually

namespace Generator

section Added
variable {g h : Generator} {inputs : List UInt8} {config : Config} {r : Result} {code : LoopTree}

/-- A longer program comes to the end of the shorter one as this does by itself. -/
theorem exists_store_behind (hrun : (execute g.program.text inputs config).result = .ok r)
    (hhalt : r.halt = .completed) (htracks : g.Tracks config.eof inputs)
    (hcode : h.program.symbols = g.program.symbols ++ code.symbols) :
    ∃ (ops : Array Op) (s : Store), h.Begins h.program.text ops ∧ ops.size = h.size ∧
      Reaches ops config.eof (start inputs) (s.toState g.size) ∧ s.head = g.cursor ∧
        r.Shows (.completed s.memory) := by
  obtain ⟨tree, m, htree, hruns, hshows⟩ := exists_runs_of_completed hrun hhalt
  have hdecode := LoopTree.decode_of_symbols _ tree htree
  rw [Program.ofText_text] at htree
  rw [← memory_start] at hruns
  have hb : h.Begins h.program.text ((tree ++ code).ops 0).toArray :=
    .whole (by rw [hcode, htree, LoopTree.symbols_append])
  have hwhole : g.program.symbols = ({} : Generator).program.symbols ++ tree.symbols := htree
  obtain ⟨hplaced, hsize⟩ := (hb.of_append hcode).placed hwhole
  obtain ⟨s, hs, hmemory⟩ := crosses_of_runs hplaced hruns
  rw [← hsize] at hs
  -- the head is where the shorter program leaves it
  obtain ⟨t, ht, hreach⟩ := arrives_of_runs tree 0 _ _ (Placed.whole (tree.ops 0)) hruns
  have hhead : t.head = g.cursor := htracks _ _ hdecode hreach (by simp [Store.toState])
  have hsame : s.head = t.head := congrArg Memory.head (hmemory.trans ht.symm)
  refine ⟨_, s, hb, ?_, Walks.reaches hs, hsame.trans hhead, hmemory ▸ hshows⟩
  rw [size, Program.length, hcode, htree]
  simp [LoopTree.length_append]

/-- Where a program is completed, so is the program with code that comes to its end behind it. -/
theorem Achieves.completes {f : Memory → Memory} (hf : g.Achieves h f)
    (hrun : (execute g.program.text inputs config).result = .ok r) (hhalt : r.halt = .completed)
    (htracks : g.Tracks config.eof inputs)
    (hcode : h.program.symbols = g.program.symbols ++ code.symbols) :
    ∃ m : Memory, r.Shows (.completed m) ∧
      Eventually h.program.text inputs config.eof (·.Shows (.completed (f m))) := by
  obtain ⟨ops, s, hb, hsize, hreach, hhead, hshows⟩ :=
    exists_store_behind hrun hhalt htracks hcode
  obtain ⟨t, ht, hmemory⟩ := hf hb config.eof s hhead
  have hend : ops[(t.toState h.size).pc]? = none :=
    Array.getElem?_eq_none_iff.mpr (Nat.le_of_eq hsize)
  have hruns := eventually_of_reaches hb.decode (hreach.trans (Walks.reaches ht)) hend
  refine ⟨s.memory, hshows, hruns.mono fun r' hr' => ?_⟩
  rw [hr', ← hmemory]
  exact ⟨rfl, rfl, fun c => rfl⟩

/-- Where a program is completed and the code behind it is never left, the longer program is cut off. -/
theorem AchievesOnly.cut_off {P : Memory → Prop} {f : Memory → Memory} (hf : g.AchievesOnly h P f)
    (hP : ∀ m, ¬ P m) (hrun : (execute g.program.text inputs config).result = .ok r)
    (hhalt : r.halt = .completed) (htracks : g.Tracks config.eof inputs)
    (hcode : h.program.symbols = g.program.symbols ++ code.symbols) :
    Eventually h.program.text inputs config.eof (·.halt = .cycleLimit) := by
  obtain ⟨ops, s, hb, -, hreach, hhead, -⟩ := exists_store_behind hrun hhalt htracks hcode
  obtain ⟨-, hnever⟩ := (hf hb config.eof s hhead).2 (hP s.memory)
  refine ⟨s.cycles, fun config' heof hbound => ?_⟩
  rw [← heof] at hreach
  obtain ⟨r', hr', hcut, -⟩ := hnever config' (start inputs) heof rfl ⟨hreach, hbound⟩
  rw [Machine.result_run] at hr'
  refine ⟨r', ?_, hcut⟩
  rw [result_execute inputs hb.decode]
  exact hr'

end Added

/-! ## Repeating an increment -/

/-- A loop of `n` rounds which add `k` to the cell under the head. -/
def repeatIncrement (g : Generator) (n : UInt8) (k : Nat) : Run :=
  (Block.repeated n).run (Script.act (.increment k) .done).run g

section Repeat
variable {g : Generator} (n : UInt8) (k : Nat)

/-- The only thing that can be refused is the slot of the counter. -/
theorem outcome_repeatIncrement (hdepth : g.depth < Layout.scratchSlots) :
    (g.repeatIncrement n k).outcome = .ok .done := by
  obtain ⟨listing, cursor, ⟨depth⟩⟩ := g
  have hfree : depth < Layout.scratchSlots := hdepth
  simp only [repeatIncrement, Block.run, Block.runRepeated, push, Scratch.push, hfree, ↓reduceIte]
  rfl

theorem emits_repeatIncrement (hdepth : g.depth < Layout.scratchSlots) :
    g.Emits (g.repeatIncrement n k).generator
      (.line [.go g.depth, .clear, .raise n.toNat] ++
        .countDown g.depth (.line [.go g.cursor, .raise k]) (.line [.go g.cursor])) g.depth :=
  Block.emits_runRepeated (Script.emits_run (.act (.increment k) .done) ⟨trivial, trivial⟩)
    (outcome_repeatIncrement n k hdepth)

/-- From a cell that is not the slot, the rounds leave the counter alone, and the cell gets `k` as often as
it says. -/
theorem achieves_repeatIncrement (hdepth : g.depth < Layout.scratchSlots) (hslot : g.cursor ≠ g.depth) :
    g.Achieves (g.repeatIncrement n k).generator (fun m => { m with
      cells := Function.update (Function.update m.cells g.cursor
        (m.cells g.cursor + n * UInt8.ofNat k)) g.depth 0
      head := g.cursor }) := by
  refine (emits_repeatIncrement n k hdepth).achieves fun eof m => ?_
  rw [Routine.runs_append]
  refine Behaviour.andThen_completed ((Routine.runs_set eof g.depth n m _).mpr rfl) ?_
  have hdrains := (shifts_raise_by eof g.cursor k).drains (single_of_ne hslot.symm _)
    ((m.go g.depth).put n)
  rw [Routine.runs, Routine.runs_go]
  refine Behaviour.andThen_completed hdrains ?_
  rw [Memory.drained_single]
  simp only [Behaviour.go, Behaviour.update, Behaviour.ofFinal, Memory.go, Memory.put,
    Final.completed.injEq, Memory.mk.injEq, and_true]
  funext c
  simp only [Function.update_apply]
  grind

/-- On the slot itself a round takes one from the counter and adds `k` to it, so the loop ends after the
first number of rounds that make it zero, if there is one. -/
theorem achievesOnly_repeatIncrement (hdepth : g.depth < Layout.scratchSlots)
    (hslot : g.cursor = g.depth) : g.AchievesOnly (g.repeatIncrement n k).generator
      (fun _ => ∃ j, n + UInt8.ofNat j * (UInt8.ofNat k - 1) = 0)
      (fun m => { m with cells := Function.update m.cells g.cursor 0, head := g.cursor }) := by
  have hemits := emits_repeatIncrement n k hdepth
  rw [← hslot] at hemits
  have hset (m : Memory) : ((m.go g.cursor).put n).cells g.cursor = n := Function.update_self _ _ _
  refine hemits.achievesOnly (fun eof m hends => ?_) fun text ops hb eof s hs hnever => ?_
  · rw [Routine.runs_append]
    refine Behaviour.andThen_completed ((Routine.runs_set eof g.cursor n m _).mpr rfl) ?_
    have hcount := (shifts_raise_by eof g.cursor k).countDown g.cursor (Nat.find hends)
      ((m.go g.cursor).put n)
    rw [hset, single_self] at hcount
    rw [Routine.runs, Routine.runs_go]
    refine Behaviour.andThen_completed
      (hcount (fun j hj => Nat.find_min hends hj) (Nat.find_spec hends)) ?_
    have hzero := Nat.find_spec hends
    simp only [Behaviour.go, Behaviour.update, Behaviour.ofFinal, Memory.go, Memory.put, Memory.shift,
      Final.completed.injEq, Memory.mk.injEq, and_true]
    funext c
    by_cases hc : c = g.cursor
    · rw [hc, Function.update_self, Function.update_self, single_self, single_self, hzero]
    · rw [Function.update_of_ne hc, Function.update_of_ne hc, single_of_ne hc, single_of_ne hc]
      grind
  · refine hemits.forever _ hb (shifts_raise_by eof g.cursor k) hs
      ((Routine.runs_set eof g.cursor n s.memory _).mpr rfl) fun j hj => hnever ⟨j, ?_⟩
    rw [hset, single_self] at hj
    exact hj

end Repeat

/-- Repeating an increment adds to the cell at the cursor as often as it says, behind a program that is
completed and leaves the head at the cursor, where this is not the slot of the counter. -/
theorem repeated_increment_adds {g : Generator} {inputs : List UInt8} {config : Config} {r : Result}
    (n : UInt8) (k : Nat) (hdepth : g.depth < Layout.scratchSlots) (hslot : g.cursor ≠ g.depth)
    (hhead : (∃ s : Script, s.Tame ∧ (s.run {}).generator = g) ∨ g.Tracks config.eof inputs)
    (hrun : (execute g.program.text inputs config).result = .ok r) (hhalt : r.halt = .completed) :
    (g.repeatIncrement n k).outcome = .ok .done ∧
    Eventually (g.repeatIncrement n k).generator.program.text inputs config.eof fun r' =>
      r'.halt = .completed ∧ r'.cell g.cursor = r.cell g.cursor + n * UInt8.ofNat k ∧
        r'.cell g.depth = 0 ∧ (∀ c, c ≠ g.cursor → c ≠ g.depth → r'.cell c = r.cell c) ∧
          r'.outputs = r.outputs := by
  have htracks : g.Tracks config.eof inputs := by
    rcases hhead with ⟨s, hs, rfl⟩ | htracks
    · exact Script.tracks hs config.eof inputs
    · exact htracks
  refine ⟨outcome_repeatIncrement n k hdepth, ?_⟩
  obtain ⟨m, ⟨-, houtputs, hcells⟩, hlonger⟩ :=
    (achieves_repeatIncrement n k hdepth hslot).completes hrun hhalt htracks
      (emits_repeatIncrement n k hdepth).symbols
  refine hlonger.mono fun r' => ?_
  rintro ⟨hhalt', houtputs', hcells'⟩
  refine ⟨hhalt', ?_, ?_, fun c hcursor hother => ?_, houtputs'.trans houtputs.symm⟩
  · simp [hcells', hcells, hslot]
  · simp [hcells']
  · simp [hcells', hcells, hcursor, hother]

/-- Behind a release that is refused and caught, three is added to seven a hundred times. -/
theorem repeated_increment_adds_wrapped :
    let s : Script := .block .attempt (.act .pop .done) (.act (.moveTo 5) (.act (.increment 7) .done))
    let g := (s.run {}).generator
    s.Tame ∧ g.depth < Layout.scratchSlots ∧ g.cursor ≠ g.depth ∧
      (∃ r, (execute g.program.text [] {}).result = .ok r ∧ r.halt = .completed ∧ r.cell 5 = 7) ∧
      Eventually (g.repeatIncrement 100 3).generator.program.text [] .halt fun r =>
        r.halt = .completed ∧ r.cell 5 = 51 := by
  intro s g
  have htame : s.Tame := by decide
  have hdepth : g.depth < Layout.scratchSlots := by decide
  have hslot : g.cursor ≠ g.depth := by decide
  have hsymbols : (Program.ofText g.program.text).symbols =
      (LoopTree.times .right 5 ++ LoopTree.times .increment 7).symbols := by
    rw [Program.ofText_text]
    rfl
  have hrun := result_execute_of_symbols g.program.text [] {} _ hsymbols
  refine ⟨htame, hdepth, hslot, ⟨_, hrun, rfl, rfl⟩, ?_⟩
  obtain ⟨-, hadds⟩ := repeated_increment_adds 100 3 hdepth hslot (.inl ⟨s, htame, rfl⟩) hrun rfl
  refine hadds.mono fun r => ?_
  rintro ⟨hhalt, hcell, -⟩
  exact ⟨hhalt, hcell⟩

/-- Raw code may move the head and leave the cursor where it is, so another cell is added to; and where the
cursor is at the slot of the counter, as in a new generator, the program is never completed. -/
theorem repeated_increment_astray :
    let moved := ((Script.act (.moveTo 5) (.act (.emit ">") .done)).run {}).generator
    let fresh : Generator := {}
    (moved.depth < Layout.scratchSlots ∧
      (∃ r, (execute moved.program.text [] {}).result = .ok r ∧ r.halt = .completed ∧
        r.cell moved.cursor = 0) ∧
      ¬ Eventually (moved.repeatIncrement 3 1).generator.program.text [] .halt fun r =>
        r.halt = .completed ∧ r.cell moved.cursor = 0 + 3 * 1) ∧
    (fresh.depth < Layout.scratchSlots ∧
      (∃ r, (execute fresh.program.text [] {}).result = .ok r ∧ r.halt = .completed ∧
        r.cell fresh.cursor = 0) ∧
      ¬ Eventually (fresh.repeatIncrement 3 1).generator.program.text [] .halt fun r =>
        r.halt = .completed ∧ r.cell fresh.cursor = 0 + 3 * 1) := by
  intro moved fresh
  have hmoved : moved.program.symbols = (LoopTree.times .right 6).symbols := rfl
  have hcursor : moved.cursor = 5 := rfl
  have hdepth : moved.depth = 0 := rfl
  have hfresh : (execute fresh.program.text [] {}).result =
    .ok (conclude (State.stop {} .completed)) := rfl
  have hfree : moved.depth < Layout.scratchSlots ∧ fresh.depth < Layout.scratchSlots := by decide
  refine ⟨⟨hfree.1, ?_, fun hends => ?_⟩, hfree.2, ⟨_, hfresh, rfl, rfl⟩, fun hends => ?_⟩
  · rw [← Program.ofText_text moved.program] at hmoved
    exact ⟨_, result_execute_of_symbols _ [] {} _ hmoved, rfl, rfl⟩
  · have hcode := (emits_repeatIncrement 3 1 hfree.1).symbols
    rw [hmoved, hcursor, hdepth, ← LoopTree.symbols_append,
      ← Program.ofText_text (Generator.program _)] at hcode
    have hrun : (execute (moved.repeatIncrement 3 1).generator.program.text [] {}).result =
        .ok { cycles := 60, outputs := #[], halt := .completed, tape := ⟨#[0, 0, 0, 0, 0, 0, 3]⟩ } := by
      rw [result_execute_of_symbols _ [] {} _ hcode]
      cbv
    obtain ⟨r, ⟨-, hcell⟩, rfl⟩ := hends.exists_both (eventually_of_completed hrun rfl)
    cases hcell
  · have hnever : ∀ m : Memory, ¬ ∃ j, (3 : UInt8) + UInt8.ofNat j * (UInt8.ofNat 1 - 1) = 0 := by
      rintro - ⟨j, hj⟩
      grind
    have hcut := (achievesOnly_repeatIncrement 3 1 hfree.2 rfl).cut_off hnever hfresh rfl
      (Script.tracks (s := .done) trivial .halt []) (emits_repeatIncrement 3 1 hfree.2).symbols
    obtain ⟨r, ⟨hcompleted, -⟩, hlimit⟩ := hends.exists_both hcut
    cases hcompleted.symm.trans hlimit

end Generator

end TapeMachine
