import TapeMachine.Proofs.DepthWalk
import TapeMachine.Proofs.Head

/-!
# Runs of generated programs

What a script generates is the code of its routine, so what is known of this code is known of the
run of every generated program.

* `Script.symbols_of_generate` : a plain script generates the code of its routine;
* `Script.head_eq_drift` : the cursor of the generator is the head of the machine;
* `Script.execute_follows_routine` : the machine does to the cells what the routine does. It comes to
  the same end, once enough cycles are allowed, and comes to no end where the routine does not.
-/

namespace TapeMachine

namespace Script

theorem exists_of_generate {s : Script} {p : Program} (h : s.generate = .ok p) :
    (∃ reply, (s.run {}).outcome = .ok reply) ∧ (s.run {}).generator.program = p := by
  unfold generate at h
  cases hrun : (s.run {}).outcome with
  | error e =>
    simp only [hrun] at h
    cases h
  | ok reply =>
    simp only [hrun] at h
    cases h
    exact ⟨⟨reply, rfl⟩, rfl⟩

theorem Plain.propagates {s : Script} (hs : s.Plain) : s.Propagates :=
  hs.mono (fun _ _ => trivial) fun _ hhead => hhead

/-- What a plain script generates is the code of its routine. -/
theorem symbols_of_generate {s : Script} {p : Program} (hs : s.Plain) (h : s.generate = .ok p) :
    p.symbols = ((s.routine 0 0).code 0).symbols ∧
      (s.run {}).generator.cursor = (s.routine 0 0).after 0 := by
  obtain ⟨⟨reply, hrun⟩, rfl⟩ := exists_of_generate h
  have hemits := s.emits_run hs {} reply hrun
  exact ⟨hemits.symbols, hemits.cursor⟩

theorem symbols_ofText_of_generate {s : Script} {p : Program} (hs : s.Plain)
    (h : s.generate = .ok p) :
    (Program.ofText p.text).symbols = ((s.routine 0 0).code 0).symbols := by
  rw [Program.ofText_text]
  exact (symbols_of_generate hs h).1

theorem ok_of_generate {s : Script} {p : Program} (hs : s.Plain) (h : s.generate = .ok p)
    (inputs : List UInt8) (config : Config) :
    ∃ r, (execute p.text inputs config).result = .ok r := by
  have hdecode := LoopTree.decode_of_symbols p.text _ (symbols_ofText_of_generate hs h)
  rw [result_execute inputs hdecode]
  exact LoopTree.ok_of_walk ((s.routine 0 0).level_code 0) ((s.routine 0 0).walk_code 0) inputs config

/-! ## The head -/

/-- The cursor of the generator is the head of the machine: at every moment of a run the head is at the
drift of the symbols before the program counter. -/
theorem head_eq_drift (s : Script) {p : Program} (hs : s.Plain) (h : s.generate = .ok p) :
    (∀ k, 0 ≤ drift (p.symbols.take k)) ∧ drift p.symbols = (s.run {}).generator.cursor ∧
      ∀ (inputs : List UInt8) (config : Config),
        (∃ m, Machine.load p.text inputs config = .ok m ∧
          ∀ t, Machine.Reaches m.ops config.eof m.state t →
            (t.head : Int) = drift (p.symbols.take t.pc)) ∧
        ∃ r, (execute p.text inputs config).result = .ok r := by
  obtain ⟨hsymbols, hcursor⟩ := symbols_of_generate hs h
  have hwalk := (s.routine 0 0).walk_code 0
  rw [hsymbols, hcursor]
  refine ⟨?_, ?_, ?_⟩
  · intro k
    have := drift_take_of_walk hwalk k
    omega
  · have := drift_of_walk hwalk
    omega
  · intro inputs config
    refine ⟨⟨{ ops := (((s.routine 0 0).code 0).ops 0).toArray, config,
               state := { channel := { pending := inputs } } }, ?_, ?_⟩, ?_⟩
    · rw [Machine.load, LoopTree.decode_of_symbols p.text _ (symbols_ofText_of_generate hs h)]
    · intro t ht
      exact LoopTree.head_of_reaches ((s.routine 0 0).level_code 0) ht
    · exact ok_of_generate hs h inputs config

/-- The code of a loop in a loop, with raw code in it, and of a transfer behind it. -/
theorem head_eq_drift_nested :
    let s : Script := .block (.repeated 2)
      (.act (.readInto 5) (.block (.countDown 5) (.act (.moveTo 6) (.act (.emit "+.") .done)) .done))
      (.act (.copy 6 7) .done)
    let p := (s.run {}).generator.program
    s.Plain ∧ s.generate = .ok p ∧
      (∀ k, 0 ≤ drift (p.symbols.take k)) ∧ drift p.symbols = (s.run {}).generator.cursor ∧
        ∀ (inputs : List UInt8) (config : Config),
          (∃ m, Machine.load p.text inputs config = .ok m ∧
            ∀ t, Machine.Reaches m.ops config.eof m.state t →
              (t.head : Int) = drift (p.symbols.take t.pc)) ∧
          ∃ r, (execute p.text inputs config).result = .ok r := by
  intro s p
  have hplain : s.Plain := by decide
  have hgenerate : s.generate = .ok p := rfl
  exact ⟨hplain, hgenerate, head_eq_drift s hplain hgenerate⟩

/-! ## The cells -/

theorem runs_code_start {r : Routine} {eof : EofPolicy} {inputs : List UInt8} {e : Final} :
    (r.code 0).runs eof (Memory.start inputs) e ↔ r.runs eof (Memory.start inputs) e :=
  r.runs_code_iff 0 (Memory.start inputs) e rfl

/-- Where the routine of a script ends, the runs of the generated program do so. -/
theorem exists_shows_of_routine {s : Script} {p : Program} (hs : s.Plain) (h : s.generate = .ok p)
    {inputs : List UInt8} {eof : EofPolicy} {e : Final}
    (he : (s.routine 0 0).runs eof (Memory.start inputs) e) :
    ∃ n, ∀ config : Config, config.eof = eof → n ≤ config.maxCycles →
      ∃ r, (execute p.text inputs config).result = .ok r ∧ r.Shows e :=
  exists_shows_of_runs (symbols_ofText_of_generate hs h) (runs_code_start.mpr he)

/-- The machine does to the cells what the routine of the script says: with enough cycles it comes to the
same end, and where the routine comes to none, every run uses up its cycles. -/
theorem execute_follows_routine (s : Script) {p : Program} (hs : s.Plain) (h : s.generate = .ok p)
    (inputs : List UInt8) (eof : EofPolicy) :
    (∀ e, (s.routine 0 0).runs eof (Memory.start inputs) e →
      ∃ n, ∀ config : Config, config.eof = eof → n ≤ config.maxCycles →
        ∃ r, (execute p.text inputs config).result = .ok r ∧ r.Shows e) ∧
    ((∀ e, ¬ (s.routine 0 0).runs eof (Memory.start inputs) e) →
      ∀ config : Config, config.eof = eof →
        ∃ r, (execute p.text inputs config).result = .ok r ∧ r.halt = .cycleLimit ∧
          r.cycles = config.maxCycles) := by
  constructor
  · intro e he
    exact exists_shows_of_routine hs h he
  · rintro hnone config rfl
    refine exists_cycleLimit_of_not_runs (symbols_ofText_of_generate hs h)
      (fun e he => hnone e (runs_code_start.mp he)) ?_
    intro pc hfault
    obtain ⟨r, hr⟩ := ok_of_generate hs h inputs config
    cases hr.symm.trans hfault

/-- A cell that is added to itself is as it was after every round, so that only zero comes to an
end. -/
theorem not_runs_add_self {eof : EofPolicy} {depth cell : Nat} {m : Memory} (h : m.cells cell ≠ 0)
    (e : Final) : ¬ ((Action.add cell cell).routine depth).runs eof m e := by
  rw [Action.routine, Routine.runs, Routine.runs, Behaviour.andThen_skip, Behaviour.countDown,
    Behaviour.go, Behaviour.update_andThen]
  intro hloop
  have hm : (m.go cell).cells cell ≠ 0 := h
  generalize m.go cell = k at hloop hm
  induction hloop with
  | stop hstop => exact hstop hm
  | @again k n e _ hround _ ih =>
    rw [Behaviour.update_andThen] at hround
    obtain ⟨l, hl, hn⟩ := Behaviour.andThen_completed_iff.mp hround
    cases (Routine.runs_raise eof cell 1 _ _).mp hl
    cases hn
    refine ih ?_
    have hsame : k.cells cell - 1 + 1 = k.cells cell := by grind
    simpa [Memory.go, Memory.put, Memory.take, hsame] using hm
  | starve _ hround =>
    rw [Behaviour.update_andThen] at hround
    obtain ⟨l, -, hn⟩ | ⟨l, hl, -⟩ := hround
    · cases hn
    · cases (Routine.runs_raise eof cell 1 _ _).mp hl

/-- A script that reads a byte and adds it to itself ends for zero and for no other byte. -/
theorem execute_follows_routine_add_self :
    let s : Script := .act (.readInto 5) (.act (.add 5 5) .done)
    let p := (s.run {}).generator.program
    s.Plain ∧ s.generate = .ok p ∧
      (∃ n, ∀ config : Config, config.eof = .halt → n ≤ config.maxCycles →
        ∃ r, (execute p.text [0] config).result = .ok r ∧ r.halt = .completed) ∧
      ∀ config : Config, config.eof = .halt →
        ∃ r, (execute p.text [7] config).result = .ok r ∧ r.halt = .cycleLimit ∧
          r.cycles = config.maxCycles := by
  intro s p
  have hplain : s.Plain := by decide
  have hgenerate : s.generate = .ok p := rfl
  have hroutine : s.routine 0 0 =
      .act (.go 5) (.act .read ((Action.add 5 5).routine 0)) := rfl
  refine ⟨hplain, hgenerate, ?_, ?_⟩
  · obtain ⟨hends, -⟩ := execute_follows_routine s hplain hgenerate [0] .halt
    rw [hroutine] at hends
    obtain ⟨n, hn⟩ := hends _ ((Routine.runs_act rfl).mpr ((Routine.runs_act rfl).mpr
      (.inl ⟨_, .inl ⟨_, rfl, .stop (not_not.mpr rfl)⟩, rfl⟩)))
    refine ⟨n, fun config heof hle => ?_⟩
    obtain ⟨r, hr, hshows⟩ := hn config heof hle
    exact ⟨r, hr, hshows.1⟩
  · obtain ⟨-, hlimit⟩ := execute_follows_routine s hplain hgenerate [7] .halt
    rw [hroutine] at hlimit
    refine hlimit fun e he => ?_
    have hadd := (Routine.runs_act rfl).mp ((Routine.runs_act rfl).mp he)
    exact not_runs_add_self (by decide) e hadd

end Script

end TapeMachine
