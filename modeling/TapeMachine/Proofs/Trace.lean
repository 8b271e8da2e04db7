import TapeMachine.Proofs.Endings

/-!
# The trace of a run

With tracing on, the machine reports every op right before it executes it. The reports have no bearing
on what the machine does, and what it does can be told from them.

* `MachineEvent.isStep` : the reports of ops; `MachineEvent.written?` : the byte that such an op writes;
* `Course ops config s events t` : turns lead from `s` to `t`, and `events` are the reports of the ops on
  the way. They are numbered by the cycles (`Course.exists_visits`), and tell what was written
  (`Course.outputs`);
* `Machine.reported` : what a run from a state on reports, up to its end. A course comes before what is
  reported behind it (`Course.reported_eq`), and at the end only an op that stops the machine or fails is
  still reported (`EndsAt.reported_eq`);
* `execute_traced` : so the trace is faithful, and without it the run is the same.
-/

namespace TapeMachine

open Machine

namespace MachineEvent

def isStep : MachineEvent → Bool
  | step .. => true
  | halted .. => false

/-- The byte that the op writes which is about to be executed, if it writes one. -/
def written? : MachineEvent → Option UInt8
  | step _ _ _ cell .write => some cell
  | _ => none

end MachineEvent

/-! ## Courses -/

/-- Turns lead from one state to another, and the events are the reports of the ops on the way. -/
inductive Course (ops : Array Op) (config : Config) : State → List MachineEvent → State → Prop where
  | refl (s : State) : Course ops config s [] s
  | turn {s t u : State} {op : Op} {events : List MachineEvent} (hop : ops[s.pc]? = some op)
      (hturn : Turn ops config s t) (hrest : Course ops config t events u) :
      Course ops config s (stepEvent s op :: events) u

/-- An op that writes puts the cell under the head behind the output, and no other op writes. -/
theorem written_of_execute {op : Op} {eof : EofPolicy} {s t : State} (h : op.execute eof s = .ok t) :
    t.channel.written.toList =
      s.channel.written.toList ++ [stepEvent s op].filterMap MachineEvent.written? := by
  cases op with
  | write =>
    cases h
    simp [stepEvent, MachineEvent.written?, Channel.write]
  | left =>
    simp only [Op.execute] at h
    split at h <;> cases h
    exact (List.append_nil _).symm
  | read =>
    obtain ⟨pc, head, cycles, halt, tape, ⟨pending, written⟩⟩ := s
    cases pending with
    | nil => cases eof <;> cases h <;> exact (List.append_nil _).symm
    | cons byte pending =>
      cases h
      exact (List.append_nil _).symm
  | _ =>
    cases h
    exact (List.append_nil _).symm

namespace Course

variable {ops : Array Op} {config : Config} {s t : State} {events : List MachineEvent}

theorem cycles_eq (h : Course ops config s events t) : t.cycles = s.cycles + events.length := by
  induction h with
  | refl s => rfl
  | turn _ hturn _ ih =>
    have hcycles := cycles_of_next? hturn.2
    rw [List.length_cons]
    omega

/-- The `k`-th report is that of the state which is visited after `k` cycles. -/
theorem exists_visits (h : Course ops config s events t) {k : Nat} {e : MachineEvent}
    (he : events[k]? = some e) : ∃ u op, Visits ops config s u ∧ u.cycles = s.cycles + k ∧
      ops[u.pc]? = some op ∧ e = stepEvent u op := by
  induction h generalizing k with
  | refl s => cases he
  | @turn s t' t op _ hop hturn _ ih =>
    cases k with
    | zero =>
      cases he
      exact ⟨s, op, .refl, rfl, hop, rfl⟩
    | succ k =>
      obtain ⟨u, op', hu, hcycles, hop', rfl⟩ := ih he
      have hnext := cycles_of_next? hturn.2
      exact ⟨u, op', .head hturn hu, by omega, hop', rfl⟩

theorem visits (h : Course ops config s events t) : Visits ops config s t := by
  induction h with
  | refl s => exact .refl
  | turn _ hturn _ ih => exact .head hturn ih

/-- What was written on the way can be told from the reports. -/
theorem outputs (h : Course ops config s events t) : t.channel.written.toList =
    s.channel.written.toList ++ events.filterMap MachineEvent.written? := by
  induction h with
  | refl s => exact (List.append_nil _).symm
  | @turn s t' t op events hop hturn _ ih =>
    obtain ⟨op', u, hop', hu, -, rfl⟩ := next?_eq_some_iff.mp hturn.2
    cases hop.symm.trans hop'
    have htick : u.tick.channel = u.channel := rfl
    rw [ih, htick, written_of_execute hu, List.append_assoc, ← List.filterMap_append]
    rfl

end Course

theorem Visits.exists_course {ops : Array Op} {config : Config} {s t : State}
    (h : Visits ops config s t) : ∃ events, Course ops config s events t := by
  induction h using Relation.ReflTransGen.head_induction_on with
  | refl => exact ⟨[], .refl t⟩
  | head hturn _ ih =>
    obtain ⟨events, hrest⟩ := ih
    obtain ⟨op, u, hop, -⟩ := next?_eq_some_iff.mp hturn.2
    exact ⟨_, .turn hop hturn hrest⟩

/-! ## What a run reports -/

namespace Machine

variable {ops : Array Op} {config : Config} {s t : State} {op : Op}

/-- What is reported stands behind what was reported before. -/
theorem log_advance (budget : Nat) : ∀ (s : State) (log : Array MachineEvent),
    (advance ops config budget s log).2 = log ++ (advance ops config budget s #[]).2 := by
  induction budget with
  | zero =>
    intro s log
    unfold advance
    cases ops[s.pc]? <;> simp
  | succ budget ih =>
    intro s log
    unfold advance
    cases ops[s.pc]? with
    | none => simp
    | some op =>
      simp only
      cases op.execute config.eof s with
      | error fault => by_cases htrace : config.trace <;> simp [htrace]
      | ok t =>
        by_cases hhalt : t.isHalted
        · by_cases htrace : config.trace <;> simp [hhalt, htrace]
        · by_cases htrace : config.trace
          · simp only [hhalt, htrace, if_true, Bool.false_eq_true, if_false]
            rw [ih t.tick (log.push _), ih t.tick (#[].push _)]
            simp
          · simp only [hhalt, htrace, Bool.false_eq_true, if_false]
            exact ih t.tick log

/-- What a run from `s` on reports, up to its end. -/
def reported (ops : Array Op) (config : Config) (s : State) : List MachineEvent :=
  (advance ops config (config.maxCycles - s.cycles) s #[]).2.toList

/-- What is reported of a state in which a run ends: an op that stops the machine or fails. -/
def lastReport (t : State) : Except Fault Result → List MachineEvent
  | .error _ => [stepEvent t .left]
  | .ok r =>
    match r.halt with
    | .inputExhausted _ => [stepEvent t .read]
    | _ => []

def haltReport : Except Fault Result → List MachineEvent
  | .error _ => []
  | .ok r => [.halted r.cycles r.halt]

theorem filter_isStep_haltReport (x : Except Fault Result) :
    (haltReport x).filter MachineEvent.isStep = [] := by
  cases x <;> rfl

theorem filter_not_isStep_haltReport (x : Except Fault Result) :
    (haltReport x).filter (fun e => !e.isStep) = haltReport x := by
  cases x <;> rfl

theorem log_run (m : Machine) : m.run.log.toList =
    reported m.ops m.config m.state ++ haltReport (outcome m.ops m.config m.state) := by
  unfold run reported outcome
  split
  · rename_i s log h
    rw [h]
    simp [haltReport, Except.map]
  · rename_i fault log h
    rw [h]
    simp [haltReport, Except.map]

theorem reported_of_turn (hop : ops[s.pc]? = some op) (h : Turn ops config s t) :
    reported ops config s =
      (if config.trace then [stepEvent s op] else []) ++ reported ops config t := by
  obtain ⟨hlt, hnext⟩ := h
  have hcycles := cycles_of_next? hnext
  obtain ⟨op', u, hop', hu, hhalt, rfl⟩ := next?_eq_some_iff.mp hnext
  cases hop.symm.trans hop'
  obtain ⟨budget, hbudget⟩ := Nat.exists_eq_add_one.mpr (Nat.sub_pos_of_lt hlt)
  have hrest : config.maxCycles - u.tick.cycles = budget := by omega
  unfold reported
  rw [hbudget, hrest, advance]
  simp only [hop, hu, hhalt, Bool.false_eq_true, if_false]
  rw [log_advance]
  by_cases htrace : config.trace <;> simp [htrace]

/-- Where a run ends, only an op that stops the machine or fails is still reported. -/
theorem EndsAt.reported_eq {x : Except Fault Result} (h : EndsAt ops config t x) :
    reported ops config t = if config.trace then lastReport t x else [] := by
  unfold reported
  cases h with
  | completed hop =>
    unfold advance
    simp [hop, lastReport, conclude, State.stop]
  | cycleLimit hop hcycles =>
    rw [hcycles, Nat.sub_self, advance]
    simp [hop, lastReport, conclude, State.stop]
  | inputExhausted hop hcycles hpending heof =>
    obtain ⟨budget, hbudget⟩ := Nat.exists_eq_add_one.mpr (Nat.sub_pos_of_lt hcycles)
    rw [hbudget, advance]
    by_cases htrace : config.trace <;>
      simp [hop, Op.execute, Channel.read?, hpending, heof, State.isHalted, State.stop, htrace,
        lastReport, conclude]
  | tapeUnderflow hop hcycles hhead =>
    obtain ⟨budget, hbudget⟩ := Nat.exists_eq_add_one.mpr (Nat.sub_pos_of_lt hcycles)
    rw [hbudget, advance]
    by_cases htrace : config.trace <;> simp [hop, Op.execute, hhead, htrace, lastReport]

/-- What is still reported at the end is an op of the program, and not one that writes. -/
theorem EndsAt.lastReport_cases {x : Except Fault Result} (h : EndsAt ops config t x) :
    lastReport t x = [] ∨
      ∃ op, ops[t.pc]? = some op ∧ op ≠ .write ∧ lastReport t x = [stepEvent t op] := by
  cases h with
  | completed _ => exact .inl rfl
  | cycleLimit _ _ => exact .inl rfl
  | inputExhausted hop _ _ _ => exact .inr ⟨.read, hop, nofun, rfl⟩
  | tapeUnderflow hop _ _ => exact .inr ⟨.left, hop, nofun, rfl⟩

/-- Whether ops are reported has no bearing on where a run ends. -/
theorem EndsAt.retrace {x : Except Fault Result} (h : EndsAt ops config t x) (trace : Bool) :
    EndsAt ops { config with trace } t x := by
  cases h with
  | completed hop => exact .completed hop
  | cycleLimit hop hcycles => exact .cycleLimit hop hcycles
  | inputExhausted hop hcycles hpending heof => exact .inputExhausted hop hcycles hpending heof
  | tapeUnderflow hop hcycles hhead => exact .tapeUnderflow hop hcycles hhead

theorem EndsAt.outputs_eq {r : Result} (h : EndsAt ops config t (.ok r)) :
    r.outputs = t.channel.written := by
  cases h <;> rfl

theorem outcome_retrace (trace : Bool) (hs : s.halt = none) (hcycles : s.cycles ≤ config.maxCycles) :
    outcome ops { config with trace } s = outcome ops config s := by
  obtain ⟨t, ⟨hreach, hle⟩, hend⟩ := exists_endsAt ops config hs hcycles
  have hsame : outcome ops { config with trace } s = outcome ops { config with trace } t :=
    outcome_of_reaches hreach hle
  rw [hsame, (hend.retrace trace).outcome_eq]

end Machine

theorem Course.reported_eq {ops : Array Op} {config : Config} {s t : State}
    {events : List MachineEvent} (h : Course ops config s events t) :
    reported ops config s = (if config.trace then events else []) ++ reported ops config t := by
  induction h with
  | refl s => by_cases htrace : config.trace <;> simp [htrace]
  | turn hop hturn _ ih =>
    rw [reported_of_turn hop hturn, ih]
    by_cases htrace : config.trace <;> simp [htrace]

/-- The log of a run: the reports of a course to where it ends and of the op that ends it, if ops are
reported, and the report that it has ended, if it has not failed. -/
theorem exists_log_run (ops : Array Op) (config : Config) (inputs : List UInt8) :
    let m : Machine := { ops, config, state := start inputs }
    ∃ events t, Course ops config (start inputs) events t ∧ EndsAt ops config t m.run.result ∧
      m.run.log.toList = (if config.trace then events ++ lastReport t m.run.result else []) ++
        haltReport m.run.result := by
  intro m
  obtain ⟨t, hpasses, hend⟩ := exists_endsAt (s := start inputs) ops config rfl (Nat.zero_le _)
  obtain ⟨events, hcourse⟩ := (Visits.of_passes hpasses).exists_course
  have hresult : m.run.result = outcome ops config (start inputs) := result_run m
  refine ⟨events, t, hcourse, hresult ▸ hend, ?_⟩
  rw [log_run, hresult, hcourse.reported_eq, hend.reported_eq]
  by_cases htrace : config.trace <;> simp [htrace, m]

/-! ## Faithful traces -/

section Faithful
variable {ops : Array Op} {config : Config} {s t : State} {events : List MachineEvent}
  {x : Except Fault Result}

/-- The reports of a course and of the op that ends it are all reports of ops, numbered from the
cycles of the first state on. -/
theorem Course.exists_visits_append (h : Course ops config s events t) (hend : EndsAt ops config t x)
    {k : Nat} {e : MachineEvent} (he : (events ++ lastReport t x)[k]? = some e) :
    ∃ u op, Visits ops config s u ∧ u.cycles = s.cycles + k ∧ ops[u.pc]? = some op ∧
      e = stepEvent u op := by
  by_cases hk : k < events.length
  · rw [List.getElem?_append_left hk] at he
    exact h.exists_visits he
  · rw [List.getElem?_append_right (by omega)] at he
    rcases hend.lastReport_cases with hnil | ⟨op, hop, -, hlast⟩
    · rw [hnil] at he
      cases he
    · rw [hlast, List.getElem?_singleton] at he
      split at he
      · cases he
        have hcycles := h.cycles_eq
        exact ⟨t, op, h.visits, by omega, hop, rfl⟩
      · cases he

theorem Course.isStep_append (h : Course ops config s events t) (hend : EndsAt ops config t x) :
    ∀ e ∈ events ++ lastReport t x, e.isStep = true := by
  intro e he
  obtain ⟨k, hk⟩ := List.mem_iff_getElem?.mp he
  obtain ⟨u, op, -, -, -, rfl⟩ := h.exists_visits_append hend hk
  rfl

/-- What the reports say was written is what was written: the op that ends a run does not write. -/
theorem Course.filterMap_written_append (h : Course ops config s events t)
    (hend : EndsAt ops config t x) (hs : s.channel.written = #[]) :
    (events ++ lastReport t x).filterMap MachineEvent.written? = t.channel.written.toList := by
  have hlast : (lastReport t x).filterMap MachineEvent.written? = [] := by
    rcases hend.lastReport_cases with hnil | ⟨op, -, hop, hlast⟩
    · rw [hnil, List.filterMap_nil]
    · rw [hlast]
      cases op with
      | write => exact absurd rfl hop
      | _ => rfl
  rw [h.outputs, hs, List.filterMap_append, hlast, List.append_nil]
  rfl

/-- There is one report for each cycle, and one for a read that stops the run. -/
theorem Course.length_append {r : Result} (h : Course ops config s events t) (hs : s.cycles = 0)
    (hend : EndsAt ops config t (.ok r)) :
    (r.halt = .completed ∨ r.halt = .cycleLimit →
      (events ++ lastReport t (.ok r)).length = r.cycles) ∧
    ∀ pc, r.halt = .inputExhausted pc → (events ++ lastReport t (.ok r)).length = r.cycles + 1 := by
  have hcycles := h.cycles_eq
  rw [hs, Nat.zero_add] at hcycles
  have hnone : (events ++ []).length = t.cycles := by rw [List.append_nil, hcycles]
  cases hend with
  | completed _ => exact ⟨fun _ => hnone, nofun⟩
  | cycleLimit _ _ => exact ⟨fun _ => hnone, nofun⟩
  | inputExhausted _ _ _ _ =>
    refine ⟨fun hhalt => ?_, fun _ _ => ?_⟩
    · rcases hhalt with hhalt | hhalt <;> cases hhalt
    · rw [List.length_append, ← hcycles]
      rfl

/-- The last report of a run that fails is that of the move to the left which failed. -/
theorem Machine.EndsAt.getLast?_append {fault : Fault} (hend : EndsAt ops config t (.error fault))
    (events : List MachineEvent) : ∃ cycle pc cell, fault = .tapeUnderflow pc ∧
      (events ++ lastReport t (.error fault)).getLast? = some (.step cycle pc 0 cell .left) := by
  obtain ⟨rfl, -, hhead⟩ := hend.of_error
  refine ⟨t.cycles, t.pc, t.cell, rfl, ?_⟩
  rw [lastReport, List.getLast?_concat, stepEvent, hhead]

/-- Behind reports of ops the end of a run is reported last, if it is reported at all. -/
theorem getLast?_halted_iff (hsteps : ∀ e ∈ events, e.isStep = true) (cycles : Nat)
    (reason : HaltReason) : (events ++ haltReport x).getLast? = some (.halted cycles reason) ↔
      ∃ r, x = .ok r ∧ r.cycles = cycles ∧ r.halt = reason := by
  cases x with
  | ok r =>
    rw [haltReport, List.getLast?_concat]
    simp
  | error fault =>
    rw [haltReport, List.append_nil]
    refine iff_of_false (fun hlast => ?_) nofun
    cases hsteps _ (List.mem_of_getLast? hlast)

end Faithful

section Executed
variable {text : String} {ops : Array Op}

theorem execute_eq_run (hdecode : Op.decode text = .ok ops) (inputs : List UInt8) (config : Config) :
    execute text inputs config = run { ops, config, state := start inputs } := by
  rw [execute, load, hdecode]
  rfl

theorem result_execute_retrace (hdecode : Op.decode text = .ok ops) (inputs : List UInt8)
    (config : Config) (trace : Bool) : (execute text inputs { config with trace }).result =
      (execute text inputs config).result := by
  rw [execute_eq_run hdecode, execute_eq_run hdecode, result_run, result_run]
  exact outcome_retrace trace rfl (Nat.zero_le _)

end Executed

/-- The trace of a run is harmless and faithful: it changes nothing but the log, and reports the op of every
state that the run visits, in order. -/
theorem execute_traced {text : String} {ops : Array Op} (hdecode : Op.decode text = .ok ops)
    (inputs : List UInt8) (config : Config) :
    let quiet := execute text inputs { config with trace := false }
    let traced := execute text inputs { config with trace := true }
    let log := traced.log.toList
    let steps := log.filter MachineEvent.isStep
    traced.result = quiet.result ∧
    quiet.log.toList = log.filter (fun e => !e.isStep) ∧
    (∀ k e, steps[k]? = some e → ∃ s op, Visits ops config (start inputs) s ∧ s.cycles = k ∧
      ops[s.pc]? = some op ∧ e = .step k s.pc s.head s.cell op) ∧
    (∀ r, traced.result = .ok r →
      (r.halt = .completed ∨ r.halt = .cycleLimit → steps.length = r.cycles) ∧
      (∀ pc, r.halt = .inputExhausted pc → steps.length = r.cycles + 1) ∧
      r.outputs.toList = steps.filterMap MachineEvent.written? ∧
      log = steps ++ [.halted r.cycles r.halt]) ∧
    (∀ fault, traced.result = .error fault → log = steps ∧ ∃ cycle pc cell,
      fault = .tapeUnderflow pc ∧ steps.getLast? = some (.step cycle pc 0 cell .left)) ∧
    ∀ cycles reason, log.getLast? = some (.halted cycles reason) ↔
      ∃ r, traced.result = .ok r ∧ r.cycles = cycles ∧ r.halt = reason := by
  intro quiet traced log steps
  have hsame : traced.result = quiet.result :=
    (result_execute_retrace hdecode inputs config true).trans
      (result_execute_retrace hdecode inputs config false).symm
  obtain ⟨events, t, hcourse, hend, hlog⟩ := exists_log_run ops { config with trace := true } inputs
  obtain ⟨_, _, _, _, hquiet⟩ := exists_log_run ops { config with trace := false } inputs
  rw [← execute_eq_run hdecode] at hend hlog hquiet
  change log = events ++ lastReport t traced.result ++ haltReport traced.result at hlog
  change quiet.log.toList = haltReport quiet.result at hquiet
  have hisStep := hcourse.isStep_append hend
  -- all ops that are reported are those of the course and the one that ends the run
  have hsteps : steps = events ++ lastReport t traced.result := by
    show log.filter _ = _
    rw [hlog, List.filter_append, List.filter_eq_self.mpr hisStep, filter_isStep_haltReport,
      List.append_nil]
  rw [← hsteps] at hlog hisStep
  refine ⟨hsame, ?_, ?_, ?_, ?_, ?_⟩
  · have hnone : steps.filter (fun e => !e.isStep) = [] :=
      List.filter_eq_nil_iff.mpr fun e he => by simp [hisStep e he]
    rw [hquiet, ← hsame, hlog, List.filter_append, hnone, filter_not_isStep_haltReport, List.nil_append]
  · intro k e he
    rw [hsteps] at he
    obtain ⟨u, op, hu, hcycles, hop, rfl⟩ := hcourse.exists_visits_append hend he
    obtain rfl : u.cycles = k := hcycles.trans (Nat.zero_add k)
    exact ⟨u, op, hu, rfl, hop, rfl⟩
  · intro r hr
    rw [hr] at hend hsteps hlog
    obtain ⟨hcompleted, hexhausted⟩ := hcourse.length_append rfl hend
    have hwritten := hcourse.filterMap_written_append hend rfl
    rw [← hsteps] at hcompleted hexhausted hwritten
    exact ⟨hcompleted, hexhausted, by rw [hwritten, hend.outputs_eq], hlog⟩
  · intro fault hfault
    rw [hfault] at hend hsteps hlog
    refine ⟨hlog.trans (List.append_nil _), ?_⟩
    rw [hsteps]
    exact hend.getLast?_append events
  · rw [hlog]
    exact getLast?_halted_iff hisStep

/-- A loop that writes and reads until it has read zero, and a move to the left behind it: the last report
is that of the read that finds no input, or that of the move. -/
theorem execute_traced_echo :
    ∃ ops, Op.decode "+[.,]<" = .ok ops ∧
      (let log := (execute "+[.,]<" [2] { trace := true }).log.toList
       let steps := log.filter MachineEvent.isStep
       steps.length = 7 ∧ steps.filterMap MachineEvent.written? = [1, 2] ∧
         log = steps ++ [.halted 6 (.inputExhausted 3)]) ∧
      let log := (execute "+[.,]<" [0] { trace := true }).log.toList
      log = log.filter MachineEvent.isStep ∧
        ∃ cycle cell, log.getLast? = some (.step cycle 5 0 cell .left) := by
  have hdecode : Op.decode "+[.,]<" =
    .ok #[.increment, .jumpIfZero 4, .write, .read, .jumpUnlessZero 1, .left] := rfl
  have hlack : (execute "+[.,]<" [2] { trace := true }).result =
    .ok { cycles := 6, outputs := #[1, 2], halt := .inputExhausted 3, tape := ⟨#[2]⟩ } := rfl
  have hfault : (execute "+[.,]<" [0] { trace := true }).result = .error (.tapeUnderflow 5) := rfl
  obtain ⟨-, -, -, hended, -⟩ := execute_traced hdecode [2] {}
  obtain ⟨-, -, -, -, hfailed, -⟩ := execute_traced hdecode [0] {}
  obtain ⟨-, hcount, hwritten, hlog⟩ := hended _ hlack
  obtain ⟨hlog', cycle, pc, cell, hpc, hlast⟩ := hfailed _ hfault
  cases hpc
  exact ⟨_, hdecode, ⟨hcount 3 rfl, hwritten.symm, hlog⟩, hlog', cycle, cell, hlog' ▸ hlast⟩

end TapeMachine
