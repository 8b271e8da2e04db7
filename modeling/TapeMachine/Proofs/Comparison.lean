import TapeMachine.Proofs.Structured

/-!
# Runs compared

Two runs of one program are compared by the states that they come through. A run does not know how
many cycles are left, and reads no further into its input than it has come; so where only the limit
or the end of the input differs, the runs are the same up to where one of them ends.

* `State.Grows s t` : what is never taken back, output, cycles and stored cells, has only grown;
  `Reaches.grows` : so it is along every walk;
* `outcome_of_le`, `grows_of_cycleLimit` : a run under a higher limit comes through the state in which
  the run under a lower one ends;
* `execute_of_le` : so a lower limit cuts a run short and does nothing else;
* `State.supplied s more` : the state with more input behind what is yet to be read;
  `Reaches.supplied` : a walk that stops at the end of the input is a walk with more input, too;
* `execute_append_inputs` : input that is not reached has no bearing, and where the input is used up
  the machine stands where it would stand with more of it;
* `Reaches.zeros` : a walk that reads zero at the end of its input is a walk with zeros behind the input,
  if there are as many as cycles; `execute_append_zeros` : so the two runs end alike.
-/

namespace TapeMachine

open Machine

/-! ## What only grows -/

/-- From `s` to `t` the output was added to, no cycle was taken back, and no stored cell was lost. -/
structure State.Grows (s t : State) : Prop where
  outputs : s.channel.written.toList <+: t.channel.written.toList
  cycles : s.cycles ≤ t.cycles
  cells : s.tape.size ≤ t.tape.size

theorem State.Grows.refl (s : State) : s.Grows s :=
  ⟨List.prefix_rfl, Nat.le_refl _, Nat.le_refl _⟩

theorem State.Grows.trans {s t u : State} (h : s.Grows t) (h' : t.Grows u) : s.Grows u :=
  ⟨h.outputs.trans h'.outputs, Nat.le_trans h.cycles h'.cycles, Nat.le_trans h.cells h'.cells⟩

theorem Tape.size_le_size_set (t : Tape) (c : Nat) (v : UInt8) : t.size ≤ (t.set c v).size := by
  rw [size_set]
  split
  · exact Nat.le_refl _
  · exact Nat.le_max_left _ _

theorem Channel.written_prefix_write (c : Channel) (byte : UInt8) :
    c.written.toList <+: (c.write byte).written.toList := by
  simp [write]

section Grows
variable {ops : Array Op} {eof : EofPolicy} {s t : State}

theorem Op.execute_grows {op : Op} (h : op.execute eof s = .ok t) : s.Grows t := by
  have hcycles := Nat.le_of_eq (execute_cycles h).symm
  cases op with
  | left =>
    simp only [Op.execute] at h
    split at h <;> cases h
    exact ⟨List.prefix_rfl, hcycles, Nat.le_refl _⟩
  | increment =>
    cases h
    exact ⟨List.prefix_rfl, hcycles, s.tape.size_le_size_set _ _⟩
  | decrement =>
    cases h
    exact ⟨List.prefix_rfl, hcycles, s.tape.size_le_size_set _ _⟩
  | write =>
    cases h
    exact ⟨s.channel.written_prefix_write _, hcycles, Nat.le_refl _⟩
  | read =>
    obtain ⟨pc, head, cycles, halt, tape, ⟨pending, written⟩⟩ := s
    cases pending with
    | nil =>
      cases eof with
      | zero =>
        cases h
        exact ⟨List.prefix_rfl, hcycles, tape.size_le_size_set _ _⟩
      | _ =>
        cases h
        exact ⟨List.prefix_rfl, hcycles, Nat.le_refl _⟩
    | cons byte pending =>
      cases h
      exact ⟨List.prefix_rfl, hcycles, tape.size_le_size_set _ _⟩
  | _ =>
    cases h
    exact ⟨List.prefix_rfl, hcycles, Nat.le_refl _⟩

theorem grows_of_next? (h : next? ops eof s = some t) : s.Grows t := by
  obtain ⟨op, u, -, hu, -, rfl⟩ := next?_eq_some_iff.mp h
  have hgrows := Op.execute_grows hu
  exact ⟨hgrows.outputs, Nat.le_succ_of_le hgrows.cycles, hgrows.cells⟩

theorem Machine.Reaches.grows (h : Reaches ops eof s t) : s.Grows t := by
  induction h with
  | refl => exact .refl s
  | tail _ hlast ih => exact ih.trans (grows_of_next? hlast)

end Grows

section Endings
variable {ops : Array Op} {config : Config} {s t : State} {x : Except Fault Result}

theorem outcome_of_endsAt (h : Passes ops config s t) (hend : EndsAt ops config t x) :
    outcome ops config s = x :=
  (outcome_of_reaches h.1 h.2).trans hend.outcome_eq

/-- What is there in a state that a run comes through is there in the end, too. -/
theorem grows_of_passes {r : Result} (hs : s.halt = none) (h : Passes ops config s t)
    (hr : outcome ops config s = .ok r) : t.channel.written.toList <+: r.outputs.toList ∧
      t.cycles ≤ r.cycles ∧ t.tape.size ≤ r.tape.size := by
  obtain ⟨u, ⟨hu, -⟩, hend⟩ := exists_endsAt ops config (h.1.halt hs) h.2
  obtain ⟨houtputs, hcycles, hcells⟩ := Reaches.grows hu
  rw [← outcome_of_reaches h.1 h.2, hr] at hend
  cases hend <;> exact ⟨houtputs, hcycles, hcells⟩

end Endings

/-! ## Limits -/

section Limits
variable {ops : Array Op} {config : Config} {s t : State} {m m' : Nat}

/-- An ending that is not due to the limit is an ending under every higher limit. -/
theorem Machine.EndsAt.of_le {x : Except Fault Result}
    (h : EndsAt ops { config with maxCycles := m } t x) (hle : m ≤ m')
    (hx : ∀ r, x = .ok r → r.halt ≠ .cycleLimit) :
    EndsAt ops { config with maxCycles := m' } t x := by
  cases h with
  | completed hop => exact .completed hop
  | cycleLimit hop hcycles => exact absurd rfl (hx _ rfl)
  | inputExhausted hop hcycles hpending heof =>
    exact .inputExhausted hop (Nat.lt_of_lt_of_le hcycles hle) hpending heof
  | tapeUnderflow hop hcycles hhead =>
    exact .tapeUnderflow hop (Nat.lt_of_lt_of_le hcycles hle) hhead

theorem outcome_of_le (hs : s.halt = none) (hcycles : s.cycles ≤ m) (hle : m ≤ m')
    (h : ∀ r, outcome ops { config with maxCycles := m } s = .ok r → r.halt ≠ .cycleLimit) :
    outcome ops { config with maxCycles := m' } s =
      outcome ops { config with maxCycles := m } s := by
  obtain ⟨t, ⟨hreach, ht⟩, hend⟩ := exists_endsAt ops { config with maxCycles := m } hs hcycles
  exact outcome_of_endsAt ⟨hreach, Nat.le_trans ht hle⟩ (hend.of_le hle h)

/-- The state in which a run is cut off is one through which it comes under every higher limit. -/
theorem grows_of_cycleLimit {r : Result} (hs : s.halt = none) (hcycles : s.cycles ≤ m)
    (hle : m ≤ m') (hr : outcome ops { config with maxCycles := m } s = .ok r)
    (hhalt : r.halt = .cycleLimit) : r.cycles = m ∧
      ∀ r', outcome ops { config with maxCycles := m' } s = .ok r' →
        r.outputs.toList <+: r'.outputs.toList ∧ m ≤ r'.cycles ∧ r.tape.size ≤ r'.tape.size := by
  obtain ⟨t, ⟨hreach, ht⟩, hend⟩ := exists_endsAt ops { config with maxCycles := m } hs hcycles
  rw [hr] at hend
  cases hend with
  | completed => cases hhalt
  | inputExhausted => cases hhalt
  | cycleLimit hop hm =>
    refine ⟨hm, fun r' hr' => ?_⟩
    have hpasses : Passes ops { config with maxCycles := m' } s t :=
      ⟨hreach, Nat.le_trans ht hle⟩
    obtain ⟨houtputs, hmore, hcells⟩ := grows_of_passes hs hpasses hr'
    exact ⟨houtputs, Nat.le_trans (Nat.le_of_eq hm.symm) hmore, hcells⟩

/-- The end of a program is found before a cycle is asked for. -/
theorem outcome_of_completed {r : Result} (hs : s.halt = none) (hcycles : s.cycles ≤ m')
    (hr : outcome ops { config with maxCycles := m' } s = .ok r) (hhalt : r.halt = .completed)
    (hm : r.cycles ≤ m) : outcome ops { config with maxCycles := m } s = .ok r := by
  obtain ⟨t, ⟨hreach, -⟩, hend⟩ := exists_endsAt ops { config with maxCycles := m' } hs hcycles
  rw [hr] at hend
  cases hend with
  | completed hop => exact outcome_of_endsAt ⟨hreach, hm⟩ (.completed hop)
  | cycleLimit => cases hhalt
  | inputExhausted => cases hhalt

end Limits

/-- A limit on the cycles only cuts a run short: what it leaves is the beginning of what is left under a
higher limit, and all of it where the run ends within the limit. -/
theorem execute_of_le {text : String} {ops : Array Op} (hdecode : Op.decode text = .ok ops)
    (inputs : List UInt8) (config : Config) {m m' : Nat} (hle : m ≤ m') :
    let short := (execute text inputs { config with maxCycles := m }).result
    let long := (execute text inputs { config with maxCycles := m' }).result
    ((∀ r, short = .ok r → r.halt ≠ .cycleLimit) → long = short) ∧
    (∀ r, short = .ok r → r.halt = .cycleLimit → r.cycles = m ∧
      ∀ r', long = .ok r' → r.outputs.toList <+: r'.outputs.toList ∧ m ≤ r'.cycles ∧
        r.tape.size ≤ r'.tape.size) ∧
    ∀ r', long = .ok r' → r'.halt = .completed → r'.cycles ≤ m → short = .ok r' := by
  intro short long
  have hshort : short = outcome ops { config with maxCycles := m } (start inputs) :=
    result_execute inputs hdecode
  have hlong : long = outcome ops { config with maxCycles := m' } (start inputs) :=
    result_execute inputs hdecode
  rw [hshort, hlong]
  refine ⟨?_, ?_, ?_⟩
  · exact outcome_of_le rfl (Nat.zero_le m) hle
  · intro r
    exact grows_of_cycleLimit rfl (Nat.zero_le m) hle
  · intro r'
    exact outcome_of_completed rfl (Nat.zero_le m')

/-- A program that takes four cycles: a limit of four is enough, and a limit of two cuts it off behind
its first output. -/
theorem execute_of_le_two_outputs :
    Op.decode "+.+." = .ok #[.increment, .write, .increment, .write] ∧
      (∀ m, 4 ≤ m → (execute "+.+." [] { maxCycles := m }).result =
        .ok { cycles := 4, outputs := #[1, 2], halt := .completed, tape := ⟨#[2]⟩ }) ∧
      ∀ m r, 2 ≤ m → (execute "+.+." [] { maxCycles := m }).result = .ok r →
        [1] <+: r.outputs.toList ∧ 2 ≤ r.cycles ∧ 1 ≤ r.tape.size := by
  have hdecode : Op.decode "+.+." = .ok #[.increment, .write, .increment, .write] := rfl
  refine ⟨hdecode, fun m hm => ?_, fun m r hm hr => ?_⟩
  · refine (execute_of_le hdecode [] {} hm).1 fun r hr => ?_
    cases hr
    nofun
  · exact ((execute_of_le hdecode [] {} hm).2.1 _ rfl rfl).2 r hr

/-! ## Input -/

/-- The state with more input behind what is yet to be read. -/
def State.supplied (s : State) (more : List UInt8) : State :=
  { s with channel := { s.channel with pending := s.channel.pending ++ more } }

section Supplied
variable {ops : Array Op} {config : Config} {s t : State} {x : Except Fault Result}

/-- An op that does not stop at the end of the input does the same with more input, whatever the
policy is: as long as there is input, no policy is asked. -/
theorem Op.execute_supplied {op : Op} (h : op.execute .halt s = .ok t) (ht : t.isHalted = false)
    (eof : EofPolicy) (more : List UInt8) :
    op.execute eof (s.supplied more) = .ok (t.supplied more) := by
  obtain ⟨pc, head, cycles, halt, tape, ⟨pending, written⟩⟩ := s
  cases op with
  | left =>
    cases head with
    | zero => cases h
    | succ head =>
      cases h
      rfl
  | read =>
    cases pending with
    | nil =>
      cases h
      cases ht
    | cons byte pending =>
      cases h
      rfl
  | _ =>
    cases h
    rfl

theorem next?_supplied (h : next? ops .halt s = some t) (eof : EofPolicy) (more : List UInt8) :
    next? ops eof (s.supplied more) = some (t.supplied more) := by
  obtain ⟨op, u, hop, hu, hhalt, rfl⟩ := next?_eq_some_iff.mp h
  exact next?_eq_some_iff.mpr
    ⟨op, u.supplied more, hop, Op.execute_supplied hu hhalt eof more, hhalt, rfl⟩

theorem Machine.Reaches.supplied (h : Reaches ops .halt s t) (eof : EofPolicy)
    (more : List UInt8) : Reaches ops eof (s.supplied more) (t.supplied more) := by
  induction h with
  | refl => exact Reaches.refl _
  | tail _ hlast ih => exact ih.trans (Reaches.step (next?_supplied hlast eof more))

theorem Machine.EndsAt.supplied {policy : EofPolicy}
    (h : EndsAt ops { config with eof := policy } t x)
    (hx : ∀ r pc, x = .ok r → r.halt ≠ .inputExhausted pc) (eof : EofPolicy) (more : List UInt8) :
    EndsAt ops { config with eof := eof } (t.supplied more) x := by
  cases h with
  | completed hop => exact .completed hop
  | cycleLimit hop hcycles => exact .cycleLimit hop hcycles
  | inputExhausted hop hcycles hpending heof => exact absurd rfl (hx _ _ rfl)
  | tapeUnderflow hop hcycles hhead => exact .tapeUnderflow hop hcycles hhead

theorem outcome_supplied (hs : s.halt = none) (hcycles : s.cycles ≤ config.maxCycles)
    (h : ∀ r pc, outcome ops { config with eof := .halt } s = .ok r → r.halt ≠ .inputExhausted pc)
    (eof : EofPolicy) (more : List UInt8) :
    outcome ops { config with eof := eof } (s.supplied more) =
      outcome ops { config with eof := .halt } s := by
  obtain ⟨t, ⟨hreach, ht⟩, hend⟩ := exists_endsAt ops { config with eof := .halt } hs hcycles
  exact outcome_of_endsAt ⟨hreach.supplied eof more, ht⟩ (hend.supplied h eof more)

/-- The state in which a run lacks input is, but for the input, one through which it comes with more
input. -/
theorem passes_of_inputExhausted {r : Result} {pc : Nat} (hs : s.halt = none)
    (hcycles : s.cycles ≤ config.maxCycles)
    (hr : outcome ops { config with eof := .halt } s = .ok r) (hhalt : r.halt = .inputExhausted pc)
    (eof : EofPolicy) (more : List UInt8) :
    ∃ t, Passes ops { config with eof := .halt } s t ∧ ops[pc]? = some .read ∧ t.pc = pc ∧
      t.cycles = r.cycles ∧ t.tape = r.tape ∧ t.channel = ⟨[], r.outputs⟩ ∧
        Passes ops { config with eof := eof } (s.supplied more)
          { t with channel := ⟨more, r.outputs⟩ } := by
  obtain ⟨t, hpasses, hend⟩ := exists_endsAt ops { config with eof := .halt } hs hcycles
  rw [hr] at hend
  cases hend with
  | completed => cases hhalt
  | cycleLimit => cases hhalt
  | inputExhausted hop _ hpending _ =>
    cases hhalt
    have hchannel : t.channel = ⟨[], t.channel.written⟩ := by rw [← hpending]
    have hsupplied : t.supplied more = { t with channel := ⟨more, t.channel.written⟩ } := by
      simp [State.supplied, hpending]
    refine ⟨t, hpasses, hop, rfl, rfl, rfl, hchannel, ?_⟩
    exact hsupplied ▸ ⟨hpasses.1.supplied eof more, hpasses.2⟩

end Supplied

/-- Input is used as it comes. Where a run does not come to the end of its input, more input changes
nothing; where it stops there, it goes on with more input as if it had not stopped. -/
theorem execute_append_inputs {text : String} {ops : Array Op} (hdecode : Op.decode text = .ok ops)
    (xs ys : List UInt8) (config : Config) (eof : EofPolicy) :
    let short := (execute text xs { config with eof := .halt }).result
    let long := (execute text (xs ++ ys) { config with eof := eof }).result
    ((∀ r pc, short = .ok r → r.halt ≠ .inputExhausted pc) → long = short) ∧
    ∀ r pc, short = .ok r → r.halt = .inputExhausted pc →
      (∃ s, Passes ops { config with eof := .halt } (start xs) s ∧ ops[pc]? = some .read ∧
        s.pc = pc ∧ s.cycles = r.cycles ∧ s.tape = r.tape ∧ s.channel = ⟨[], r.outputs⟩ ∧
          Passes ops { config with eof := eof } (start (xs ++ ys))
            { s with channel := ⟨ys, r.outputs⟩ }) ∧
      ∀ r', long = .ok r' → r.outputs.toList <+: r'.outputs.toList := by
  intro short long
  have hshort : short = outcome ops { config with eof := .halt } (start xs) :=
    result_execute xs hdecode
  have hlong : long = outcome ops { config with eof := eof } (start (xs ++ ys)) :=
    result_execute (xs ++ ys) hdecode
  rw [hshort, hlong]
  constructor
  · intro hnot
    exact outcome_supplied rfl (Nat.zero_le _) hnot eof ys
  · intro r pc hr hhalt
    obtain ⟨s, hs⟩ := passes_of_inputExhausted rfl (Nat.zero_le _) hr hhalt eof ys
    refine ⟨⟨s, hs⟩, fun r' hr' => ?_⟩
    obtain ⟨-, -, -, -, -, -, hpasses⟩ := hs
    exact (grows_of_passes rfl hpasses hr').1

/-- A program that echoes two bytes stops at its second read if there is one byte only, and goes on
from there if there are more. Two bytes are all that it reads. -/
theorem execute_append_inputs_echo :
    Op.decode ",.,." = .ok #[.read, .write, .read, .write] ∧
      (execute ",.,." [7] {}).result =
        .ok { cycles := 2, outputs := #[7], halt := .inputExhausted 2, tape := ⟨#[7]⟩ } ∧
      (∀ ys r, (execute ",.,." ([7] ++ ys) {}).result = .ok r → [7] <+: r.outputs.toList) ∧
      ∀ ys eof, (execute ",.,." ([7, 8] ++ ys) { eof := eof }).result =
        .ok { cycles := 4, outputs := #[7, 8], halt := .completed, tape := ⟨#[8]⟩ } := by
  have hdecode : Op.decode ",.,." = .ok #[.read, .write, .read, .write] := rfl
  refine ⟨hdecode, rfl, fun ys r hr => ?_, fun ys eof => ?_⟩
  · exact ((execute_append_inputs hdecode [7] ys {} .halt).2 _ 2 rfl rfl).2 r hr
  · refine (execute_append_inputs hdecode [7, 8] ys {} eof).1 fun r pc hr => ?_
    cases hr
    nofun

/-! ## Zeros without end -/

section Zeros
variable {ops : Array Op} {config : Config} {s t : State} {x : Except Fault Result}

/-- The policy is asked by a read at the end of the input and by no other op. -/
theorem Op.execute_eq_of_pending {op : Op} (h : op = .read → s.channel.pending ≠ [])
    (eof eof' : EofPolicy) : op.execute eof s = op.execute eof' s := by
  cases op with
  | read =>
    obtain ⟨byte, rest, hpending⟩ := List.exists_cons_of_ne_nil (h rfl)
    simp only [Op.execute, Channel.read?, hpending]
  | _ => rfl

/-- Where zero is read at the end of the input, it could as well be read from the input: one more zero
is enough for one op. -/
theorem Op.execute_zeros {op : Op} (h : op.execute .zero s = .ok t) (ht : t.isHalted = false)
    (n : Nat) : ∃ m, n ≤ m ∧ op.execute .halt (s.supplied (.replicate (n + 1) 0)) =
      .ok (t.supplied (.replicate m 0)) := by
  by_cases hread : op = .read ∧ s.channel.pending = []
  · obtain ⟨rfl, hpending⟩ := hread
    simp only [Op.execute, Channel.read?, hpending, Except.ok.injEq] at h
    subst h
    refine ⟨n, Nat.le_refl n, ?_⟩
    simp [Op.execute, Channel.read?, State.supplied, hpending, List.replicate_succ]
  · rw [Op.execute_eq_of_pending (fun hop hpending => hread ⟨hop, hpending⟩) .zero .halt] at h
    exact ⟨n + 1, Nat.le_succ n, Op.execute_supplied h ht .halt _⟩

theorem next?_zeros (h : next? ops .zero s = some t) (n : Nat) :
    ∃ m, n ≤ m ∧ next? ops .halt (s.supplied (.replicate (n + 1) 0)) =
      some (t.supplied (.replicate m 0)) := by
  obtain ⟨op, u, hop, hu, hhalt, rfl⟩ := next?_eq_some_iff.mp h
  obtain ⟨m, hm, hexec⟩ := Op.execute_zeros hu hhalt n
  exact ⟨m, hm, next?_eq_some_iff.mpr ⟨op, u.supplied (.replicate m 0), hop, hexec, hhalt, rfl⟩⟩

/-- A walk that takes no more cycles than there are zeros does not come to their end: there are as many
left as there are cycles. -/
theorem Machine.Reaches.zeros (h : Reaches ops .zero s t) {n : Nat} (hn : t.cycles ≤ s.cycles + n) :
    ∃ m, s.cycles + n ≤ t.cycles + m ∧
      Reaches ops .halt (s.supplied (.replicate n 0)) (t.supplied (.replicate m 0)) := by
  induction h with
  | refl => exact ⟨n, Nat.le_refl _, .refl _⟩
  | @tail u t _ hlast ih =>
    have hcycles := cycles_of_next? hlast
    obtain ⟨left, hleft, hreach⟩ := ih (by omega)
    obtain ⟨k, rfl⟩ : ∃ k, left = k + 1 := ⟨left - 1, by omega⟩
    obtain ⟨m, hm, hnext⟩ := next?_zeros hlast k
    exact ⟨m, by omega, hreach.trans (.step hnext)⟩

/-- Where the policy is not to stop, no run ends for want of input. -/
theorem Machine.EndsAt.ne_inputExhausted (h : EndsAt ops config t x) (heof : config.eof ≠ .halt)
    (r : Result) (pc : Nat) (hr : x = .ok r) : r.halt ≠ .inputExhausted pc := by
  cases h with
  | inputExhausted _ _ _ hhalt => exact absurd hhalt heof
  | tapeUnderflow => cases hr
  | _ =>
    cases hr
    nofun

theorem outcome_zeros (hs : s.halt = none) (hcycles : s.cycles ≤ config.maxCycles) {n : Nat}
    (hn : config.maxCycles ≤ s.cycles + n) :
    outcome ops { config with eof := .halt } (s.supplied (.replicate n 0)) =
      outcome ops { config with eof := .zero } s := by
  obtain ⟨t, ⟨hreach, ht⟩, hend⟩ := exists_endsAt ops { config with eof := .zero } hs hcycles
  obtain ⟨m, -, hzeros⟩ := hreach.zeros (Nat.le_trans ht hn)
  exact outcome_of_endsAt ⟨hzeros, ht⟩ (hend.supplied (hend.ne_inputExhausted nofun) .halt _)

end Zeros

/-- To read zero at the end of the input is to have zeros behind the input without end, and as many zeros
as there are cycles are never used up. -/
theorem execute_append_zeros {text : String} {ops : Array Op} (hdecode : Op.decode text = .ok ops)
    (xs : List UInt8) (config : Config) {k : Nat} (hk : config.maxCycles ≤ k) :
    let endless := (execute text xs { config with eof := .zero }).result
    (execute text (xs ++ .replicate k 0) { config with eof := .halt }).result = endless ∧
    (∀ r pc, endless = .ok r → r.halt ≠ .inputExhausted pc) ∧
    ∀ fault, endless = .error fault → ∃ pc, fault = .tapeUnderflow pc := by
  intro endless
  have hendless : endless = outcome ops { config with eof := .zero } (start xs) :=
    result_execute xs hdecode
  have hstop : (execute text (xs ++ .replicate k 0) { config with eof := .halt }).result =
      outcome ops { config with eof := .halt } ((start xs).supplied (.replicate k 0)) :=
    result_execute (xs ++ .replicate k 0) hdecode
  obtain ⟨t, -, hend⟩ := exists_endsAt (s := start xs) ops { config with eof := .zero } rfl
    (Nat.zero_le _)
  rw [hendless, hstop]
  refine ⟨outcome_zeros rfl (Nat.zero_le _) (by simpa [start] using hk), ?_, ?_⟩
  · exact hend.ne_inputExhausted nofun
  · intro fault hfault
    rw [hfault] at hend
    exact ⟨t.pc, hend.of_error.1⟩

/-- A program that echoes its input up to a zero and then reads into a cell that is not stored: of one
byte and eight zeros or more it reads the byte and two zeros, and the second is not stored. -/
theorem execute_append_zeros_echo :
    Op.decode ",[.,]>>," = .ok #[.read, .jumpIfZero 4, .write, .read, .jumpUnlessZero 1, .right,
      .right, .read] ∧
    ∀ k, 8 ≤ k → (execute ",[.,]>>," ([7] ++ .replicate k 0) { maxCycles := 8 }).result =
      .ok { cycles := 8, outputs := #[7], halt := .completed, tape := ⟨#[0]⟩ } := by
  have hdecode : Op.decode ",[.,]>>," = .ok #[.read, .jumpIfZero 4, .write, .read,
    .jumpUnlessZero 1, .right, .right, .read] := rfl
  refine ⟨hdecode, fun k hk => ?_⟩
  have hk : Config.maxCycles { maxCycles := 8 } ≤ k := hk
  exact (execute_append_zeros hdecode [7] { maxCycles := 8 } hk).1.trans rfl

end TapeMachine
