import TapeMachine.Proofs.Behaviour

/-!
# Routines

A routine says what is to be done to which cells, without saying how the head gets there: it goes to
cells, changes the cell under the head, reads, writes, and counts cells down. All generated code is
the code of a routine.

* `Effect`, `Routine` : the steps of a routine, and routines;
* `Routine.runs` : what a routine does, in terms of cells only;
* `Routine.code` : the tree that does it, written for a head that stands at a known cell;
* `Routine.runs_code_iff` : the code of a routine does what the routine does. The head is where the
  code takes it to be, in every round of every loop.
-/

namespace TapeMachine

inductive Effect where
  /-- The head goes to a cell. -/
  | go (cell : Nat)
  /-- `n` is added to the cell under the head, modulo 256. -/
  | raise (n : Nat)
  /-- `n` is taken from the cell under the head, modulo 256. -/
  | lower (n : Nat)
  /-- The cell under the head becomes zero. -/
  | clear
  | read
  | write
  deriving DecidableEq, Repr

/-- A list of steps, some of them inside loops. -/
inductive Routine where
  | done
  | act (effect : Effect) (rest : Routine)
  /-- The body is done as often as the cell says; each time one is taken from the cell before. -/
  | countDown (cell : Nat) (body rest : Routine)
  deriving DecidableEq, Repr

def Effect.final (eof : EofPolicy) (m : Memory) : Effect → Final
  | go cell => .completed (m.go cell)
  | raise n => .completed (m.put (m.value + UInt8.ofNat n))
  | lower n => .completed (m.put (m.value - UInt8.ofNat n))
  | clear => .completed (m.put 0)
  | read => m.read eof
  | write => .completed m.write

namespace Behaviour

def go (cell : Nat) : Behaviour := update fun m => m.go cell

/-- Goes to a cell and, while the cell is not zero, takes one from it, does the body and goes back to
the cell. -/
def countDown (cell : Nat) (body : Behaviour) : Behaviour :=
  (go cell).andThen (loop (fun m => m.cells cell ≠ 0)
    ((update fun m => m.take cell).andThen (body.andThen (go cell))))

end Behaviour

namespace Routine

def runs (eof : EofPolicy) : Routine → Behaviour
  | done => .skip
  | act effect rest => (Behaviour.ofFinal fun m => effect.final eof m).andThen (rest.runs eof)
  | countDown cell body rest => (Behaviour.countDown cell (body.runs eof)).andThen (rest.runs eof)

def append : Routine → Routine → Routine
  | done, r => r
  | act effect rest, r => act effect (rest.append r)
  | countDown cell body rest, r => countDown cell body (rest.append r)

instance : Append Routine := ⟨append⟩

@[simp] theorem done_append (r : Routine) : done ++ r = r := rfl

@[simp] theorem act_append (effect : Effect) (rest r : Routine) :
    act effect rest ++ r = act effect (rest ++ r) := rfl

@[simp] theorem countDown_append (cell : Nat) (body rest r : Routine) :
    countDown cell body rest ++ r = countDown cell body (rest ++ r) := rfl

def line : List Effect → Routine
  | [] => done
  | effect :: rest => act effect (line rest)

theorem runs_append (eof : EofPolicy) (r r' : Routine) :
    (r ++ r').runs eof = (r.runs eof).andThen (r'.runs eof) := by
  induction r with
  | done => exact (Behaviour.skip_andThen _).symm
  | act effect rest ih => rw [act_append, runs, ih, runs, Behaviour.andThen_assoc]
  | countDown cell body rest _ ih => rw [countDown_append, runs, ih, runs, Behaviour.andThen_assoc]

/-- A step that does not stop at a read is followed by the rest. -/
theorem runs_act {eof : EofPolicy} {effect : Effect} {rest : Routine} {m n : Memory} {e : Final}
    (h : effect.final eof m = .completed n) :
    (act effect rest).runs eof m e ↔ rest.runs eof n e := by
  constructor
  · rintro (⟨k, hk, hrest⟩ | ⟨k, hk, -⟩)
    · cases h.symm.trans hk.symm
      exact hrest
    · cases h.symm.trans hk.symm
  · intro hrest
    exact Behaviour.andThen_completed h.symm hrest

theorem runs_go (eof : EofPolicy) (cell : Nat) : (line [.go cell]).runs eof = .go cell := by
  rw [line, line, runs, runs, Behaviour.andThen_skip]
  rfl

theorem runs_raise (eof : EofPolicy) (cell n : Nat) (m : Memory) (e : Final) :
    (line [.go cell, .raise n]).runs eof m e ↔
      e = .completed ((m.go cell).put (m.cells cell + UInt8.ofNat n)) := by
  rw [line, runs_act rfl, line, runs_act rfl]
  rfl

theorem runs_clear (eof : EofPolicy) (cell : Nat) (m : Memory) (e : Final) :
    (line [.go cell, .clear]).runs eof m e ↔ e = .completed ((m.go cell).put 0) := by
  rw [line, runs_act rfl, line, runs_act rfl]
  rfl

end Routine

/-! ## The code of a routine -/

namespace LoopTree

def times (b : Basic) : Nat → LoopTree
  | 0 => done
  | n + 1 => basic b (times b n)

@[simp] theorem symbols_times (b : Basic) (n : Nat) :
    (times b n).symbols = List.replicate n b.symbol := by
  induction n with
  | zero => rfl
  | succ n ih => rw [times, symbols, ih, List.replicate_succ]

def moves (source target : Nat) : LoopTree :=
  if source < target then times .right (target - source) else times .left (source - target)

end LoopTree

def Effect.after (cursor : Nat) : Effect → Nat
  | go cell => cell
  | _ => cursor

def Effect.code (cursor : Nat) : Effect → LoopTree
  | go cell => .moves cursor cell
  | raise n => .times .increment n
  | lower n => .times .decrement n
  | clear => .loop (.basic .decrement .done) .done
  | read => .basic .read .done
  | write => .basic .write .done

namespace Routine

def after : Routine → Nat → Nat
  | done, cursor => cursor
  | act effect rest, cursor => rest.after (effect.after cursor)
  | countDown cell _ rest, _ => rest.after cell

/-- The code of a routine for a head at `cursor`. -/
def code : Routine → Nat → LoopTree
  | done, _ => .done
  | act effect rest, cursor => effect.code cursor ++ rest.code (effect.after cursor)
  | countDown cell body rest, cursor =>
    .moves cursor cell ++ .loop (.basic .decrement (body.code cell ++ .moves (body.after cell) cell))
      (rest.code cell)

theorem after_append (r r' : Routine) (cursor : Nat) :
    (r ++ r').after cursor = r'.after (r.after cursor) := by
  induction r generalizing cursor with
  | done => rfl
  | act effect rest ih => exact ih (effect.after cursor)
  | countDown cell body rest _ ih => exact ih cell

end Routine

theorem LoopTree.append_assoc (t u v : LoopTree) : t ++ u ++ v = t ++ (u ++ v) := by
  induction t with
  | done => rfl
  | basic b rest ih => rw [basic_append, basic_append, basic_append, ih]
  | loop body rest _ ih => rw [loop_append, loop_append, loop_append, ih]

theorem Routine.code_append (r r' : Routine) (cursor : Nat) :
    (r ++ r').code cursor = r.code cursor ++ r'.code (r.after cursor) := by
  induction r generalizing cursor with
  | done => rfl
  | act effect rest ih => rw [act_append, code, ih, code, after, LoopTree.append_assoc]
  | countDown cell body rest _ ih =>
    rw [countDown_append, code, ih, code, after, LoopTree.append_assoc, LoopTree.loop_append]

/-! ## The code does what the routine does -/

namespace Memory

@[simp] theorem put_value (m : Memory) : m.put m.value = m := by
  simp [put, value]

@[simp] theorem value_put (m : Memory) (v : UInt8) : (m.put v).value = v := by
  simp [put, value]

@[simp] theorem put_put (m : Memory) (v w : UInt8) : (m.put v).put w = m.put w := by
  simp [put]

theorem head_of_read {eof : EofPolicy} {m n : Memory} (h : m.read eof = .completed n) :
    n.head = m.head := by
  unfold read at h
  split at h
  · cases h
    rfl
  · split at h <;> cases h <;> rfl

end Memory

theorem Routine.runs_set (eof : EofPolicy) (cell : Nat) (v : UInt8) (m : Memory) (e : Final) :
    (line [.go cell, .clear, .raise v.toNat]).runs eof m e ↔
      e = .completed ((m.go cell).put v) := by
  rw [line, runs_act rfl, line, runs_act rfl, line, runs_act rfl, Memory.put_put, Memory.value_put,
    UInt8.ofNat_toNat, UInt8.zero_add]
  rfl

/-- Two behaviours that are the same for a head at `cursor`. -/
def Behaviour.Agrees (cursor : Nat) (R S : Behaviour) : Prop :=
  ∀ m e, m.head = cursor → (R m e ↔ S m e)

/-- From a head at `cursor`, a behaviour that completes leaves the head at `target`. -/
def Behaviour.Lands (cursor target : Nat) (R : Behaviour) : Prop :=
  ∀ m n, m.head = cursor → R m (.completed n) → n.head = target

section Code
variable {eof : EofPolicy}

theorem runs_times_right (n : Nat) (m : Memory) (e : Final) :
    (LoopTree.times .right n).runs eof m e ↔ e = .completed (m.go (m.head + n)) := by
  induction n generalizing m with
  | zero => rfl
  | succ n ih =>
    rw [LoopTree.times, LoopTree.runs, Basic.runs, Behaviour.update_andThen, ih]
    simp only [Memory.go, Nat.add_assoc, Nat.add_comm 1]

theorem left_andThen {R : Behaviour} {m : Memory} {e : Final} {head : Nat} (h : m.head = head + 1) :
    (Basic.left.runs eof).andThen R m e ↔ R (m.go head) e := by
  constructor
  · rintro (⟨n, ⟨k, hk, hn⟩, hR⟩ | ⟨n, ⟨k, hk, hn⟩, -⟩)
    · cases hn
      obtain rfl : k = head := by omega
      exact hR
    · cases hn
  · intro hR
    exact Behaviour.andThen_completed ⟨head, h, rfl⟩ hR

theorem runs_times_left (n target : Nat) (m : Memory) (e : Final) (h : m.head = target + n) :
    (LoopTree.times .left n).runs eof m e ↔ e = .completed (m.go target) := by
  induction n generalizing m with
  | zero =>
    obtain rfl : m.head = target := h
    rfl
  | succ n ih =>
    have hmove : m.head = (target + n) + 1 := h
    rw [LoopTree.times, LoopTree.runs, left_andThen hmove, ih (m.go (target + n)) rfl]
    rfl

theorem runs_moves (cursor target : Nat) :
    Behaviour.Agrees cursor ((LoopTree.moves cursor target).runs eof) (.go target) := by
  rintro m e rfl
  unfold LoopTree.moves
  split
  · rw [runs_times_right, Nat.add_sub_cancel' (by omega)]
    rfl
  · rw [runs_times_left (m.head - target) target m e (by omega)]
    rfl

theorem runs_times_increment (n : Nat) (m : Memory) (e : Final) :
    (LoopTree.times .increment n).runs eof m e ↔
      e = .completed (m.put (m.value + UInt8.ofNat n)) := by
  induction n generalizing m with
  | zero =>
    rw [show UInt8.ofNat 0 = 0 from rfl, UInt8.add_zero, Memory.put_value]
    rfl
  | succ n ih =>
    rw [LoopTree.times, LoopTree.runs, Basic.runs, Behaviour.update_andThen, ih, Memory.put_put,
      Memory.value_put, UInt8.ofNat_add, UInt8.add_assoc, UInt8.add_comm 1]
    rfl

theorem runs_times_decrement (n : Nat) (m : Memory) (e : Final) :
    (LoopTree.times .decrement n).runs eof m e ↔
      e = .completed (m.put (m.value - UInt8.ofNat n)) := by
  induction n generalizing m with
  | zero =>
    rw [show UInt8.ofNat 0 = 0 from rfl, UInt8.sub_zero, Memory.put_value]
    rfl
  | succ n ih =>
    have hsub : m.value - 1 - UInt8.ofNat n = m.value - UInt8.ofNat (n + 1) := by
      rw [UInt8.ofNat_add]
      grind
    rw [LoopTree.times, LoopTree.runs, Basic.runs, Behaviour.update_andThen, ih, Memory.put_put,
      Memory.value_put, hsub]

theorem toNat_sub_one {v : UInt8} (h : v ≠ 0) : (v - 1).toNat + 1 = v.toNat := by
  have hpos : v.toNat ≠ 0 := fun h0 => h (UInt8.toNat_inj.mp h0)
  have hle : (1 : UInt8) ≤ v := UInt8.le_iff_toNat_le.mpr (Nat.one_le_iff_ne_zero.mpr hpos)
  rw [UInt8.toNat_sub_of_le v 1 hle, UInt8.toNat_one]
  omega

theorem loop_decrement_iff (m : Memory) (e : Final) :
    Behaviour.loop (fun m => m.value ≠ 0) (Basic.decrement.runs eof) m e ↔
      e = .completed (m.put 0) := by
  constructor
  · intro h
    induction h with
    | @stop m hz =>
      have hzero : m.value = 0 := not_not.mp hz
      rw [← hzero, Memory.put_value]
    | again _ hround _ ih =>
      cases hround
      rw [ih, Memory.put_put]
    | starve _ hround => cases hround
  · rintro rfl
    induction hv : m.value.toNat generalizing m with
    | zero =>
      have hzero : m.value = 0 := UInt8.toNat_inj.mp hv
      have hput : m.put 0 = m := by rw [← hzero, Memory.put_value]
      rw [hput]
      exact .stop (not_not.mpr hzero)
    | succ v ih =>
      have hnz : m.value ≠ 0 := fun h0 => by simp [h0] at hv
      have hrec := ih (m.put (m.value - 1)) (by
        have := toNat_sub_one hnz
        rw [Memory.value_put]
        omega)
      rw [Memory.put_put] at hrec
      exact .again hnz rfl hrec

end Code

/-! ## Where the head is -/

namespace Behaviour

variable {R R' S S' : Behaviour} {a b c : Nat}

theorem Agrees.andThen (hR : Agrees a R R') (hb : Lands a b R') (hS : Agrees b S S') :
    Agrees a (R.andThen S) (R'.andThen S') := by
  intro m e hm
  constructor
  · rintro (⟨n, hn, h⟩ | ⟨n, hn, rfl⟩)
    · have hn := (hR m _ hm).mp hn
      exact andThen_completed hn ((hS n e (hb m n hm hn)).mp h)
    · exact andThen_exhausted ((hR m _ hm).mp hn)
  · rintro (⟨n, hn, h⟩ | ⟨n, hn, rfl⟩)
    · exact andThen_completed ((hR m _ hm).mpr hn) ((hS n e (hb m n hm hn)).mpr h)
    · exact andThen_exhausted ((hR m _ hm).mpr hn)

theorem Lands.andThen (hR : Lands a b R) (hS : Lands b c S) : Lands a c (R.andThen S) := by
  intro m n hm h
  obtain ⟨k, hk, hn⟩ := andThen_completed_iff.mp h
  exact hS k n (hR m k hm hk) hn

theorem lands_go (a b : Nat) : Lands a b (go b) := by
  intro m n _ h
  cases h
  rfl

theorem lands_skip (a : Nat) : Lands a a skip := by
  intro m n hm h
  cases h
  exact hm

theorem lands_take (a c : Nat) : Lands a a (update fun m => m.take c) := by
  intro m n hm h
  cases h
  exact hm

theorem Lands.loop {test : Memory → Prop} (hR : Lands a a R) : Lands a a (loop test R) := by
  intro m n hm h
  generalize he : Final.completed n = e at h
  induction h with
  | stop _ =>
    cases he
    exact hm
  | again _ hround _ ih => exact ih (hR _ _ hm hround) he
  | starve _ _ => cases he

theorem Agrees.loop {test test' : Memory → Prop} (htest : ∀ m, m.head = a → (test m ↔ test' m))
    (hR : Agrees a R R') (ha : Lands a a R') :
    Agrees a (Behaviour.loop test R) (Behaviour.loop test' R') := by
  intro m e hm
  constructor
  · intro h
    refine loop_of_invariant (fun m => m.head = a) htest (fun m e hm => (hR m e hm).mp) ?_ h hm
    intro m n hm hn
    exact ha m n hm ((hR m _ hm).mp hn)
  · intro h
    exact loop_of_invariant (fun m => m.head = a) (fun m hm => (htest m hm).symm)
      (fun m e hm => (hR m e hm).mpr) ha h hm

end Behaviour

section Routine
variable {eof : EofPolicy}

theorem Effect.agrees (effect : Effect) (cursor : Nat) :
    Behaviour.Agrees cursor ((effect.code cursor).runs eof)
      (.ofFinal fun m => effect.final eof m) := by
  intro m e hm
  cases effect with
  | go cell => exact runs_moves cursor cell m e hm
  | raise n => exact runs_times_increment n m e
  | lower n => exact runs_times_decrement n m e
  | clear =>
    simp only [Effect.code, LoopTree.runs, Behaviour.andThen_skip]
    exact loop_decrement_iff m e
  | read =>
    simp only [Effect.code, LoopTree.runs, Behaviour.andThen_skip]
    rfl
  | write =>
    simp only [Effect.code, LoopTree.runs, Behaviour.andThen_skip]
    rfl

theorem Effect.lands (effect : Effect) (cursor : Nat) :
    Behaviour.Lands cursor (effect.after cursor) (.ofFinal fun m => effect.final eof m) := by
  intro m n hm h
  cases effect with
  | go cell =>
    cases h
    rfl
  | read =>
    have hread : m.read eof = .completed n := h.symm
    rw [Memory.head_of_read hread, hm]
    rfl
  | _ =>
    cases h
    exact hm

theorem Behaviour.Lands.round {R : Behaviour} {cell b : Nat} (h : Lands cell b R) :
    Lands cell cell ((update fun m => m.take cell).andThen (R.andThen (go cell))) :=
  (lands_take cell cell).andThen (h.andThen (lands_go b cell))

/-- One round of the code of a loop does what one round of the loop does. -/
theorem Behaviour.Agrees.round {tree : LoopTree} {R : Behaviour} {cell b : Nat}
    (h : Agrees cell (tree.runs eof) R) (hb : Lands cell b R) :
    Agrees cell ((LoopTree.basic .decrement (tree ++ .moves b cell)).runs eof)
      ((update fun m => m.take cell).andThen (R.andThen (go cell))) := by
  have htake : Agrees cell (Basic.decrement.runs eof) (.update fun m => m.take cell) := by
    rintro m e rfl
    rfl
  rw [LoopTree.runs, LoopTree.runs_append]
  exact htake.andThen (lands_take cell cell) (h.andThen hb (runs_moves b cell))

/-- A routine that completes leaves the head where it is taken to be. -/
theorem Routine.lands (r : Routine) : ∀ cursor,
    Behaviour.Lands cursor (r.after cursor) (r.runs eof) := by
  induction r with
  | done =>
    intro cursor
    exact Behaviour.lands_skip cursor
  | act effect rest ih =>
    intro cursor
    exact (effect.lands cursor).andThen (ih _)
  | countDown cell body rest ihb ihr =>
    intro cursor
    exact ((Behaviour.lands_go cursor cell).andThen (ihb cell).round.loop).andThen (ihr cell)

/-- The code of a routine, written for a head at `cursor`, does what the routine does. -/
theorem Routine.runs_code_iff (r : Routine) : ∀ cursor,
    Behaviour.Agrees cursor ((r.code cursor).runs eof) (r.runs eof) := by
  induction r with
  | done =>
    intro cursor m e _
    rfl
  | act effect rest ih =>
    intro cursor
    rw [Routine.code, LoopTree.runs_append, Routine.runs]
    exact (effect.agrees cursor).andThen (effect.lands cursor) (ih _)
  | countDown cell body rest ihb ihr =>
    intro cursor
    have htest : ∀ m : Memory, m.head = cell → (m.value ≠ 0 ↔ m.cells cell ≠ 0) := by
      rintro m rfl
      rfl
    rw [Routine.code, LoopTree.runs_append, Routine.runs, Behaviour.countDown,
      Behaviour.andThen_assoc]
    refine (runs_moves cursor cell).andThen (Behaviour.lands_go cursor cell) ?_
    have hround := (ihb cell).round (body.lands cell)
    exact (hround.loop htest (body.lands cell).round).andThen (body.lands cell).round.loop (ihr cell)

end Routine

end TapeMachine
