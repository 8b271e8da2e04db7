import TapeMachine.Proofs.Emission

/-!
# Where the head is

In generated code every loop comes back to the cell from which it started, so the head is where the
moves before the program counter take it, however often loops were run on the way.

* `drift ss` : the moves to the right among the symbols less those to the left;
* `walk ss head` : where the symbols take the head when each is passed once; none where this leaves
  the tape. The code of a routine is passed without leaving the tape (`Routine.walk_code`);
* `LoopTree.Level` : the body of every loop has no drift;
* `Op.Keeps` : the op changes the head by as much as the drift before the program counter;
* `LoopTree.head_of_reaches`, `LoopTree.ok_of_walk` : a run of level code has its head at the drift
  before the program counter, and has no fault where the code can be passed.
-/

namespace TapeMachine

def drift (ss : List Symbol) : Int := ss.count .right - ss.count .left

/-- Where a symbol takes the head; none where it takes it off the tape. -/
def Symbol.move? : Nat → Symbol → Option Nat
  | head, right => some (head + 1)
  | 0, left => none
  | head + 1, left => some head
  | head, _ => some head

/-- Where symbols take the head when each is passed once, brackets too. -/
def walk (ss : List Symbol) (head : Nat) : Option Nat := ss.foldlM Symbol.move? head

@[simp] theorem drift_loopStart : drift [.loopStart] = 0 := rfl

@[simp] theorem drift_loopEnd : drift [.loopEnd] = 0 := rfl

theorem drift_append (xs ys : List Symbol) : drift (xs ++ ys) = drift xs + drift ys := by
  unfold drift
  rw [List.count_append, List.count_append]
  omega

theorem drift_cons (s : Symbol) (ss : List Symbol) : drift (s :: ss) = drift [s] + drift ss :=
  drift_append [s] ss

theorem walk_append (xs ys : List Symbol) (head : Nat) :
    walk (xs ++ ys) head = (walk xs head).bind (walk ys) :=
  List.foldlM_append

theorem walk_cons (s : Symbol) (ss : List Symbol) (head : Nat) :
    walk (s :: ss) head = (s.move? head).bind (walk ss) :=
  List.foldlM_cons

theorem Symbol.drift_of_move? {s : Symbol} {a b : Nat} (h : s.move? a = some b) :
    (b : Int) = a + drift [s] := by
  cases s with
  | right =>
    cases h
    rfl
  | left =>
    cases a with
    | zero => cases h
    | succ a =>
      cases h
      show (b : Int) = (b + 1 : Nat) + (-1)
      omega
  | _ =>
    cases h
    rfl

theorem drift_of_walk {ss : List Symbol} : ∀ {a b : Nat}, walk ss a = some b →
    (b : Int) = a + drift ss := by
  induction ss with
  | nil =>
    intro a b h
    cases h
    exact (Int.add_zero _).symm
  | cons s ss ih =>
    intro a b h
    rw [walk_cons] at h
    obtain ⟨c, hc, hb⟩ := Option.bind_eq_some_iff.mp h
    rw [ih hb, Symbol.drift_of_move? hc, drift_cons s ss]
    omega

theorem drift_take_of_walk {ss : List Symbol} {a b : Nat} (h : walk ss a = some b) (k : Nat) :
    0 ≤ a + drift (ss.take k) := by
  rw [← List.take_append_drop k ss, walk_append] at h
  obtain ⟨c, hc, -⟩ := Option.bind_eq_some_iff.mp h
  have := drift_of_walk hc
  omega

/-! ## The code of a routine -/

theorem walk_right (n head : Nat) : walk (.replicate n .right) head = some (head + n) := by
  induction n generalizing head with
  | zero => rfl
  | succ n ih =>
    rw [List.replicate_succ, walk_cons]
    exact (ih (head + 1)).trans (congrArg some (by omega))

theorem walk_left (n head : Nat) : walk (.replicate n .left) (head + n) = some head := by
  induction n with
  | zero => rfl
  | succ n ih =>
    rw [List.replicate_succ, walk_cons]
    exact ih

theorem walk_still {s : Symbol} (n head : Nat) (h : s.move? head = some head) :
    walk (.replicate n s) head = some head := by
  induction n with
  | zero => rfl
  | succ n ih =>
    rw [List.replicate_succ, walk_cons, h]
    exact ih

theorem walk_moves (source target : Nat) :
    walk (LoopTree.moves source target).symbols source = some target := by
  unfold LoopTree.moves
  split
  · rw [LoopTree.symbols_times]
    exact (walk_right _ source).trans (congrArg some (by omega))
  · rw [LoopTree.symbols_times]
    obtain ⟨n, rfl⟩ : ∃ n, source = target + n := ⟨source - target, by omega⟩
    rw [Nat.add_sub_cancel_left]
    exact walk_left n target

theorem Effect.walk_code (effect : Effect) (cursor : Nat) :
    walk (effect.code cursor).symbols cursor = some (effect.after cursor) := by
  cases effect with
  | go cell => exact walk_moves cursor cell
  | raise n =>
    rw [Effect.code, LoopTree.symbols_times]
    exact walk_still n cursor rfl
  | lower n =>
    rw [Effect.code, LoopTree.symbols_times]
    exact walk_still n cursor rfl
  | clear => rfl
  | read => rfl
  | write => rfl

/-- The code of a routine takes the head from the cell for which it is written to the cell at which
the routine ends, also where the bodies of its loops are passed once. -/
theorem Routine.walk_code (r : Routine) : ∀ cursor,
    walk (r.code cursor).symbols cursor = some (r.after cursor) := by
  induction r with
  | done =>
    intro cursor
    rfl
  | act effect rest ih =>
    intro cursor
    rw [code, LoopTree.symbols_append, walk_append, effect.walk_code]
    exact ih _
  | countDown cell body rest ihb ihr =>
    intro cursor
    have hround : walk (LoopTree.basic .decrement
        (body.code cell ++ .moves (body.after cell) cell)).symbols cell = some cell := by
      rw [LoopTree.symbols, walk_cons, LoopTree.symbols_append]
      show walk (_ ++ _) cell = some cell
      rw [walk_append, ihb cell]
      exact walk_moves _ cell
    rw [code, LoopTree.symbols_append, walk_append, walk_moves, LoopTree.symbols]
    show walk (_ ++ _) cell = _
    rw [walk_append, hround]
    exact ihr cell

namespace LoopTree

/-- The body of every loop has as many moves to the right as to the left. -/
def Level : LoopTree → Prop
  | done => True
  | basic _ rest => rest.Level
  | loop body rest => drift body.symbols = 0 ∧ body.Level ∧ rest.Level

theorem level_append {t u : LoopTree} (ht : t.Level) (hu : u.Level) : (t ++ u).Level := by
  induction t with
  | done => exact hu
  | basic b rest ih => exact ih ht
  | loop body rest _ ih => exact ⟨ht.1, ht.2.1, ih ht.2.2⟩

theorem level_times (b : Basic) (n : Nat) : (times b n).Level := by
  induction n with
  | zero => trivial
  | succ n ih => exact ih

theorem level_moves (source target : Nat) : (moves source target).Level := by
  unfold moves
  split <;> exact level_times _ _

end LoopTree

theorem Effect.level_code (effect : Effect) (cursor : Nat) : (effect.code cursor).Level := by
  cases effect with
  | go cell => exact LoopTree.level_moves cursor cell
  | raise n => exact LoopTree.level_times .increment n
  | lower n => exact LoopTree.level_times .decrement n
  | clear => exact ⟨rfl, trivial, trivial⟩
  | read => trivial
  | write => trivial

theorem Routine.level_code (r : Routine) : ∀ cursor, (r.code cursor).Level := by
  induction r with
  | done =>
    intro cursor
    trivial
  | act effect rest ih =>
    intro cursor
    exact LoopTree.level_append (effect.level_code cursor) (ih _)
  | countDown cell body rest ihb ihr =>
    intro cursor
    refine LoopTree.level_append (LoopTree.level_moves cursor cell) ⟨?_, ?_, ihr cell⟩
    · have hround := drift_of_walk (body.walk_code cell)
      have hback := drift_of_walk (walk_moves (body.after cell) cell)
      rw [LoopTree.symbols, drift_cons, LoopTree.symbols_append, drift_append]
      show 0 + _ = (0 : Int)
      omega
    · exact LoopTree.level_append (ihb cell) (LoopTree.level_moves _ cell)

/-! ## The head of a run -/

/-- Ops from index `start` on have a property of an index and an op. -/
def Along (P : Nat → Op → Prop) : Nat → List Op → Prop
  | _, [] => True
  | start, op :: rest => P start op ∧ Along P (start + 1) rest

namespace Along

variable {P : Nat → Op → Prop} {start : Nat} {xs ys : List Op}

theorem append (hx : Along P start xs) (hy : Along P (start + xs.length) ys) :
    Along P start (xs ++ ys) := by
  induction xs generalizing start with
  | nil => exact hy
  | cons op xs ih =>
    refine ⟨hx.1, ih hx.2 ?_⟩
    rw [Nat.add_assoc, Nat.add_comm 1]
    exact hy

theorem of_getElem? (h : Along P start xs) {i : Nat} {op : Op} (hop : xs[i]? = some op) :
    P (start + i) op := by
  induction xs generalizing start i with
  | nil => cases hop
  | cons first xs ih =>
    cases i with
    | zero =>
      cases hop
      exact h.1
    | succ i =>
      rw [Nat.add_comm i, ← Nat.add_assoc]
      exact ih h.2 hop

end Along

/-- An op at index `pc` changes the head by as much as the drift of the symbols before the program
counter, wherever it leads. -/
def Op.Keeps (ss : List Symbol) (eof : EofPolicy) (pc : Nat) (op : Op) : Prop :=
  ∀ s t : State, s.pc = pc → op.execute eof s = .ok t →
    (t.head : Int) - drift (ss.take t.pc) = s.head - drift (ss.take s.pc)

section Keeps
variable {ss before after : List Symbol} {eof : EofPolicy}

theorem drift_take {n : Nat} (before : List Symbol) (h : ss = before ++ after)
    (hn : before.length = n) : drift (ss.take n) = drift before := by
  rw [h, ← hn, List.take_left]

/-- An op that is no jump goes on to the next op, unless it stops the machine where it is. -/
theorem Basic.execute_cases {b : Basic} {s t : State} (h : b.op.execute eof s = .ok t) :
    (t.pc = s.pc + 1 ∧ (t.head : Int) = s.head + drift [b.symbol]) ∨
      (t.pc = s.pc ∧ t.head = s.head) := by
  cases b with
  | right =>
    cases h
    exact .inl ⟨rfl, rfl⟩
  | left =>
    simp only [Basic.op, Op.execute] at h
    split at h
    · cases h
    · rename_i head hhead
      cases h
      refine .inl ⟨rfl, ?_⟩
      rw [hhead]
      show (head : Int) = (head + 1 : Nat) + (-1)
      omega
  | read =>
    simp only [Basic.op, Op.execute] at h
    split at h
    · cases h
      exact .inl ⟨rfl, (Int.add_zero _).symm⟩
    · split at h <;> cases h
      · exact .inr ⟨rfl, rfl⟩
      · exact .inl ⟨rfl, (Int.add_zero _).symm⟩
      · exact .inl ⟨rfl, (Int.add_zero _).symm⟩
  | _ =>
    cases h
    exact .inl ⟨rfl, (Int.add_zero _).symm⟩

theorem Basic.keeps (b : Basic) (h : ss = before ++ b.symbol :: after) :
    b.op.Keeps ss eof before.length := by
  intro s t hpc ht
  have hnext : drift (ss.take (before.length + 1)) = drift before + drift [b.symbol] := by
    rw [drift_take (before ++ [b.symbol]) (h.trans (List.append_cons _ _ _)) (by simp),
      drift_append]
  rcases Basic.execute_cases ht with ⟨htpc, hhead⟩ | ⟨htpc, hhead⟩
  · rw [htpc, hpc, hnext, drift_take before h rfl, hhead]
    omega
  · rw [htpc, hhead]

/-- A jump keeps the head, so both ways it can take have to keep the drift. -/
theorem keeps_jump {pc target : Nat} (hnext : drift (ss.take (pc + 1)) = drift (ss.take pc))
    (htarget : drift (ss.take (target + 1)) = drift (ss.take pc)) :
    (Op.jumpIfZero target).Keeps ss eof pc ∧ (Op.jumpUnlessZero target).Keeps ss eof pc := by
  constructor
  · rintro s t rfl ht
    cases ht
    show (s.head : Int) - drift (ss.take (if s.cell = 0 then target + 1 else s.pc + 1)) = _
    split
    · rw [htarget]
    · rw [hnext]
  · rintro s t rfl ht
    cases ht
    show (s.head : Int) - drift (ss.take (if s.cell = 0 then s.pc + 1 else target + 1)) = _
    split
    · rw [hnext]
    · rw [htarget]

/-- Every op of level code keeps head and drift together. -/
theorem LoopTree.along_keeps_ops (t : LoopTree) : ∀ before after : List Symbol, t.Level →
    ss = before ++ t.symbols ++ after → Along (Op.Keeps ss eof) before.length (t.ops before.length) := by
  induction t with
  | done =>
    intro before after _ _
    trivial
  | basic b rest ih =>
    intro before after hlevel hss
    have hrest := ih (before ++ [b.symbol]) after hlevel (by simp [hss, symbols])
    rw [List.length_append, List.length_singleton] at hrest
    rw [symbols, List.append_assoc, List.cons_append] at hss
    exact ⟨b.keeps hss, hrest⟩
  | loop body rest ihb ihr =>
    intro before after hlevel hss
    obtain ⟨hdrift, hbody, hrest⟩ := hlevel
    have hopen : ss = (before ++ [.loopStart]) ++ body.symbols ++
        (.loopEnd :: (rest.symbols ++ after)) := by simp [hss, symbols]
    have hclose : ss = (before ++ [.loopStart] ++ body.symbols ++ [.loopEnd]) ++ rest.symbols ++
        after := by simp [hss, symbols]
    have hbodyLength : (before ++ [Symbol.loopStart] ++ body.symbols).length =
        before.length + body.length + 1 := by simp; omega
    have hloopLength : (before ++ [Symbol.loopStart] ++ body.symbols ++ [Symbol.loopEnd]).length =
        before.length + body.length + 2 := by simp; omega
    -- the drift is the same before the loop, at its first op, at its end, and behind it
    have hstart : drift (ss.take before.length) = drift before :=
      drift_take before (hss.trans (List.append_assoc _ _ _)) rfl
    have hfirst : drift (ss.take (before.length + 1)) = drift before := by
      rw [drift_take _ (hopen.trans (List.append_assoc _ _ _)) (by simp), drift_append]
      simp
    have hend : drift (ss.take (before.length + body.length + 1)) = drift before := by
      rw [drift_take _ hopen hbodyLength, drift_append, drift_append, hdrift]
      simp
    have hbehind : drift (ss.take (before.length + body.length + 2)) = drift before := by
      rw [drift_take _ (hclose.trans (List.append_assoc _ _ _)) hloopLength, drift_append,
        drift_append, drift_append, hdrift]
      simp
    have hinner := ihb _ _ hbody hopen
    rw [List.length_append, List.length_singleton] at hinner
    have houter := ihr _ _ hrest hclose
    rw [hloopLength] at houter
    refine ⟨(keeps_jump (hfirst.trans hstart.symm) (hbehind.trans hstart.symm)).1, ?_⟩
    refine hinner.append ?_
    rw [length_ops, Nat.add_right_comm]
    exact ⟨(keeps_jump (hbehind.trans hend.symm) (hfirst.trans hend.symm)).2, houter⟩

end Keeps

namespace LoopTree

variable {t : LoopTree} {eof : EofPolicy}

theorem keeps_of_getElem? {pc : Nat} {op : Op} (ht : t.Level)
    (hop : (t.ops 0).toArray[pc]? = some op) : op.Keeps t.symbols eof pc := by
  have halong : Along (Op.Keeps t.symbols eof) 0 (t.ops 0) :=
    t.along_keeps_ops [] [] ht (List.append_nil _).symm
  rw [List.getElem?_toArray] at hop
  exact Nat.zero_add pc ▸ halong.of_getElem? hop

/-- In a run of level code the head is at the drift of the symbols before the program counter. -/
theorem head_of_reaches {inputs : List UInt8} {s : State} (ht : t.Level)
    (h : Machine.Reaches (t.ops 0).toArray eof { channel := { pending := inputs } } s) :
    (s.head : Int) = drift (t.symbols.take s.pc) := by
  induction h with
  | refl => rfl
  | tail _ hlast ih =>
    obtain ⟨op, u, hop, hu, -, rfl⟩ := Machine.next?_eq_some_iff.mp hlast
    have hstep := keeps_of_getElem? ht hop _ u rfl hu
    show (u.head : Int) = drift (t.symbols.take u.pc)
    omega

theorem ok_of_walk {cell : Nat} (ht : t.Level) (hwalk : walk t.symbols 0 = some cell)
    (inputs : List UInt8) (config : Config) :
    ∃ r, Machine.outcome (t.ops 0).toArray config { channel := { pending := inputs } } = .ok r := by
  have hrunning : State.halt { channel := { pending := inputs } } = none := rfl
  obtain ⟨s, ⟨hs, -⟩, hend⟩ :=
    Machine.exists_endsAt (t.ops 0).toArray config hrunning (Nat.zero_le _)
  cases hr : Machine.outcome (t.ops 0).toArray config { channel := { pending := inputs } } with
  | ok r => exact ⟨r, rfl⟩
  | error fault =>
    rw [hr] at hend
    cases hend with
    | tapeUnderflow hop _ hhead =>
      have hdrift := head_of_reaches ht hs
      -- the same op with the head one cell further right tells the drift behind it
      have hkeeps : Op.left.Keeps t.symbols config.eof s.pc := keeps_of_getElem? ht hop
      have hbehind := hkeeps { s with head := 1 } _ rfl rfl
      have hpos := drift_take_of_walk hwalk (s.pc + 1)
      simp only at hbehind
      omega

end LoopTree

end TapeMachine
