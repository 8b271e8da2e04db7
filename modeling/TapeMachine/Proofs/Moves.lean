import TapeMachine.Proofs.Spelling

/-!
# The shortest way

In every program the head moves by one cell in a cycle at most. From this bound follows that no moves
between two cells are fewer than those which the generator writes, and also that on their way the head is
never outside of the cells between the two ends: there is no cycle to spare for a detour.

* `head_near_of_reaches` : the head is no faster than the cycles;
* `MovesOnly text` : nothing but moves is written; `exists_moved_of_reaches` : such a text changes the head
  and nothing else;
* `Trip ops s n target` : in `n` cycles the ops take the head straight to `target`;
  `Conveys text p t` : a text takes the head from `p` to `t` in one way or another;
* `Cursor.route_is_shortest` : the moves along a list of targets.
-/

namespace TapeMachine

open Machine

/-! ## The speed of the head -/

theorem Op.head_near {op : Op} {eof : EofPolicy} {s t : State} (h : op.execute eof s = .ok t) :
    ((t.head : Int) - s.head).natAbs ≤ 1 := by
  cases op with
  | right =>
    cases h
    show ((s.head + 1 : Nat) - (s.head : Int)).natAbs ≤ 1
    omega
  | left =>
    simp only [Op.execute] at h
    split at h
    · cases h
    · rename_i head hhead
      cases h
      show ((head : Int) - s.head).natAbs ≤ 1
      omega
  | read =>
    simp only [Op.execute] at h
    split at h
    · cases h
      simp
    · split at h <;> cases h <;> simp [State.stop]
  | _ =>
    cases h
    simp

/-- The head is no faster than the cycles. -/
theorem head_near_of_reaches {ops : Array Op} {eof : EofPolicy} {s t : State}
    (h : Reaches ops eof s t) : s.cycles + ((t.head : Int) - s.head).natAbs ≤ t.cycles := by
  induction h with
  | refl => omega
  | tail _ hlast ih =>
    have hcycles := cycles_of_next? hlast
    obtain ⟨op, v, -, hv, -, rfl⟩ := next?_eq_some_iff.mp hlast
    have hstep := Op.head_near hv
    have hhead : v.tick.head = v.head := rfl
    omega

/-! ## Texts of moves -/

def MovesOnly (text : String) : Prop := ∀ c ∈ text.toList, c = '<' ∨ c = '>'

instance (text : String) : Decidable (MovesOnly text) :=
  List.decidableBAll (fun c => c = '<' ∨ c = '>') text.toList

def AllMoves (ops : Array Op) : Prop := ∀ (i : Nat) (op : Op), ops[i]? = some op → op.symbol.family = .move

/-- The store with its head at another cell, so many cycles later. -/
def Store.moved (s : Store) (n head : Nat) : Store := { s with head, cycles := s.cycles + n }

namespace MovesOnly

variable {text more : String} {ops : Array Op}

theorem append (h : MovesOnly text) (h' : MovesOnly more) : MovesOnly (text ++ more) := by
  intro c hc
  rw [String.toList_append] at hc
  exact (List.mem_append.mp hc).elim (h c) (h' c)

theorem seek (source target : Nat) : MovesOnly (Cursor.seek source target) := by
  intro c hc
  unfold Cursor.seek at hc
  split at hc
  · rw [Symbol.toList_times] at hc
    exact .inr (List.eq_of_mem_replicate hc)
  · rw [Symbol.toList_times] at hc
    exact .inl (List.eq_of_mem_replicate hc)

theorem symbols (h : MovesOnly text) : ∀ x ∈ (Program.ofText text).symbols, x.family = .move := by
  intro x hx
  obtain ⟨c, hc, hcx⟩ := List.mem_filterMap.mp hx
  obtain rfl | rfl := h c hc
  · cases hcx
    rfl
  · cases hcx
    rfl

theorem text_ofText (h : MovesOnly text) : (Program.ofText text).text = text := by
  rw [Program.text_ofText_eq_iff, List.find?_eq_none]
  intro c hc
  obtain rfl | rfl := h c hc <;> decide

theorem exists_decode (h : MovesOnly text) : ∃ ops, Op.decode text = .ok ops := by
  have hclosed : Closed text := by
    refine closed_of_bracketless fun c hc => ?_
    obtain rfl | rfl := h c hc <;> decide
  have hvalid : (Program.ofText text).validate = .ok () :=
    (Program.validate_of_nest? (hclosed 0)).1.mpr rfl
  exact (decode_ofText_of_validate hvalid).2

theorem size_of_decode (h : MovesOnly text) (hdecode : Op.decode text = .ok ops) :
    ops.size = text.length := by
  have hlength := (Program.ofText text).length_text
  rw [h.text_ofText] at hlength
  exact (TapeMachine.size_of_decode hdecode).trans hlength.symm

theorem allMoves (h : MovesOnly text) (hdecode : Op.decode text = .ok ops) : AllMoves ops := by
  intro i op hop
  have hsymbol := symbol_of_decode hdecode i
  rw [hop] at hsymbol
  exact h.symbols _ (List.mem_of_getElem? hsymbol)

end MovesOnly

/-! ## Runs of moves -/

section Runs
variable {ops : Array Op} {eof : EofPolicy} {s : Store} {pc : Nat}

theorem next?_of_move? {x : Symbol} {head : Nat} (hop : ops[pc]?.map Op.symbol = some x)
    (hx : x.family = .move) (hmove : x.move? s.head = some head) :
    next? ops eof (s.toState pc) = some ((s.moved 1 head).toState (pc + 1)) := by
  obtain ⟨op, hget, rfl⟩ := Option.map_eq_some_iff.mp hop
  rw [next?_eq_some_iff]
  obtain ⟨place, cycles, tape, channel⟩ := s
  cases op with
  | right =>
    cases hmove
    exact ⟨.right, _, hget, rfl, rfl, rfl⟩
  | left =>
    cases place with
    | zero => cases hmove
    | succ place =>
      cases hmove
      exact ⟨.left, _, hget, rfl, rfl, rfl⟩
  | _ => cases hx

/-- A step by a move changes the head and nothing else. -/
theorem exists_moved_of_next? (hops : AllMoves ops) {u : State}
    (h : next? ops eof (s.toState pc) = some u) : ∃ head, u = (s.moved 1 head).toState (pc + 1) := by
  obtain ⟨op, v, hop, hv, -, rfl⟩ := next?_eq_some_iff.mp h
  have hmove := hops _ op hop
  cases op with
  | right =>
    cases hv
    exact ⟨_, rfl⟩
  | left =>
    simp only [Op.execute] at hv
    split at hv
    · cases hv
    · cases hv
      exact ⟨_, rfl⟩
  | _ => cases hmove

theorem exists_moved_of_reaches (hops : AllMoves ops) {u : State}
    (h : Reaches ops eof (s.toState pc) u) : ∃ n head, u = (s.moved n head).toState (pc + n) := by
  induction h with
  | refl => exact ⟨0, s.head, rfl⟩
  | tail _ hlast ih =>
    obtain ⟨n, head, rfl⟩ := ih
    obtain ⟨head', rfl⟩ := exists_moved_of_next? hops hlast
    exact ⟨n + 1, head', rfl⟩

/-- The machine makes moves as they are passed. -/
theorem reaches_of_walk (ops : Array Op) (eof : EofPolicy) (ss : List Symbol)
    (hss : ∀ x ∈ ss, x.family = .move) : ∀ (pc : Nat) (s : Store) (cell : Nat),
      (∀ i x, ss[i]? = some x → ops[pc + i]?.map Op.symbol = some x) → walk ss s.head = some cell →
        Reaches ops eof (s.toState pc) ((s.moved ss.length cell).toState (pc + ss.length)) := by
  induction ss with
  | nil =>
    intro pc s cell _ h
    cases h
    exact .refl _
  | cons x ss ih =>
    intro pc s cell hops h
    rw [walk_cons] at h
    obtain ⟨head, hhead, hrest⟩ := Option.bind_eq_some_iff.mp h
    have hnext : next? ops eof (s.toState pc) = some ((s.moved 1 head).toState (pc + 1)) :=
      next?_of_move? (hops 0 x rfl) (hss x List.mem_cons_self) hhead
    have hreach : Reaches ops eof ((s.moved 1 head).toState (pc + 1))
        (((s.moved 1 head).moved ss.length cell).toState (pc + 1 + ss.length)) := by
      refine ih (fun y hy => hss y (List.mem_cons_of_mem x hy)) _ _ _ (fun i y hy => ?_) hrest
      rw [Nat.add_assoc, Nat.add_comm 1]
      exact hops (i + 1) y hy
    have hend : ((s.moved 1 head).moved ss.length cell).toState (pc + 1 + ss.length) =
        (s.moved (x :: ss).length cell).toState (pc + (x :: ss).length) := by
      simp only [Store.moved, Store.toState, List.length_cons, State.mk.injEq, and_true, true_and]
      omega
    rw [← hend]
    exact (Reaches.step hnext).trans hreach

theorem MovesOnly.reaches {text : String} {cell : Nat} (h : MovesOnly text)
    (hdecode : Op.decode text = .ok ops) (hwalk : walk (Program.ofText text).symbols s.head = some cell)
    (eof : EofPolicy) :
    Reaches ops eof (s.toState 0) ((s.moved ops.size cell).toState ops.size) := by
  have hreach := reaches_of_walk ops eof _ h.symbols 0 s cell (fun i x hx => ?_) hwalk
  · rw [Nat.zero_add, ← TapeMachine.size_of_decode hdecode] at hreach
    exact hreach
  · rw [Nat.zero_add, ← symbol_of_decode hdecode, hx]

end Runs

/-! ## Trips -/

/-- In `n` cycles the ops take the head from where it stands in `s` straight to `target`. There it is when
the last op was made; before, it is between the two ends; and nothing else is changed at any time. So no
run has a fault, and a run that is allowed the cycles is completed. -/
structure Trip (ops : Array Op) (s : Store) (n target : Nat) : Prop where
  size : ops.size = n
  arrives : ∀ eof, Reaches ops eof (s.toState 0) ((s.moved n target).toState n)
  between : ∀ eof u, Reaches ops eof (s.toState 0) u → ∃ k cell, u = (s.moved k cell).toState k ∧
    k ≤ n ∧ min s.head target ≤ cell ∧ cell ≤ max s.head target
  faultless : ∀ config : Config, ∃ r, (run { ops, config, state := s.toState 0 }).result = .ok r ∧
    r.tape = s.tape ∧ r.outputs = s.channel.written
  completes : ∀ config : Config, s.cycles + n ≤ config.maxCycles →
    (run { ops, config, state := s.toState 0 }).result = .ok ((s.moved n target).result .completed)

/-- From some state with the head at `p` the text is run to its end, where the head is at `t`. -/
def Conveys (text : String) (p t : Nat) : Prop :=
  ∃ (ops : Array Op) (eof : EofPolicy) (s u : Store), Op.decode text = .ok ops ∧ s.head = p ∧
    Reaches ops eof (s.toState 0) (u.toState ops.size) ∧ u.head = t

/-- No moves are fewer than the cells to go. -/
theorem MovesOnly.le_length {text : String} {p t : Nat} (h : MovesOnly text) (hc : Conveys text p t) :
    ((t : Int) - p).natAbs ≤ text.length := by
  obtain ⟨ops, eof, s, u, hdecode, rfl, hreach, rfl⟩ := hc
  have hnear := head_near_of_reaches hreach
  obtain ⟨n, head, hu⟩ := exists_moved_of_reaches (h.allMoves hdecode) hreach
  have hpc : ops.size = 0 + n := congrArg State.pc hu
  have hcycles : u.cycles = s.cycles + n := congrArg State.cycles hu
  have hsize := h.size_of_decode hdecode
  simp only [Store.toState] at hnear
  omega

section Trips
variable {ops : Array Op} {eof : EofPolicy} {s : Store} {n target : Nat}

/-- What is reached comes before the end of the program. -/
theorem reaches_of_end {origin e u : State} (hend : ops[e.pc]? = none) (he : Reaches ops eof origin e)
    (hu : Reaches ops eof origin u) : Reaches ops eof u e := by
  have hfunctional : Relator.RightUnique fun s t : State => next? ops eof s = some t :=
    fun _ _ _ h h' => Option.some.inj (h.symm.trans h')
  rcases Relation.ReflTransGen.total_of_right_unique hfunctional he hu with heu | hue
  · rcases Relation.ReflTransGen.cases_head heu with rfl | ⟨v, hv, -⟩
    · exact .refl _
    · obtain ⟨op, -, hop, -⟩ := next?_eq_some_iff.mp hv
      cases hend.symm.trans hop
  · exact hue

theorem ok_of_reaches_end {config : Config} {origin e : State} (hend : ops[e.pc]? = none)
    (he : Reaches ops config.eof origin e) (hhalt : origin.halt = none)
    (hcycles : origin.cycles ≤ config.maxCycles) :
    ∃ r u, outcome ops config origin = .ok r ∧ Reaches ops config.eof origin u ∧
      r.tape = u.tape ∧ r.outputs = u.channel.written := by
  obtain ⟨u, ⟨hu, -⟩, hlast⟩ := exists_endsAt ops config hhalt hcycles
  cases hr : outcome ops config origin with
  | ok r =>
    rw [hr] at hlast
    cases hlast <;> exact ⟨_, u, rfl, hu, rfl, rfl⟩
  | error fault =>
    rw [hr] at hlast
    obtain ⟨-, hleft, hhead⟩ := hlast.of_error
    -- the state of the fault would come before the end, but no step leads on from it
    rcases Relation.ReflTransGen.cases_head (reaches_of_end hend he hu) with rfl | ⟨v, hv, -⟩
    · cases hend.symm.trans hleft
    · obtain ⟨op, w, hop, hw, -⟩ := next?_eq_some_iff.mp hv
      cases hleft.symm.trans hop
      simp only [Op.execute, hhead] at hw
      cases hw

/-- Moves that are as few as the cells to go leave no cycle for a detour. -/
theorem between_of_reaches (hops : AllMoves ops) (hsize : ops.size = n)
    (hn : n = ((target : Int) - s.head).natAbs)
    (harrives : Reaches ops eof (s.toState 0) ((s.moved n target).toState n)) {u : State}
    (hu : Reaches ops eof (s.toState 0) u) : ∃ k cell, u = (s.moved k cell).toState k ∧ k ≤ n ∧
      min s.head target ≤ cell ∧ cell ≤ max s.head target := by
  have hend : ops[n]? = none := Array.getElem?_eq_none_iff.mpr (Nat.le_of_eq hsize)
  obtain ⟨k, cell, rfl⟩ := exists_moved_of_reaches hops hu
  -- `k` cycles bound the way to `cell`, and the `n - k` that are left bound the way from there
  have hgone := head_near_of_reaches hu
  have hleft := head_near_of_reaches (reaches_of_end hend harrives hu)
  simp only [Store.toState, Store.moved] at hgone hleft
  exact ⟨k, cell, by rw [Nat.zero_add], by omega, by omega, by omega⟩

theorem Trip.of_arrives (hops : AllMoves ops) (hsize : ops.size = n)
    (hn : n = ((target : Int) - s.head).natAbs)
    (harrives : ∀ eof, Reaches ops eof (s.toState 0) ((s.moved n target).toState n)) :
    Trip ops s n target := by
  have hend : ops[((s.moved n target).toState n).pc]? = none :=
    Array.getElem?_eq_none_iff.mpr (Nat.le_of_eq hsize)
  refine ⟨hsize, harrives, ?_, ?_, ?_⟩
  · intro eof u hu
    exact between_of_reaches hops hsize hn (harrives eof) hu
  · intro config
    rw [result_run]
    by_cases hcycles : s.cycles ≤ config.maxCycles
    · obtain ⟨r, u, hr, hu, htape, houtputs⟩ :=
        ok_of_reaches_end hend (harrives config.eof) rfl hcycles
      obtain ⟨k, cell, rfl⟩ := exists_moved_of_reaches hops hu
      exact ⟨r, hr, htape, houtputs⟩
    · -- the machine was started beyond its limit, and makes no move at all
      cases hop : ops[(s.toState 0).pc]? with
      | none => exact ⟨_, outcome_of_end hop, rfl, rfl⟩
      | some op => exact ⟨_, outcome_of_limit hop (Nat.le_of_not_le hcycles), rfl, rfl⟩
  · intro config hcycles
    rw [result_run]
    exact (outcome_of_reaches (harrives config.eof) hcycles).trans (outcome_of_end hend)

end Trips

namespace Cursor

theorem seek_eq_times (p t : Nat) :
    ∃ x : Symbol, x.family = .move ∧ seek p t = x.times ((t : Int) - p).natAbs := by
  unfold seek
  split
  · exact ⟨.right, rfl, congrArg _ (by omega)⟩
  · exact ⟨.left, rfl, congrArg _ (by omega)⟩

theorem length_seek_eq (p t : Nat) : (seek p t).length = ((t : Int) - p).natAbs := by
  rw [length_seek]
  omega

theorem walk_seek (p t : Nat) : walk (Program.ofText (seek p t)).symbols p = some t := by
  rw [symbols_ofText_seek]
  exact walk_moves p t

theorem exists_trip (p t : Nat) : ∃ ops, Op.decode (seek p t) = .ok ops ∧
    ∀ s : Store, s.head = p → Trip ops s ((t : Int) - p).natAbs t := by
  have hmoves := MovesOnly.seek p t
  obtain ⟨ops, hdecode⟩ := hmoves.exists_decode
  have hsize : ops.size = ((t : Int) - p).natAbs :=
    (hmoves.size_of_decode hdecode).trans (length_seek_eq p t)
  refine ⟨ops, hdecode, ?_⟩
  rintro s rfl
  refine Trip.of_arrives (hmoves.allMoves hdecode) hsize rfl fun eof => ?_
  rw [← hsize]
  exact hmoves.reaches hdecode (walk_seek s.head t) eof

/-! ## Along a list of targets -/

theorem route_append (start : Nat) (xs ys : List Nat) :
    route start (xs ++ ys) = route start xs ++ route (xs.getLastD start) ys := by
  induction xs generalizing start with
  | nil => rfl
  | cons x xs ih => rw [List.cons_append, route, ih, route, List.getLastD_cons, List.cons_append]

theorem movesOnly_route (start : Nat) (targets : List Nat) :
    MovesOnly (String.join (route start targets)) := by
  induction targets generalizing start with
  | nil => exact fun c hc => nomatch hc
  | cons t targets ih =>
    rw [route, String.join_cons]
    exact (MovesOnly.seek start t).append (ih t)

theorem walk_route (start : Nat) (targets : List Nat) :
    walk (Program.ofText (String.join (route start targets))).symbols start =
      some (targets.getLastD start) := by
  induction targets generalizing start with
  | nil => rfl
  | cons t targets ih =>
    rw [route, String.join_cons, Program.ofText_append, Program.symbols_append, walk_append, walk_seek,
      List.getLastD_cons]
    exact ih t

/-- How far it is along the targets: the sum of the distances, from each target to the next. -/
def mileage (start : Nat) : List Nat → Nat
  | [] => 0
  | target :: rest => ((target : Int) - start).natAbs + mileage target rest

theorem length_route (start : Nat) (targets : List Nat) :
    (String.join (route start targets)).length = mileage start targets := by
  induction targets generalizing start with
  | nil => rfl
  | cons t targets ih =>
    rw [route, String.join_cons, String.length_append, length_seek_eq, ih, mileage]

end Cursor

theorem Generator.cursor_foldl_moveTo (targets : List Nat) (g : Generator) :
    (targets.foldl moveTo g).cursor = targets.getLastD g.cursor := by
  induction targets generalizing g with
  | nil => rfl
  | cons t targets ih => rw [List.foldl_cons, ih, List.getLastD_cons, cursor_moveTo]

theorem Generator.symbols_foldl_moveTo (targets : List Nat) (g : Generator) :
    (targets.foldl moveTo g).program.symbols = g.program.symbols ++
      (Program.ofText (String.join (Cursor.route g.cursor targets))).symbols := by
  induction targets generalizing g with
  | nil => exact (List.append_nil _).symm
  | cons t targets ih =>
    rw [List.foldl_cons, ih, program_moveTo, cursor_moveTo, Cursor.route, String.join_cons,
      Program.ofText_append, Program.symbols_append, Program.symbols_append, List.append_assoc]

/-- The moves along a list of targets take the head from each to the next straight and without changing
anything else, and no other moves that take it there are fewer. -/
theorem Cursor.route_is_shortest (targets : List Nat) :
    (∀ (before after : List Nat) (t : Nat), targets = before ++ t :: after →
      let p := before.getLastD 0
      let d := ((t : Int) - p).natAbs
      route 0 targets = route 0 before ++ seek p t :: route t after ∧
      (∃ x : Symbol, x.family = .move ∧ seek p t = x.times d) ∧
      (∃ ops, Op.decode (seek p t) = .ok ops ∧ ∀ s : Store, s.head = p → Trip ops s d t) ∧
      ∀ text, MovesOnly text → Conveys text p t → d ≤ text.length) ∧
    let whole := String.join (route 0 targets)
    let g := targets.foldl Generator.moveTo {}
    whole.length = mileage 0 targets ∧
    g.program.text = whole ∧ g.cursor = targets.getLastD 0 ∧
    ∃ ops, Op.decode whole = .ok ops ∧ ∀ (eof : EofPolicy) (s : Store), s.head = 0 →
      Reaches ops eof (s.toState 0) ((s.moved whole.length g.cursor).toState whole.length) := by
  refine ⟨?_, ?_⟩
  · rintro before after t rfl p d
    exact ⟨route_append 0 before (t :: after), seek_eq_times p t, exists_trip p t,
      fun text hmoves hconveys => hmoves.le_length hconveys⟩
  · intro whole g
    have hmoves : MovesOnly whole := movesOnly_route 0 targets
    have hcursor : g.cursor = targets.getLastD 0 := Generator.cursor_foldl_moveTo targets {}
    have hprogram : g.program = Program.ofText whole :=
      congrArg Program.mk (Generator.symbols_foldl_moveTo targets {})
    obtain ⟨ops, hdecode⟩ := hmoves.exists_decode
    refine ⟨length_route 0 targets, ?_, hcursor, ops, hdecode, fun eof s hs => ?_⟩
    · rw [hprogram, hmoves.text_ofText]
    · rw [← hmoves.size_of_decode hdecode, hcursor]
      refine hmoves.reaches hdecode ?_ eof
      rw [hs]
      exact walk_route 0 targets

/-- From the first cell to the fourth and back to the second. The moves back take two cycles, and other
moves that lead there are no fewer. -/
theorem Cursor.route_is_shortest_back :
    route 0 [3, 1] = [">>>", "<<"] ∧
    (∃ ops, Op.decode "<<" = .ok ops ∧ Trip ops { head := 3 } 2 1) ∧
    MovesOnly "<<><" ∧ Conveys "<<><" 3 1 ∧ 2 ≤ "<<><".length ∧
    ∃ ops, Op.decode ">>><<" = .ok ops ∧
      Reaches ops .halt (Store.toState {} 0) ((Store.moved {} 5 1).toState 5) := by
  obtain ⟨hstops, -, -, -, ops, hdecode, hreach⟩ := route_is_shortest [3, 1]
  obtain ⟨-, -, ⟨back, hback, htrip⟩, hleast⟩ := hstops [3] [] 1 rfl
  have hmoves : MovesOnly "<<><" := by decide
  have hconveys : Conveys "<<><" 3 1 := by
    have hother : Op.decode "<<><" = .ok #[.left, .left, .right, .left] := rfl
    exact ⟨_, .halt, { head := 3 }, _, hother, rfl, hmoves.reaches hother rfl .halt, rfl⟩
  have hroute : String.join (route 0 [3, 1]) = ">>><<" := by decide
  refine ⟨by decide, ⟨back, hback, htrip { head := 3 } rfl⟩, hmoves, hconveys,
    hleast _ hmoves hconveys, ops, ?_, ?_⟩
  · rw [← hroute, hdecode]
  · exact hreach .halt {} rfl

end TapeMachine
