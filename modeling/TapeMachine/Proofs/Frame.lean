import TapeMachine.Proofs.DepthWalk
import TapeMachine.Proofs.Generated

/-!
# Which cells a generated program changes

A symbol changes the cell under the head, and in generated code the head is where the generator's
cursor was when the symbol was emitted. So the cells at which the generator emitted a symbol that
changes a cell are all that a run can change, however it ends.

* `Generator.edited` : the cells at which strokes emit such a symbol;
* `Tape.Within t cells` : all but these cells are zero, and no more is stored than these cells need;
* `Covers cells ss` : symbols that change a cell have only moves to these cells before them. So it is
  in what a generator writes (`Generator.Traced`), and a run of such code stays within the cells
  (`LoopTree.within_of_reaches`);
* `Script.cells` : the cells that a script names. A plan that is performed goes to these and to cells
  that are reserved (`Script.keepsTo_plan`);
* `Script.changes_only_edited` : a run of a generated program changes no cell but those edited.
-/

namespace TapeMachine

/-- The symbols that change the cell under the head. -/
def Symbol.edits : Symbol → Bool
  | increment | decrement | read => true
  | _ => false

def Stroke.edits : Stroke → Bool
  | emit code => code.toList.any fun c => c == '+' || c == '-' || c == ','
  | _ => false

/-- The cells at which the generator stands when strokes emit symbols that change a cell. -/
def Generator.edited (g : Generator) : List Stroke → List Nat
  | [] => []
  | s :: rest => (if s.edits then [g.cursor] else []) ++ (g.draw s).edited rest

/-- All cells but the given ones are zero, and nothing is stored behind the last of the given ones. -/
structure Tape.Within (t : Tape) (cells : List Nat) : Prop where
  zero : ∀ c, c ∉ cells → t.get c = 0
  size : ∀ n, (∀ c ∈ cells, c < n) → t.size ≤ n

/-- Where a symbol changes a cell, the moves before it lead to one of the given cells. -/
def Covers (cells : List Nat) (ss : List Symbol) : Prop :=
  ∀ (k : Nat) (s : Symbol), ss[k]? = some s → s.edits → ∃ c ∈ cells, (c : Int) = drift (ss.take k)

/-! ## Runs -/

namespace Tape.Within

variable {t : Tape} {cells : List Nat}

theorem empty (cells : List Nat) : Within {} cells :=
  ⟨fun c _ => get_empty c, fun n _ => Nat.zero_le n⟩

theorem set (h : t.Within cells) {c : Nat} (hc : c ∈ cells) (v : UInt8) :
    (t.set c v).Within cells where
  zero d hd := by
    have hne : d ≠ c := by
      rintro rfl
      exact hd hc
    rw [get_set, if_neg hne]
    exact h.zero d hd
  size n hn := by
    have hsize := h.size n hn
    have hlt := hn c hc
    rw [size_set]
    split <;> omega

end Tape.Within

/-- An op changes the cell under the head at most, and only if its symbol is one of those. -/
theorem Op.tape_cases {op : Op} {eof : EofPolicy} {s t : State} (h : op.execute eof s = .ok t) :
    t.tape = s.tape ∨ (op.symbol.edits ∧ ∃ v, t.tape = s.tape.set s.head v) := by
  cases op with
  | increment =>
    cases h
    exact .inr ⟨rfl, _, rfl⟩
  | decrement =>
    cases h
    exact .inr ⟨rfl, _, rfl⟩
  | left =>
    simp only [execute] at h
    split at h <;> cases h
    exact .inl rfl
  | read =>
    simp only [execute] at h
    split at h
    · cases h
      exact .inr ⟨rfl, _, rfl⟩
    · split at h <;> cases h
      · exact .inl rfl
      · exact .inr ⟨rfl, _, rfl⟩
      · exact .inl rfl
  | _ =>
    cases h
    exact .inl rfl

section Runs
variable {t : LoopTree} {eof : EofPolicy} {cells : List Nat} {inputs : List UInt8}

/-- A run of level code changes no cell to which moves before an edit do not lead. -/
theorem LoopTree.within_of_reaches {s : State} (ht : t.Level) (hc : Covers cells t.symbols)
    (h : Machine.Reaches (t.ops 0).toArray eof { channel := { pending := inputs } } s) :
    s.tape.Within cells := by
  induction h with
  | refl => exact .empty cells
  | @tail s _ hs hlast ih =>
    obtain ⟨op, u, hop, hu, -, rfl⟩ := Machine.next?_eq_some_iff.mp hlast
    show u.tape.Within cells
    rcases Op.tape_cases hu with hsame | ⟨hedits, v, hset⟩
    · exact hsame ▸ ih
    · have hsymbol : t.symbols[s.pc]? = some op.symbol := by
        rw [List.getElem?_toArray] at hop
        rw [← t.map_symbol_ops 0, List.getElem?_map, hop]
        rfl
      obtain ⟨c, hmem, hdrift⟩ := hc s.pc op.symbol hsymbol hedits
      have hhead : s.head = c := by
        have := head_of_reaches ht hs
        omega
      rw [hset, hhead]
      exact ih.set hmem v

theorem LoopTree.within_of_outcome {config : Config} {r : Result} (ht : t.Level)
    (hc : Covers cells t.symbols) (h : Machine.outcome (t.ops 0).toArray config
      { channel := { pending := inputs } } = .ok r) : r.tape.Within cells := by
  have hrunning : State.halt { channel := { pending := inputs } } = none := rfl
  obtain ⟨s, ⟨hs, -⟩, hend⟩ :=
    Machine.exists_endsAt (t.ops 0).toArray config hrunning (Nat.zero_le _)
  have hwithin := within_of_reaches ht hc hs
  rw [h] at hend
  cases hend <;> exact hwithin

end Runs

/-! ## What a generator writes -/

/-- The stroke emits no move; the moves of the generator are strokes of their own. -/
def Stroke.Still : Stroke → Prop
  | emit code => ∀ s ∈ (Program.ofText code).symbols, s ≠ .left ∧ s ≠ .right
  | _ => True

theorem drift_of_still {ss : List Symbol} (h : ∀ s ∈ ss, s ≠ .left ∧ s ≠ .right) : drift ss = 0 := by
  have hright : ss.count .right = 0 := List.count_eq_zero.mpr fun hmem => (h _ hmem).2 rfl
  have hleft : ss.count .left = 0 := List.count_eq_zero.mpr fun hmem => (h _ hmem).1 rfl
  unfold drift
  omega

theorem Stroke.edits_emit {code : String} {s : Symbol} (h : s ∈ (Program.ofText code).symbols)
    (hs : s.edits) : (emit code).edits := by
  obtain ⟨c, hc, hcs⟩ := List.mem_filterMap.mp h
  obtain rfl := Symbol.char_of_ofChar? hcs
  refine List.any_eq_true.mpr ⟨s.char, hc, ?_⟩
  cases s with
  | increment => rfl
  | decrement => rfl
  | read => rfl
  | _ => cases hs

theorem Symbol.not_edits_moves {source target : Nat} {s : Symbol}
    (h : s ∈ (LoopTree.moves source target).symbols) : s.edits = false := by
  unfold LoopTree.moves at h
  split at h
  · rw [LoopTree.symbols_times] at h
    rw [(List.mem_replicate.mp h).2]
    rfl
  · rw [LoopTree.symbols_times] at h
    rw [(List.mem_replicate.mp h).2]
    rfl

/-- The cursor is where the moves written so far lead, and what changes a cell was written at one of
the given cells. -/
structure Generator.Traced (g : Generator) (cells : List Nat) : Prop where
  cursor : (g.cursor : Int) = drift g.program.symbols
  covers : Covers cells g.program.symbols

theorem Covers.append {cells cells' : List Nat} {xs ys : List Symbol} (hx : Covers cells xs)
    (hy : ∀ (k : Nat) (s : Symbol), ys[k]? = some s → s.edits →
      ∃ c ∈ cells', (c : Int) = drift xs + drift (ys.take k)) :
    Covers (cells ++ cells') (xs ++ ys) := by
  intro k s hk hs
  rw [List.take_append]
  by_cases hlt : k < xs.length
  · rw [List.getElem?_append_left hlt] at hk
    obtain ⟨c, hc, hdrift⟩ := hx k s hk hs
    refine ⟨c, List.mem_append_left _ hc, ?_⟩
    rw [Nat.sub_eq_zero_of_le (Nat.le_of_lt hlt), List.take_zero, List.append_nil, hdrift]
  · rw [List.getElem?_append_right (Nat.le_of_not_lt hlt)] at hk
    obtain ⟨c, hc, hdrift⟩ := hy (k - xs.length) s hk hs
    refine ⟨c, List.mem_append_right _ hc, ?_⟩
    rw [List.take_of_length_le (Nat.le_of_not_lt hlt), drift_append, hdrift]

namespace Generator

variable {g : Generator} {cells : List Nat}

theorem Traced.moveTo (h : g.Traced cells) (cell : Nat) : (g.moveTo cell).Traced cells := by
  have hwalk := drift_of_walk (walk_moves g.cursor cell)
  have hsymbols : (g.moveTo cell).program.symbols =
      g.program.symbols ++ (LoopTree.moves g.cursor cell).symbols := by
    rw [program_moveTo, Program.symbols_append, symbols_ofText_seek]
  constructor
  · rw [hsymbols, drift_append, ← h.cursor]
    exact hwalk
  · rw [hsymbols, ← List.append_nil cells]
    refine h.covers.append fun k s hk hs => ?_
    rw [Symbol.not_edits_moves (List.mem_of_getElem? hk)] at hs
    cases hs

theorem Traced.emit (h : g.Traced cells) {code : String} (hstill : (Stroke.emit code).Still) :
    (g.emit code).Traced (cells ++ if (Stroke.emit code).edits then [g.cursor] else []) := by
  have hsymbols : (g.emit code).program.symbols =
      g.program.symbols ++ (Program.ofText code).symbols := by
    rw [program_emit, Program.symbols_append]
  constructor
  · rw [hsymbols, drift_append, drift_of_still hstill, ← h.cursor]
    exact (Int.add_zero _).symm
  · rw [hsymbols]
    refine h.covers.append fun k s hk hs => ?_
    have hbefore : drift ((Program.ofText code).symbols.take k) = 0 :=
      drift_of_still fun s hs => hstill s (List.mem_of_mem_take hs)
    rw [if_pos (Stroke.edits_emit (List.mem_of_getElem? hk) hs), hbefore, ← h.cursor]
    exact ⟨g.cursor, List.mem_singleton_self _, (Int.add_zero _).symm⟩

theorem Traced.draw (h : g.Traced cells) {s : Stroke} (hs : s.Still) :
    (g.draw s).Traced (cells ++ if s.edits then [g.cursor] else []) := by
  cases s with
  | emit code => exact h.emit hs
  | moveTo cell => exact (List.append_nil cells).symm ▸ h.moveTo cell
  | annotate note =>
    refine (List.append_nil cells).symm ▸ ⟨?_, ?_⟩
    · rw [Generator.draw, program_annotate]
      exact h.cursor
    · rw [Generator.draw, program_annotate]
      exact h.covers
  | _ => exact (List.append_nil cells).symm ▸ ⟨h.cursor, h.covers⟩

/-- What strokes write changes cells only where it is written. -/
theorem Traced.drawAll (ss : List Stroke) (hs : ∀ s ∈ ss, s.Still) {g : Generator}
    {cells : List Nat} (h : g.Traced cells) : (g.drawAll ss).Traced (cells ++ g.edited ss) := by
  induction ss generalizing g cells with
  | nil => exact (List.append_nil cells).symm ▸ h
  | cons s rest ih =>
    obtain ⟨hfirst, hrest⟩ := List.forall_mem_cons.mp hs
    rw [edited, ← List.append_assoc]
    exact ih hrest (h.draw hfirst)

/-- The cells that are edited are those at which the generator comes to stand. -/
theorem mem_edited {ss : List Stroke} {g : Generator} {c : Nat} (h : c ∈ g.edited ss) :
    c = g.cursor ∨ .moveTo c ∈ ss := by
  induction ss generalizing g with
  | nil => cases h
  | cons s rest ih =>
    rw [edited] at h
    rcases List.mem_append.mp h with hfirst | hrest
    · split at hfirst
      · exact .inl (List.mem_singleton.mp hfirst)
      · cases hfirst
    · rcases ih hrest with hcursor | hmoved
      · cases s with
        | moveTo cell =>
          rw [show c = cell from hcursor]
          exact .inr List.mem_cons_self
        | _ => exact .inl hcursor
      · exact .inr (List.mem_cons_of_mem _ hmoved)

end Generator

/-! ## Plans emit no moves -/

namespace Stroke

theorem still_times {s : Symbol} (hs : s ≠ .left ∧ s ≠ .right) (n : Nat) :
    (emit (s.times n)).Still := by
  intro x hx
  obtain ⟨c, hc, hcx⟩ := List.mem_filterMap.mp hx
  rw [Symbol.toList_times] at hc
  rw [(List.mem_replicate.mp hc).2, Symbol.ofChar?_char] at hcx
  exact Option.some.inj hcx ▸ hs

theorem still_text {s : Symbol} (hs : s ≠ .left ∧ s ≠ .right) : (emit s.text).Still := by
  intro x hx
  rw [symbols_ofText_text] at hx
  exact List.mem_singleton.mp hx ▸ hs

theorem still_clear (cell : Nat) : ∀ s ∈ clear cell, s.Still := by
  have hcode : ∀ s ∈ (Program.ofText "[-]").symbols, s ≠ .left ∧ s ≠ .right := by decide
  exact List.forall_mem_cons.mpr ⟨trivial, List.forall_mem_singleton.mpr hcode⟩

theorem still_set (cell : Nat) (value : UInt8) : ∀ s ∈ set cell value, s.Still :=
  List.forall_mem_append.mpr ⟨still_clear cell, List.forall_mem_singleton.mpr
    (still_times (by decide) value.toNat)⟩

theorem still_count (cell : Nat) {s : Symbol} (hs : s ≠ .left ∧ s ≠ .right) :
    ∀ x ∈ count cell s, x.Still :=
  List.forall_mem_cons.mpr ⟨trivial, List.forall_mem_singleton.mpr (still_times hs 1)⟩

theorem still_countDown (cell : Nat) {body : List Stroke} (hb : ∀ s ∈ body, s.Still) :
    ∀ s ∈ countDown cell body, s.Still := by
  have hstart : (emit Symbol.loopStart.text).Still := still_text (by decide)
  have htake : (emit (Symbol.decrement.times 1)).Still := still_times (by decide) 1
  have hend : (emit Symbol.loopEnd.text).Still := still_text (by decide)
  simp only [countDown, openLoop, closeLoop, List.forall_mem_append, List.forall_mem_cons]
  exact ⟨⟨trivial, hstart, trivial, htake, by simp⟩, hb, trivial, trivial, hend, by simp⟩

end Stroke

theorem Action.still_plan {action : Action} (h : action.Plain) (pos : Position) :
    ∀ s ∈ action.plan pos, s.Still := by
  cases action with
  | emit code =>
    refine List.forall_mem_singleton.mpr fun s hs => ?_
    obtain ⟨hleft, hright, -, -⟩ := symbols_of_plain h s hs
    exact ⟨hleft, hright⟩
  | increment n => exact List.forall_mem_singleton.mpr (Stroke.still_times (by decide) n)
  | decrement n => exact List.forall_mem_singleton.mpr (Stroke.still_times (by decide) n)
  | clear cell => exact Stroke.still_clear cell
  | set cell value => exact Stroke.still_set cell value
  | setAccumulator value => exact Stroke.still_set Layout.accumulator value
  | read => exact List.forall_mem_singleton.mpr (Stroke.still_text (by decide))
  | write => exact List.forall_mem_singleton.mpr (Stroke.still_text (by decide))
  | readInto cell =>
    exact List.forall_mem_cons.mpr
      ⟨trivial, List.forall_mem_singleton.mpr (Stroke.still_text (by decide))⟩
  | writeFrom cell =>
    exact List.forall_mem_cons.mpr
      ⟨trivial, List.forall_mem_singleton.mpr (Stroke.still_text (by decide))⟩
  | push value => exact List.forall_mem_cons.mpr ⟨trivial, Stroke.still_set pos.depth value⟩
  | copy source target =>
    have hthrough := List.forall_mem_append.mpr
      ⟨Stroke.still_count Layout.accumulator (s := .increment) (by decide),
        Stroke.still_count target (s := .increment) (by decide)⟩
    have hback := Stroke.still_count source (s := .increment) (by decide)
    exact List.forall_mem_append.mpr ⟨List.forall_mem_append.mpr
      ⟨Stroke.still_clear target, Stroke.still_countDown source hthrough⟩,
      Stroke.still_countDown Layout.accumulator hback⟩
  | add sum addend => exact Stroke.still_countDown addend (Stroke.still_count sum (by decide))
  | subtract minuend subtrahend =>
    exact Stroke.still_countDown subtrahend (Stroke.still_count minuend (by decide))
  | _ => exact List.forall_mem_singleton.mpr trivial

theorem Block.still_plan {plan : Position → List Stroke} (h : ∀ pos, ∀ s ∈ plan pos, s.Still)
    (head : Block) (pos : Position) : ∀ s ∈ head.plan plan pos, s.Still := by
  cases head with
  | countDown cell => exact Stroke.still_countDown cell (h _)
  | countDownAccumulator => exact Stroke.still_countDown Layout.accumulator (h _)
  | repeated n =>
    have hround : ∀ s ∈ Stroke.moveTo pos.cursor :: plan { pos with depth := pos.depth + 1 },
        s.Still := List.forall_mem_cons.mpr ⟨trivial, h _⟩
    simp only [Block.plan, List.forall_mem_append, List.forall_mem_cons]
    exact ⟨trivial, Stroke.still_set pos.depth n, Stroke.still_countDown pos.depth hround, trivial,
      trivial, by simp⟩
  | attempt => exact h pos

theorem Script.still_plan {s : Script} (hs : s.Plain) : ∀ pos, ∀ x ∈ s.plan pos, x.Still := by
  induction s with
  | done =>
    intro pos x hx
    cases hx
  | act action rest ih =>
    intro pos
    exact List.forall_mem_append.mpr ⟨Action.still_plan hs.1 pos, ih hs.2 _⟩
  | block head body rest ihb ihr =>
    intro pos
    exact List.forall_mem_append.mpr ⟨Block.still_plan (ihb hs.2.1) head pos, ihr hs.2.2 _⟩

/-! ## Plans keep to the cells they are given -/

def Action.cells : Action → List Nat
  | moveTo cell | clear cell | set cell _ | readInto cell | writeFrom cell => [cell]
  | copy source target => [source, target]
  | add sum addend => [sum, addend]
  | subtract minuend subtrahend => [minuend, subtrahend]
  | _ => []

def Block.cells : Block → List Nat
  | countDown cell => [cell]
  | _ => []

def Script.cells : Script → List Nat
  | done => []
  | act action rest => action.cells ++ rest.cells
  | block head body rest => head.cells ++ (body.cells ++ rest.cells)

/-- Where the plan is performed, the generator goes to none but cells of a kind and the one where it
was. -/
def KeepsTo (P : Nat → Prop) (plan : Position → List Stroke) : Prop :=
  ∀ g h : Generator, g.depth ≤ 4 → g.perform (plan g.position) = (h, .ok ()) →
    ∀ c, .moveTo c ∈ plan g.position → P c ∨ c = g.cursor

theorem Generator.of_perform_append {g h : Generator} {xs ys : List Stroke}
    (hp : g.perform (xs ++ ys) = (h, .ok ())) :
    ∃ k, g.perform xs = (k, .ok ()) ∧ k.perform ys = (h, .ok ()) := by
  rw [perform_append] at hp
  unfold proceed at hp
  split at hp
  · rename_i hok
    exact ⟨(g.perform xs).1, Prod.ext rfl hok, hp⟩
  · rename_i herror
    rw [hp] at herror
    cases herror

theorem Position.cursor_along (ss : List Stroke) (pos : Position) :
    (pos.along ss).cursor = pos.cursor ∨ .moveTo (pos.along ss).cursor ∈ ss := by
  induction ss generalizing pos with
  | nil => exact .inl rfl
  | cons s rest ih =>
    rcases ih (pos.after s) with hcursor | hmoved
    · cases s with
      | moveTo cell =>
        refine .inr ?_
        rw [show (pos.along (.moveTo cell :: rest)).cursor = cell from hcursor]
        exact List.mem_cons_self
      | request call =>
        left
        cases call <;> exact hcursor
      | _ => exact .inl hcursor
    · exact .inr (List.mem_cons_of_mem _ hmoved)

namespace KeepsTo

variable {P : Nat → Prop}

theorem of_mem {ss : List Stroke} (h : ∀ c, .moveTo c ∈ ss → P c) : KeepsTo P fun _ => ss :=
  fun _ _ _ _ c hc => .inl (h c hc)

theorem mono {Q : Nat → Prop} {plan : Position → List Stroke} (h : KeepsTo P plan)
    (hPQ : ∀ c, P c → Q c) : KeepsTo Q plan :=
  fun g k hg hp c hc => (h g k hg hp c hc).imp_left (hPQ c)

/-- Of two plans one after the other, the second starts where the first one ends. -/
theorem append {first next : Position → List Stroke} (hx : KeepsTo P first) (hy : KeepsTo P next) :
    KeepsTo P fun pos => first pos ++ next (pos.along (first pos)) := by
  intro g h hg hp c hc
  obtain ⟨k, hfirst, hnext⟩ := Generator.of_perform_append hp
  have hposition : g.position.along (first g.position) = k.position :=
    (Generator.of_perform_ok hfirst).2.symm
  have hdepth : k.depth ≤ 4 := by
    have := Generator.depth_perform_le (first g.position) g hg
    rwa [hfirst] at this
  simp only [hposition] at hnext hc
  rcases List.mem_append.mp hc with hmoved | hmoved
  · exact hx g k hg hfirst c hmoved
  · rcases hy k h hdepth hnext c hmoved with hcell | rfl
    · exact .inl hcell
    · rcases Position.cursor_along (first g.position) g.position with hsame | hlater
      · rw [hposition] at hsame
        exact .inr hsame
      · rw [hposition] at hlater
        exact hx g k hg hfirst _ hlater

theorem countDown {plan : Position → List Stroke} (h : KeepsTo P plan) {cell : Nat} (hcell : P cell) :
    KeepsTo P fun pos => Stroke.countDown cell (plan { pos with cursor := cell }) := by
  have hopen : KeepsTo P fun _ => Stroke.openLoop cell := of_mem (by simp [Stroke.openLoop, hcell])
  have hclose : KeepsTo P fun _ => Stroke.closeLoop cell := of_mem (by simp [Stroke.closeLoop, hcell])
  exact hopen.append (h.append hclose)

end KeepsTo

section Cells
variable {P : Nat → Prop}

theorem Action.of_mem_plan {action : Action} {pos : Position} {c : Nat}
    (h : .moveTo c ∈ action.plan pos) :
    c ∈ action.cells ∨ c = Layout.accumulator ∨ c = pos.depth := by
  cases action <;> simp [plan, cells, Stroke.set, Stroke.clear, Stroke.countDown, Stroke.openLoop,
    Stroke.closeLoop, Stroke.count] at h ⊢ <;> omega

theorem Action.keepsTo_plan (hP : ∀ c < Layout.registerBase, P c) {action : Action}
    (h : ∀ c ∈ action.cells, P c) : KeepsTo P action.plan := by
  intro g k hg _ c hc
  left
  rcases of_mem_plan hc with hcell | rfl | rfl
  · exact h c hcell
  · exact hP Layout.accumulator (by decide)
  · exact hP g.depth (Nat.lt_succ_of_le hg)

theorem Block.keepsTo_plan (hP : ∀ c < Layout.registerBase, P c) {head : Block}
    (h : ∀ c ∈ head.cells, P c) {body : Position → List Stroke} (hb : KeepsTo P body) :
    KeepsTo P (head.plan body) := by
  cases head with
  | countDown cell => exact hb.countDown (h cell List.mem_cons_self)
  | countDownAccumulator => exact hb.countDown (hP _ (by decide))
  | repeated n =>
    intro g k hg hp c hc
    -- the cell where the loop was begun is one more to which its strokes may go
    have hslot : P g.depth ∨ g.depth = g.cursor := .inl (hP _ (Nat.lt_succ_of_le hg))
    have hback : KeepsTo (fun c => P c ∨ c = g.cursor) fun _ => [.moveTo g.cursor] := .of_mem (by simp)
    have hround := hback.append (hb.mono fun c hc => (.inl hc : P c ∨ c = g.cursor))
    have hclaim : KeepsTo (fun c => P c ∨ c = g.cursor) fun _ =>
        .request .push :: Stroke.set g.depth n := .of_mem (by simp [Stroke.set, Stroke.clear, hslot])
    have hrelease : KeepsTo (fun c => P c ∨ c = g.cursor) fun _ =>
        [.request .pop, .moveTo g.cursor] := .of_mem (by simp)
    have hloop := hclaim.append ((hround.countDown hslot).append hrelease)
    rcases hloop g k hg hp c hc with hcell | hcursor
    · exact hcell
    · exact .inr hcursor
  | attempt => exact hb

theorem Script.keepsTo_plan (hP : ∀ c < Layout.registerBase, P c) {s : Script}
    (hs : ∀ c ∈ s.cells, P c) : KeepsTo P s.plan := by
  induction s with
  | done => exact .of_mem (by simp)
  | act action rest ih =>
    obtain ⟨hfirst, hrest⟩ := List.forall_mem_append.mp hs
    exact (Action.keepsTo_plan hP hfirst).append (ih hrest)
  | block head body rest ihb ihr =>
    obtain ⟨hfirst, hmore⟩ := List.forall_mem_append.mp hs
    obtain ⟨hbody, hrest⟩ := List.forall_mem_append.mp hmore
    exact (Block.keepsTo_plan hP hfirst (ihb hbody)).append (ihr hrest)

end Cells

/-! ## Generated programs -/

namespace Script

theorem perform_of_generate {s : Script} {p : Program} (hs : s.Plain) (h : s.generate = .ok p) :
    Generator.perform {} (s.plan ⟨0, 0⟩) = ((s.run {}).generator, .ok ()) := by
  obtain ⟨⟨reply, hrun⟩, -⟩ := exists_of_generate h
  exact perform_of_outcome hs.propagates hrun

/-- What is written for a script changes cells only where it is written. -/
theorem covers_of_generate {s : Script} {p : Program} (hs : s.Plain) (h : s.generate = .ok p) :
    Covers (Generator.edited {} (s.plan ⟨0, 0⟩)) p.symbols := by
  obtain ⟨-, rfl⟩ := exists_of_generate h
  have hstart : Generator.Traced {} [] :=
    ⟨rfl, fun k x hx _ => by cases hx⟩
  have hdrawn := (Generator.of_perform_ok (perform_of_generate hs h)).1
  rw [hdrawn]
  exact (hstart.drawAll (s.plan ⟨0, 0⟩) (still_plan hs _)).covers

theorem edited_of_generate {s : Script} {p : Program} (hs : s.Plain) (h : s.generate = .ok p)
    {c : Nat} (hc : c ∈ Generator.edited {} (s.plan ⟨0, 0⟩)) :
    c < Layout.registerBase ∨ c ∈ s.cells := by
  have hstart : (0 : Nat) < Layout.registerBase := by decide
  rcases Generator.mem_edited hc with rfl | hmoved
  · exact .inl hstart
  · have hkeeps := keepsTo_plan (P := fun c => c < Layout.registerBase ∨ c ∈ s.cells)
      (fun _ hc => .inl hc) (fun _ hc => .inr hc)
    rcases hkeeps {} _ (Nat.zero_le 4) (perform_of_generate hs h) c hmoved with hcell | rfl
    · exact hcell
    · exact .inl hstart

theorem zero_of_within {s : Script} {p : Program} (hs : s.Plain) (h : s.generate = .ok p) {t : Tape}
    (ht : t.Within (Generator.edited {} (s.plan ⟨0, 0⟩))) {key : Nat}
    (hkey : Layout.register key ∉ s.cells) : t.get (Layout.register key) = 0 := by
  refine ht.zero _ fun hedited => ?_
  rcases edited_of_generate hs h hedited with hreserved | hcell
  · exact absurd hreserved (Nat.not_lt.mpr (Nat.le_add_right _ _))
  · exact hkey hcell

/-- A run of a generated program changes no cell but those at which the generator stood when it emitted a
symbol that changes a cell. These are reserved or named by the script. -/
theorem changes_only_edited (s : Script) {p : Program} (hs : s.Plain) (h : s.generate = .ok p) :
    let edited := Generator.edited {} (s.plan ⟨0, 0⟩)
    (s.run {}).generator = Generator.drawAll {} (s.plan ⟨0, 0⟩) ∧
    (∀ c ∈ edited, c < Layout.registerBase ∨ c ∈ s.cells) ∧
    ∀ (inputs : List UInt8) (config : Config),
      (∃ m, Machine.load p.text inputs config = .ok m ∧
        ∀ t, Machine.Reaches m.ops config.eof m.state t → t.tape.Within edited ∧
          ∀ key, Layout.register key ∉ s.cells → t.tape.get (Layout.register key) = 0) ∧
      ∃ r, (execute p.text inputs config).result = .ok r ∧ r.tape.Within edited ∧
        ∀ key, Layout.register key ∉ s.cells → r.tape.get (Layout.register key) = 0 := by
  intro edited
  have hcovers : Covers edited ((s.routine 0 0).code 0).symbols :=
    (symbols_of_generate hs h).1 ▸ covers_of_generate hs h
  have hlevel := (s.routine 0 0).level_code 0
  have hdecode := LoopTree.decode_of_symbols p.text _ (symbols_ofText_of_generate hs h)
  refine ⟨(Generator.of_perform_ok (perform_of_generate hs h)).1,
    fun c => edited_of_generate hs h, ?_⟩
  intro inputs config
  constructor
  · refine ⟨{ ops := (((s.routine 0 0).code 0).ops 0).toArray, config,
              state := { channel := { pending := inputs } } }, ?_, ?_⟩
    · rw [Machine.load, hdecode]
    · intro t ht
      have hwithin := LoopTree.within_of_reaches hlevel hcovers ht
      exact ⟨hwithin, fun key => zero_of_within hs h hwithin⟩
  · obtain ⟨r, hr⟩ := ok_of_generate hs h inputs config
    have hrun := (result_execute inputs hdecode).symm.trans hr
    have hwithin : r.tape.Within edited := LoopTree.within_of_outcome hlevel hcovers hrun
    exact ⟨r, hr, hwithin, fun key => zero_of_within hs h hwithin⟩

/-- A script that goes to cell 9 only to write it: however often its loop reads into cell 6, nothing is
stored behind this cell. -/
theorem changes_only_edited_visit :
    let s : Script := .block (.repeated 2) (.act (.readInto 6) (.act (.emit "+.") .done))
      (.act (.writeFrom 9) .done)
    let p := (s.run {}).generator.program
    s.Plain ∧ s.generate = .ok p ∧ Generator.edited {} (s.plan ⟨0, 0⟩) = [0, 0, 0, 6, 6] ∧
      ∀ (inputs : List UInt8) (config : Config),
        ∃ r, (execute p.text inputs config).result = .ok r ∧ r.tape.get 9 = 0 ∧ r.tape.size ≤ 7 ∧
          r.tape.get (Layout.register 2) = 0 := by
  intro s p
  have hplain : s.Plain := by decide
  have hgenerate : s.generate = .ok p := rfl
  have hedited : Generator.edited {} (s.plan ⟨0, 0⟩) = [0, 0, 0, 6, 6] := by decide
  refine ⟨hplain, hgenerate, hedited, ?_⟩
  intro inputs config
  obtain ⟨-, -, hruns⟩ := changes_only_edited s hplain hgenerate
  obtain ⟨-, r, hr, hwithin, hregister⟩ := hruns inputs config
  rw [hedited] at hwithin
  exact ⟨r, hr, hwithin.zero 9 (by decide), hwithin.size 7 (by decide), hregister 2 (by decide)⟩

end Script

end TapeMachine
