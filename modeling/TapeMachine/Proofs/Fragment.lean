import TapeMachine.Proofs.Comparison
import TapeMachine.Proofs.Head

/-!
# Code inside a program

Generated code stands somewhere in a program, with other code before it and behind it. What it does
is to be said of the machine that runs the whole program, from any state in which the code is entered.

* `LoopTree.placed_of_decode` : code whose brackets nest is decoded to the same ops wherever it stands;
* `Walks ops eof places s t` : steps by ops at the given places lead from `s` to `t`;
* `Crosses ops eof start stop s t` : the ops from `start` to `stop` are run from their first to behind
  their last, without a step elsewhere. So it is where the tree of the code comes to an end
  (`crosses_of_runs`);
* `Generator.Begins h text ops` : a program that begins with what `h` has generated. The code that a
  call adds from `g` to `h` has the ops from `g.size` to `h.size` in it;
* `Generator.Achieves g h f` : this code does `f` to the memory, wherever it stands;
* `Forever ops eof places s` : steps at the given places go on for ever, as in a loop whose rounds
  all end where the next one starts (`forever_of_rounds`);
* `Generator.AchievesOnly g h P f` : the code does `f` where `P` holds, and else it is never left.
-/

namespace TapeMachine

open Machine

/-! ## Decoding a part of a text -/

namespace Decoding

/-- All that a token can do: an op is added behind the others, and where a loop is ended its first op
is replaced. -/
theorem feed_cases {d e : Decoding} {t : Token} (h : d.feed t = .ok e) :
    (∃ op, e = d.push op) ∨
      e = ⟨d.ops.push (.jumpIfZero Op.unresolved), ⟨d.ops.size, t.start⟩ :: d.openings⟩ ∨
        ∃ opening outer, d.openings = opening :: outer ∧
          e = ⟨(d.ops.setIfInBounds opening.index (.jumpIfZero d.ops.size)).push
            (.jumpUnlessZero opening.index), outer⟩ := by
  obtain ⟨b, hb⟩ | hopen | hclose := t.symbol.basic_or_bracket
  · rw [LoopTree.feed_basic d t b hb] at h
    cases h
    exact .inl ⟨b.op, rfl⟩
  · rw [LoopTree.feed_loopStart d t hopen] at h
    cases h
    exact .inr (.inl rfl)
  · cases hd : d.openings with
    | nil =>
      simp only [feed, hclose, hd] at h
      cases h
    | cons opening outer =>
      rw [LoopTree.feed_loopEnd d t opening outer hclose hd] at h
      cases h
      exact .inr (.inr ⟨opening, outer, rfl, rfl⟩)

/-- There are `n` ops, and every loop that is open was started by one of them. -/
def Rooted (n : Nat) (d : Decoding) : Prop := d.ops.size = n ∧ ∀ o ∈ d.openings, o.index < n

/-- The op at an index is there for good: no loop that is open starts with it. -/
def Settled (i : Nat) (op : Op) (d : Decoding) : Prop :=
  d.ops[i]? = some op ∧ ∀ o ∈ d.openings, o.index ≠ i

theorem Rooted.feed {n : Nat} {d e : Decoding} {t : Token} (hd : Rooted n d)
    (h : d.feed t = .ok e) : Rooted (n + 1) e := by
  obtain ⟨rfl, hopen⟩ := hd
  rcases feed_cases h with ⟨op, rfl⟩ | rfl | ⟨opening, outer, hopenings, rfl⟩
  · exact ⟨by simp [push], fun o ho => Nat.lt_succ_of_lt (hopen o ho)⟩
  · refine ⟨by simp, fun o ho => ?_⟩
    rcases List.mem_cons.mp ho with rfl | ho
    · exact Nat.lt_succ_self _
    · exact Nat.lt_succ_of_lt (hopen o ho)
  · refine ⟨by simp, fun o ho => ?_⟩
    exact Nat.lt_succ_of_lt (hopen o (hopenings ▸ List.mem_cons_of_mem _ ho))

theorem Settled.feed {i : Nat} {op : Op} {d e : Decoding} {t : Token} (hd : Settled i op d)
    (h : d.feed t = .ok e) : Settled i op e := by
  obtain ⟨hop, hopen⟩ := hd
  have hi : i < d.ops.size := (Array.getElem?_eq_some_iff.mp hop).1
  rcases feed_cases h with ⟨op', rfl⟩ | rfl | ⟨opening, outer, hopenings, rfl⟩
  · refine ⟨?_, hopen⟩
    rw [push, Array.getElem?_push, if_neg (Nat.ne_of_lt hi), hop]
  · refine ⟨?_, fun o ho => ?_⟩
    · rw [Array.getElem?_push, if_neg (Nat.ne_of_lt hi), hop]
    · rcases List.mem_cons.mp ho with rfl | ho
      · exact Nat.ne_of_gt hi
      · exact hopen o ho
  · have hne : opening.index ≠ i := hopen opening (hopenings ▸ List.mem_cons_self)
    refine ⟨?_, fun o ho => hopen o (hopenings ▸ List.mem_cons_of_mem _ ho)⟩
    rw [Array.getElem?_push, if_neg (by simpa using Nat.ne_of_lt hi),
      Array.getElem?_setIfInBounds_ne hne, hop]

/-- What one token brings about, all tokens of a text do, one after the other. -/
theorem foldlM_feed_induction {P : Nat → Decoding → Prop}
    (hP : ∀ {n : Nat} {d e : Decoding} {t : Token}, P n d → d.feed t = .ok e → P (n + 1) e)
    (tokens : List Token) : ∀ {n : Nat} {d e : Decoding}, P n d → tokens.foldlM Decoding.feed d = .ok e →
      P (n + tokens.length) e := by
  induction tokens with
  | nil =>
    intro n d e hd h
    cases h
    exact hd
  | cons t rest ih =>
    intro n d e hd h
    rw [List.foldlM_cons] at h
    cases ht : d.feed t with
    | error fault =>
      rw [ht] at h
      cases h
    | ok k =>
      rw [ht] at h
      have hrest := ih (hP hd ht) h
      rwa [Nat.add_assoc, Nat.add_comm 1] at hrest

theorem exists_of_foldlM_append {xs ys : List Token} {d e : Decoding}
    (h : (xs ++ ys).foldlM feed d = .ok e) :
    ∃ k, xs.foldlM feed d = .ok k ∧ ys.foldlM feed k = .ok e := by
  rw [List.foldlM_append] at h
  cases hk : xs.foldlM feed d with
  | error fault =>
    rw [hk] at h
    cases h
  | ok k =>
    rw [hk] at h
    exact ⟨k, rfl, h⟩

end Decoding

/-- Code whose brackets nest is decoded to the ops of its tree, whatever stands around it. -/
theorem LoopTree.placed_of_decode {text : String} {ops : Array Op} {tree : LoopTree}
    (before after : List Symbol) (hdecode : Op.decode text = .ok ops)
    (hsymbols : (Program.ofText text).symbols = before ++ tree.symbols ++ after) :
    Placed ops before.length (tree.ops before.length) := by
  have hscan : (Token.scan text).map Token.symbol = before ++ tree.symbols ++ after := by
    rw [← hsymbols]
    exact Token.map_symbol_scanFrom 0 text.toList
  obtain ⟨front, rear, hsplit, hfront, -⟩ := List.map_eq_append_iff.mp hscan
  obtain ⟨lead, code, rfl, hlead, hcode⟩ := List.map_eq_append_iff.mp hfront
  unfold Op.decode at hdecode
  split at hdecode
  · rename_i d hd
    rw [hsplit] at hd
    obtain ⟨k, hk, hrear⟩ := Decoding.exists_of_foldlM_append hd
    obtain ⟨j, hj, htree⟩ := Decoding.exists_of_foldlM_append hk
    have hrooted : j.Rooted before.length := by
      rw [← hlead, List.length_map, ← Nat.zero_add lead.length]
      exact Decoding.foldlM_feed_induction Decoding.Rooted.feed lead ⟨rfl, by simp⟩ hj
    obtain ⟨hsize, hopen⟩ := hrooted
    rw [foldlM_feed tree code j hcode, hsize] at htree
    cases htree
    intro i op hop
    have hsettled : Decoding.Settled (before.length + i) op
        ⟨j.ops ++ (tree.ops before.length).toArray, j.openings⟩ := by
      refine ⟨?_, fun o ho => ?_⟩
      · rw [Array.getElem?_append_right (by omega)]
        simpa [hsize] using hop
      · have := hopen o ho
        omega
    have hfinal := Decoding.foldlM_feed_induction (P := fun _ => Decoding.Settled _ op)
      Decoding.Settled.feed rear (n := 0) hsettled hrear
    unfold Decoding.finish at hdecode
    split at hdecode
    · cases hdecode
      exact hfinal.1
    · cases hdecode
  · cases hdecode

namespace LoopTree

theorem length_append (t u : LoopTree) : (t ++ u).length = t.length + u.length := by
  rw [← length_symbols, symbols_append, List.length_append, length_symbols, length_symbols]

theorem ops_append (t u : LoopTree) : ∀ start,
    (t ++ u).ops start = t.ops start ++ u.ops (start + t.length) := by
  induction t with
  | done => exact fun _ => rfl
  | basic b rest ih =>
    intro start
    rw [basic_append, ops, ih, ops, length, List.cons_append, Nat.add_assoc, Nat.add_comm 1]
  | loop body rest _ ih =>
    intro start
    have hstart : start + body.length + 2 + rest.length = start + (loop body rest).length := by
      rw [length]
      omega
    rw [loop_append, ops, ih, hstart]
    simp [ops]

end LoopTree

theorem Placed.append {ops : Array Op} {pc : Nat} {t u : LoopTree}
    (h : Placed ops pc ((t ++ u).ops pc)) :
    Placed ops pc (t.ops pc) ∧ Placed ops (pc + t.length) (u.ops (pc + t.length)) := by
  rw [LoopTree.ops_append] at h
  have hright := h.right
  rw [LoopTree.length_ops] at hright
  exact ⟨h.left, hright⟩

/-! ## Steps at given places -/

def Inside (start stop pc : Nat) : Prop := start ≤ pc ∧ pc < stop

/-- Steps by ops at the given places lead from one state to another. -/
def Walks (ops : Array Op) (eof : EofPolicy) (places : Nat → Prop) : State → State → Prop :=
  Relation.ReflTransGen fun s t => places s.pc ∧ next? ops eof s = some t

namespace Walks

variable {ops : Array Op} {eof : EofPolicy} {places places' : Nat → Prop} {s t u : State}

theorem refl (s : State) : Walks ops eof places s s := Relation.ReflTransGen.refl

theorem trans (h : Walks ops eof places s t) (h' : Walks ops eof places t u) :
    Walks ops eof places s u :=
  Relation.ReflTransGen.trans h h'

theorem step (hs : places s.pc) (h : next? ops eof s = some t) : Walks ops eof places s t :=
  Relation.ReflTransGen.single ⟨hs, h⟩

theorem mono (h : Walks ops eof places s t) (hp : ∀ pc, places pc → places' pc) :
    Walks ops eof places' s t :=
  Relation.ReflTransGen.mono (fun _ _ hstep => ⟨hp _ hstep.1, hstep.2⟩) _ _ h

theorem reaches (h : Walks ops eof places s t) : Reaches ops eof s t :=
  Relation.ReflTransGen.mono (fun _ _ hstep => hstep.2) _ _ h

/-- There is one walk from a state: what is reached in fewer cycles is on the way. -/
theorem next?_of_reaches (h : Walks ops eof places s u) (ht : Reaches ops eof s t)
    (hlt : t.cycles < u.cycles) : places t.pc ∧ ∃ v, next? ops eof t = some v := by
  induction h using Relation.ReflTransGen.head_induction_on with
  | refl =>
    have := ht.grows.cycles
    omega
  | @head s k hstep _ ih =>
    rcases Relation.ReflTransGen.cases_head ht with rfl | ⟨l, hl, hrest⟩
    · exact ⟨hstep.1, k, hstep.2⟩
    · obtain rfl : k = l := Option.some.inj (hstep.2.symm.trans hl)
      exact ih hrest

end Walks

/-- The ops from `start` to `stop` are run: from `s` at the first of them, steps by none but these ops
lead to `t` behind the last. -/
def Crosses (ops : Array Op) (eof : EofPolicy) (start stop : Nat) (s t : Store) : Prop :=
  Walks ops eof (Inside start stop) (s.toState start) (t.toState stop)

theorem Store.toState_inj {s t : Store} {pc : Nat} (h : s.toState pc = t.toState pc) : s = t := by
  obtain ⟨⟩ := s
  obtain ⟨⟩ := t
  simp only [Store.toState, State.mk.injEq, true_and] at h
  obtain ⟨rfl, rfl, rfl, rfl⟩ := h
  rfl

/-- Code that is run can end in one way only. -/
theorem Crosses.unique {ops : Array Op} {eof : EofPolicy} {a b : Nat} {s t u : Store}
    (h : Crosses ops eof a b s t) (h' : Crosses ops eof a b s u) : t = u := by
  have hfinal : ∀ {k : Store} {v : State}, Walks ops eof (Inside a b) (k.toState b) v →
      k.toState b = v := by
    intro k v hv
    rcases Relation.ReflTransGen.cases_head hv with hv | ⟨_, hstep, -⟩
    · exact hv
    · exact absurd hstep.1.2 (Nat.lt_irrefl b)
  have hfunctional : Relator.RightUnique fun s t : State => Inside a b s.pc ∧ next? ops eof s = some t :=
    fun _ _ _ hl hr => Option.some.inj (hl.2.symm.trans hr.2)
  rcases Relation.ReflTransGen.total_of_right_unique hfunctional h h' with htu | hut
  · exact Store.toState_inj (hfinal htu)
  · exact (Store.toState_inj (hfinal hut)).symm

/-! ## Code keeps to itself -/

/-- Wherever the op at `pc` leads, it is from `lo` on and not behind `hi`. -/
def Op.Leads (eof : EofPolicy) (lo hi pc : Nat) (op : Op) : Prop :=
  ∀ s t : State, s.pc = pc → op.execute eof s = .ok t → lo ≤ t.pc ∧ t.pc ≤ hi

theorem leads_jump {eof : EofPolicy} {lo hi pc target : Nat} (hpc : lo ≤ pc ∧ pc < hi)
    (htarget : lo ≤ target ∧ target < hi) : (Op.jumpIfZero target).Leads eof lo hi pc ∧
      (Op.jumpUnlessZero target).Leads eof lo hi pc := by
  constructor <;>
  · rintro s t rfl ht
    cases ht
    show lo ≤ (if s.cell = 0 then _ else _) ∧ (if s.cell = 0 then _ else _) ≤ hi
    split <;> omega

theorem LoopTree.along_leads_ops (eof : EofPolicy) {lo hi : Nat} (t : LoopTree) : ∀ start,
    lo ≤ start → start + t.length ≤ hi → Along (Op.Leads eof lo hi) start (t.ops start) := by
  induction t with
  | done =>
    intro start _ _
    trivial
  | basic b rest ih =>
    intro start hlo hhi
    rw [length] at hhi
    refine ⟨?_, ih (start + 1) (by omega) (by omega)⟩
    rintro s t rfl ht
    rcases Basic.execute_cases ht with ⟨hpc, -⟩ | ⟨hpc, -⟩ <;> omega
  | loop body rest ihb ihr =>
    intro start hlo hhi
    rw [length] at hhi
    have hstart : lo ≤ start ∧ start < hi := by omega
    have hclose : lo ≤ start + body.length + 1 ∧ start + body.length + 1 < hi := by omega
    refine ⟨(leads_jump hstart hclose).1, (ihb (start + 1) (by omega) (by omega)).append ?_⟩
    rw [length_ops, Nat.add_right_comm]
    exact ⟨(leads_jump hclose hstart).2, ihr (start + body.length + 2) (by omega) (by omega)⟩

section Keeps
variable {ops : Array Op} {eof : EofPolicy} {tree : LoopTree} {pc : Nat}

/-- What holds along the ops of some code holds of the program's ops where the code is placed. -/
theorem Along.of_placed {P : Nat → Op → Prop} {code : List Op} (h : Along P pc code)
    (hp : Placed ops pc code) {i : Nat} {op : Op} (hi : Inside pc (pc + code.length) i)
    (hop : ops[i]? = some op) : P i op := by
  obtain ⟨hlo, hhi⟩ := hi
  obtain ⟨k, rfl⟩ : ∃ k, i = pc + k := ⟨i - pc, by omega⟩
  have hcode := List.getElem?_eq_getElem (l := code) (i := k) (by omega)
  rw [hp k _ hcode] at hop
  rw [← Option.some.inj hop]
  exact h.of_getElem? hcode

/-- The ops of a tree lead to one another or right behind them. -/
theorem leads_of_placed (hp : Placed ops pc (tree.ops pc)) {i : Nat} {op : Op}
    (hi : Inside pc (pc + tree.length) i) (hop : ops[i]? = some op) :
    op.Leads eof pc (pc + tree.length) i := by
  rw [← LoopTree.length_ops tree pc] at hi
  exact (tree.along_leads_ops eof pc (Nat.le_refl _) (Nat.le_refl _)).of_placed hp hi hop

/-- The program up to the end of the code of a tree. In it there is no way on from there. -/
def cutAt (ops : Array Op) (stop : Nat) : Array Op := (ops.toList.take stop).toArray

theorem getElem?_cutAt (ops : Array Op) (stop i : Nat) :
    (cutAt ops stop)[i]? = if i < stop then ops[i]? else none := by
  simp [cutAt, List.getElem?_take]

/-- Steps that lead from the start of the code of a tree to its end for the first time stay in the
code. -/
theorem walks_of_reaches_cutAt (hp : Placed ops pc (tree.ops pc)) {s t : State}
    (hs : pc ≤ s.pc ∧ s.pc ≤ pc + tree.length)
    (h : Reaches (cutAt ops (pc + tree.length)) eof s t) :
    Walks ops eof (Inside pc (pc + tree.length)) s t ∧ pc ≤ t.pc ∧ t.pc ≤ pc + tree.length := by
  induction h with
  | refl => exact ⟨.refl s, hs⟩
  | tail _ hlast ih =>
    obtain ⟨hwalk, hlo, -⟩ := ih
    obtain ⟨op, v, hop, hv, hhalt, rfl⟩ := next?_eq_some_iff.mp hlast
    rw [getElem?_cutAt] at hop
    split at hop
    · rename_i hlt
      refine ⟨hwalk.trans (.step ⟨hlo, hlt⟩ (next?_eq_some_iff.mpr ⟨op, v, hop, hv, hhalt, rfl⟩)), ?_⟩
      exact leads_of_placed hp ⟨hlo, hlt⟩ hop _ v rfl hv
    · cases hop

theorem crosses_of_runs {s : Store} {m : Memory} (hp : Placed ops pc (tree.ops pc))
    (h : tree.runs eof s.memory (.completed m)) :
    ∃ t : Store, Crosses ops eof pc (pc + tree.length) s t ∧ t.memory = m := by
  have hcut : Placed (cutAt ops (pc + tree.length)) pc (tree.ops pc) := by
    intro i op hi
    have hlt : i < (tree.ops pc).length := (List.getElem?_eq_some_iff.mp hi).1
    rw [LoopTree.length_ops] at hlt
    rw [getElem?_cutAt, if_pos (by omega)]
    exact hp i op hi
  obtain ⟨t, rfl, hreach⟩ := arrives_of_runs tree pc s _ hcut h
  have hpc : pc ≤ (s.toState pc).pc ∧ (s.toState pc).pc ≤ pc + tree.length :=
    ⟨Nat.le_refl _, Nat.le_add_right _ _⟩
  exact ⟨t, (walks_of_reaches_cutAt hp hpc hreach).1, rfl⟩

end Keeps

/-! ## Generated code -/

namespace Generator

/-- The number of symbols generated so far, which is the index of the op of the next one. -/
def size (g : Generator) : Nat := g.program.length

/-- The text can be decoded, and its program begins with what was generated so far. Nothing is said
about how this was generated nor about what follows. -/
structure Begins (g : Generator) (text : String) (ops : Array Op) : Prop where
  decode : Op.decode text = .ok ops
  symbols : g.program.symbols <+: (Program.ofText text).symbols

/-- The code that was added from `g` to `h` does `f` wherever it stands: in every program that begins
with it, from every state at its start that has the head at the cursor of `g`, the machine runs the
code to its end, where the memory is what `f` makes of the memory at the start. -/
def Achieves (g h : Generator) (f : Memory → Memory) : Prop :=
  ∀ ⦃text : String⦄ ⦃ops : Array Op⦄, h.Begins text ops → ∀ (eof : EofPolicy) (s : Store),
    s.head = g.cursor → ∃ t : Store, Crosses ops eof g.size h.size s t ∧ t.memory = f s.memory

variable {g h : Generator} {text : String} {ops : Array Op} {eof : EofPolicy}

theorem Begins.of_append {code : List Symbol} (hb : h.Begins text ops)
    (hcode : h.program.symbols = g.program.symbols ++ code) : g.Begins text ops :=
  ⟨hb.decode, (hcode ▸ List.prefix_append _ _).trans hb.symbols⟩

/-- The code between two generators is decoded to the ops between their sizes. -/
theorem Begins.placed {tree : LoopTree} (hb : h.Begins text ops)
    (hcode : h.program.symbols = g.program.symbols ++ tree.symbols) :
    Placed ops g.size (tree.ops g.size) ∧ h.size = g.size + tree.length := by
  obtain ⟨after, hafter⟩ := hb.symbols
  refine ⟨LoopTree.placed_of_decode g.program.symbols after hb.decode ?_, ?_⟩
  · rw [← hafter, hcode]
  · unfold size Program.length
    rw [hcode, List.length_append, LoopTree.length_symbols]

theorem Emits.crosses {r : Routine} {d : Nat} {s : Store} {m : Memory} (he : g.Emits h r d)
    (hb : h.Begins text ops) (hs : s.head = g.cursor) (hr : r.runs eof s.memory (.completed m)) :
    ∃ t : Store, Crosses ops eof g.size h.size s t ∧ t.memory = m := by
  obtain ⟨hp, hsize⟩ := hb.placed he.symbols
  rw [hsize]
  exact crosses_of_runs hp ((r.runs_code_iff g.cursor s.memory _ hs).mpr hr)

theorem Begins.whole {tree : LoopTree} (hg : g.program.symbols = tree.symbols) :
    g.Begins g.program.text (tree.ops 0).toArray := by
  have htext : (Program.ofText g.program.text).symbols = g.program.symbols :=
    congrArg Program.symbols (Program.ofText_text _)
  exact ⟨LoopTree.decode_of_symbols _ _ (htext.trans hg), htext ▸ List.prefix_rfl⟩

theorem Emits.begins {r : Routine} {d : Nat} (he : Emits {} h r d) :
    h.Begins h.program.text ((r.code 0).ops 0).toArray :=
  .whole he.symbols

theorem Emits.achieves {r : Routine} {d : Nat} {f : Memory → Memory} (he : g.Emits h r d)
    (hr : ∀ eof m, r.runs eof m (.completed (f m))) : g.Achieves h f :=
  fun _ _ hb eof s hs => he.crosses hb hs (hr eof s.memory)

end Generator

/-! ## Code that is never left -/

/-- Steps at the given places go on for as many cycles as one likes. -/
def Forever (ops : Array Op) (eof : EofPolicy) (places : Nat → Prop) (s : State) : Prop :=
  ∀ n, ∃ t, Walks ops eof places s t ∧ n ≤ t.cycles

namespace Forever

variable {ops : Array Op} {eof : EofPolicy} {places places' : Nat → Prop} {s t : State}

theorem of_walks (h : Walks ops eof places s t) (ht : Forever ops eof places t) :
    Forever ops eof places s := by
  intro n
  obtain ⟨u, hu, hn⟩ := ht n
  exact ⟨u, h.trans hu, hn⟩

theorem mono (h : Forever ops eof places s) (hp : ∀ pc, places pc → places' pc) :
    Forever ops eof places' s := by
  intro n
  obtain ⟨t, ht, hn⟩ := h n
  exact ⟨t, ht.mono hp, hn⟩

/-- There is a next step from every state that is reached, and it is at one of the places. -/
theorem next? (h : Forever ops eof places s) (ht : Reaches ops eof s t) :
    places t.pc ∧ ∃ u, Machine.next? ops eof t = some u := by
  obtain ⟨u, hu, hn⟩ := h (t.cycles + 1)
  exact hu.next?_of_reaches ht hn

/-- A run that comes to such a state is cut off, however many cycles there are. -/
theorem result_run {config : Config} {origin : State}
    (h : Forever ops config.eof places s) (horigin : origin.halt = none)
    (hpass : Passes ops config origin s) :
    ∃ r, ({ ops, config, state := origin } : Machine).run.result = .ok r ∧ r.halt = .cycleLimit ∧
      r.cycles = config.maxCycles := by
  rw [Machine.result_run, outcome_of_reaches hpass.1 hpass.2]
  obtain ⟨t, ⟨ht, -⟩, hend⟩ := exists_endsAt ops config (hpass.1.halt horigin) hpass.2
  obtain ⟨-, u, hu⟩ := h.next? ht
  obtain ⟨op, v, hop, hv, hhalt, -⟩ := next?_eq_some_iff.mp hu
  -- all other endings are at ops from which no step is made
  cases hr : outcome ops config s with
  | error fault =>
    rw [hr] at hend
    cases hend with
    | tapeUnderflow hleft _ hhead =>
      cases hleft.symm.trans hop
      simp [Op.execute, hhead] at hv
  | ok r =>
    rw [hr] at hend
    cases hend with
    | completed hnone => cases hnone.symm.trans hop
    | cycleLimit _ hcycles => exact ⟨_, rfl, rfl, hcycles⟩
    | inputExhausted hread _ hpending heof =>
      cases hread.symm.trans hop
      simp only [Op.execute, Channel.read?, hpending, heof] at hv
      cases hv
      cases hhalt

end Forever

/-- The code that was added from `g` to `h` does `f` where the memory at its start is as `P` says, and
from any other memory it is never left: whatever is reached from its start is inside the code, and
every run that comes to its start uses up its cycles. -/
def Generator.AchievesOnly (g h : Generator) (P : Memory → Prop) (f : Memory → Memory) : Prop :=
  ∀ ⦃text : String⦄ ⦃ops : Array Op⦄, h.Begins text ops → ∀ (eof : EofPolicy) (s : Store),
    s.head = g.cursor →
      (P s.memory → ∃ t : Store, Crosses ops eof g.size h.size s t ∧ t.memory = f s.memory) ∧
      (¬ P s.memory →
        (∀ t, Reaches ops eof (s.toState g.size) t → Inside g.size h.size t.pc) ∧
        ∀ (config : Config) (origin : State), config.eof = eof → origin.halt = none →
          Passes ops config origin (s.toState g.size) →
            ∃ r, ({ ops, config, state := origin } : Machine).run.result = .ok r ∧
              r.halt = .cycleLimit ∧ r.cycles = config.maxCycles)

theorem Generator.Emits.achievesOnly {g h : Generator} {r : Routine} {d : Nat} {P : Memory → Prop}
    {f : Memory → Memory} (he : g.Emits h r d)
    (hends : ∀ eof m, P m → r.runs eof m (.completed (f m)))
    (hnever : ∀ ⦃text : String⦄ ⦃ops : Array Op⦄, h.Begins text ops → ∀ (eof : EofPolicy)
      (s : Store), s.head = g.cursor → ¬ P s.memory →
        Forever ops eof (Inside g.size h.size) (s.toState g.size)) : g.AchievesOnly h P f := by
  intro text ops hb eof s hs
  refine ⟨fun hP => he.crosses hb hs (hends eof s.memory hP), fun hP => ?_⟩
  have hforever := hnever hb eof s hs hP
  refine ⟨fun t ht => (hforever.next? ht).1, ?_⟩
  rintro config origin rfl horigin hpass
  exact hforever.result_run horigin hpass

/-- A loop whose rounds all end in a state from which the next round starts is never left. -/
theorem forever_of_rounds {ops : Array Op} (eof : EofPolicy) {body rest : LoopTree} {pc : Nat}
    (hp : Placed ops pc ((LoopTree.loop body rest).ops pc)) (inv : Memory → Prop)
    (hvalue : ∀ m, inv m → m.value ≠ 0)
    (hround : ∀ m, inv m → ∃ n, body.runs eof m (.completed n) ∧ inv n) (s : Store)
    (hs : inv s.memory) : Forever ops eof (Inside pc (pc + body.length + 2)) (s.toState pc) := by
  obtain ⟨hbody, hclose, -⟩ := hp.loop
  have hfirst : Inside pc (pc + body.length + 2) pc := ⟨by omega, by omega⟩
  have hlast : Inside pc (pc + body.length + 2) (pc + body.length + 1) := ⟨by omega, by omega⟩
  have henter : ∀ t : Store, inv t.memory → t.cell ≠ 0 := fun t ht => hvalue t.memory ht
  -- every round takes a cycle at least, so that `n` of them take `n`
  have rounds : ∀ n, ∃ t : Store, Walks ops eof (Inside pc (pc + body.length + 2))
      (s.toState pc) (t.toState (pc + 1)) ∧ inv t.memory ∧ n ≤ t.cycles := by
    intro n
    induction n with
    | zero =>
      refine ⟨s.tick, .step hfirst ?_, hs, Nat.zero_le _⟩
      rw [next?_jumpIfZero hp.head, if_neg (henter s hs)]
    | succ n ih =>
      obtain ⟨t, ht, hinv, hn⟩ := ih
      obtain ⟨m, hm, hinv'⟩ := hround t.memory hinv
      obtain ⟨u, hu, rfl⟩ := crosses_of_runs hbody hm
      rw [Nat.add_right_comm] at hu
      have hcycles : t.cycles ≤ u.cycles := (Walks.reaches hu).grows.cycles
      have hround : Walks ops eof (Inside pc (pc + body.length + 2)) (t.toState (pc + 1))
          (u.toState (pc + body.length + 1)) := by
        refine Walks.mono hu ?_
        rintro i ⟨hlo, hhi⟩
        exact ⟨by omega, by omega⟩
      have hback : next? ops eof (u.toState (pc + body.length + 1)) =
          some (u.tick.toState (pc + 1)) := by
        rw [next?_jumpUnlessZero hclose, if_neg (henter u hinv')]
      exact ⟨u.tick, (ht.trans hround).trans (.step hlast hback), hinv',
        Nat.succ_le_succ (Nat.le_trans hn hcycles)⟩
  intro n
  obtain ⟨t, ht, -, hn⟩ := rounds n
  exact ⟨_, ht, hn⟩

end TapeMachine
