import TapeMachine.Proofs.Generated
import TapeMachine.Proofs.RegisterRefinement

/-!
# Register scripts on the tape

The code of a register script does to the cells of the registers what the register machine does to
the registers, and leaves the cells before them as they were.

* `RegisterCall.refines` : the routine of a call refines the call. A copy goes through the
  accumulator, which is zero before and after;
* `RegisterScript.nesting` : how deep loops of a given number of rounds are nested;
* `RegisterScript.refines_routine` : the routine of a script refines the script, by induction over the
  script, where `Free depth held` says which slots its loops can use;
* `RegisterScript.exists_generate` : a register script leaves the stack to its loops, so it is not
  refused anything as long as they nest no deeper than there are slots;
* `RegisterScript.execute_agrees` : every run of the generated program that is allowed enough cycles
  gives what the register machine gives.
-/

namespace TapeMachine

/-! ## Calls -/

def RegisterCall.routine (call : RegisterCall) : Routine :=
  (Script.ofActions call.actions).routine 0 0

section Calls
variable {eof : EofPolicy} {held : Nat → UInt8} {r x y : Nat}

theorem refines_put {routine : Routine} {w : Bank → UInt8}
    (h : ∀ b m, Holds held b m →
      routine.runs eof m (.completed ((m.go (Layout.register r)).put (w b)))) :
    (routine.runs eof).Refines (fun b => .ok (b.put r (w b))) (Holds held) (Holds held) :=
  fun b m hm => ⟨_, h b m hm, hm.register r _ _⟩

theorem refines_step {effect : Effect} (δ : UInt8)
    (h : ∀ m, effect.final eof m = .completed (m.put (m.value + δ))) :
    ((Routine.line [.go (Layout.register r), effect]).runs eof).Refines
      (fun b => .ok (b.put r (b.registers r + δ))) (Holds held) (Holds held) := by
  refine refines_put fun b m hm => ?_
  rw [Routine.line, Routine.runs_act rfl, Routine.line, Routine.runs_act (h _), ← hm.registers]
  rfl

theorem refines_raise (eof : EofPolicy) (r n : Nat) :
    ((Routine.line [.go (Layout.register r), .raise n]).runs eof).Refines
      (fun b => .ok (b.put r (b.registers r + UInt8.ofNat n))) (Holds held) (Holds held) :=
  refines_step (UInt8.ofNat n) fun _ => rfl

theorem refines_lower (eof : EofPolicy) (r n : Nat) :
    ((Routine.line [.go (Layout.register r), .lower n]).runs eof).Refines
      (fun b => .ok (b.put r (b.registers r + -UInt8.ofNat n))) (Holds held) (Holds held) := by
  refine refines_step (-UInt8.ofNat n) fun m => ?_
  rw [Effect.final, UInt8.sub_eq_add_neg]

theorem refines_clear : ((Routine.line [.go (Layout.register r), .clear]).runs eof).Refines
    (fun b => .ok (b.put r 0)) (Holds held) (Holds held) := by
  refine refines_put fun b m _ => ?_
  rw [Routine.line, Routine.runs_act rfl, Routine.line, Routine.runs_act rfl]
  rfl

theorem refines_set (v : UInt8) :
    ((Routine.line [.go (Layout.register r), .clear, .raise v.toNat]).runs eof).Refines
      (fun b => .ok (b.put r v)) (Holds held) (Holds held) :=
  refines_put fun _ m _ => (Routine.runs_set eof _ v m _).mpr rfl

theorem refines_readInto : ((Routine.line [.go (Layout.register r), .read]).runs eof).Refines
    (Bank.read eof r) (Holds held) (Holds held) := by
  intro b m hm
  refine ⟨(m.go (Layout.register r)).read eof, ?_, ?_⟩
  · rw [Routine.line, Routine.runs_act rfl, Routine.line, Routine.line, Routine.runs, Routine.runs,
      Behaviour.andThen_skip]
    rfl
  · have hinputs : (m.go (Layout.register r)).inputs = b.inputs := hm.inputs
    unfold Memory.read Bank.read
    rw [hinputs]
    cases b.inputs with
    | cons byte inputs =>
      have hput := hm.register r (Layout.register r) byte
      exact ⟨hput.registers, hput.reserved, rfl, hput.outputs⟩
    | nil =>
      cases eof with
      | halt => exact ⟨held, hm.go _⟩
      | zero => exact hm.register r _ 0
      | unchanged => exact hm.go _

theorem refines_writeFrom : ((Routine.line [.go (Layout.register r), .write]).runs eof).Refines
    (fun b => .ok (b.write r)) (Holds held) (Holds held) := by
  intro b m hm
  refine ⟨.completed (m.go (Layout.register r)).write, ?_, ?_⟩
  · rw [Routine.line, Routine.runs_act rfl, Routine.line, Routine.runs_act rfl]
    rfl
  · refine ⟨hm.registers, hm.reserved, hm.inputs, ?_⟩
    show m.outputs.push (m.cells (Layout.register r)) = b.outputs.push (b.registers r)
    rw [hm.outputs, hm.registers]

/-- A register is counted down, while `δ` is added to another in each round. What is held before the
registers may depend on the other. -/
theorem refines_shift {body : Behaviour} {held : Bank → Nat → UInt8} (hxy : x ≠ y) (δ : UInt8)
    (hheld : ∀ b v, held (b.put y v) = held b)
    (hb : body.Refines (fun b => .ok (b.put x (b.registers x + δ))) (fun b => Holds (held b) b)
      (fun b => Holds (held b) b)) :
    (Behaviour.countDown (Layout.register y) body).Refines
      (fun b => .ok ((b.put x (b.registers x + b.registers y * δ)).put y 0))
      (fun b => Holds (held b) b) (fun b => Holds (held b) b) := by
  refine (refines_countDown_register hheld hb (Bank.keeps_put hxy)).congr fun b => ?_
  rw [← Bank.rounds_shift_all hxy]
  congr 1
  funext b
  rw [Bank.registers_put_of_ne hxy.symm]

theorem refines_add (hxy : x ≠ y) : ((RegisterCall.add x y).routine.runs eof).Refines
    (fun b => (RegisterCall.add x y).perform eof b) (Holds held) (Holds held) := by
  show (Behaviour.andThen _ .skip).Refines _ _ _
  rw [Behaviour.andThen_skip]
  refine (refines_shift hxy 1 (fun _ _ => rfl) (refines_raise eof x 1)).congr fun b => ?_
  rw [UInt8.mul_one]
  rfl

theorem refines_subtract (hxy : x ≠ y) : ((RegisterCall.subtract x y).routine.runs eof).Refines
    (fun b => (RegisterCall.subtract x y).perform eof b) (Holds held) (Holds held) := by
  show (Behaviour.andThen _ .skip).Refines _ _ _
  rw [Behaviour.andThen_skip]
  refine (refines_shift hxy (-1) (fun _ _ => rfl) (refines_lower eof x 1)).congr fun b => ?_
  have hsub : b.registers x + b.registers y * -1 = b.registers x - b.registers y := by grind
  rw [hsub]
  rfl

/-- What is held before the registers while `y` is copied to: the accumulator is as much as `y`. -/
def mirrored (held : Nat → UInt8) (y : Nat) (b : Bank) : Nat → UInt8 :=
  Function.update held Layout.accumulator (b.registers y)

theorem mirrored_put_of_ne (hxy : x ≠ y) (b : Bank) (v : UInt8) :
    mirrored held y (b.put x v) = mirrored held y b := by
  unfold mirrored
  rw [Bank.registers_put_of_ne hxy]

theorem mirrored_put_self (b : Bank) (v : UInt8) :
    mirrored held y (b.put y v) = Function.update held Layout.accumulator v := by
  unfold mirrored
  rw [Bank.registers_put_self]

theorem update_zero {cell : Nat} (hheld : held cell = 0) : Function.update held cell 0 = held := by
  rw [← hheld, Function.update_eq_self]

theorem refines_copy_clear (hheld : held Layout.accumulator = 0) :
    ((Routine.line [.go (Layout.register y), .clear]).runs eof).Refines
      (fun b => .ok (b.put y 0)) (Holds held) (fun b => Holds (mirrored held y b) b) := by
  refine refines_clear.consequence (fun _ _ hm => hm) ?_
  rintro b m c n - hc hn
  cases hc
  rw [mirrored_put_self, update_zero hheld]
  exact hn

theorem refines_copy_round (eof : EofPolicy) (y : Nat) : ((Routine.line [.go Layout.accumulator, .raise 1,
      .go (Layout.register y), .raise 1]).runs eof).Refines
    (fun b => .ok (b.put y (b.registers y + 1)))
    (fun b => Holds (mirrored held y b) b) (fun b => Holds (mirrored held y b) b) := by
  intro b m hm
  have hacc : Layout.accumulator < Layout.registerBase := by decide
  have hvalue : m.cells Layout.accumulator = b.registers y := by
    rw [hm.reserved _ hacc, mirrored, Function.update_self]
  have hslot := hm.slot hacc Layout.accumulator (b.registers y + 1)
  rw [mirrored, Function.update_idem] at hslot
  obtain ⟨e, he, hends⟩ := refines_raise eof y 1 b _ hslot
  refine ⟨e, ?_, hends.mono ?_⟩
  · rw [Routine.line, Routine.runs_act rfl, Routine.line, Routine.runs_act rfl]
    rw [← hvalue] at he
    exact he
  · rintro c n hc hn
    cases hc
    rw [mirrored_put_self]
    exact hn

/-- The accumulator, which is as much as `y`, is counted down into `x`. -/
theorem refines_copy_back (eof : EofPolicy) (x y : Nat) (hheld : held Layout.accumulator = 0) :
    (Behaviour.countDown Layout.accumulator
      ((Routine.line [.go (Layout.register x), .raise 1]).runs eof)).Refines
      (fun b => .ok (b.put x (b.registers x + b.registers y)))
      (fun b => Holds (mirrored held y b) b) (Holds held) := by
  intro b m hm
  have hrounds : Bank.rounds (fun b => .ok (b.put x (b.registers x + 1))) (b.registers y).toNat b =
      .ok (b.put x (b.registers x + b.registers y)) := by
    rw [Bank.rounds_raise, UInt8.ofNat_toNat]
  have hacc : Layout.accumulator < Layout.registerBase := by decide
  obtain ⟨e, he, hends⟩ :=
    refines_countDown_slot hacc (fun v => refines_raise eof x 1) (b.registers y) b m hm
  rw [update_zero hheld] at hends
  refine ⟨e, he, ?_⟩
  show Ends (Holds held) (.ok (b.put x (b.registers x + b.registers y))) e
  rw [← hrounds]
  exact hends

/-- The source is counted down into target and accumulator, then the accumulator into the source. -/
theorem refines_copy (hxy : x ≠ y) (hheld : held Layout.accumulator = 0) :
    ((RegisterCall.copy x y).routine.runs eof).Refines
      (fun b => (RegisterCall.copy x y).perform eof b) (Holds held) (Holds held) := by
  have hroutine : (RegisterCall.copy x y).routine = .line [.go (Layout.register y), .clear] ++
      .countDown (Layout.register x)
        (.line [.go Layout.accumulator, .raise 1, .go (Layout.register y), .raise 1])
        (.countDown Layout.accumulator (.line [.go (Layout.register x), .raise 1]) .done) := rfl
  rw [hroutine, Routine.runs_append, Routine.runs, Routine.runs, Routine.runs,
    Behaviour.andThen_skip]
  have hloops := (refines_shift hxy.symm 1 (mirrored_put_of_ne hxy)
    (refines_copy_round eof y)).andThen (refines_copy_back eof x y hheld)
  refine ((refines_copy_clear hheld).andThen hloops).congr fun b => congrArg Except.ok ?_
  simp only [Bank.registers_put_self, Bank.registers_put_of_ne hxy, Bank.registers_put_of_ne hxy.symm,
    Bank.put_put, UInt8.mul_one, UInt8.zero_add]
  rw [Bank.put_comm hxy.symm, Bank.put_registers]

/-- The routine of a call on registers refines the call, where the accumulator is zero. -/
theorem RegisterCall.refines (call : RegisterCall) (hs : call.Sound)
    (hheld : held Layout.accumulator = 0) :
    (call.routine.runs eof).Refines (fun b => call.perform eof b) (Holds held) (Holds held) := by
  cases call with
  | set r value => exact refines_set value
  | clear r => exact refines_clear
  | increase r n => exact refines_raise eof r n
  | decrease r n =>
    refine (refines_lower eof r n).congr fun b => ?_
    rw [← UInt8.sub_eq_add_neg]
    rfl
  | readInto r => exact refines_readInto
  | writeFrom r => exact refines_writeFrom
  | copy source target => exact refines_copy hs hheld
  | add sum addend => exact refines_add hs
  | subtract minuend subtrahend => exact refines_subtract hs

end Calls

/-! ## Scripts -/

namespace RegisterScript

/-- How deep loops of a given number of rounds are nested. -/
def nesting (s : RegisterScript) : Nat := s.toScript.nesting

theorem nesting_call (head : RegisterCall) (rest : RegisterScript) :
    (call head rest).nesting = rest.nesting := by
  cases head <;> rfl

theorem nesting_repeated (n : UInt8) (body rest : RegisterScript) :
    (repeated n body rest).nesting = max (1 + body.nesting) rest.nesting := rfl

theorem nesting_countDown (r : Nat) (body rest : RegisterScript) :
    (countDown r body rest).nesting = max body.nesting rest.nesting := by
  show max (0 + body.nesting) rest.nesting = _
  rw [Nat.zero_add]

/-- The cells from `depth` on that stand before the registers are zero. -/
def Free (depth : Nat) (held : Nat → UInt8) : Prop :=
  ∀ c, depth ≤ c → c < Layout.registerBase → held c = 0

theorem routine_call (call : RegisterCall) (rest : Script) (cursor depth : Nat) :
    (call.actions.foldr .act rest).routine cursor depth =
      call.routine ++ rest.routine (call.routine.after cursor) depth := by
  cases call <;> rfl

theorem depth_toScript (s : RegisterScript) : ∀ depth, s.toScript.depth depth = depth := by
  induction s with
  | done => exact fun _ => rfl
  | call head rest ih =>
    intro depth
    cases head <;> exact ih depth
  | repeated n body rest ihb ihr =>
    intro depth
    rw [toScript, Script.depth, ihr, Block.depth, ihb, Nat.add_sub_cancel]
  | countDown r body rest ihb ihr =>
    intro depth
    rw [toScript, Script.depth, ihr]
    exact ihb depth

theorem Free.update {depth : Nat} {held : Nat → UInt8} (h : Free depth held) (v : UInt8) :
    Free (depth + 1) (Function.update held depth v) := by
  intro c hc hbase
  rw [Function.update_of_ne (by omega)]
  exact h c (by omega) hbase

/-- A loop that counts in a slot, which is zero before and after. -/
theorem refines_repeated {eof : EofPolicy} {held : Nat → UInt8} {body : Routine}
    {f : Bank → Except Bank Bank} {slot cursor : Nat} (hslot : slot < Layout.registerBase)
    (hheld : held slot = 0)
    (hb : ∀ v, (body.runs eof).Refines f (Holds (Function.update held slot v))
      (Holds (Function.update held slot v))) (n : UInt8) :
    ((Routine.line [.go slot, .clear, .raise n.toNat] ++
      .countDown slot (.line [.go cursor] ++ body) (.line [.go cursor])).runs eof).Refines
      (Bank.rounds f n.toNat) (Holds held) (Holds held) := by
  have hclaim : ((Routine.line [.go slot, .clear, .raise n.toNat]).runs eof).Refines .ok (Holds held)
      (Holds (Function.update held slot n)) := fun b m hm =>
    ⟨_, (Routine.runs_set eof slot n m _).mpr rfl, hm.slot hslot slot n⟩
  have hround : ∀ v, ((Routine.line [.go cursor] ++ body).runs eof).Refines f
      (Holds (Function.update held slot v)) (Holds (Function.update held slot v)) := by
    intro v
    rw [Routine.runs_append, Routine.runs_go]
    exact (hb v).update_andThen fun b m hm => hm.go cursor
  have hloop := refines_countDown_slot hslot hround n
  rw [update_zero hheld] at hloop
  rw [Routine.runs_append, Routine.runs, Routine.runs_go]
  exact hclaim.andThen (hloop.andThen_go fun b m hm => hm.go cursor)

/-- The routine of a register script refines the script. The slots from `depth` on are free before
and after; those before `depth` are left as they are. -/
theorem refines_routine (eof : EofPolicy) (s : RegisterScript) (hs : s.Sound) :
    ∀ (cursor depth : Nat) (held : Nat → UInt8), s.nesting + depth ≤ Layout.scratchSlots →
      Free depth held →
        ((s.toScript.routine cursor depth).runs eof).Refines (s.eval eof) (Holds held)
          (Holds held) := by
  induction s with
  | done =>
    intro cursor depth held _ _
    exact .skip
  | call head rest ih =>
    intro cursor depth held hn hfree
    -- the accumulator stands behind all slots, so it is free whatever `depth` is
    have hacc : held Layout.accumulator = 0 := by
      refine hfree _ ?_ (by decide)
      have : Layout.scratchSlots ≤ Layout.accumulator := by decide
      omega
    rw [nesting_call] at hn
    rw [toScript, routine_call, Routine.runs_append]
    exact (head.refines hs.1 hacc).andThen (ih hs.2 _ depth held hn hfree)
  | repeated n body rest ihb ihr =>
    intro cursor depth held hn hfree
    rw [nesting_repeated] at hn
    have hslot : depth < Layout.registerBase := by
      have : Layout.scratchSlots ≤ Layout.registerBase := by decide
      omega
    -- the body is refined whatever is left in the counter, which it does not touch
    have hbody : ∀ v, ((body.toScript.routine cursor (depth + 1)).runs eof).Refines (body.eval eof)
        (Holds (Function.update held depth v)) (Holds (Function.update held depth v)) := fun v =>
      ihb hs.1 cursor (depth + 1) _ (by omega) (hfree.update v)
    rw [toScript, Script.routine, Routine.runs_append, Block.depth, depth_toScript,
      Nat.add_sub_cancel]
    exact (refines_repeated hslot (hfree depth (Nat.le_refl _) hslot) hbody n).andThen
      (ihr hs.2 _ depth held (by omega) hfree)
  | countDown r body rest ihb ihr =>
    intro cursor depth held hn hfree
    rw [nesting_countDown] at hn
    have hbody := ihb hs.2.1 (Layout.register r) depth held (by omega) hfree
    have hdepth : (Block.countDown (Layout.register r)).depth body.toScript.depth depth = depth :=
      body.depth_toScript depth
    rw [toScript, Script.routine, Routine.runs_append, hdepth, Block.routine, Routine.runs,
      Routine.runs, Behaviour.andThen_skip]
    exact (refines_countDown_register (fun _ _ => rfl) hbody (body.keeps eof hs.1)).andThen
      (ihr hs.2.2 _ depth held (by omega) hfree)

end RegisterScript

/-! ## Generation -/

theorem Script.All.foldr_act {P : Action → Prop} {Q : Block → Prop} {rest : Script}
    (hrest : rest.All P Q) {actions : List Action} (h : ∀ action ∈ actions, P action) :
    (actions.foldr .act rest).All P Q := by
  induction actions with
  | nil => exact hrest
  | cons action actions ih =>
    obtain ⟨haction, h⟩ := List.forall_mem_cons.mp h
    exact ⟨haction, ih h⟩

namespace RegisterScript

/-- The calls of a register script are those of its parts, in loops of two kinds. -/
theorem all_toScript {P : Action → Prop} {Q : Block → Prop}
    (hactions : ∀ head : RegisterCall, ∀ action ∈ head.actions, P action)
    (hrepeated : ∀ n, Q (.repeated n)) (hcountDown : ∀ cell, Q (.countDown cell))
    (s : RegisterScript) : s.toScript.All P Q := by
  induction s with
  | done => trivial
  | call head rest ih => exact ih.foldr_act (hactions head)
  | repeated n body rest ihb ihr => exact ⟨hrepeated n, ihb, ihr⟩
  | countDown r body rest ihb ihr => exact ⟨hcountDown _, ihb, ihr⟩

theorem plain_toScript (s : RegisterScript) : s.toScript.Plain := by
  have hactions (head : RegisterCall) : ∀ action ∈ head.actions, action.Plain := by
    cases head with
    | increase r n | decrease r n =>
      exact List.forall_mem_cons.mpr ⟨trivial, List.forall_mem_singleton.mpr trivial⟩
    | _ => exact List.forall_mem_singleton.mpr trivial
  exact s.all_toScript hactions (fun _ => nofun) fun _ => nofun

theorem slotless_toScript (s : RegisterScript) : s.toScript.Slotless := by
  have hactions (head : RegisterCall) : ∀ action ∈ head.actions, action.stackCalls = [] := by
    cases head with
    | increase r n | decrease r n =>
      exact List.forall_mem_cons.mpr ⟨rfl, List.forall_mem_singleton.mpr rfl⟩
    | _ => exact List.forall_mem_singleton.mpr rfl
  exact s.all_toScript hactions (fun _ => trivial) fun _ => trivial

theorem exists_generate (s : RegisterScript) (hn : s.nesting ≤ Layout.scratchSlots) :
    ∃ p, s.toScript.generate = .ok p := by
  have hfits : Generator.depth {} + s.toScript.nesting ≤ 4 := by
    rw [show Generator.depth {} = 0 from rfl, Nat.zero_add]
    exact hn
  obtain ⟨⟨reply, hreply⟩, -⟩ :=
    Script.exists_of_slotless s.plain_toScript.propagates s.slotless_toScript hfits
  refine ⟨(s.toScript.run {}).generator.program, ?_⟩
  rw [Script.generate, hreply]

end RegisterScript

/-! ## Runs -/

/-- A result is what the register machine comes to: all is done, and the cells before the registers
are zero, or a read has found no input. -/
def Result.Agrees (r : Result) : Except Bank Bank → Prop
  | .ok b => r.halt = .completed ∧ r.outputs = b.outputs ∧
      (∀ k, r.cell (Layout.register k) = b.registers k) ∧ ∀ c < Layout.registerBase, r.cell c = 0
  | .error b => (∃ pc, r.halt = .inputExhausted pc) ∧ r.outputs = b.outputs ∧
      ∀ k, r.cell (Layout.register k) = b.registers k

theorem Result.Shows.agrees {r : Result} {e : Final} {x : Except Bank Bank} (hr : r.Shows e)
    (he : Ends (Holds fun _ => 0) x e) : r.Agrees x := by
  cases x with
  | ok b =>
    cases e with
    | exhausted m => cases he
    | completed m =>
      obtain ⟨hhalt, houtputs, hcells⟩ := hr
      refine ⟨hhalt, houtputs.trans he.outputs, ?_, ?_⟩
      · intro k
        rw [hcells, he.registers]
      · intro c hc
        rw [hcells, he.reserved c hc]
  | error b =>
    cases e with
    | completed m => cases he
    | exhausted m =>
      obtain ⟨hhalt, houtputs, hcells⟩ := hr
      obtain ⟨held, hm⟩ := he
      refine ⟨hhalt, houtputs.trans hm.outputs, ?_⟩
      intro k
      rw [hcells, hm.registers]

namespace RegisterScript

theorem exists_agrees {s : RegisterScript} {p : Program} (hs : s.Sound) (hn : s.nesting ≤ 4)
    (hp : s.toScript.generate = .ok p) (inputs : List UInt8) (eof : EofPolicy) :
    ∃ n, ∀ config : Config, config.eof = eof → n ≤ config.maxCycles →
      ∃ r, (execute p.text inputs config).result = .ok r ∧
        r.Agrees (s.eval eof (Bank.start inputs)) := by
  have hstart : Holds (fun _ => 0) (Bank.start inputs) (Memory.start inputs) :=
    ⟨fun _ => rfl, fun _ _ => rfl, rfl, rfl⟩
  obtain ⟨e, he, hends⟩ := s.refines_routine eof hs 0 0 (fun _ => 0) hn (fun _ _ _ => rfl)
    (Bank.start inputs) (Memory.start inputs) hstart
  obtain ⟨n, hrun⟩ := Script.exists_shows_of_routine s.plain_toScript hp he
  refine ⟨n, fun config heof hle => ?_⟩
  obtain ⟨r, hr, hshows⟩ := hrun config heof hle
  exact ⟨r, hr, hshows.agrees hends⟩

/-- The generator is correct for register scripts whose loops nest at most four deep: every run that is
allowed enough cycles does what the register machine does. -/
theorem execute_agrees (s : RegisterScript) (hs : s.Sound) (hn : s.nesting ≤ 4)
    (inputs : List UInt8) (eof : EofPolicy) :
    ∃ p, s.toScript.generate = .ok p ∧
      ∃ n, ∀ config : Config, config.eof = eof → n ≤ config.maxCycles →
        ∃ r, (execute p.text inputs config).result = .ok r ∧
          r.Agrees (s.eval eof (Bank.start inputs)) := by
  obtain ⟨p, hp⟩ := s.exists_generate hn
  exact ⟨p, hp, exists_agrees hs hn hp inputs eof⟩

/-- A script that twice reads a number and writes the sum of the numbers below it. With one number on
the input it writes one sum and stops at the second read. -/
theorem execute_agrees_sums :
    let s : RegisterScript := .repeated 2
      (.call (.clear 2) (.call (.readInto 0) (.countDown 0
        (.call (.copy 0 1) (.call (.add 2 1) .done)) (.call (.writeFrom 2) .done)))) .done
    s.Sound ∧ s.nesting ≤ 4 ∧ ∃ p, s.toScript.generate = .ok p ∧
      ∃ n, ∀ config : Config, config.eof = .halt → n ≤ config.maxCycles →
        ∃ r, (execute p.text [4] config).result = .ok r ∧
          (∃ pc, r.halt = .inputExhausted pc) ∧ r.outputs = #[6] := by
  intro s
  have hsound : s.Sound := by decide
  have hnesting : s.nesting ≤ 4 := by decide
  obtain ⟨b, heval, houtputs⟩ : ∃ b, s.eval .halt (Bank.start [4]) = .error b ∧ b.outputs = #[6] :=
    ⟨_, rfl, by decide⟩
  obtain ⟨p, hp, n, hrun⟩ := execute_agrees s hsound hnesting [4] .halt
  refine ⟨hsound, hnesting, p, hp, n, fun config heof hle => ?_⟩
  obtain ⟨r, hr, hagrees⟩ := hrun config heof hle
  rw [heval] at hagrees
  exact ⟨r, hr, hagrees.1, hagrees.2.1.trans houtputs⟩

end RegisterScript

end TapeMachine
