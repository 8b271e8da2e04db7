import TapeMachine.Script
import TapeMachine.Proofs.Routine

/-!
# The code that a script generates

Every generator call adds the code of a routine, written for a head that stands at the generator's
cursor. Which routine it is depends on the call, and for loops of a given number of rounds on the
cursor and on the number of slots held when the call is made.

* `Script.routine` : what a script is to do; `Script.depth` : the number of slots it leaves held;
* `Script.Plain` : raw code of the script neither moves the head nor holds brackets, and no refusal
  is caught;
* `Generator.Emits g h r d` : from `g` to `h` the code of `r` was added, and `d` slots are held;
* `Script.emits_run` : a plain script that is not refused adds the code of its routine.
-/

namespace TapeMachine

/-- The step that a symbol stands for in raw code, where moves and brackets have no place. -/
def Effect.ofSymbol? : Symbol → Option Effect
  | .increment => some (.raise 1)
  | .decrement => some (.lower 1)
  | .write => some .write
  | .read => some .read
  | _ => none

namespace Action

/-- What a call without a body is to do, where `depth` slots are held before it. -/
def routine (depth : Nat) : Action → Routine
  | moveTo cell => .line [.go cell]
  | moveToAccumulator => .line [.go Layout.accumulator]
  | emit code => .line ((Program.ofText code).symbols.filterMap Effect.ofSymbol?)
  | annotate _ => .done
  | increment n => .line [.raise n]
  | decrement n => .line [.lower n]
  | clear cell => .line [.go cell, .clear]
  | set cell value => .line [.go cell, .clear, .raise value.toNat]
  | setAccumulator value => .line [.go Layout.accumulator, .clear, .raise value.toNat]
  | read => .line [.read]
  | write => .line [.write]
  | readInto cell => .line [.go cell, .read]
  | writeFrom cell => .line [.go cell, .write]
  | push value => .line [.go depth, .clear, .raise value.toNat]
  | pop => .done
  | top => .done
  | copy source target => .line [.go target, .clear] ++
      .countDown source
        (.line [.go Layout.accumulator, .raise 1, .go target, .raise 1])
        (.countDown Layout.accumulator (.line [.go source, .raise 1]) .done)
  | add sum addend => .countDown addend (.line [.go sum, .raise 1]) .done
  | subtract minuend subtrahend => .countDown subtrahend (.line [.go minuend, .lower 1]) .done

def depth (before : Nat) : Action → Nat
  | push _ => before + 1
  | pop => before - 1
  | _ => before

/-- Raw code of the call neither moves the head nor holds brackets. -/
def Plain : Action → Prop
  | emit code => ∀ c ∈ code.toList, c ≠ '<' ∧ c ≠ '>' ∧ c ≠ '[' ∧ c ≠ ']'
  | _ => True

instance : DecidablePred Plain := fun action => by
  cases action with
  | emit code => exact List.decidableBAll _ code.toList
  | _ => exact isTrue trivial

end Action

namespace Block

/-- What a call with a body is to do, where the head is at `cursor` and `depth` slots are held before
it, and `body` is what the body is to do from a cursor and a depth on. -/
def routine (body : Nat → Nat → Routine) (cursor depth : Nat) : Block → Routine
  | countDown cell => .countDown cell (body cell depth) .done
  | countDownAccumulator => .countDown Layout.accumulator (body Layout.accumulator depth) .done
  | repeated n => .line [.go depth, .clear, .raise n.toNat] ++
      .countDown depth (.line [.go cursor] ++ body cursor (depth + 1)) (.line [.go cursor])
  | attempt => body cursor depth

def depth (body : Nat → Nat) (before : Nat) : Block → Nat
  | repeated _ => body (before + 1) - 1
  | _ => body before

end Block

namespace Script

/-- The number of slots held after a script that was not refused. -/
def depth : Script → Nat → Nat
  | done, before => before
  | act action rest, before => rest.depth (action.depth before)
  | block head body rest, before => rest.depth (head.depth body.depth before)

/-- What a script is to do, where the head is at `cursor` and `depth` slots are held before it. -/
def routine : Script → Nat → Nat → Routine
  | done, _, _ => .done
  | act action rest, cursor, depth =>
    let first := action.routine depth
    first ++ rest.routine (first.after cursor) (action.depth depth)
  | block head body rest, cursor, depth =>
    let first := head.routine body.routine cursor depth
    first ++ rest.routine (first.after cursor) (head.depth body.depth depth)

/-- Raw code of the script neither moves the head nor holds brackets, and no refusal is caught. -/
def Plain : Script → Prop := All Action.Plain (· ≠ .attempt)

instance : DecidablePred Plain := decideAll _ _

end Script

/-! ## What the generator's calls add -/

/-- From `g` to `h` the code of a routine was added, and `depth` slots are held in the end. -/
structure Generator.Emits (g h : Generator) (r : Routine) (depth : Nat) : Prop where
  symbols : h.program.symbols = g.program.symbols ++ (r.code g.cursor).symbols
  cursor : h.cursor = r.after g.cursor
  depth : h.depth = depth

theorem symbols_ofText_times (b : Basic) (n : Nat) :
    (Program.ofText (b.symbol.times n)).symbols = (LoopTree.times b n).symbols := by
  simp [Program.ofText]

theorem symbols_ofText_text (s : Symbol) : (Program.ofText s.text).symbols = [s] := by
  simp [Program.ofText, Symbol.text]

theorem symbols_ofText_seek (source target : Nat) :
    (Program.ofText (Cursor.seek source target)).symbols =
      (LoopTree.moves source target).symbols := by
  unfold Cursor.seek LoopTree.moves
  split
  · exact symbols_ofText_times .right _
  · exact symbols_ofText_times .left _

theorem symbols_of_plain {code : String} (h : (Action.emit code).Plain) :
    ∀ s ∈ (Program.ofText code).symbols,
      s ≠ .left ∧ s ≠ .right ∧ s ≠ .loopStart ∧ s ≠ .loopEnd := by
  intro s hs
  obtain ⟨c, hc, hcs⟩ := List.mem_filterMap.mp hs
  obtain rfl := Symbol.char_of_ofChar? hcs
  obtain ⟨hleft, hright, hstart, hend⟩ := h s.char hc
  exact ⟨fun e => hleft (e ▸ rfl), fun e => hright (e ▸ rfl), fun e => hstart (e ▸ rfl),
    fun e => hend (e ▸ rfl)⟩

theorem symbols_ofText_clear :
    (Program.ofText "[-]").symbols = (Effect.clear.code 0).symbols := by
  decide

namespace Generator.Emits

variable {g h k : Generator} {r r' : Routine} {d d' : Nat}

theorem refl (g : Generator) : Emits g g .done g.depth :=
  ⟨(List.append_nil _).symm, rfl, rfl⟩

theorem trans (hg : Emits g h r d) (hh : Emits h k r' d') : Emits g k (r ++ r') d' where
  symbols := by
    rw [hh.symbols, hg.symbols, hg.cursor, Routine.code_append, LoopTree.symbols_append,
      List.append_assoc]
  cursor := by rw [hh.cursor, hg.cursor, Routine.after_append]
  depth := hh.depth

theorem emit (g : Generator) {text : String} {effect : Effect}
    (hcode : (Program.ofText text).symbols = (effect.code g.cursor).symbols)
    (hafter : effect.after g.cursor = g.cursor) :
    Emits g (g.emit text) (.line [effect]) g.depth where
  symbols := by
    rw [program_emit, Program.symbols_append, hcode, Routine.line, Routine.code,
      LoopTree.symbols_append]
    simp [Routine.line, Routine.code, LoopTree.symbols]
  cursor := hafter.symm
  depth := rfl

theorem moveTo (g : Generator) (cell : Nat) :
    Emits g (g.moveTo cell) (.line [.go cell]) g.depth where
  symbols := by
    rw [program_moveTo, Program.symbols_append, symbols_ofText_seek, Routine.line, Routine.code,
      LoopTree.symbols_append]
    simp [Routine.line, Routine.code, LoopTree.symbols, Effect.code]
  cursor := rfl
  depth := rfl

theorem andMove (hg : Emits g h r d) (cell : Nat) :
    Emits g (h.moveTo cell) (r ++ .line [.go cell]) d :=
  hg.depth ▸ hg.trans (moveTo h cell)

theorem raise (g : Generator) (n : Nat) : Emits g (g.increment n) (.line [.raise n]) g.depth :=
  emit g (symbols_ofText_times .increment n) rfl

theorem lower (g : Generator) (n : Nat) : Emits g (g.decrement n) (.line [.lower n]) g.depth :=
  emit g (symbols_ofText_times .decrement n) rfl

theorem read (g : Generator) : Emits g g.read (.line [.read]) g.depth :=
  emit g (symbols_ofText_text .read) rfl

theorem write (g : Generator) : Emits g g.write (.line [.write]) g.depth :=
  emit g (symbols_ofText_text .write) rfl

theorem clear (g : Generator) (cell : Nat) :
    Emits g (g.clear cell) (.line [.go cell, .clear]) g.depth :=
  (moveTo g cell).trans (emit (g.moveTo cell) symbols_ofText_clear rfl)

theorem set (g : Generator) (cell : Nat) (value : UInt8) :
    Emits g (g.set cell value) (.line [.go cell, .clear, .raise value.toNat]) g.depth :=
  (clear g cell).trans (raise (g.clear cell) value.toNat)

theorem symbols_openLoop (g : Generator) (cell : Nat) : (g.openLoop cell).program.symbols =
    g.program.symbols ++ ((LoopTree.moves g.cursor cell).symbols ++ [.loopStart, .decrement]) := by
  have hopen : ((g.moveTo cell).emit Symbol.loopStart.text).program.symbols =
      g.program.symbols ++ (LoopTree.moves g.cursor cell).symbols ++ [.loopStart] := by
    rw [program_emit, program_moveTo, Program.symbols_append, Program.symbols_append,
      symbols_ofText_seek, symbols_ofText_text]
  have htake : (Program.ofText (Symbol.decrement.times 1)).symbols = [.decrement] :=
    symbols_ofText_times .decrement 1
  unfold openLoop decrement
  rw [program_emit, Program.symbols_append, htake]
  refine (congrArg (· ++ [Symbol.decrement]) hopen).trans ?_
  simp

theorem symbols_closeLoop (g : Generator) (cell : Nat) : (g.closeLoop cell).program.symbols =
    g.program.symbols ++ ((LoopTree.moves g.cursor cell).symbols ++ [.loopEnd]) := by
  have hmove : (g.moveTo cell).program.symbols =
      g.program.symbols ++ (LoopTree.moves g.cursor cell).symbols := by
    rw [program_moveTo, Program.symbols_append, symbols_ofText_seek]
  unfold closeLoop
  rw [program_emit, Program.symbols_append, symbols_ofText_text]
  refine (congrArg (· ++ [Symbol.loopEnd]) hmove).trans ?_
  rw [List.append_assoc]

theorem countDown (cell : Nat) (hb : Emits (g.openLoop cell) h r d) :
    Emits g (h.closeLoop cell) (.countDown cell r .done) d where
  symbols := by
    have hcursor : (g.openLoop cell).cursor = cell := rfl
    rw [symbols_closeLoop, hb.symbols, hb.cursor, symbols_openLoop, hcursor]
    simp [Routine.code, LoopTree.symbols, Basic.symbol]
  cursor := rfl
  depth := hb.depth

theorem add (g : Generator) (sum addend : Nat) :
    Emits g (g.add sum addend) (.countDown addend (.line [.go sum, .raise 1]) .done) g.depth :=
  countDown addend ((moveTo (g.openLoop addend) sum).trans (raise _ 1))

theorem subtract (g : Generator) (minuend subtrahend : Nat) :
    Emits g (g.subtract minuend subtrahend)
      (.countDown subtrahend (.line [.go minuend, .lower 1]) .done) g.depth :=
  countDown subtrahend ((moveTo (g.openLoop subtrahend) minuend).trans (lower _ 1))

theorem copy (g : Generator) (source target : Nat) :
    Emits g (g.copy source target) (.line [.go target, .clear] ++
      .countDown source
        (.line [.go Layout.accumulator, .raise 1, .go target, .raise 1])
        (.countDown Layout.accumulator (.line [.go source, .raise 1]) .done)) g.depth := by
  have hfirst := countDown (g := g.clear target) source
    ((((moveTo _ Layout.accumulator).trans (raise _ 1)).trans (moveTo _ target)).trans (raise _ 1))
  have hsecond := countDown (g := (((((g.clear target).openLoop source).moveTo
      Layout.accumulator).increment 1).moveTo target |>.increment 1).closeLoop source)
    Layout.accumulator ((moveTo _ source).trans (raise _ 1))
  exact (clear g target).trans (hfirst.trans hsecond)

/-- Raw code of symbols that stand for steps is the code of these steps. -/
theorem symbols_line_ofSymbol? (ss : List Symbol) (cursor : Nat)
    (h : ∀ s ∈ ss, s ≠ .left ∧ s ≠ .right ∧ s ≠ .loopStart ∧ s ≠ .loopEnd) :
    ((Routine.line (ss.filterMap Effect.ofSymbol?)).code cursor).symbols = ss ∧
      (Routine.line (ss.filterMap Effect.ofSymbol?)).after cursor = cursor := by
  induction ss with
  | nil => exact ⟨rfl, rfl⟩
  | cons s rest ih =>
    obtain ⟨hsymbols, hafter⟩ := ih fun s hs => h s (List.mem_cons_of_mem _ hs)
    obtain ⟨hleft, hright, hstart, hend⟩ := h s List.mem_cons_self
    cases s with
    | left => exact absurd rfl hleft
    | right => exact absurd rfl hright
    | loopStart => exact absurd rfl hstart
    | loopEnd => exact absurd rfl hend
    | _ => exact ⟨congrArg (List.cons _) hsymbols, hafter⟩

theorem raw (g : Generator) (code : String) (h : (Action.emit code).Plain) :
    Emits g (g.emit code) ((Action.emit code).routine g.depth) g.depth := by
  obtain ⟨hcode, hafter⟩ := symbols_line_ofSymbol? (Program.ofText code).symbols g.cursor
    (symbols_of_plain h)
  refine ⟨?_, hafter.symm, rfl⟩
  rw [program_emit, Program.symbols_append, Action.routine, hcode]

theorem annotate (g : Generator) (note : String) : Emits g (g.annotate note) .done g.depth where
  symbols := by
    rw [program_annotate]
    exact (List.append_nil _).symm
  cursor := rfl
  depth := rfl

/-- A slot that is claimed is the first that is not held. -/
theorem push {value : UInt8} {slot : Nat} (hpush : g.push value = .ok (slot, h)) :
    slot = g.depth ∧ Emits g h (.line [.go g.depth, .clear, .raise value.toNat]) (g.depth + 1) := by
  unfold Generator.push Scratch.push at hpush
  by_cases hfree : g.scratch.depth < Layout.scratchSlots
  · rw [if_pos hfree] at hpush
    cases hpush
    obtain ⟨hsymbols, hcursor, hdepth⟩ :=
      set { g with scratch := ⟨g.scratch.depth + 1⟩ } g.scratch.depth value
    exact ⟨rfl, hsymbols, hcursor, hdepth⟩
  · rw [if_neg hfree] at hpush
    cases hpush

theorem pop (hpop : g.pop = .ok h) : Emits g h .done (g.depth - 1) := by
  unfold Generator.pop Scratch.pop at hpop
  cases hdepth : g.scratch.depth with
  | zero =>
    rw [hdepth] at hpop
    cases hpop
  | succ n =>
    rw [hdepth] at hpop
    cases hpop
    refine ⟨(List.append_nil _).symm, rfl, ?_⟩
    show n = g.scratch.depth - 1
    rw [hdepth, Nat.add_sub_cancel]

end Generator.Emits

/-! ## What the calls of a script add -/

namespace Run

theorem exists_of_andThen {r : Run} {next : Generator → Run} {reply : Reply}
    (h : (r.andThen next).outcome = .ok reply) :
    (∃ first, r.outcome = .ok first) ∧ (next r.generator).outcome = .ok reply ∧
      (r.andThen next).generator = (next r.generator).generator := by
  unfold andThen at h ⊢
  cases hr : r.outcome with
  | error e =>
    rw [hr] at h
    cases hr.symm.trans h
  | ok first =>
    rw [hr] at h
    exact ⟨⟨first, rfl⟩, h, rfl⟩

theorem emits_push {g : Generator} {value : UInt8} {reply : Reply}
    (h : (push g value).outcome = .ok reply) :
    g.Emits (push g value).generator (.line [.go g.depth, .clear, .raise value.toNat])
      (g.depth + 1) := by
  unfold push at h ⊢
  split at h
  · next slot g' hpush =>
    exact (Generator.Emits.push hpush).2
  · cases h

theorem emits_pop {g : Generator} {reply : Reply} (h : (pop g).outcome = .ok reply) :
    g.Emits (pop g).generator .done (g.depth - 1) := by
  unfold pop at h ⊢
  split at h
  · next g' hpop =>
    exact .pop hpop
  · cases h

theorem emits_top (g : Generator) : g.Emits (top g).generator .done g.depth := by
  unfold top
  split <;> exact .refl g

end Run

theorem Action.emits_run {action : Action} {g : Generator} {reply : Reply} (ha : action.Plain)
    (h : (action.run g).outcome = .ok reply) :
    g.Emits (action.run g).generator (action.routine g.depth) (action.depth g.depth) := by
  cases action with
  | moveTo cell => exact .moveTo g cell
  | moveToAccumulator => exact .moveTo g Layout.accumulator
  | emit code => exact .raw g code ha
  | annotate note => exact .annotate g note
  | increment n => exact .raise g n
  | decrement n => exact .lower g n
  | clear cell => exact .clear g cell
  | set cell value => exact .set g cell value
  | setAccumulator value => exact .set g Layout.accumulator value
  | read => exact .read g
  | write => exact .write g
  | readInto cell => exact (Generator.Emits.moveTo g cell).trans (.read (g.moveTo cell))
  | writeFrom cell => exact (Generator.Emits.moveTo g cell).trans (.write (g.moveTo cell))
  | push value => exact Run.emits_push h
  | pop => exact Run.emits_pop h
  | top => exact Run.emits_top g
  | copy source target => exact .copy g source target
  | add sum addend => exact .add g sum addend
  | subtract minuend subtrahend => exact .subtract g minuend subtrahend

namespace Block

/-- The calls of a body, wherever they are performed, add the code of `routine`. -/
def BodyEmits (body : Generator → Run) (routine : Nat → Nat → Routine) (depth : Nat → Nat) : Prop :=
  ∀ g reply, (body g).outcome = .ok reply →
    g.Emits (body g).generator (routine g.cursor g.depth) (depth g.depth)

variable {body : Generator → Run} {routine : Nat → Nat → Routine} {depth : Nat → Nat}

theorem BodyEmits.after {g h : Generator} {r : Routine} {d : Nat} {reply : Reply}
    (hb : BodyEmits body routine depth) (hg : g.Emits h r d) (hok : (body h).outcome = .ok reply) :
    g.Emits (body h).generator (r ++ routine (r.after g.cursor) d) (depth d) := by
  have hbody := hb h reply hok
  rw [hg.cursor, hg.depth] at hbody
  exact hg.trans hbody

theorem emits_runCountDown {cell : Nat} {g : Generator} {reply : Reply}
    (hb : BodyEmits body routine depth) (h : (runCountDown cell body g).outcome = .ok reply) :
    g.Emits (runCountDown cell body g).generator (.countDown cell (routine cell g.depth) .done)
      (depth g.depth) := by
  obtain ⟨⟨first, hfirst⟩, -, hg⟩ := Run.exists_of_andThen h
  rw [runCountDown, hg]
  exact .countDown cell (hb (g.openLoop cell) first hfirst)

theorem emits_runRepeated {n : UInt8} {g : Generator} {reply : Reply}
    (hb : BodyEmits body routine depth) (h : (runRepeated n body g).outcome = .ok reply) :
    g.Emits (runRepeated n body g).generator
      ((repeated n).routine routine g.cursor g.depth) ((repeated n).depth depth g.depth) := by
  unfold runRepeated at h ⊢
  cases hpush : g.push n with
  | error e =>
    simp only [hpush] at h
    cases h
  | ok pushed =>
    obtain ⟨slot, g'⟩ := pushed
    simp only [hpush] at h ⊢
    obtain ⟨rfl, hslot⟩ := Generator.Emits.push hpush
    obtain ⟨⟨popped, hpopped⟩, -, hg⟩ := Run.exists_of_andThen h
    obtain ⟨⟨looped, hlooped⟩, hpop, hpg⟩ := Run.exists_of_andThen hpopped
    -- the body is performed once, from the recorded cell and with one more slot held
    have hround : BodyEmits (fun k => body (k.moveTo g.cursor))
        (fun _ d => .line [.go g.cursor] ++ routine g.cursor d) depth := by
      intro k reply hk
      exact hb.after (.moveTo k g.cursor) hk
    have hloop := emits_runCountDown hround hlooped
    rw [hslot.depth] at hloop
    have hrelease : BodyEmits Run.pop (fun _ _ => .done) (· - 1) := fun _ _ => Run.emits_pop
    rw [hg, hpg]
    exact (hrelease.after (hslot.trans hloop) hpop).andMove g.cursor

theorem emits_run {head : Block} {g : Generator} {reply : Reply} (hb : BodyEmits body routine depth)
    (hhead : head ≠ .attempt) (h : (head.run body g).outcome = .ok reply) :
    g.Emits (head.run body g).generator (head.routine routine g.cursor g.depth)
      (head.depth depth g.depth) := by
  cases head with
  | countDown cell => exact emits_runCountDown hb h
  | countDownAccumulator => exact emits_runCountDown hb h
  | repeated n => exact emits_runRepeated hb h
  | attempt => exact absurd rfl hhead

end Block

/-- A plain script that is not refused anything adds the code of its routine. -/
theorem Script.emits_run (s : Script) (hs : s.Plain) : Block.BodyEmits s.run s.routine s.depth := by
  induction s with
  | done =>
    intro g _ _
    exact .refl g
  | act action rest ih =>
    intro g reply h
    obtain ⟨⟨first, hfirst⟩, hrest, hg⟩ := Run.exists_of_andThen h
    rw [run, hg]
    exact (ih hs.2).after (Action.emits_run hs.1 hfirst) hrest
  | block head body rest ihb ihr =>
    intro g reply h
    obtain ⟨⟨first, hfirst⟩, hrest, hg⟩ := Run.exists_of_andThen h
    rw [run, hg]
    exact (ihr hs.2.2).after (Block.emits_run (ihb hs.2.1) hs.1 hfirst) hrest

end TapeMachine
