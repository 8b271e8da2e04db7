import TapeMachine.Proofs.Chronicle

/-!
# The plan of a generation

All that a generator does is made of strokes: it moves, emits a piece of code, writes a comment,
changes the indentation, or calls the scratch stack. Of which strokes a script is made is known before
it is performed, from the cell at which the generator stands and the number of slots that it holds. A
refusal does not change this plan; it ends it.

* `Stroke` : the least that a generator does; `Generator.drawAll` : strokes one after the other;
* `Script.plan` : the strokes of a script;
* `Generator.perform` : strokes one after the other, up to a call of the stack that is refused;
* `Script.ended_run` : a script in which no refusal is caught performs its plan;
* `Script.stops_at_refusal` : a refusal leaves the generator as it was when the call was made.
-/

namespace TapeMachine

/-- The least that a generator does at a time. -/
inductive Stroke where
  | moveTo (cell : Nat)
  | emit (code : String)
  | annotate (note : String)
  | indentMore
  | indentLess
  /-- A call of the scratch stack. -/
  | request (call : Scratch.Call)
  deriving DecidableEq, Repr

namespace Generator

/-- Does a stroke. A call that the stack refuses changes nothing. -/
def draw (g : Generator) : Stroke → Generator
  | .moveTo cell => g.moveTo cell
  | .emit code => g.emit code
  | .annotate note => g.annotate note
  | .indentMore => { g with listing := g.listing.indentMore }
  | .indentLess => { g with listing := g.listing.indentLess }
  | .request call => { g with scratch := (g.scratch.answer call).stack }

def drawAll (g : Generator) (ss : List Stroke) : Generator := ss.foldl draw g

/-- Why a stroke is refused, if it is. -/
def refusal? (g : Generator) : Stroke → Option ScratchError
  | .request call =>
    match (g.scratch.answer call).result with
    | .ok _ => none
    | .error e => some e
  | _ => none

/-- Does strokes one after the other, up to one that is refused. -/
def perform (g : Generator) : List Stroke → Generator × Except ScratchError Unit
  | [] => (g, .ok ())
  | s :: rest =>
    match g.refusal? s with
    | some e => (g, .error e)
    | none => (g.draw s).perform rest

end Generator

/-! ## Plans -/

namespace Stroke

def clear (cell : Nat) : List Stroke := [.moveTo cell, .emit "[-]"]

def set (cell : Nat) (value : UInt8) : List Stroke :=
  clear cell ++ [.emit (Symbol.increment.times value.toNat)]

def openLoop (cell : Nat) : List Stroke :=
  [.moveTo cell, .emit Symbol.loopStart.text, .indentMore, .emit (Symbol.decrement.times 1)]

def closeLoop (cell : Nat) : List Stroke :=
  [.moveTo cell, .indentLess, .emit Symbol.loopEnd.text]

def countDown (cell : Nat) (body : List Stroke) : List Stroke :=
  openLoop cell ++ (body ++ closeLoop cell)

/-- Counts a cell up or down by one. -/
def count (cell : Nat) (s : Symbol) : List Stroke := [.moveTo cell, .emit (s.times 1)]

end Stroke

/-- What a plan depends on: where the head is, and how many slots are held. -/
structure Position where
  cursor : Nat
  depth : Nat
  deriving DecidableEq, Repr

namespace Position

def after (pos : Position) : Stroke → Position
  | .moveTo cell => { pos with cursor := cell }
  | .request .push => { pos with depth := pos.depth + 1 }
  | .request .pop => { pos with depth := pos.depth - 1 }
  | _ => pos

def along (pos : Position) (ss : List Stroke) : Position := ss.foldl after pos

end Position

def Generator.position (g : Generator) : Position := ⟨g.cursor, g.depth⟩

def Action.plan (pos : Position) : Action → List Stroke
  | moveTo cell => [.moveTo cell]
  | moveToAccumulator => [.moveTo Layout.accumulator]
  | emit code => [.emit code]
  | annotate note => [.annotate note]
  | increment n => [.emit (Symbol.increment.times n)]
  | decrement n => [.emit (Symbol.decrement.times n)]
  | clear cell => Stroke.clear cell
  | set cell value => Stroke.set cell value
  | setAccumulator value => Stroke.set Layout.accumulator value
  | read => [.emit Symbol.read.text]
  | write => [.emit Symbol.write.text]
  | readInto cell => [.moveTo cell, .emit Symbol.read.text]
  | writeFrom cell => [.moveTo cell, .emit Symbol.write.text]
  | push value => .request .push :: Stroke.set pos.depth value
  | pop => [.request .pop]
  | top => [.request .top]
  | copy source target => Stroke.clear target ++
      Stroke.countDown source (Stroke.count Layout.accumulator .increment ++
        Stroke.count target .increment) ++
      Stroke.countDown Layout.accumulator (Stroke.count source .increment)
  | add sum addend => Stroke.countDown addend (Stroke.count sum .increment)
  | subtract minuend subtrahend => Stroke.countDown subtrahend (Stroke.count minuend .decrement)

def Block.plan (body : Position → List Stroke) (pos : Position) : Block → List Stroke
  | countDown cell => Stroke.countDown cell (body { pos with cursor := cell })
  | countDownAccumulator =>
    Stroke.countDown Layout.accumulator (body { pos with cursor := Layout.accumulator })
  | repeated n =>
    .request .push :: (Stroke.set pos.depth n ++
      (Stroke.countDown pos.depth
          (.moveTo pos.cursor :: body { pos with depth := pos.depth + 1 }) ++
        [.request .pop, .moveTo pos.cursor]))
  | attempt => body pos

namespace Script

/-- The strokes of a script, the body of every loop once. -/
def plan : Script → Position → List Stroke
  | done, _ => []
  | act action rest, pos =>
    let first := action.plan pos
    first ++ rest.plan (pos.along first)
  | block head body rest, pos =>
    let first := head.plan body.plan pos
    first ++ rest.plan (pos.along first)

/-- No refusal is caught. -/
def Propagates : Script → Prop := All (fun _ => True) (· ≠ .attempt)

instance : DecidablePred Propagates := decideAll _ _

end Script

/-! ## Performing strokes -/

def proceed (x : Generator × Except ScratchError Unit)
    (next : Generator → Generator × Except ScratchError Unit) :
    Generator × Except ScratchError Unit :=
  match x.2 with
  | .ok _ => next x.1
  | .error _ => x

theorem proceed_assoc (x : Generator × Except ScratchError Unit)
    (f f' : Generator → Generator × Except ScratchError Unit) :
    proceed (proceed x f) f' = proceed x fun g => proceed (f g) f' := by
  obtain ⟨g, e | u⟩ := x <;> rfl

theorem proceed_congr {x : Generator × Except ScratchError Unit}
    {f f' : Generator → Generator × Except ScratchError Unit}
    (h : ∀ g, x = (g, .ok ()) → f g = f' g) : proceed x f = proceed x f' := by
  obtain ⟨g, e | u⟩ := x
  · rfl
  · exact h g rfl

namespace Scratch

/-- A call that is served changes the number of slots held as it says. -/
theorem depth_answer {s : Scratch} {call : Call} {reply : Option Nat}
    (h : (s.answer call).result = .ok reply) (cursor : Nat) :
    Position.mk cursor (s.answer call).stack.depth =
      Position.after ⟨cursor, s.depth⟩ (.request call) := by
  obtain ⟨depth⟩ := s
  cases call with
  | push =>
    by_cases hfree : depth < Layout.scratchSlots
    · simp [answer, push, hfree, Position.after]
    · simp [answer, push, hfree, refuse] at h
  | pop =>
    cases depth with
    | zero => cases h
    | succ depth => rfl
  | top =>
    cases depth with
    | zero => cases h
    | succ depth => rfl

end Scratch

namespace Generator

variable {g h : Generator} {e : ScratchError} {ss : List Stroke}

theorem perform_append (g : Generator) (xs ys : List Stroke) :
    g.perform (xs ++ ys) = proceed (g.perform xs) fun h => h.perform ys := by
  induction xs generalizing g with
  | nil => rfl
  | cons s xs ih =>
    simp only [List.cons_append, perform]
    cases g.refusal? s with
    | none => exact ih (g.draw s)
    | some e => rfl

theorem position_draw {s : Stroke} (hs : g.refusal? s = none) :
    (g.draw s).position = g.position.after s := by
  cases s with
  | request call =>
    simp only [refusal?] at hs
    split at hs
    · next hreply => exact Scratch.depth_answer hreply g.cursor
    · cases hs
  | _ => rfl

theorem of_perform_ok (hp : g.perform ss = (h, .ok ())) :
    h = g.drawAll ss ∧ h.position = g.position.along ss := by
  induction ss generalizing g with
  | nil =>
    cases hp
    exact ⟨rfl, rfl⟩
  | cons s rest ih =>
    simp only [perform] at hp
    cases hs : g.refusal? s with
    | some e =>
      rw [hs] at hp
      cases hp
    | none =>
      rw [hs] at hp
      obtain ⟨hdrawn, hposition⟩ := ih hp
      rw [position_draw hs] at hposition
      exact ⟨hdrawn, hposition⟩

/-- Strokes are done up to the first that is refused, which is a call of the stack. -/
theorem of_perform_error (hp : g.perform ss = (h, .error e)) :
    ∃ past call future, ss = past ++ .request call :: future ∧ h = g.drawAll past ∧
      h.refusal? (.request call) = some e ∧
        ∀ xs s ys, past = xs ++ s :: ys → (g.drawAll xs).refusal? s = none := by
  induction ss generalizing g with
  | nil => cases hp
  | cons s rest ih =>
    simp only [perform] at hp
    cases hs : g.refusal? s with
    | some e' =>
      rw [hs] at hp
      cases hp
      cases s with
      | request call => exact ⟨[], call, rest, rfl, rfl, hs, by simp⟩
      | _ => cases hs
    | none =>
      rw [hs] at hp
      obtain ⟨past, call, future, rfl, hdrawn, hrefused, hserved⟩ := ih hp
      refine ⟨s :: past, call, future, rfl, hdrawn, hrefused, ?_⟩
      intro xs s' ys hsplit
      cases xs with
      | nil =>
        cases hsplit
        exact hs
      | cons x xs =>
        cases hsplit
        exact hserved xs s' ys rfl

theorem push_cases (g : Generator) (value : UInt8) :
    (g.refusal? (.request .push) = none ∧
      g.push value = .ok (g.depth, (g.draw (.request .push)).set g.depth value)) ∨
    ∃ e, g.refusal? (.request .push) = some e ∧ g.push value = .error e := by
  obtain ⟨listing, cursor, ⟨depth⟩⟩ := g
  by_cases hfree : depth < Layout.scratchSlots
  · left
    simp [refusal?, Scratch.answer, Generator.push, Scratch.push, hfree, draw, Generator.depth]
  · right
    simp [refusal?, Scratch.answer, Generator.push, Scratch.push, hfree, Scratch.refuse]

theorem eq_of_push {g h : Generator} {value : UInt8} {slot : Nat} (hpush : g.push value = .ok (slot, h)) :
    h = (g.draw (.request .push)).set g.depth value := by
  rcases g.push_cases value with ⟨-, hserved⟩ | ⟨e, -, hrefused⟩
  · cases hpush.symm.trans hserved
    rfl
  · cases hpush.symm.trans hrefused

theorem pop_cases (g : Generator) :
    (g.refusal? (.request .pop) = none ∧ g.pop = .ok (g.draw (.request .pop))) ∨
    ∃ e, g.refusal? (.request .pop) = some e ∧ g.pop = .error e := by
  obtain ⟨listing, cursor, ⟨depth⟩⟩ := g
  cases depth with
  | zero => exact .inr ⟨.underflow, rfl, rfl⟩
  | succ depth => exact .inl ⟨rfl, rfl⟩

theorem eq_of_pop {g h : Generator} (hpop : g.pop = .ok h) : h = g.draw (.request .pop) := by
  rcases g.pop_cases with ⟨-, hserved⟩ | ⟨e, -, hrefused⟩
  · cases hpop.symm.trans hserved
    rfl
  · cases hpop.symm.trans hrefused

end Generator

/-! ## Runs perform plans -/

namespace Run

/-- The generator that a run leaves, and whether something was refused. -/
def ended (r : Run) : Generator × Except ScratchError Unit :=
  (r.generator, r.outcome.map fun _ => ())

theorem ended_andThen (r : Run) (next : Generator → Run) :
    (r.andThen next).ended = proceed r.ended fun g => (next g).ended := by
  unfold andThen ended proceed
  cases hr : r.outcome with
  | error e =>
    simp only [hr]
    rfl
  | ok reply => rfl

theorem ended_push (g : Generator) (value : UInt8) :
    (push g value).ended = g.perform (.request .push :: Stroke.set g.depth value) := by
  rw [Generator.perform]
  rcases g.push_cases value with ⟨hserved, hpush⟩ | ⟨e, hrefused, hpush⟩
  · rw [hserved, push, hpush]
    rfl
  · rw [hrefused, push, hpush]
    rfl

theorem ended_pop (g : Generator) : (pop g).ended = g.perform [.request .pop] := by
  rw [Generator.perform]
  rcases g.pop_cases with ⟨hserved, hpop⟩ | ⟨e, hrefused, hpop⟩
  · rw [hserved, pop, hpop]
    rfl
  · rw [hrefused, pop, hpop]
    rfl

theorem ended_top (g : Generator) : (top g).ended = g.perform [.request .top] := by
  obtain ⟨listing, cursor, ⟨depth⟩⟩ := g
  cases depth <;> rfl

theorem ended_recorded (r : Run) (call : Call) : (r.recorded call).ended = r.ended := rfl

theorem ended_after (r : Run) (events : List BuildEvent) : (r.after events).ended = r.ended := rfl

end Run

theorem Action.ended_run (action : Action) (g : Generator) :
    (action.run g).ended = g.perform (action.plan g.position) := by
  cases action with
  | push value => exact Run.ended_push g value
  | pop => exact Run.ended_pop g
  | top => exact Run.ended_top g
  | _ => rfl

namespace Block

variable {body : Generator → Run} {plan : Position → List Stroke}

theorem ended_runCountDown (hb : ∀ g, (body g).ended = g.perform (plan g.position)) (cell : Nat)
    (g : Generator) : (runCountDown cell body g).ended =
      g.perform (Stroke.countDown cell (plan { g.position with cursor := cell })) := by
  rw [runCountDown, Run.ended_andThen, hb, Stroke.countDown, Generator.perform_append]
  show _ = Generator.perform (g.openLoop cell) _
  rw [Generator.perform_append]
  rfl

theorem ended_runRepeated (hb : ∀ g, (body g).ended = g.perform (plan g.position)) (n : UInt8)
    (g : Generator) :
    (runRepeated n body g).ended = g.perform ((repeated n).plan plan g.position) := by
  unfold runRepeated
  rw [Block.plan, Generator.perform]
  rcases g.push_cases n with ⟨hserved, hpush⟩ | ⟨e, hrefused, hpush⟩
  · simp only [hserved, hpush]
    generalize hheld : (g.draw (.request .push)).set g.depth n = held
    have hclaim : (g.draw (.request .push)).perform (Stroke.set g.depth n) = (held, .ok ()) := by
      rw [← hheld]
      rfl
    have hdepth : held.depth = g.depth + 1 := by
      rw [← hheld]
      exact congrArg Position.depth (Generator.position_draw hserved)
    -- the body is performed once, from the recorded cell and with one more slot held
    have hround (k : Generator) : (body (k.moveTo g.cursor)).ended =
        k.perform (.moveTo g.cursor :: plan { k.position with cursor := g.cursor }) :=
      hb (k.moveTo g.cursor)
    have hloop := @ended_runCountDown (fun k => body (k.moveTo g.cursor))
      (fun pos => .moveTo g.cursor :: plan { pos with cursor := g.cursor }) hround g.depth held
    have hrelease (k : Generator) : k.perform [.request .pop, .moveTo g.cursor] =
        proceed (Run.pop k).ended fun k => (k.moveTo g.cursor, .ok ()) := by
      rw [Run.ended_pop]
      exact k.perform_append [.request .pop] [.moveTo g.cursor]
    rw [Run.ended_andThen, Run.ended_andThen, Run.ended_after, hloop, proceed_assoc]
    show _ = (g.draw (.request .push)).perform (Stroke.set g.depth n ++ _)
    rw [Generator.perform_append, hclaim]
    show _ = held.perform _
    rw [Generator.perform_append]
    simp only [hrelease, Generator.position, hdepth]
    rfl
  · simp only [hrefused, hpush]
    rfl

theorem ended_run (hb : ∀ g, (body g).ended = g.perform (plan g.position)) {head : Block}
    (hhead : head ≠ .attempt) (g : Generator) :
    (head.run body g).ended = g.perform (head.plan plan g.position) := by
  cases head with
  | countDown cell => exact ended_runCountDown hb cell g
  | countDownAccumulator => exact ended_runCountDown hb Layout.accumulator g
  | repeated n => exact ended_runRepeated hb n g
  | attempt => exact absurd rfl hhead

end Block

namespace Script

/-- A script in which no refusal is caught performs its plan, up to where something is refused. -/
theorem ended_run {s : Script} (hs : s.Propagates) : ∀ g : Generator,
    (s.run g).ended = g.perform (s.plan g.position) := by
  induction s with
  | done =>
    intro g
    rfl
  | act action rest ih =>
    intro g
    rw [run, plan, Run.ended_andThen, Run.ended_recorded, Action.ended_run, Generator.perform_append]
    refine proceed_congr fun h hh => ?_
    rw [ih hs.2, (Generator.of_perform_ok hh).2]
  | block head body rest ihb ihr =>
    intro g
    rw [run, plan, Run.ended_andThen, Run.ended_recorded, Block.ended_run (ihb hs.2.1) hs.1,
      Generator.perform_append]
    refine proceed_congr fun h hh => ?_
    rw [ihr hs.2.2, (Generator.of_perform_ok hh).2]

theorem perform_of_outcome {s : Script} (hs : s.Propagates) {g : Generator}
    {x : Except ScratchError Reply} (h : (s.run g).outcome = x) :
    g.perform (s.plan g.position) = ((s.run g).generator, x.map fun _ => ()) := by
  rw [← ended_run hs, Run.ended, h]

end Script

/-! ## Refusals in the journal -/

namespace Run

/-- Where a call was refused something, so was the whole, and nothing was done since. -/
def Forwards (r : Run) : Prop :=
  ∀ entry ∈ r.journal, ∀ e, entry.outcome = .error e → r.outcome = .error e ∧ entry.after = r.generator

variable {r : Run} {next : Generator → Run}

theorem Forwards.of_nil (h : r.journal = []) : r.Forwards := by
  intro entry hentry
  rw [h] at hentry
  cases hentry

theorem Forwards.recorded (hr : r.Forwards) (call : Call) : (r.recorded call).Forwards := by
  intro entry hentry e he
  rcases List.mem_append.mp hentry with hbefore | hlast
  · exact hr entry hbefore e he
  · obtain rfl := List.mem_singleton.mp hlast
    exact ⟨he, rfl⟩

theorem Forwards.andThen (hr : r.Forwards) (hnext : ∀ g, (next g).Forwards) :
    (r.andThen next).Forwards := by
  unfold Run.andThen
  cases hok : r.outcome with
  | error e => exact hr
  | ok reply =>
    intro entry hentry e he
    rcases List.mem_append.mp hentry with hfirst | hsecond
    · -- what has come to its end was refused nothing
      cases hok.symm.trans (hr entry hfirst e he).1
    · exact hnext r.generator entry hsecond e he

end Run

theorem Action.forwards_run (action : Action) (g : Generator) : (action.run g).Forwards :=
  .of_nil (action.journal_run g)

namespace Block

variable {body : Generator → Run}

theorem forwards_run (hb : ∀ g, (body g).Forwards) {head : Block} (hhead : head ≠ .attempt)
    (g : Generator) : (head.run body g).Forwards := by
  have hloop (cell : Nat) (body : Generator → Run) (hb : ∀ g, (body g).Forwards) (g : Generator) :
      (runCountDown cell body g).Forwards := (hb _).andThen fun _ => .of_nil rfl
  have hpop (k : Generator) : (Run.pop k).Forwards := Action.pop.forwards_run k
  cases head with
  | countDown cell => exact hloop cell body hb g
  | countDownAccumulator => exact hloop Layout.accumulator body hb g
  | repeated n =>
    simp only [run, runRepeated]
    cases g.push n with
    | error e => exact .of_nil rfl
    | ok pushed =>
      refine Run.Forwards.andThen (Run.Forwards.andThen ?_ hpop) fun _ => .of_nil rfl
      exact hloop pushed.1 _ (fun k => hb (k.moveTo g.cursor)) pushed.2
  | attempt => exact absurd rfl hhead

end Block

theorem Script.forwards_run {s : Script} (hs : s.Propagates) : ∀ g : Generator,
    (s.run g).Forwards := by
  induction s with
  | done => exact fun _ => .of_nil rfl
  | act action rest ih =>
    intro g
    exact ((action.forwards_run g).recorded (.act action)).andThen (ih hs.2)
  | block head body rest ihb ihr =>
    intro g
    exact ((Block.forwards_run (ihb hs.2.1) hs.1 g).recorded (.block head)).andThen (ihr hs.2.2)

/-! ## Refusals -/

namespace Run

variable {g : Generator} {e : ScratchError}

theorem generator_push_of_error {value : UInt8} (h : (push g value).outcome = .error e) :
    (push g value).generator = g := by
  unfold push at h ⊢
  split at h
  · cases h
  · rfl

theorem generator_pop_of_error (h : (pop g).outcome = .error e) : (pop g).generator = g := by
  unfold pop at h ⊢
  split at h
  · cases h
  · rfl

theorem generator_top (g : Generator) : (top g).generator = g := by
  unfold top
  split <;> rfl

end Run

/-- A call without a body that is refused changes nothing. -/
theorem Action.generator_of_error {action : Action} {g : Generator} {e : ScratchError}
    (h : (action.run g).outcome = .error e) : (action.run g).generator = g := by
  cases action with
  | push value => exact Run.generator_push_of_error h
  | pop => exact Run.generator_pop_of_error h
  | top => exact Run.generator_top g
  | _ => cases h

namespace Block

variable {body : Generator → Run} {g h : Generator} {n : UInt8} {e : ScratchError}

theorem runRepeated_of_push_error (hpush : g.push n = .error e) :
    runRepeated n body g = .refused g e := by
  simp only [runRepeated, hpush]

/-- A loop whose slot cannot be released any more is closed, and nothing is done behind it. -/
theorem runRepeated_of_pop_error {slot : Nat} {reply : Reply} (hpush : g.push n = .ok (slot, h))
    (hloop : (runCountDown slot (fun k => body (k.moveTo g.cursor)) h).outcome = .ok reply)
    (hpop : (runCountDown slot (fun k => body (k.moveTo g.cursor)) h).generator.pop = .error e) :
    (runRepeated n body g).outcome = .error e ∧ (runRepeated n body g).generator =
      (runCountDown slot (fun k => body (k.moveTo g.cursor)) h).generator := by
  simp only [runRepeated, hpush]
  generalize runCountDown slot (fun k => body (k.moveTo g.cursor)) h = loop at hloop hpop
  have hrelease : Run.pop loop.generator = .refused loop.generator e := by
    simp only [Run.pop, hpop]
  simp [Run.andThen, Run.after, hloop, hrelease, Run.refused]

end Block

namespace Script

/-- A generation that is refused something stops dead: the generator is left as it was when the stack
refused the call, and all loops around the call end with the same error. -/
theorem stops_at_refusal (s : Script) (hs : s.Propagates) (g : Generator) :
    (∀ e, (s.run g).outcome = .error e →
      (∃ past call future, s.plan g.position = past ++ .request call :: future ∧
        (∀ xs x ys, past = xs ++ x :: ys → (g.drawAll xs).refusal? x = none) ∧
        (g.drawAll past).refusal? (.request call) = some e ∧
        (s.run g).generator = g.drawAll past) ∧
      ∀ entry ∈ (s.run g).journal, ∀ e', entry.outcome = .error e' →
        e' = e ∧ entry.after = (s.run g).generator) ∧
    (∀ reply, (s.run g).outcome = .ok reply →
      (s.run g).generator = g.drawAll (s.plan g.position)) ∧
    (∀ (action : Action) e, (action.run g).outcome = .error e → (action.run g).generator = g) ∧
    (∀ n (body : Script), let loop := (Block.repeated n).run body.run g
      (∀ e, g.push n = .error e → loop.outcome = .error e ∧ loop.generator = g) ∧
      ∀ slot h, g.push n = .ok (slot, h) →
        let rounds := Block.runCountDown slot (fun k => body.run (k.moveTo g.cursor)) h
        ∀ reply e, rounds.outcome = .ok reply → rounds.generator.pop = .error e →
          loop.outcome = .error e ∧ loop.generator = rounds.generator) ∧
    ∀ e, (s.run {}).outcome = .error e → s.generate = .error e := by
  refine ⟨?_, ?_, ?_, ?_, ?_⟩
  · intro e he
    obtain ⟨past, call, future, hplan, hdrawn, hrefused, hserved⟩ :=
      Generator.of_perform_error (perform_of_outcome hs he)
    refine ⟨⟨past, call, future, hplan, hserved, hdrawn ▸ hrefused, hdrawn⟩, ?_⟩
    intro entry hentry e' he'
    obtain ⟨houtcome, hafter⟩ := forwards_run hs g entry hentry e' he'
    cases he.symm.trans houtcome
    exact ⟨rfl, hafter⟩
  · intro reply hok
    exact (Generator.of_perform_ok (perform_of_outcome hs hok)).1
  · intro action e
    exact Action.generator_of_error
  · intro n body loop
    constructor
    · intro e hpush
      have hloop : loop = .refused g e := Block.runRepeated_of_push_error hpush
      rw [hloop]
      exact ⟨rfl, rfl⟩
    · intro slot h hpush rounds reply e hrounds hpop
      exact Block.runRepeated_of_pop_error hpush hrounds hpop
  · intro e he
    rw [generate, he]

/-- The body of a loop releases the slots of all loops around it, so that the release of the loop's own
slot is refused. The loop was closed before, and the loop around it is not closed any more. -/
theorem stops_at_refusal_release :
    let s : Script := .block (.countDown 5)
      (.block (.repeated 2) (.act (.add 5 6) (.act .pop .done)) (.act (.set 7 1) .done)) .done
    s.Propagates ∧ (s.run {}).outcome = .error .underflow ∧
      (∃ past call future, s.plan ⟨0, 0⟩ = past ++ .request call :: future ∧
        (s.run {}).generator = Generator.drawAll {} past) ∧
      s.generate = .error .underflow := by
  intro s
  have hs : s.Propagates := by decide
  have hrefused : (s.run {}).outcome = .error .underflow := rfl
  obtain ⟨hstop, -, -, -, hgenerate⟩ := stops_at_refusal s hs {}
  obtain ⟨⟨past, call, future, hplan, -, -, hdrawn⟩, -⟩ := hstop .underflow hrefused
  exact ⟨hs, hrefused, ⟨past, call, future, hplan, hdrawn⟩, hgenerate .underflow hrefused⟩

end Script

end TapeMachine
