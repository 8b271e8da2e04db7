import TapeMachine.Generator

/-!
# Scripts

A script is a finite tree of generator calls: calls that stand alone (`Action`) and calls with a
body (`Block`). `Script.run` performs it on a generator. The calls of a body are performed once,
when the code is generated; how often they take effect is for the generated loop to decide.

A call that is refused ends the list it stands in, and every block around it ends with the same
error and as it is, without closing its loop or releasing its slot, up to an `attempt`, which goes
on as if nothing had happened.

A run gives the generator after it, what was reported, and a journal: for every call, in the order
in which they ended, how it ended and the generator at that moment.
-/

namespace TapeMachine

/-- A generator call without a body. -/
inductive Action where
  | moveTo (cell : Nat)
  | moveToAccumulator
  | emit (code : String)
  | annotate (note : String)
  | increment (n : Nat)
  | decrement (n : Nat)
  | clear (cell : Nat)
  | set (cell : Nat) (value : UInt8)
  | setAccumulator (value : UInt8)
  | read
  | write
  | readInto (cell : Nat)
  | writeFrom (cell : Nat)
  | push (value : UInt8)
  | pop
  | top
  | copy (source target : Nat)
  | add (sum addend : Nat)
  | subtract (minuend subtrahend : Nat)
  deriving DecidableEq, Repr

/-- A generator call with a body. -/
inductive Block where
  /-- The body runs as often as the cell says, and the cell is counted down to zero. -/
  | countDown (cell : Nat)
  | countDownAccumulator
  /-- The body runs `n` times, each time from the cell at which the head stood before. A scratch
  slot is held as the counter. -/
  | repeated (n : UInt8)
  /-- A refusal inside the body ends the body only. -/
  | attempt
  deriving DecidableEq, Repr

/-- A list of calls, where blocks hold such lists themselves. -/
inductive Script where
  | done
  | act (action : Action) (rest : Script)
  | block (head : Block) (body rest : Script)
  deriving DecidableEq, Repr

/-- What the generator reports. -/
inductive BuildEvent where
  | scratch (event : ScratchEvent)
  /-- A loop of `n` rounds counts in `slot`; its body starts at `origin`. -/
  | repeating (n : UInt8) (slot origin : Nat)
  deriving DecidableEq, Repr

def BuildEvent.record : BuildEvent → Log.Record
  | scratch event => event.record
  | repeating n slot origin =>
    { level := .debug, target := "tapegen_codegen::generator", message := "bounded repeat"
      fields := [("n", toString n), ("slot", toString slot), ("origin", toString origin)] }

/-- A call as it is named in a journal. -/
inductive Call where
  | act (action : Action)
  | block (head : Block)
  deriving DecidableEq, Repr

/-- What a call that was not refused answers. -/
inductive Reply where
  | done
  /-- The scratch slot that was claimed or looked at. -/
  | slot (cell : Nat)
  /-- The body of an attempt was refused something. -/
  | caught
  deriving DecidableEq, Repr

/-- A call that has ended. -/
structure Entry where
  call : Call
  outcome : Except ScratchError Reply
  /-- The generator at that moment. -/
  after : Generator

/-- What a script, or a part of one, did. -/
structure Run where
  generator : Generator
  outcome : Except ScratchError Reply := .ok .done
  events : List BuildEvent := []
  journal : List Entry := []

namespace Run

/-- Goes on with `next`, unless something was refused. -/
def andThen (r : Run) (next : Generator → Run) : Run :=
  match r.outcome with
  | .error _ => r
  | .ok _ =>
    let s := next r.generator
    { s with events := r.events ++ s.events, journal := r.journal ++ s.journal }

def after (r : Run) (events : List BuildEvent) : Run := { r with events := events ++ r.events }

def recorded (r : Run) (call : Call) : Run :=
  { r with journal := r.journal ++ [⟨call, r.outcome, r.generator⟩] }

/-- Goes on as if nothing had been refused. -/
def recover (r : Run) : Run :=
  match r.outcome with
  | .ok _ => { r with outcome := .ok .done }
  | .error _ => { r with outcome := .ok .caught }

/-- A call was refused; the generator is as it was. -/
def refused (g : Generator) (e : ScratchError) : Run :=
  { generator := g, outcome := .error e, events := [.scratch (.refused e)] }

def push (g : Generator) (value : UInt8) : Run :=
  match g.push value with
  | .ok (slot, g) =>
    { generator := g, outcome := .ok (.slot slot), events := [.scratch (.pushed slot g.depth)] }
  | .error e => refused g e

def pop (g : Generator) : Run :=
  match g.pop with
  | .ok g => { generator := g, events := [.scratch (.popped g.depth)] }
  | .error e => refused g e

def top (g : Generator) : Run :=
  match g.top with
  | .ok slot => { generator := g, outcome := .ok (.slot slot) }
  | .error e => refused g e

end Run

def Action.run (g : Generator) : Action → Run
  | moveTo cell => { generator := g.moveTo cell }
  | moveToAccumulator => { generator := g.moveTo Layout.accumulator }
  | emit code => { generator := g.emit code }
  | annotate note => { generator := g.annotate note }
  | increment n => { generator := g.increment n }
  | decrement n => { generator := g.decrement n }
  | clear cell => { generator := g.clear cell }
  | set cell value => { generator := g.set cell value }
  | setAccumulator value => { generator := g.set Layout.accumulator value }
  | read => { generator := g.read }
  | write => { generator := g.write }
  | readInto cell => { generator := g.readInto cell }
  | writeFrom cell => { generator := g.writeFrom cell }
  | push value => .push g value
  | pop => .pop g
  | top => .top g
  | copy source target => { generator := g.copy source target }
  | add sum addend => { generator := g.add sum addend }
  | subtract minuend subtrahend => { generator := g.subtract minuend subtrahend }

namespace Block

/-- Performs a body inside a loop that counts a cell down. -/
def runCountDown (cell : Nat) (body : Generator → Run) (g : Generator) : Run :=
  (body (g.openLoop cell)).andThen fun g => { generator := g.closeLoop cell }

/-- Performs a body inside a loop of `n` rounds. The counter's slot is claimed before the loop and
released after it, and the head goes back to where it was. -/
def runRepeated (n : UInt8) (body : Generator → Run) (g : Generator) : Run :=
  let origin := g.cursor
  match g.push n with
  | .error e => .refused g e
  | .ok (slot, g) =>
    let loop := runCountDown slot (fun g => body (g.moveTo origin)) g
    let held := loop.after [.scratch (.pushed slot g.depth), .repeating n slot origin]
    (held.andThen Run.pop).andThen fun g => { generator := g.moveTo origin }

def run (body : Generator → Run) (g : Generator) : Block → Run
  | countDown cell => runCountDown cell body g
  | countDownAccumulator => runCountDown Layout.accumulator body g
  | repeated n => runRepeated n body g
  | attempt => (body g).recover

end Block

namespace Script

def run : Script → Generator → Run
  | done, g => { generator := g }
  | act action rest, g => ((action.run g).recorded (.act action)).andThen (run rest)
  | block head body rest, g =>
    ((head.run (run body) g).recorded (.block head)).andThen (run rest)

def ofActions : List Action → Script
  | [] => done
  | action :: rest => act action (ofActions rest)

/-- Every call without a body meets `P` and every call with a body meets `Q`, in bodies as well. -/
def All (P : Action → Prop) (Q : Block → Prop) : Script → Prop
  | done => True
  | act action rest => P action ∧ rest.All P Q
  | block head body rest => Q head ∧ body.All P Q ∧ rest.All P Q

def decideAll (P : Action → Prop) (Q : Block → Prop) [DecidablePred P] [DecidablePred Q] :
    (s : Script) → Decidable (s.All P Q)
  | done => isTrue trivial
  | act action rest =>
    have := rest.decideAll P Q
    inferInstanceAs (Decidable (P action ∧ rest.All P Q))
  | block head body rest =>
    have := body.decideAll P Q
    have := rest.decideAll P Q
    inferInstanceAs (Decidable (Q head ∧ body.All P Q ∧ rest.All P Q))

theorem All.mono {P P' : Action → Prop} {Q Q' : Block → Prop} (hP : ∀ action, P action → P' action)
    (hQ : ∀ head, Q head → Q' head) {s : Script} (h : s.All P Q) : s.All P' Q' := by
  induction s with
  | done => trivial
  | act action rest ih => exact ⟨hP action h.1, ih h.2⟩
  | block head body rest ihb ihr => exact ⟨hQ head h.1, ihb h.2.1, ihr h.2.2⟩

/-- The program of a script that is performed on a new generator. -/
def generate (s : Script) : Except ScratchError Program :=
  let r := s.run {}
  match r.outcome with
  | .ok _ => .ok r.generator.program
  | .error e => .error e

/-- Every entry of a journal with the lines that the listing gained since the entry before it, where
the listing had `lines` lines before the first. -/
def gains (lines : Nat) : List Entry → List (Entry × String)
  | [] => []
  | e :: rest =>
    (e, e.after.listing.renderFrom lines) :: gains e.after.listing.lines.size rest

end Script

/-- The script that the command line offers: it reads two bytes and writes their sum modulo 256. -/
def Script.adder : Script :=
  let first := Layout.register 0
  let second := Layout.register 1
  ofActions [
    .annotate "read r0", .readInto first,
    .annotate "read r1", .readInto second,
    .annotate "r0 += r1", .add first second,
    .annotate "write r0", .writeFrom first]

end TapeMachine
