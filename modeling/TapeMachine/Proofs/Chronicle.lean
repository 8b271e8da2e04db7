import TapeMachine.Script
import TapeMachine.Proofs.Nesting

/-!
# Loops in the course of a generation

A refusal leaves the loops around it without an end, and where it is caught the generation goes on
behind them. So the brackets of what was generated tell how the generation went: as many are without
an end as there are loops that are still being generated or were abandoned, at every moment.

* `Moment` : what happens to the loops and calls of a script; `Script.moments` : all of it in order,
  each time with the generator at that moment. The calls among it are the journal of the run
  (`Script.entries_moments`);
* `Tally` : the loops that are being generated and those that were abandoned;
  `Accounts t ms u` : through the moments `ms` the tally goes from `t` to `u`, and at each of them the
  generator has just the open loops of the tally;
* `Generator.Spans g ms h` : what every part of a script does, from `g` to `h` and through `ms`, with
  one law for each way to put parts together;
* `Script.disciplined_throughout` : so brackets, indentation and loops agree throughout.
-/

namespace TapeMachine

/-! ## Moments -/

/-- What happens in the course of a generation. -/
inductive Moment where
  /-- A loop was opened, and what it is to repeat is entered. -/
  | entered (g : Generator)
  /-- What a loop repeats has ended, and the loop was closed. -/
  | closed (g : Generator)
  /-- What a loop repeats was refused something, and the loop is left as it is. -/
  | abandoned (g : Generator)
  /-- The calls of a body begin. -/
  | begun (g : Generator)
  /-- A call has ended. -/
  | returned (entry : Entry)

namespace Moment

def generator : Moment → Generator
  | entered g | closed g | abandoned g | begun g => g
  | returned entry => entry.after

def entry? : Moment → Option Entry
  | returned entry => some entry
  | _ => none

def isEntered : Moment → Bool
  | entered _ => true
  | _ => false

def isClosed : Moment → Bool
  | closed _ => true
  | _ => false

def isAbandoned : Moment → Bool
  | abandoned _ => true
  | _ => false

end Moment

/-- The end of a call, and what happens behind it unless it was refused. -/
def Run.moments (r : Run) (call : Call) (next : Generator → List Moment) : List Moment :=
  .returned ⟨call, r.outcome, r.generator⟩ ::
    match r.outcome with
    | .ok _ => next r.generator
    | .error _ => []

/-- What happens in a call without a body: the loops of a transfer are opened and closed. -/
def Action.moments (g : Generator) : Action → List Moment
  | copy source target =>
    let first := (g.clear target).openLoop source
    let between := ((((first.moveTo Layout.accumulator).increment 1).moveTo target).increment
      1).closeLoop source
    [.entered first, .closed between, .entered (between.openLoop Layout.accumulator),
      .closed (g.copy source target)]
  | add sum addend => [.entered (g.openLoop addend), .closed (g.add sum addend)]
  | subtract minuend subtrahend =>
    [.entered (g.openLoop subtrahend), .closed (g.subtract minuend subtrahend)]
  | _ => []

namespace Block

def momentsCountDown (cell : Nat) (body : Generator → Run) (inner : Generator → List Moment)
    (g : Generator) : List Moment :=
  let g := g.openLoop cell
  .entered g :: inner g ++
    [match (body g).outcome with
    | .ok _ => .closed ((body g).generator.closeLoop cell)
    | .error _ => .abandoned (body g).generator]

def moments (body : Generator → Run) (inner : Generator → List Moment) (g : Generator) :
    Block → List Moment
  | countDown cell => momentsCountDown cell body inner g
  | countDownAccumulator => momentsCountDown Layout.accumulator body inner g
  | repeated n =>
    match g.push n with
    | .error _ => []
    | .ok (slot, h) =>
      momentsCountDown slot (fun k => body (k.moveTo g.cursor))
        (fun k => inner (k.moveTo g.cursor)) h
  | attempt => inner g

end Block

def Script.moments : Script → Generator → List Moment
  | done, _ => []
  | act action rest, g => action.moments g ++ (action.run g).moments (.act action) (moments rest)
  | block head body rest, g =>
    head.moments (run body) (fun h => .begun h :: moments body h) g ++
      (head.run (run body) g).moments (.block head) (moments rest)

/-! ## The journal -/

namespace Run

theorem journal_andThen_of_nil (r : Run) {next : Generator → Run} (h : ∀ g, (next g).journal = []) :
    (r.andThen next).journal = r.journal := by
  unfold andThen
  cases r.outcome with
  | error e => rfl
  | ok reply => exact (congrArg _ (h r.generator)).trans (List.append_nil _)

theorem journal_push (g : Generator) (value : UInt8) : (push g value).journal = [] := by
  unfold push
  split <;> rfl

theorem journal_pop (g : Generator) : (pop g).journal = [] := by
  unfold pop
  split <;> rfl

theorem journal_top (g : Generator) : (top g).journal = [] := by
  unfold top
  split <;> rfl

/-- What a call adds to a journal behind what was performed in it. -/
theorem entries_moments {r : Run} {before : List Moment} {next : Generator → Run}
    {inner : Generator → List Moment} (call : Call)
    (hbefore : before.filterMap Moment.entry? = r.journal)
    (hnext : ∀ g, (inner g).filterMap Moment.entry? = (next g).journal) :
    (before ++ r.moments call inner).filterMap Moment.entry? =
      ((r.recorded call).andThen next).journal := by
  rw [List.filterMap_append, hbefore, moments, recorded, andThen]
  cases r.outcome with
  | error e => rfl
  | ok reply => simp [Moment.entry?, hnext]

end Run

theorem Action.journal_run (action : Action) (g : Generator) : (action.run g).journal = [] := by
  cases action with
  | push value => exact Run.journal_push g value
  | pop => exact Run.journal_pop g
  | top => exact Run.journal_top g
  | _ => rfl

theorem Action.entries_moments (g : Generator) (action : Action) :
    (action.moments g).filterMap Moment.entry? = (action.run g).journal := by
  rw [action.journal_run]
  cases action <;> rfl

namespace Block

variable {body : Generator → Run} {inner : Generator → List Moment}

theorem entries_momentsCountDown (hb : ∀ g, (inner g).filterMap Moment.entry? = (body g).journal)
    (cell : Nat) (g : Generator) :
    (momentsCountDown cell body inner g).filterMap Moment.entry? =
      (runCountDown cell body g).journal := by
  rw [runCountDown, Run.journal_andThen_of_nil _ fun _ => rfl, ← hb, momentsCountDown,
    List.filterMap_append, List.filterMap_cons_none rfl]
  cases (body (g.openLoop cell)).outcome <;> exact List.append_nil _

theorem entries_moments (hb : ∀ g, (inner g).filterMap Moment.entry? = (body g).journal)
    (head : Block) (g : Generator) :
    (head.moments body inner g).filterMap Moment.entry? = (head.run body g).journal := by
  cases head with
  | countDown cell => exact entries_momentsCountDown hb cell g
  | countDownAccumulator => exact entries_momentsCountDown hb Layout.accumulator g
  | repeated n =>
    simp only [moments, run, runRepeated]
    cases g.push n with
    | error e => rfl
    | ok pushed =>
      rw [Run.journal_andThen_of_nil _ fun _ => rfl, Run.journal_andThen_of_nil _ Run.journal_pop]
      exact entries_momentsCountDown (fun k => hb (k.moveTo g.cursor)) pushed.1 pushed.2
  | attempt =>
    simp only [moments, run, Run.recover, hb]
    split <;> rfl

end Block

/-- The calls that end in the course of a script are those of its journal. -/
theorem Script.entries_moments (s : Script) : ∀ g : Generator,
    (s.moments g).filterMap Moment.entry? = (s.run g).journal := by
  induction s with
  | done =>
    intro g
    rfl
  | act action rest ih =>
    intro g
    exact Run.entries_moments (.act action) (action.entries_moments g) ih
  | block head body rest ihb ihr =>
    intro g
    have hbody (h : Generator) :
        (Moment.begun h :: body.moments h).filterMap Moment.entry? = (body.run h).journal := ihb h
    exact Run.entries_moments (.block head) (head.entries_moments hbody g) ihr

/-! ## Accounts -/

/-- The loops that were entered and not closed. -/
structure Tally where
  /-- Those whose body is still being generated. -/
  generating : Nat := 0
  /-- Those whose body was refused something. -/
  abandoned : Nat := 0

def Tally.unclosed (t : Tally) : Nat := t.generating + t.abandoned

/-- What a moment does to a tally. -/
def Moment.Leads (t u : Tally) : Moment → Prop
  | entered _ => u.generating = t.generating + 1 ∧ u.abandoned = t.abandoned
  | closed _ => t.generating = u.generating + 1 ∧ u.abandoned = t.abandoned
  | abandoned _ => t.generating = u.generating + 1 ∧ u.abandoned = t.abandoned + 1
  | begun _ | returned _ => u = t

theorem Moment.Leads.count {m : Moment} {t u : Tally} (h : m.Leads t u) :
    t.generating + [m].countP isEntered =
        u.generating + [m].countP isClosed + [m].countP isAbandoned ∧
      u.abandoned = t.abandoned + [m].countP isAbandoned := by
  cases m with
  | entered g => exact ⟨h.1.symm, h.2⟩
  | closed g | abandoned g => exact h
  | begun g | returned entry =>
    obtain rfl : u = t := h
    exact ⟨rfl, rfl⟩

/-- Moments lead from one tally to another, and at each of them as many loops are open in what was
generated as the tally says. -/
inductive Accounts : Tally → List Moment → Tally → Prop where
  | nil (t : Tally) : Accounts t [] t
  | cons {t u v : Tally} {m : Moment} {ms : List Moment} (hm : m.Leads t u)
      (hg : m.generator.Nests u.unclosed) (hms : Accounts u ms v) : Accounts t (m :: ms) v

namespace Accounts

variable {t u v : Tally} {m : Moment} {ms xs ys : List Moment}

theorem append (hx : Accounts t xs u) (hy : Accounts u ys v) : Accounts t (xs ++ ys) v := by
  induction hx with
  | nil t => exact hy
  | cons hm hg _ ih => exact .cons hm hg (ih hy)

theorem split : ∀ {xs : List Moment} {t : Tally}, Accounts t (xs ++ ys) v →
    ∃ u, Accounts t xs u ∧ Accounts u ys v := by
  intro xs
  induction xs with
  | nil =>
    intro t h
    exact ⟨t, .nil t, h⟩
  | cons x xs ih =>
    intro t h
    cases h with
    | cons hm hg hms =>
      obtain ⟨u, hu, hv⟩ := ih hms
      exact ⟨u, .cons hm hg hu, hv⟩

theorem nests_last (h : Accounts t (ms ++ [m]) u) : m.generator.Nests u.unclosed := by
  obtain ⟨_, -, hlast⟩ := h.split
  cases hlast with
  | cons _ hg hnil =>
    cases hnil
    exact hg

theorem count (h : Accounts t ms u) :
    t.generating + ms.countP Moment.isEntered =
        u.generating + ms.countP Moment.isClosed + ms.countP Moment.isAbandoned ∧
      u.abandoned = t.abandoned + ms.countP Moment.isAbandoned := by
  induction h with
  | nil t => exact ⟨rfl, rfl⟩
  | @cons t u v m ms hm _ _ ih =>
    obtain ⟨hgenerating, habandoned⟩ := hm.count
    rw [← List.singleton_append]
    simp only [List.countP_append]
    omega

end Accounts

/-- From `g` to `h` the moments `ms` happen. They account for all loops, and the loops around them are
neither closed nor abandoned. -/
def Generator.Spans (g : Generator) (ms : List Moment) (h : Generator) : Prop :=
  ∀ t : Tally, g.Nests t.unclosed →
    ∃ u, Accounts t ms u ∧ u.generating = t.generating ∧ h.Nests u.unclosed

namespace Generator.Spans

variable {g h k : Generator} {ms ms' : List Moment}

theorem refl (g : Generator) : Spans g [] g := fun t ht => ⟨t, .nil t, rfl, ht⟩

theorem trans (hg : Spans g ms h) (hh : Spans h ms' k) : Spans g (ms ++ ms') k := by
  intro t ht
  obtain ⟨u, hu, hgenerating, hnests⟩ := hg t ht
  obtain ⟨v, hv, hgenerating', hnests'⟩ := hh u hnests
  exact ⟨v, hu.append hv, hgenerating'.trans hgenerating, hnests'⟩

theorem keep (hg : Spans g ms h) (hk : ∀ n, h.Nests n → k.Nests n) : Spans g ms k := by
  intro t ht
  obtain ⟨u, hu, hgenerating, hnests⟩ := hg t ht
  exact ⟨u, hu, hgenerating, hk _ hnests⟩

theorem andThen {r : Run} {next : Generator → Run} (hr : Spans g ms r.generator)
    (hnext : ∀ k n, k.Nests n → (next k).generator.Nests n) :
    Spans g ms (r.andThen next).generator := by
  unfold Run.andThen
  cases r.outcome with
  | error e => exact hr
  | ok reply => exact hr.keep (hnext r.generator)

theorem seen {m : Moment} (hm : ∀ t, m.Leads t t) : Spans m.generator [m] m.generator :=
  fun t ht => ⟨t, .cons (hm t) ht (.nil t), rfl, ht⟩

/-- A loop is opened, and what happens in it comes to an end. -/
theorem loop {m : Moment} {cell : Nat} (hb : Spans (g.openLoop cell) ms h)
    (hm : ∀ n u, u.generating = n + 1 → h.Nests u.unclosed →
      ∃ v, m.Leads u v ∧ v.generating = n ∧ m.generator.Nests v.unclosed) :
    Spans g (.entered (g.openLoop cell) :: ms ++ [m]) m.generator := by
  intro t ht
  have hentered : Moment.Leads t ⟨t.generating + 1, t.abandoned⟩ (.entered (g.openLoop cell)) :=
    ⟨rfl, rfl⟩
  have hopen : (g.openLoop cell).Nests (Tally.mk (t.generating + 1) t.abandoned).unclosed := by
    have hsucc := Nests.openLoop ht cell
    rwa [Tally.unclosed, Nat.add_right_comm] at hsucc
  obtain ⟨u, hu, hgenerating, hnests⟩ := hb _ hopen
  obtain ⟨v, hleads, hv, hlast⟩ := hm t.generating u hgenerating hnests
  exact ⟨v, .cons hentered hopen (hu.append (.cons hleads hlast (.nil v))), hv, hlast⟩

theorem closed {cell : Nat} (hb : Spans (g.openLoop cell) ms h) :
    Spans g (.entered (g.openLoop cell) :: ms ++ [.closed (h.closeLoop cell)])
      (h.closeLoop cell) := by
  refine hb.loop fun n u hu hnests => ⟨⟨n, u.abandoned⟩, ⟨hu, rfl⟩, rfl, ?_⟩
  rw [Tally.unclosed, hu, Nat.add_right_comm] at hnests
  exact hnests.closeLoop cell

theorem abandoned {cell : Nat} (hb : Spans (g.openLoop cell) ms h) :
    Spans g (.entered (g.openLoop cell) :: ms ++ [.abandoned h]) h := by
  refine hb.loop fun n u hu hnests => ⟨⟨n, u.abandoned + 1⟩, ⟨hu, rfl⟩, rfl, ?_⟩
  rwa [Tally.unclosed, hu, Nat.add_right_comm] at hnests

theorem transfer {cell : Nat} (hk : ∀ n, (g.openLoop cell).Nests n → h.Nests n) :
    Spans g [.entered (g.openLoop cell), .closed (h.closeLoop cell)] (h.closeLoop cell) :=
  ((refl _).keep hk).closed

end Generator.Spans

/-! ## Scripts without brackets of their own -/

def Action.Bracketless : Action → Prop
  | emit code => ∀ c ∈ code.toList, c ≠ '[' ∧ c ≠ ']'
  | _ => True

instance : DecidablePred Action.Bracketless
  | .emit code => inferInstanceAs (Decidable (∀ c ∈ code.toList, c ≠ '[' ∧ c ≠ ']'))
  | .moveTo _ | .moveToAccumulator | .annotate _ | .increment _ | .decrement _ | .clear _
  | .set .. | .setAccumulator _ | .read | .write | .readInto _ | .writeFrom _ | .push _ | .pop
  | .top | .copy .. | .add .. | .subtract .. => isTrue trivial

namespace Script

/-- Raw code has no brackets, in blocks as well. -/
def Bracketless : Script → Prop := All Action.Bracketless (fun _ => True)

instance : DecidablePred Bracketless := decideAll _ _

end Script

/-! ## What the calls do to the loops -/

namespace Generator.Nests

variable {g : Generator} {n : Nat}

theorem runPush (h : g.Nests n) (value : UInt8) : (Run.push g value).generator.Nests n := by
  unfold Run.push
  split
  · next slot k hpush => exact h.push hpush
  · exact h

theorem runPop (h : g.Nests n) : (Run.pop g).generator.Nests n := by
  unfold Run.pop
  split
  · next k hpop => exact h.pop hpop
  · exact h

theorem runTop (h : g.Nests n) : (Run.top g).generator.Nests n := by
  unfold Run.top
  split <;> exact h

end Generator.Nests

theorem Action.spans {action : Action} (h : action.Bracketless) (g : Generator) :
    g.Spans (action.moments g) (action.run g).generator := by
  have start := Generator.Spans.refl g
  cases action with
  | moveTo cell => exact start.keep fun _ hn => hn.moveTo cell
  | moveToAccumulator => exact start.keep fun _ hn => hn.moveTo _
  | emit code => exact start.keep fun _ hn => hn.emit (closed_of_bracketless h)
  | annotate note => exact start.keep fun _ hn => Listing.Nests.annotate hn note
  | increment n => exact start.keep fun _ hn => hn.increment n
  | decrement n => exact start.keep fun _ hn => hn.decrement n
  | clear cell => exact start.keep fun _ hn => hn.clear cell
  | set cell value => exact start.keep fun _ hn => hn.set cell value
  | setAccumulator value => exact start.keep fun _ hn => hn.set _ value
  | read => exact start.keep fun _ hn => hn.emit Basic.read.closed_text
  | write => exact start.keep fun _ hn => hn.emit Basic.write.closed_text
  | readInto cell => exact start.keep fun _ hn => (hn.moveTo cell).emit Basic.read.closed_text
  | writeFrom cell => exact start.keep fun _ hn => (hn.moveTo cell).emit Basic.write.closed_text
  | push value => exact start.keep fun _ hn => hn.runPush value
  | pop => exact start.keep fun _ hn => hn.runPop
  | top => exact start.keep fun _ hn => hn.runTop
  | copy source target =>
    have hclear := start.keep fun _ hn => hn.clear target
    refine (hclear.trans (.transfer fun _ hn => ?_)).trans (.transfer fun _ hn => ?_)
    · exact (((hn.moveTo Layout.accumulator).increment 1).moveTo target).increment 1
    · exact (hn.moveTo source).increment 1
  | add sum addend => exact .transfer fun _ hn => (hn.moveTo sum).increment 1
  | subtract minuend subtrahend => exact .transfer fun _ hn => (hn.moveTo minuend).decrement 1

namespace Block

variable {body : Generator → Run} {inner : Generator → List Moment}

theorem spans_runCountDown (hb : ∀ g : Generator, g.Spans (inner g) (body g).generator) (cell : Nat)
    (g : Generator) :
    g.Spans (momentsCountDown cell body inner g) (runCountDown cell body g).generator := by
  have hbody := hb (g.openLoop cell)
  simp only [momentsCountDown, runCountDown, Run.andThen]
  cases (body (g.openLoop cell)).outcome with
  | error e => exact hbody.abandoned
  | ok reply => exact hbody.closed

theorem spans (hb : ∀ g : Generator, g.Spans (inner g) (body g).generator) (head : Block)
    (g : Generator) : g.Spans (head.moments body inner g) (head.run body g).generator := by
  cases head with
  | countDown cell => exact spans_runCountDown hb cell g
  | countDownAccumulator => exact spans_runCountDown hb Layout.accumulator g
  | repeated n =>
    simp only [moments, run, runRepeated]
    cases hpush : g.push n with
    | error e => exact .refl g
    | ok pushed =>
      have hstart := (Generator.Spans.refl g).keep fun _ hn => hn.push hpush
      have hinner (k : Generator) : k.Spans (inner (k.moveTo g.cursor))
          (body (k.moveTo g.cursor)).generator :=
        ((Generator.Spans.refl k).keep fun _ hn => hn.moveTo g.cursor).trans (hb _)
      have hloop := hstart.trans (spans_runCountDown hinner pushed.1 pushed.2)
      -- where the loop was abandoned, the slot is not released and the head does not go back
      refine Generator.Spans.andThen (Generator.Spans.andThen ?_ ?_) ?_
      · exact hloop
      · exact fun _ _ hn => hn.runPop
      · exact fun _ _ hn => hn.moveTo g.cursor
  | attempt =>
    simp only [moments, run, Run.recover]
    split <;> exact hb g

end Block

/-- A call returns, and the calls behind it follow unless it was refused. -/
theorem Run.spans {g : Generator} {r : Run} {before : List Moment} {next : Generator → Run}
    {inner : Generator → List Moment} (call : Call) (hr : g.Spans before r.generator)
    (hnext : ∀ h : Generator, h.Spans (inner h) (next h).generator) :
    g.Spans (before ++ r.moments call inner) ((r.recorded call).andThen next).generator := by
  have hseen (outcome : Except ScratchError Reply) :
      r.generator.Spans [.returned ⟨call, outcome, r.generator⟩] r.generator :=
    Generator.Spans.seen (m := .returned ⟨call, outcome, r.generator⟩) fun _ => rfl
  refine hr.trans ?_
  simp only [moments, recorded, andThen]
  cases r.outcome with
  | error e => exact hseen _
  | ok reply => exact (hseen _).trans (hnext r.generator)

theorem Script.spans {s : Script} (hs : s.Bracketless) : ∀ g : Generator,
    g.Spans (s.moments g) (s.run g).generator := by
  induction s with
  | done => exact .refl
  | act action rest ih =>
    intro g
    exact Run.spans (.act action) (Action.spans hs.1 g) (ih hs.2)
  | block head body rest ihb ihr =>
    intro g
    have hbody (h : Generator) : h.Spans (.begun h :: body.moments h) (body.run h).generator :=
      (Generator.Spans.seen (m := .begun h) fun _ => rfl).trans (ihb hs.2.1 h)
    exact Run.spans (.block head) (head.spans hbody g) (ihr hs.2.2)

/-! ## Discipline -/

/-- Brackets and indentation tell that `loops` loops are open. -/
structure Generator.Disciplined (g : Generator) (loops : Nat) : Prop where
  /-- No loop is ended that was not started. -/
  ends_le_starts : ∀ k,
    (g.program.symbols.take k).count .loopEnd ≤ (g.program.symbols.take k).count .loopStart
  unmatched_eq : unmatched g.program.symbols = loops
  indent_eq : g.listing.indent = 2 * loops
  /-- Every line is indented by the loops that are open there. -/
  line_indent_eq : ∀ i line, g.listing.lines[i]? = some line →
    line.indent = 2 * g.listing.openAt i line

theorem Generator.Nests.disciplined {g : Generator} {n : Nat} (h : g.Nests n) :
    g.Disciplined n where
  ends_le_starts := count_take_of_nest? h.symbols
  unmatched_eq := unmatched_of_nest? h.symbols
  indent_eq := h.indent
  line_indent_eq := h.aligned

namespace Script

/-- Brackets and indentation follow the loops through every generation, refusals included: at every moment
as many loops are open as were entered and not closed. -/
theorem disciplined_throughout (s : Script) (hs : s.Bracketless) :
    (∀ past m future, s.moments {} = past ++ m :: future →
      ∃ generating,
        (past ++ [m]).countP Moment.isEntered = generating + (past ++ [m]).countP Moment.isClosed +
          (past ++ [m]).countP Moment.isAbandoned ∧
        m.generator.Disciplined (generating + (past ++ [m]).countP Moment.isAbandoned)) ∧
    (s.moments {}).filterMap Moment.entry? = (s.run {}).journal ∧
    let abandoned := (s.moments {}).countP Moment.isAbandoned
    (s.moments {}).countP Moment.isEntered = (s.moments {}).countP Moment.isClosed + abandoned ∧
      (s.run {}).generator.Disciplined abandoned ∧
      ((s.run {}).generator.program.validate = .ok () ↔ abandoned = 0) ∧
      (abandoned ≠ 0 →
        ∃ offset, (s.run {}).generator.program.validate = .error (.unmatchedLoopStart offset)) := by
  obtain ⟨u, haccounts, hgenerating, hnests⟩ := spans hs {} {} Listing.Nests.empty
  refine ⟨?_, s.entries_moments {}, ?_⟩
  · intro past m future hsplit
    rw [hsplit, ← List.singleton_append, ← List.append_assoc] at haccounts
    obtain ⟨v, hv, -⟩ := haccounts.split
    obtain ⟨hentered, habandoned⟩ := hv.count
    have hlast := hv.nests_last
    rw [Tally.unclosed, habandoned] at hlast
    exact ⟨v.generating, by simpa using hentered, by simpa using hlast.disciplined⟩
  · intro abandoned
    obtain ⟨hentered, habandoned⟩ := haccounts.count
    have hunclosed : u.unclosed = abandoned := by
      rw [Tally.unclosed, hgenerating, habandoned]
      simp [abandoned]
    rw [hunclosed] at hnests
    obtain ⟨hvalid, hblame⟩ := Program.validate_of_nest? hnests.symbols
    exact ⟨by simpa [hgenerating] using hentered, hnests.disciplined, hvalid, hblame⟩

/-- A loop is abandoned inside another, which is closed as if nothing had happened. The bracket that is
to close it pairs with that of the abandoned loop, and its own one is blamed. -/
theorem disciplined_throughout_caught :
    let s : Script :=
      .block (.countDown 5)
        (.block .attempt (.block (.countDown 6) (.act .pop .done) .done)
          (.act (.annotate "]") .done))
        (.act (.add 7 8) .done)
    let p := (s.run {}).generator.program
    s.Bracketless ∧ (s.run {}).generator.Disciplined 1 ∧
      ∃ offset, p.validate = .error (.unmatchedLoopStart offset) := by
  intro s p
  have hs : s.Bracketless := by decide
  obtain ⟨-, -, -, hend, -, hblame⟩ := disciplined_throughout s hs
  have habandoned : (s.moments {}).countP Moment.isAbandoned = 1 := rfl
  rw [habandoned] at hend
  exact ⟨hs, hend, hblame (by rw [habandoned]; decide)⟩

end Script

end TapeMachine
