import TapeMachine.Proofs.Plan

/-!
# Passages

Generating code adds lines to the listing and never looks at those that are there. How far a line is
indented depends on the listing, but only on the indentation that it has come to: the step back at the end
of a loop undoes the step at its start, so the margin is never met on the way. Hence all that a script adds
is known from the position of the generator, up to a shift to the right.

* `Listing.onto` : a listing behind another one, at its indentation;
* `Oblivious` : what is generated on a listing is what is generated on an empty one, put behind it. Blocks
  and scripts are oblivious as soon as their parts are (`Script.oblivious_run`);
* `Script.passage` : what a script adds from a position on. It is all that it ever adds
  (`Script.run_eq_onto`);
* `Script.run_depends_on_position` : so generators at the same position do the same with a script.
-/

namespace TapeMachine

/-! ## Listings behind listings -/

def Line.shift (margin : Nat) (l : Line) : Line := { l with indent := margin + l.indent }

namespace Listing

/-- The lines of `l` behind those of `base`, at the indentation that `base` has come to. -/
def onto (l base : Listing) : Listing where
  lines := base.lines ++ l.lines.map (Line.shift base.indent)
  indent := base.indent + l.indent

theorem onto_push (l base : Listing) (kind : LineKind) (text : String) :
    { l.onto base with lines := (l.onto base).lines.push ⟨(l.onto base).indent, kind, text⟩ } =
      { l with lines := l.lines.push ⟨l.indent, kind, text⟩ }.onto base := by
  simp [onto, Line.shift]

theorem onto_emit (l base : Listing) (code : String) :
    (l.onto base).emit code = (l.emit code).onto base := by
  unfold emit
  split
  · rfl
  · exact l.onto_push base .code code

theorem onto_annotate (l base : Listing) (note : String) :
    (l.onto base).annotate note = (l.annotate note).onto base :=
  l.onto_push base .comment note

theorem onto_indentMore (l base : Listing) :
    (l.onto base).indentMore = l.indentMore.onto base := by
  simp [onto, indentMore, Nat.add_assoc]

/-- A step back is the same on both, as long as it does not meet the margin. -/
theorem onto_indentLess {l : Listing} (h : indentStep ≤ l.indent) (base : Listing) :
    (l.onto base).indentLess = l.indentLess.onto base := by
  simp only [onto, indentLess, Listing.mk.injEq, true_and]
  omega

theorem empty_onto (base : Listing) : ({} : Listing).onto base = base := by
  simp [onto]

theorem program_onto (l base : Listing) : (l.onto base).program = base.program ++ l.program := by
  show Program.mk _ = Program.mk _
  simp [onto, List.flatMap_map, Line.shift, Line.program, program]

theorem render_onto (l base : Listing) : (l.onto base).render = base.render ++
    String.join (l.lines.toList.map fun line => (line.shift base.indent).render) := by
  apply String.toList_injective
  simp [onto, render, renderFrom, String.toList_join, String.toList_append, List.flatMap_map]

end Listing

/-! ## Generators on listings -/

namespace Generator

def onto (g : Generator) (base : Listing) : Generator := { g with listing := g.listing.onto base }

def indent (g : Generator) : Nat := g.listing.indent

/-- A generator that has written nothing yet. -/
def blank (pos : Position) : Generator := { cursor := pos.cursor, scratch := ⟨pos.depth⟩ }

/-- Every generator is one that has written nothing yet, on its listing. -/
theorem blank_onto (g : Generator) : (blank g.position).onto g.listing = g := by
  simp [blank, onto, Listing.empty_onto, position, depth]

section Indent
variable (g : Generator) (cell : Nat)

@[simp] theorem indent_emit (code : String) : (g.emit code).indent = g.indent := by
  unfold emit indent Listing.emit
  split <;> rfl

@[simp] theorem indent_moveTo : (g.moveTo cell).indent = g.indent := g.indent_emit _

@[simp] theorem indent_increment (n : Nat) : (g.increment n).indent = g.indent := g.indent_emit _

@[simp] theorem indent_decrement (n : Nat) : (g.decrement n).indent = g.indent := g.indent_emit _

@[simp] theorem indent_clear : (g.clear cell).indent = g.indent := by
  simp [clear]

@[simp] theorem indent_set (value : UInt8) : (g.set cell value).indent = g.indent := by
  simp [set]

@[simp] theorem indent_openLoop : (g.openLoop cell).indent = g.indent + Listing.indentStep := by
  unfold openLoop
  rw [indent_decrement]
  show ((g.moveTo cell).emit _).indent + _ = _
  rw [indent_emit, indent_moveTo]

@[simp] theorem indent_closeLoop : (g.closeLoop cell).indent = g.indent - Listing.indentStep := by
  unfold closeLoop
  rw [indent_emit]
  show (g.moveTo cell).indent - _ = _
  rw [indent_moveTo]

end Indent

section Onto
variable (g : Generator) (base : Listing) (cell : Nat)

@[simp] theorem onto_emit (code : String) : (g.onto base).emit code = (g.emit code).onto base := by
  simp [emit, onto, Listing.onto_emit]

@[simp] theorem onto_annotate (note : String) :
    (g.onto base).annotate note = (g.annotate note).onto base := by
  simp [annotate, onto, Listing.onto_annotate]

@[simp] theorem onto_moveTo : (g.onto base).moveTo cell = (g.moveTo cell).onto base := by
  simp [moveTo, emit, onto, Listing.onto_emit]

@[simp] theorem onto_increment (n : Nat) :
    (g.onto base).increment n = (g.increment n).onto base := g.onto_emit base _

@[simp] theorem onto_decrement (n : Nat) :
    (g.onto base).decrement n = (g.decrement n).onto base := g.onto_emit base _

@[simp] theorem onto_clear : (g.onto base).clear cell = (g.clear cell).onto base := by
  simp [clear]

@[simp] theorem onto_set (value : UInt8) : (g.onto base).set cell value = (g.set cell value).onto base := by
  simp [set]

@[simp] theorem onto_openLoop : (g.onto base).openLoop cell = (g.openLoop cell).onto base := by
  unfold openLoop
  rw [← onto_decrement, onto_moveTo, onto_emit]
  simp [onto, Listing.onto_indentMore]

/-- A loop can be closed alike on any listing if it was opened there. -/
theorem onto_closeLoop {g : Generator} (h : Listing.indentStep ≤ g.indent) :
    (g.onto base).closeLoop cell = (g.closeLoop cell).onto base := by
  have hmoved : Listing.indentStep ≤ (g.moveTo cell).listing.indent := by
    rw [← g.indent_moveTo cell] at h
    exact h
  unfold closeLoop
  rw [← onto_emit, onto_moveTo]
  simp [onto, Listing.onto_indentLess hmoved]

end Onto

end Generator

/-! ## What is generated on any listing -/

def Entry.onto (base : Listing) (e : Entry) : Entry := { e with after := e.after.onto base }

def Run.onto (r : Run) (base : Listing) : Run :=
  { r with generator := r.generator.onto base, journal := r.journal.map (Entry.onto base) }

/-- The run does the same on every listing, and does not leave the indentation at which it begins. -/
structure Oblivious (f : Generator → Run) : Prop where
  onto : ∀ g base, f (g.onto base) = (f g).onto base
  indent_le : ∀ g, g.indent ≤ (f g).generator.indent

theorem Run.andThen_assoc (r : Run) (next last : Generator → Run) :
    (r.andThen next).andThen last = r.andThen fun g => (next g).andThen last := by
  unfold Run.andThen
  cases hr : r.outcome with
  | error e => simp only [hr]
  | ok reply =>
    cases hnext : (next r.generator).outcome with
    | error e => simp only [hnext]
    | ok reply => simp only [hnext, List.append_assoc]

/-- Going on is the same on every listing if the next run is, from where it begins. -/
theorem Run.onto_andThen {r : Run} {next : Generator → Run} {base : Listing}
    (hnext : next (r.generator.onto base) = (next r.generator).onto base) :
    (r.onto base).andThen next = (r.andThen next).onto base := by
  unfold Run.andThen
  cases hr : r.outcome with
  | error e => simp only [Run.onto, hr]
  | ok reply => simp [Run.onto, hr, hnext]

namespace Oblivious

variable {f next : Generator → Run}

theorem of_generator {change : Generator → Generator}
    (honto : ∀ g base, change (g.onto base) = (change g).onto base)
    (hindent : ∀ g, g.indent ≤ (change g).indent) : Oblivious fun g => { generator := change g } where
  onto g base := by simp [Run.onto, honto]
  indent_le := hindent

theorem andThen (hf : Oblivious f) (hnext : Oblivious next) : Oblivious fun g => (f g).andThen next where
  onto g base := by
    rw [hf.onto]
    exact Run.onto_andThen (hnext.onto _ base)
  indent_le g := by
    have hfirst := hf.indent_le g
    have hrest := hnext.indent_le (f g).generator
    unfold Run.andThen
    cases (f g).outcome with
    | error e => exact hfirst
    | ok reply => exact Nat.le_trans hfirst hrest

theorem recorded (hf : Oblivious f) (call : Call) : Oblivious fun g => (f g).recorded call where
  onto g base := by simp [hf.onto, Run.recorded, Run.onto, Entry.onto]
  indent_le := hf.indent_le

theorem after (hf : Oblivious f) {events : Generator → List BuildEvent}
    (hevents : ∀ g base, events (g.onto base) = events g) :
    Oblivious fun g => (f g).after (events g) where
  onto g base := by simp [hf.onto, hevents, Run.after, Run.onto]
  indent_le := hf.indent_le

theorem recover (hf : Oblivious f) : Oblivious fun g => (f g).recover where
  onto g base := by
    rw [hf.onto]
    unfold Run.recover
    cases hr : (f g).outcome <;> simp [Run.onto, hr]
  indent_le g := by
    have hindent := hf.indent_le g
    unfold Run.recover
    cases (f g).outcome <;> exact hindent

theorem moveTo (hf : Oblivious f) (cell : Nat) : Oblivious fun g => f (g.moveTo cell) where
  onto g base := by rw [Generator.onto_moveTo, hf.onto]
  indent_le g := by
    have hindent := hf.indent_le (g.moveTo cell)
    rw [Generator.indent_moveTo] at hindent
    exact hindent

end Oblivious

/-! ## Calls -/

namespace Generator

theorem scratch_onto (g : Generator) (base : Listing) : (g.onto base).scratch = g.scratch := rfl

theorem onto_push (g : Generator) (base : Listing) (value : UInt8) : (g.onto base).push value =
    (g.push value).map fun claimed => (claimed.1, claimed.2.onto base) := by
  unfold push
  rw [scratch_onto]
  cases g.scratch.push with
  | error e => rfl
  | ok claimed =>
    have hset := onto_set { g with scratch := claimed.2 } base claimed.1 value
    exact congrArg (fun h => Except.ok (claimed.1, h)) hset

theorem onto_pop (g : Generator) (base : Listing) :
    (g.onto base).pop = g.pop.map fun h => h.onto base := by
  unfold pop
  rw [scratch_onto]
  cases g.scratch.pop <;> rfl

theorem indent_push {g h : Generator} {value : UInt8} {slot : Nat}
    (hpush : g.push value = .ok (slot, h)) : h.indent = g.indent := by
  rw [eq_of_push hpush]
  exact indent_set _ _ _

theorem indent_pop {g h : Generator} (hpop : g.pop = .ok h) : h.indent = g.indent := by
  rw [eq_of_pop hpop]
  rfl

end Generator

theorem Run.oblivious_push (value : UInt8) : Oblivious fun g => Run.push g value where
  onto g base := by
    unfold Run.push
    rw [g.onto_push]
    cases g.push value <;> rfl
  indent_le g := by
    unfold Run.push
    split
    · next hpush => exact Nat.le_of_eq (Generator.indent_push hpush).symm
    · exact Nat.le_refl _

theorem Run.oblivious_pop : Oblivious Run.pop where
  onto g base := by
    unfold Run.pop
    rw [g.onto_pop]
    cases g.pop <;> rfl
  indent_le g := by
    unfold Run.pop
    split
    · next hpop => exact Nat.le_of_eq (Generator.indent_pop hpop).symm
    · exact Nat.le_refl _

theorem Run.oblivious_top : Oblivious Run.top where
  onto g base := by
    unfold Run.top Generator.top
    rw [Generator.scratch_onto]
    cases g.scratch.top <;> rfl
  indent_le g := Nat.le_of_eq (congrArg Generator.indent (Run.generator_top g).symm)

theorem Action.oblivious_run (action : Action) : Oblivious fun g => action.run g := by
  cases action with
  | push value => exact Run.oblivious_push value
  | pop => exact Run.oblivious_pop
  | top => exact Run.oblivious_top
  | annotate note => exact .of_generator (fun g base => g.onto_annotate base note) fun g => Nat.le_refl _
  | copy source target =>
    refine .of_generator (fun g base => ?_) fun g => ?_
    · simp [Generator.copy, Generator.onto_closeLoop]
    · simp [Generator.copy]
  | add sum addend =>
    refine .of_generator (fun g base => ?_) fun g => ?_
    · simp [Generator.add, Generator.onto_closeLoop]
    · simp [Generator.add]
  | subtract minuend subtrahend =>
    refine .of_generator (fun g base => ?_) fun g => ?_
    · simp [Generator.subtract, Generator.onto_closeLoop]
    · simp [Generator.subtract]
  | _ =>
    refine .of_generator (fun g base => ?_) fun g => ?_
    · simp [Generator.read, Generator.write, Generator.readInto, Generator.writeFrom]
    · simp [Generator.read, Generator.write, Generator.readInto, Generator.writeFrom]

namespace Block

variable {body : Generator → Run}

/-- The step back at the end of a loop does not meet the margin, as the body has not gone behind the
step at its start. -/
theorem oblivious_runCountDown (hb : Oblivious body) (cell : Nat) :
    Oblivious (runCountDown cell body) where
  onto g base := by
    have hindent := hb.indent_le (g.openLoop cell)
    rw [Generator.indent_openLoop] at hindent
    unfold runCountDown
    rw [Generator.onto_openLoop, hb.onto]
    refine Run.onto_andThen ?_
    rw [Generator.onto_closeLoop base cell (by omega)]
    rfl
  indent_le g := by
    have hindent := hb.indent_le (g.openLoop cell)
    rw [Generator.indent_openLoop] at hindent
    unfold runCountDown Run.andThen
    cases (body (g.openLoop cell)).outcome with
    | error e =>
      show g.indent ≤ (body (g.openLoop cell)).generator.indent
      omega
    | ok reply =>
      show g.indent ≤ ((body (g.openLoop cell)).generator.closeLoop cell).indent
      rw [Generator.indent_closeLoop]
      omega

theorem oblivious_runRepeated (hb : Oblivious body) (n : UInt8) : Oblivious (runRepeated n body) := by
  -- what follows once the slot is claimed, where the slot and the recorded cell are fixed
  have hheld (slot origin : Nat) : Oblivious fun held =>
      (((runCountDown slot (fun h => body (h.moveTo origin)) held).after
        [.scratch (.pushed slot held.depth), .repeating n slot origin]).andThen Run.pop).andThen
          fun h => { generator := h.moveTo origin } := by
    refine .andThen (.andThen (.after (oblivious_runCountDown (hb.moveTo origin) slot) ?_)
      Run.oblivious_pop) (.of_generator (fun g base => g.onto_moveTo base origin) fun g => ?_)
    · exact fun _ _ => rfl
    · exact Nat.le_of_eq (g.indent_moveTo origin).symm
  constructor
  · intro g base
    unfold runRepeated
    rw [g.onto_push]
    cases hpush : g.push n with
    | error e => rfl
    | ok claimed => exact (hheld claimed.1 g.cursor).onto claimed.2 base
  · intro g
    unfold runRepeated
    split
    · exact Nat.le_refl _
    · rename_i slot held hpush
      rw [← Generator.indent_push hpush]
      exact (hheld slot g.cursor).indent_le held

theorem oblivious_run (hb : Oblivious body) (head : Block) : Oblivious fun g => head.run body g := by
  cases head with
  | countDown cell => exact oblivious_runCountDown hb cell
  | countDownAccumulator => exact oblivious_runCountDown hb Layout.accumulator
  | repeated n => exact oblivious_runRepeated hb n
  | attempt => exact hb.recover

end Block

namespace Script

/-- A script does the same on every listing. -/
theorem oblivious_run (s : Script) : Oblivious s.run := by
  induction s with
  | done => exact .of_generator (fun _ _ => rfl) fun _ => Nat.le_refl _
  | act action rest ih => exact (action.oblivious_run.recorded (.act action)).andThen ih
  | block head body rest ihb ihr =>
    exact ((Block.oblivious_run ihb head).recorded (.block head)).andThen ihr

/-- What a script adds to a listing from a position on. -/
def passage (s : Script) (pos : Position) : Listing := (s.run (.blank pos)).generator.listing

/-- Every run is that from the same position on an empty listing, put behind the listing. -/
theorem run_eq_onto (s : Script) (g : Generator) :
    s.run g = (s.run (.blank g.position)).onto g.listing := by
  rw [← s.oblivious_run.onto, g.blank_onto]

theorem listing_run (s : Script) (g : Generator) :
    (s.run g).generator.listing = (s.passage g.position).onto g.listing := by
  rw [s.run_eq_onto g]
  rfl

def append : Script → Script → Script
  | done, t => t
  | act action rest, t => act action (rest.append t)
  | block head body rest, t => block head body (rest.append t)

instance : Append Script := ⟨append⟩

theorem run_append (s t : Script) : ∀ g : Generator, (s ++ t).run g = (s.run g).andThen t.run := by
  induction s with
  | done => exact fun _ => rfl
  | act action rest ih =>
    intro g
    show Run.andThen _ (rest ++ t).run = _
    rw [funext ih, run, Run.andThen_assoc]
  | block head body rest _ ih =>
    intro g
    show Run.andThen _ (rest ++ t).run = _
    rw [funext ih, run, Run.andThen_assoc]

theorem program_run (s : Script) (g : Generator) : (s.run g).generator.program.text =
    g.program.text ++ (s.passage g.position).program.text := by
  rw [← Program.text_append]
  refine congrArg Program.text ?_
  exact (congrArg Listing.program (s.listing_run g)).trans (Listing.program_onto _ _)

/-- Generators at the same position do the same with a script, whatever they have written before. So a
program can be put together from what scripts add one after the other. -/
theorem run_depends_on_position (s t : Script) {g h : Generator} (hpos : g.position = h.position) :
    let added := s.passage g.position
    (s.run g).outcome = (s.run h).outcome ∧ (s.run g).events = (s.run h).events ∧
    (s.run g).generator.position = (s.run h).generator.position ∧
    (∀ k, k = g ∨ k = h →
      let after := (s.run k).generator
      after.listing.lines.toList =
        k.listing.lines.toList ++ added.lines.toList.map (Line.shift k.listing.indent) ∧
      after.listing.indent = k.listing.indent + added.indent ∧
      (∃ text, after.render = k.render ++ text) ∧
      after.program.text = k.program.text ++ added.program.text) ∧
    (t.run (s.run g).generator).generator.program.text =
      (s.run g).generator.program.text ++
        (t.passage (s.run g).generator.position).program.text ∧
    (∀ reply, (s.run g).outcome = .ok reply → ((s ++ t).run g).generator.program.text =
      (s.run g).generator.program.text ++
        (t.passage (s.run g).generator.position).program.text) ∧
    ∀ e, (s.run g).outcome = .error e → (s ++ t).run g = s.run g := by
  intro added
  have hg := s.run_eq_onto g
  have hh := s.run_eq_onto h
  rw [← hpos] at hh
  have hafter := t.program_run (s.run g).generator
  refine ⟨?_, ?_, ?_, ?_, hafter, ?_, ?_⟩
  · rw [hg, hh]
    rfl
  · rw [hg, hh]
    rfl
  · rw [hg, hh]
    rfl
  · intro k hk after
    have hat : k.position = g.position := by
      rcases hk with rfl | rfl
      · rfl
      · exact hpos.symm
    have hlisting := s.listing_run k
    have hprogram := s.program_run k
    rw [hat] at hlisting hprogram
    have hlines : after.listing.lines.toList =
        k.listing.lines.toList ++ added.lines.toList.map (Line.shift k.listing.indent) := by
      rw [hlisting]
      simp [Listing.onto, added]
    refine ⟨hlines, congrArg Listing.indent hlisting, ?_, hprogram⟩
    exact ⟨_, (congrArg Listing.render hlisting).trans (Listing.render_onto _ _)⟩
  · intro reply hreply
    rw [run_append, Run.andThen, hreply]
    exact hafter
  · intro e he
    rw [run_append, Run.andThen, he]

/-- A release that is refused inside a loop and caught leaves the loop open and the next line indented, on
an empty listing as on one that begins with an indented comment. -/
theorem run_depends_on_position_caught :
    let s : Script := .block .attempt (.block (.countDown 6) (.act .pop .done) .done) (.act .write .done)
    let g : Generator := { cursor := 5 }
    let h : Generator := { cursor := 5, listing := ({} : Listing).indentMore.annotate "[" }
    let added := s.passage ⟨5, 0⟩
    g.position = h.position ∧ (s.run g).outcome = (s.run h).outcome ∧
      added.indent = 2 ∧ (s.run g).generator.listing.indent = 2 ∧
      (s.run h).generator.listing.indent = 4 ∧
      (s.run h).generator.program.text = h.program.text ++ added.program.text ∧
      ∃ text, (s.run h).generator.render = h.render ++ text := by
  intro s g h added
  have hpos : g.position = h.position := rfl
  obtain ⟨houtcome, -, -, hadds, -⟩ := run_depends_on_position s .done hpos
  obtain ⟨-, hindent, -, -⟩ := hadds g (.inl rfl)
  obtain ⟨-, hindent', htext, hprogram⟩ := hadds h (.inr rfl)
  have hadded : added.indent = 2 := rfl
  exact ⟨hpos, houtcome, hadded, hindent, hindent', hprogram, htext⟩

end Script

end TapeMachine
