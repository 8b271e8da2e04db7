import TapeMachine.Proofs.DepthWalk

/-!
# The scratch stack as a stack of cells

All that the scratch stack remembers is how many slots are held. It behaves as a stack of cells all the
same, at every moment of every generation, and its log tells which cells it holds.

* `Scratch.Serves` : a stack of at most four cells; which free cell it hands out is left open;
* `Deed` : what happens between a script and the stack; `Script.deeds` : all of it in order;
* `Deed.Linked` : every call is answered by the stack that the calls before it left behind;
  `Deed.Lawful` : what is true of the stack and of its log throughout, because of that
  (`Deed.Linked.lawful`);
* `Run.Follows` : what every part of a script does to the stack, with one law for each way to put parts
  together;
* `Script.scratch_holds_cells` : so the stack of a script is lawful, whatever it is refused.
-/

namespace TapeMachine

/-! ## A stack of cells -/

namespace Scratch

/-- The cells that are held, the one claimed last in front. -/
def held (s : Scratch) : List Nat := (List.range s.depth).reverse

/-- How a stack of at most four cells serves a call, from the cells that it holds before to those that
it holds after it. -/
inductive Serves : List Nat → Call → Except ScratchError (Option Nat) → List Nat → Prop where
  | claim {held : List Nat} {cell : Nat} (hfree : held.length < 4)
      (hscratch : cell < Layout.accumulator) (hnew : cell ∉ held) :
      Serves held .push (.ok (some cell)) (cell :: held)
  | full {held : List Nat} (hfull : held.length = 4) :
      Serves held .push (.error .overflow) held
  | release (cell : Nat) (held : List Nat) : Serves (cell :: held) .pop (.ok none) held
  | releaseNone : Serves [] .pop (.error .underflow) []
  | look (cell : Nat) (held : List Nat) :
      Serves (cell :: held) .top (.ok (some cell)) (cell :: held)
  | lookNone : Serves [] .top (.error .empty) []

inductive Answered : Scratch → Call → Answer → Prop where
  | claimed {n : Nat} (hfree : n < 4) :
      Answered ⟨n⟩ .push ⟨.ok (some n), ⟨n + 1⟩, [.pushed n (n + 1)]⟩
  | released (n : Nat) : Answered ⟨n + 1⟩ .pop ⟨.ok none, ⟨n⟩, [.popped n]⟩
  | seen (n : Nat) : Answered ⟨n + 1⟩ .top ⟨.ok (some n), ⟨n + 1⟩, []⟩
  | overflow {n : Nat} (hfull : 4 ≤ n) : Answered ⟨n⟩ .push (refuse ⟨n⟩ .overflow)
  | underflow : Answered ⟨0⟩ .pop (refuse ⟨0⟩ .underflow)
  | empty : Answered ⟨0⟩ .top (refuse ⟨0⟩ .empty)

theorem answered (s : Scratch) (call : Call) : Answered s call (s.answer call) := by
  obtain ⟨n⟩ := s
  cases call with
  | push =>
    by_cases hfree : n < 4
    · have hpush : push ⟨n⟩ = .ok (n, ⟨n + 1⟩) := if_pos hfree
      simp only [answer, hpush]
      exact .claimed hfree
    · have hpush : push ⟨n⟩ = .error .overflow := if_neg hfree
      simp only [answer, hpush]
      exact .overflow (Nat.le_of_not_lt hfree)
  | pop =>
    cases n with
    | zero => exact .underflow
    | succ n => exact .released n
  | top =>
    cases n with
    | zero => exact .empty
    | succ n => exact .seen n

theorem held_succ (n : Nat) : held ⟨n + 1⟩ = n :: held ⟨n⟩ := by
  simp [held, List.range_succ]

@[simp] theorem length_held (s : Scratch) : s.held.length = s.depth := by
  simp [held]

theorem mem_held {s : Scratch} {cell : Nat} : cell ∈ s.held ↔ cell < s.depth := by
  simp [held]

theorem nodup_held (s : Scratch) : s.held.Nodup := by
  unfold held
  exact List.pairwise_reverse.mpr (List.nodup_range.imp Ne.symm)

namespace Answered

variable {s : Scratch} {call : Call} {a : Answer}

/-- A number of slots serves as the stack of cells below it. -/
theorem serves (h : Answered s call a) (hs : s.depth ≤ 4) :
    Serves s.held call a.result a.stack.held := by
  cases h with
  | claimed hfree =>
    rw [held_succ]
    exact .claim (by rwa [length_held]) hfree (by simp [mem_held])
  | released n =>
    rw [held_succ]
    exact .release n _
  | seen n =>
    rw [held_succ]
    exact .look n _
  | @overflow n hfull =>
    have hlength : (held ⟨n⟩).length = 4 := by
      rw [length_held]
      exact Nat.le_antisymm hs hfull
    exact .full hlength
  | underflow => exact .releaseNone
  | empty => exact .lookNone

theorem stack_of_error {e : ScratchError} (h : Answered s call a) (he : a.result = .error e) :
    a.stack = s := by
  cases h with
  | claimed | released | seen => cases he
  | overflow | underflow | empty => rfl

/-- A push or a pop is reported with the number of slots after it. -/
theorem depth_field (h : Answered s call a) : ∀ event ∈ a.events,
    event.record.message = "scratch push" ∨ event.record.message = "scratch pop" →
    event.record.fields.lookup "depth" = some (toString a.stack.depth) := by
  cases h <;> simp [ScratchEvent.record, refuse, List.lookup_cons]

end Answered

end Scratch

/-! ## Deeds -/

/-- What happens between a script and the stack. -/
inductive Deed where
  /-- The stack was called. -/
  | asked (call : Scratch.Call) (answer : Scratch.Answer)
  /-- A loop of `n` rounds has found its counter. -/
  | looped (n : UInt8) (slot origin : Nat)
  /-- A call of the script has ended. -/
  | returned (entry : Entry)

/-- What a call of a script answers that has done nothing but call the stack. -/
def Reply.ofSlot? (slot? : Option Nat) : Reply := slot?.elim .done .slot

namespace Deed

def events : Deed → List BuildEvent
  | asked _ answer => answer.events.map .scratch
  | looped n slot origin => [.repeating n slot origin]
  | returned _ => []

def entry? : Deed → Option Entry
  | returned entry => some entry
  | _ => none

def call? : Deed → Option Scratch.Call
  | asked call _ => some call
  | _ => none

def answer? : Deed → Option Scratch.Answer
  | asked _ answer => some answer
  | _ => none

/-- Why the stack refused a call. -/
def refusal? : Deed → Option ScratchError
  | asked _ ⟨.error e, _, _⟩ => some e
  | _ => none

def stack (s : Scratch) : Deed → Scratch
  | asked _ answer => answer.stack
  | _ => s

def along (s : Scratch) (ds : List Deed) : Scratch := ds.foldl stack s

def records (ds : List Deed) : List Log.Record := (ds.flatMap events).map BuildEvent.record

/-- A deed passes on what the stack answered just before: a loop counts in the slot that it was given,
and a call that ends answers with the slot or the error. -/
def Shows (result : Except ScratchError (Option Nat)) : Deed → Prop
  | asked .. => False
  | looped _ slot _ => result = .ok (some slot)
  | returned entry => entry.outcome = result.map Reply.ofSlot?

end Deed

/-- What a record of the log tells of the cells that are held: in a replay, a push puts its slot in front
and a pop removes the slot in front. -/
def Log.Record.replay (held : List String) (r : Log.Record) : List String :=
  if r.message = "scratch push" then (r.fields.lookup "slot").toList ++ held
  else if r.message = "scratch pop" then held.tail
  else held

namespace Deed

/-- The stack is a stack of cells throughout, and so is what the log makes of it. -/
structure Lawful (ds : List Deed) : Prop where
  /-- At every moment there are at most four cells, all of them different and before the accumulator. -/
  holds : ∀ past, past <+: ds → (along {} past).held.length ≤ 4 ∧ (along {} past).held.Nodup ∧
    ∀ cell ∈ (along {} past).held, cell < Layout.accumulator
  /-- Every call is served as such a stack does. -/
  serves : ∀ past call a future, ds = past ++ asked call a :: future →
    Scratch.Serves (along {} past).held call a.result a.stack.held
  /-- A call that is refused changes nothing. -/
  refuses : ∀ past call a future e, ds = past ++ asked call a :: future → a.result = .error e →
    a.stack = along {} past
  /-- This is the stack of the generator whenever a call of the script has ended. -/
  returns : ∀ past entry future, ds = past ++ returned entry :: future →
    entry.after.scratch = along {} past
  /-- The cells are those that a replay of the log so far comes to. -/
  replays : ∀ past, past <+: ds →
    (records past).foldl Log.Record.replay [] = (along {} past).held.map toString
  /-- Their number is that of the pushes in the log so far, less that of the pops. -/
  counts : ∀ past, past <+: ds →
    (along {} past).depth + (records past).countP (·.message = "scratch pop") =
      (records past).countP (·.message = "scratch push")
  /-- Pushes and pops are reported with the number of cells after them. -/
  depths : ∀ past call a future, ds = past ++ asked call a :: future → ∀ event ∈ a.events,
    event.record.message = "scratch push" ∨ event.record.message = "scratch pop" →
    event.record.fields.lookup "depth" = some (toString a.stack.depth)
  /-- The warnings are those of the calls that were refused, one for each of them and in this order. -/
  warns : ∀ past, past <+: ds → (records past).filter (·.level = .warn) =
    (past.filterMap refusal?).map fun e => (ScratchEvent.refused e).record

/-! ## Deeds that are linked -/

/-- What a deed has to do with the stack before it. -/
def Fits (s : Scratch) : Deed → Prop
  | asked call answer => answer = s.answer call
  | looped .. => True
  | returned entry => entry.after.scratch = s

/-- Every deed fits the stack that those before it left behind. -/
def Linked (s : Scratch) : List Deed → Prop
  | [] => True
  | d :: ds => d.Fits s ∧ Linked (d.stack s) ds

variable {s : Scratch} {d : Deed} {ds xs ys : List Deed}

theorem along_append (s : Scratch) (xs ys : List Deed) :
    along s (xs ++ ys) = along (along s xs) ys := List.foldl_append

theorem along_cons (s : Scratch) (d : Deed) (ds : List Deed) :
    along s (d :: ds) = along (d.stack s) ds := rfl

theorem records_cons (d : Deed) (ds : List Deed) :
    records (d :: ds) = records [d] ++ records ds := by
  simp [records]

theorem linked_append : Linked s (xs ++ ys) ↔ Linked s xs ∧ Linked (along s xs) ys := by
  induction xs generalizing s with
  | nil => simp [Linked, along]
  | cons d xs ih =>
    rw [List.cons_append, Linked, Linked, ih, and_assoc, along_cons]

/-! ### One deed -/

theorem Fits.answered {call : Scratch.Call} {a : Scratch.Answer} (h : (asked call a).Fits s) :
    Scratch.Answered s call a := by
  obtain rfl : a = s.answer call := h
  exact s.answered call

theorem Fits.depth_le (h : d.Fits s) (hs : s.depth ≤ 4) : (d.stack s).depth ≤ 4 := by
  cases d with
  | asked call a =>
    obtain rfl : a = s.answer call := h
    exact s.depth_answer_le call hs
  | looped n slot origin | returned entry => exact hs

theorem Fits.counts (h : d.Fits s) :
    (d.stack s).depth + (records [d]).countP (·.message = "scratch pop") =
      s.depth + (records [d]).countP (·.message = "scratch push") := by
  cases d with
  | asked call a =>
    cases h.answered <;> simp [records, events, BuildEvent.record, ScratchEvent.record, stack,
      Scratch.refuse]
  | looped n slot origin => simp [records, events, BuildEvent.record, stack]
  | returned entry => rfl

theorem Fits.replays (h : d.Fits s) :
    (records [d]).foldl Log.Record.replay (s.held.map toString) =
      (d.stack s).held.map toString := by
  cases d with
  | asked call a =>
    cases h.answered <;> simp [records, events, BuildEvent.record, ScratchEvent.record, stack,
      Scratch.refuse, Log.Record.replay, Scratch.held_succ]
  | looped n slot origin => simp [records, events, BuildEvent.record, stack, Log.Record.replay]
  | returned entry => rfl

theorem Fits.warns (h : d.Fits s) : (records [d]).filter (·.level = .warn) =
    d.refusal?.toList.map fun e => (ScratchEvent.refused e).record := by
  cases d with
  | asked call a =>
    cases h.answered <;> rfl
  | looped n slot origin | returned entry => rfl

/-! ### All deeds -/

theorem Linked.depth_le (h : Linked s ds) (hs : s.depth ≤ 4) : (along s ds).depth ≤ 4 := by
  induction ds generalizing s with
  | nil => exact hs
  | cons d ds ih => exact ih h.2 (h.1.depth_le hs)

theorem Linked.counts (h : Linked s ds) :
    (along s ds).depth + (records ds).countP (·.message = "scratch pop") =
      s.depth + (records ds).countP (·.message = "scratch push") := by
  induction ds generalizing s with
  | nil => rfl
  | cons d ds ih =>
    have hfirst := h.1.counts
    have hrest := ih h.2
    rw [along_cons, records_cons, List.countP_append, List.countP_append]
    omega

theorem Linked.replays (h : Linked s ds) :
    (records ds).foldl Log.Record.replay (s.held.map toString) =
      (along s ds).held.map toString := by
  induction ds generalizing s with
  | nil => rfl
  | cons d ds ih =>
    rw [records_cons, List.foldl_append, h.1.replays]
    exact ih h.2

theorem Linked.warns (h : Linked s ds) : (records ds).filter (·.level = .warn) =
    (ds.filterMap refusal?).map fun e => (ScratchEvent.refused e).record := by
  induction ds generalizing s with
  | nil => rfl
  | cons d ds ih =>
    have hrefusals : (d :: ds).filterMap refusal? =
        d.refusal?.toList ++ ds.filterMap refusal? := by
      cases hd : d.refusal? <;> simp [hd]
    rw [records_cons, hrefusals, List.filter_append, List.map_append, h.1.warns, ih h.2]

theorem Linked.lawful (h : Linked {} ds) : Lawful ds := by
  have hcut : ∀ past, past <+: ds → Linked {} past := by
    rintro past ⟨future, rfl⟩
    exact (linked_append.mp h).1
  have hasked : ∀ past call a future, ds = past ++ asked call a :: future →
      Linked {} past ∧ Scratch.Answered (along {} past) call a := by
    rintro past call a future rfl
    obtain ⟨hpast, hfits, -⟩ := linked_append.mp h
    exact ⟨hpast, hfits.answered⟩
  constructor
  case holds =>
    intro past hpast
    have hdepth := (hcut past hpast).depth_le (Nat.zero_le 4)
    refine ⟨by rwa [Scratch.length_held], Scratch.nodup_held _, fun cell hcell => ?_⟩
    exact Nat.lt_of_lt_of_le (Scratch.mem_held.mp hcell) hdepth
  case serves =>
    intro past call a future hds
    obtain ⟨hpast, hanswered⟩ := hasked past call a future hds
    exact hanswered.serves (hpast.depth_le (Nat.zero_le 4))
  case refuses =>
    intro past call a future e hds he
    exact (hasked past call a future hds).2.stack_of_error he
  case returns =>
    rintro past entry future rfl
    exact (linked_append.mp h).2.1
  case replays => exact fun past hpast => (hcut past hpast).replays
  case counts =>
    intro past hpast
    simpa using (hcut past hpast).counts
  case depths => exact fun past call a future hds => (hasked past call a future hds).2.depth_field
  case warns => exact fun past hpast => (hcut past hpast).warns

/-! ### What becomes of an answer -/

/-- Every answer of the stack is passed on at once. -/
def Told (ds : List Deed) : Prop :=
  ∀ past call a future, ds = past ++ asked call a :: future →
    ∃ d rest, future = d :: rest ∧ d.Shows a.result

theorem told_nil : Told [] := by
  intro past call a future hds
  simp at hds

theorem told_cons (hd : d.call? = none) (h : Told ds) : Told (d :: ds) := by
  intro past call a future hds
  cases past with
  | nil =>
    cases hds
    cases hd
  | cons e past =>
    cases hds
    exact h past call a future rfl

theorem told_asked {call : Scratch.Call} {a : Scratch.Answer} (hd : d.Shows a.result)
    (h : Told (d :: ds)) : Told (asked call a :: d :: ds) := by
  intro past call' a' future hds
  cases past with
  | nil =>
    cases hds
    exact ⟨d, ds, rfl, hd⟩
  | cons e past =>
    injection hds with _ hds
    exact h past call' a' future hds

theorem told_append (hx : Told xs) (hy : Told ys) : Told (xs ++ ys) := by
  intro past call a future hds
  -- the call is in the second list, or in the first, which then goes on behind it
  rcases List.append_eq_append_iff.mp hds with ⟨more, rfl, hys⟩ | ⟨more, rfl, hmore⟩
  · exact hy more call a future hys
  · cases more with
    | nil => exact hy [] call a future hmore.symm
    | cons d more =>
      cases hmore
      obtain ⟨d, rest, rfl, hd⟩ := hx past call a more rfl
      exact ⟨d, rest ++ ys, rfl, hd⟩

end Deed

/-! ## Calls of the stack alone -/

namespace Scratch

/-- The deeds of calls that are made one after the other. -/
def deeds (s : Scratch) : List Call → List Deed
  | [] => []
  | call :: rest => .asked call (s.answer call) :: (s.answer call).stack.deeds rest

theorem calls_deeds (cs : List Call) (s : Scratch) : (s.deeds cs).filterMap Deed.call? = cs := by
  induction cs generalizing s with
  | nil => rfl
  | cons call cs ih => exact congrArg (call :: ·) (ih _)

theorem answers_deeds (cs : List Call) (s : Scratch) :
    (s.deeds cs).filterMap Deed.answer? = s.answers cs := by
  induction cs generalizing s with
  | nil => rfl
  | cons call cs ih => exact congrArg (s.answer call :: ·) (ih _)

theorem linked_deeds (cs : List Call) (s : Scratch) : Deed.Linked s (s.deeds cs) := by
  induction cs generalizing s with
  | nil => trivial
  | cons call cs ih => exact ⟨rfl, ih _⟩

end Scratch

/-! ## Scripts -/

def Run.entry (r : Run) (call : Call) : Entry := ⟨call, r.outcome, r.generator⟩

/-- What happens behind a run, unless it was refused something. -/
def Run.onward (r : Run) (next : Generator → List Deed) : List Deed :=
  match r.outcome with
  | .ok _ => next r.generator
  | .error _ => []

theorem Run.onward_after (r : Run) (events : List BuildEvent) (next : Generator → List Deed) :
    (r.after events).onward next = r.onward next := rfl

def Action.deeds (g : Generator) (action : Action) : List Deed :=
  action.stackCalls.map fun call => .asked call (g.scratch.answer call)

def Block.deeds (body : Generator → Run) (inner : Generator → List Deed) (g : Generator) :
    Block → List Deed
  | countDown cell => inner (g.openLoop cell)
  | countDownAccumulator => inner (g.openLoop Layout.accumulator)
  | repeated n =>
    .asked .push (g.scratch.answer .push) ::
      match g.push n with
      | .error _ => []
      | .ok (slot, h) =>
        let k := (h.openLoop slot).moveTo g.cursor
        .looped n slot g.cursor :: (inner k ++
          (body k).onward fun k => [.asked .pop ((k.closeLoop slot).scratch.answer .pop)])
  | attempt => inner g

def Script.deeds : Script → Generator → List Deed
  | done, _ => []
  | act action rest, g =>
    let r := action.run g
    action.deeds g ++ .returned (r.entry (.act action)) :: r.onward (deeds rest)
  | block head body rest, g =>
    let r := head.run (run body) g
    head.deeds (run body) (deeds body) g ++
      .returned (r.entry (.block head)) :: r.onward (deeds rest)

/-- A run that starts with the stack `s` does to it what the deeds say, and reports and records what they
say. -/
structure Run.Follows (r : Run) (s : Scratch) (ds : List Deed) : Prop where
  linked : Deed.Linked s ds
  stack : Deed.along s ds = r.generator.scratch
  events : ds.flatMap Deed.events = r.events
  entries : ds.filterMap Deed.entry? = r.journal

namespace Run.Follows

variable {r : Run} {s : Scratch} {ds : List Deed} {next : Generator → Run}
  {inner : Generator → List Deed}

theorem quiet (g : Generator) : Follows { generator := g } g.scratch [] := ⟨trivial, rfl, rfl, rfl⟩

theorem andThen (hr : r.Follows s ds) (hnext : ∀ g, (next g).Follows g.scratch (inner g)) :
    (r.andThen next).Follows s (ds ++ r.onward inner) := by
  unfold Run.andThen Run.onward
  cases r.outcome with
  | error e => simpa using hr
  | ok reply =>
    have hrest := hnext r.generator
    refine ⟨Deed.linked_append.mpr ⟨hr.linked, ?_⟩, ?_, ?_, ?_⟩
    · rw [hr.stack]
      exact hrest.linked
    · rw [Deed.along_append, hr.stack]
      exact hrest.stack
    · rw [List.flatMap_append, hr.events, hrest.events]
    · rw [List.filterMap_append, hr.entries, hrest.entries]

theorem andThen_quiet (hr : r.Follows s ds) (hnext : ∀ g, (next g).Follows g.scratch []) :
    (r.andThen next).Follows s ds := by
  have hnone : (r.onward fun _ => []) = [] := by
    unfold Run.onward
    cases r.outcome <;> rfl
  have h := hr.andThen hnext
  rwa [hnone, List.append_nil] at h

theorem recorded (hr : r.Follows s ds) (call : Call) :
    (r.recorded call).Follows s (ds ++ [.returned (r.entry call)]) := by
  refine ⟨Deed.linked_append.mpr ⟨hr.linked, hr.stack.symm, trivial⟩, ?_, ?_, ?_⟩
  · rw [Deed.along_append]
    exact hr.stack
  · rw [List.flatMap_append, hr.events]
    exact List.append_nil _
  · rw [List.filterMap_append, hr.entries]
    rfl

theorem recover (hr : r.Follows s ds) : r.recover.Follows s ds := by
  unfold Run.recover
  split <;> exact ⟨hr.linked, hr.stack, hr.events, hr.entries⟩

theorem after {front : List Deed} (hr : r.Follows (Deed.along s front) ds)
    (hfront : Deed.Linked s front) (hentries : front.filterMap Deed.entry? = []) :
    (r.after (front.flatMap Deed.events)).Follows s (front ++ ds) := by
  refine ⟨Deed.linked_append.mpr ⟨hfront, hr.linked⟩, ?_, ?_, ?_⟩
  · rw [Deed.along_append]
    exact hr.stack
  · rw [List.flatMap_append, hr.events]
    rfl
  · rw [List.filterMap_append, hentries, hr.entries]
    rfl

end Run.Follows

/-! ### Calls of the stack in a script -/

/-- A run consists of one call of the stack. -/
structure Run.Relays (r : Run) (a : Scratch.Answer) : Prop where
  outcome : r.outcome = a.result.map Reply.ofSlot?
  stack : r.generator.scratch = a.stack
  events : r.events = a.events.map .scratch
  journal : r.journal = []

namespace Run

theorem Relays.follows {r : Run} {s : Scratch} {call : Scratch.Call}
    (h : r.Relays (s.answer call)) : r.Follows s [.asked call (s.answer call)] := by
  refine ⟨⟨rfl, trivial⟩, h.stack.symm, ?_, h.journal.symm⟩
  rw [h.events]
  exact List.append_nil _

theorem relays_push (g : Generator) (value : UInt8) :
    (push g value).Relays (g.scratch.answer .push) := by
  unfold push Generator.push Scratch.answer
  cases g.scratch.push with
  | ok pushed => exact ⟨rfl, rfl, rfl, rfl⟩
  | error e => exact ⟨rfl, rfl, rfl, rfl⟩

theorem relays_pop (g : Generator) : (pop g).Relays (g.scratch.answer .pop) := by
  unfold pop Generator.pop Scratch.answer
  cases g.scratch.pop with
  | ok popped => exact ⟨rfl, rfl, rfl, rfl⟩
  | error e => exact ⟨rfl, rfl, rfl, rfl⟩

theorem relays_top (g : Generator) : (top g).Relays (g.scratch.answer .top) := by
  unfold top Generator.top Scratch.answer
  cases g.scratch.top with
  | ok slot => exact ⟨rfl, rfl, rfl, rfl⟩
  | error e => exact ⟨rfl, rfl, rfl, rfl⟩

end Run

theorem Action.follows_run (action : Action) (g : Generator) :
    (action.run g).Follows g.scratch (action.deeds g) := by
  cases action with
  | push value => exact (Run.relays_push g value).follows
  | pop => exact (Run.relays_pop g).follows
  | top => exact (Run.relays_top g).follows
  | _ => exact .quiet _

namespace Block

variable {body : Generator → Run} {inner : Generator → List Deed}

theorem follows_runCountDown (hb : ∀ g, (body g).Follows g.scratch (inner g)) (cell : Nat)
    (g : Generator) : (runCountDown cell body g).Follows g.scratch (inner (g.openLoop cell)) :=
  (hb (g.openLoop cell)).andThen_quiet fun g => .quiet (g.closeLoop cell)

theorem onward_runCountDown (cell : Nat) (g : Generator) (next : Generator → List Deed) :
    (runCountDown cell body g).onward next =
      (body (g.openLoop cell)).onward fun k => next (k.closeLoop cell) := by
  cases hbody : (body (g.openLoop cell)).outcome <;>
    simp only [runCountDown, Run.andThen, Run.onward, hbody]

theorem follows_runRepeated (hb : ∀ g, (body g).Follows g.scratch (inner g)) (n : UInt8)
    (g : Generator) :
    (runRepeated n body g).Follows g.scratch ((repeated n).deeds body inner g) := by
  have hpush := Run.relays_push g n
  simp only [Run.push] at hpush
  simp only [deeds, runRepeated]
  cases hg : g.push n with
  | error e =>
    rw [hg] at hpush
    exact hpush.follows
  | ok pushed =>
    obtain ⟨slot, h⟩ := pushed
    rw [hg] at hpush
    have hloop := follows_runCountDown (fun k => hb (k.moveTo g.cursor)) slot h
    have hclaim : h.scratch = (g.scratch.answer .push).stack := hpush.stack
    rw [hclaim] at hloop
    -- the claim and its report come before the loop, which starts with the stack after them
    let front : List Deed := [.asked .push (g.scratch.answer .push), .looped n slot g.cursor]
    have hfront : Deed.Linked g.scratch front := ⟨rfl, trivial, trivial⟩
    have hevents : front.flatMap Deed.events =
        [.scratch (.pushed slot h.depth), .repeating n slot g.cursor] := by
      have hpushed : (g.scratch.answer .push).events.map .scratch =
        [BuildEvent.scratch (.pushed slot h.depth)] := hpush.events.symm
      simp [front, Deed.events, hpushed]
    have hheld := hloop.after hfront rfl
    rw [hevents] at hheld
    have hrelease := (hheld.andThen fun k => (Run.relays_pop k).follows).andThen_quiet
      fun k => .quiet (k.moveTo g.cursor)
    rw [Run.onward_after, onward_runCountDown, List.append_assoc] at hrelease
    exact hrelease

theorem follows_run (hb : ∀ g, (body g).Follows g.scratch (inner g)) (head : Block)
    (g : Generator) : (head.run body g).Follows g.scratch (head.deeds body inner g) := by
  cases head with
  | countDown cell => exact follows_runCountDown hb cell g
  | countDownAccumulator => exact follows_runCountDown hb Layout.accumulator g
  | repeated n => exact follows_runRepeated hb n g
  | attempt => exact (hb g).recover

end Block

/-- A script does to the stack what its deeds say. -/
theorem Script.follows_run (s : Script) : ∀ g : Generator,
    (s.run g).Follows g.scratch (s.deeds g) := by
  induction s with
  | done => exact fun g => .quiet g
  | act action rest ih =>
    intro g
    have h := ((action.follows_run g).recorded (.act action)).andThen ih
    rwa [List.append_assoc] at h
  | block head body rest ihb ihr =>
    intro g
    have h := ((head.follows_run ihb g).recorded (.block head)).andThen ihr
    rwa [List.append_assoc] at h

/-! ### What becomes of an answer in a script -/

theorem Reply.eq_of_map_ofSlot? {result : Except ScratchError (Option Nat)} {slot : Nat}
    (h : result.map ofSlot? = .ok (.slot slot)) : result = .ok (some slot) := by
  rcases result with e | _ | cell
  · cases h
  · cases h
  · cases h
    rfl

theorem Run.told_onward {inner : Generator → List Deed} (h : ∀ g, Deed.Told (inner g)) (r : Run)
    (call : Call) : Deed.Told (.returned (r.entry call) :: r.onward inner) := by
  refine Deed.told_cons rfl ?_
  unfold onward
  cases r.outcome with
  | error e => exact Deed.told_nil
  | ok reply => exact h r.generator

theorem Action.told_deeds (action : Action) (g : Generator) {rest : List Deed}
    (hrest : Deed.Told (.returned ((action.run g).entry (.act action)) :: rest)) :
    Deed.Told (action.deeds g ++ .returned ((action.run g).entry (.act action)) :: rest) := by
  cases action with
  | push value => exact Deed.told_asked (Run.relays_push g value).outcome hrest
  | pop => exact Deed.told_asked (Run.relays_pop g).outcome hrest
  | top => exact Deed.told_asked (Run.relays_top g).outcome hrest
  | _ => exact hrest

namespace Block

variable {body : Generator → Run} {inner : Generator → List Deed} {rest : List Deed}

/-- A loop that comes to release its slot ends as the release does. -/
theorem outcome_runRepeated {g h : Generator} {n : UInt8} {slot : Nat} {reply : Reply}
    (hpush : g.push n = .ok (slot, h))
    (hbody : (body ((h.openLoop slot).moveTo g.cursor)).outcome = .ok reply) :
    (runRepeated n body g).outcome =
      (((body ((h.openLoop slot).moveTo g.cursor)).generator.closeLoop slot).scratch.answer
        .pop).result.map Reply.ofSlot? := by
  rw [← (Run.relays_pop _).outcome]
  simp only [runRepeated, hpush, runCountDown, Run.andThen, hbody, Run.after, Run.pop]
  cases Generator.pop _ <;> rfl

theorem told_deeds (hb : ∀ g, Deed.Told (inner g)) (head : Block) (g : Generator)
    (hrest : Deed.Told (.returned ((head.run body g).entry (.block head)) :: rest)) :
    Deed.Told (head.deeds body inner g ++
      .returned ((head.run body g).entry (.block head)) :: rest) := by
  cases head with
  | countDown cell => exact Deed.told_append (hb _) hrest
  | countDownAccumulator => exact Deed.told_append (hb _) hrest
  | attempt => exact Deed.told_append (hb _) hrest
  | repeated n =>
    have hpush := (Run.relays_push g n).outcome
    simp only [Run.push] at hpush
    simp only [deeds]
    cases hg : g.push n with
    | error e =>
      rw [hg] at hpush
      refine Deed.told_asked ?_ hrest
      show (runRepeated n body g).outcome = _
      rw [runRepeated_of_push_error hg]
      exact hpush
    | ok pushed =>
      obtain ⟨slot, h⟩ := pushed
      rw [hg] at hpush
      rw [List.cons_append, List.cons_append, List.append_assoc]
      refine Deed.told_asked (Reply.eq_of_map_ofSlot? hpush.symm) (Deed.told_cons rfl ?_)
      refine Deed.told_append (hb _) ?_
      unfold Run.onward
      -- the slot is released only if the body was not refused anything
      cases hbody : (body ((h.openLoop slot).moveTo g.cursor)).outcome with
      | error e => exact hrest
      | ok reply => exact Deed.told_asked (outcome_runRepeated hg hbody) hrest

end Block

theorem Script.told_deeds (s : Script) : ∀ g : Generator, Deed.Told (s.deeds g) := by
  induction s with
  | done => exact fun _ => Deed.told_nil
  | act action rest ih =>
    intro g
    exact action.told_deeds g ((action.run g).told_onward ih (.act action))
  | block head body rest ihb ihr =>
    intro g
    exact head.told_deeds ihb g ((head.run (run body) g).told_onward ihr (.block head))

/-- The scratch stack is a stack of at most four cells, whether it is called directly or by a script, in
which refusals may be caught, and the log tells at every moment which cells are held. -/
theorem Script.scratch_holds_cells :
    (∀ cs : List Scratch.Call,
      let ds := ({} : Scratch).deeds cs
      ds.filterMap Deed.call? = cs ∧ ds.filterMap Deed.answer? = ({} : Scratch).answers cs ∧
        Deed.Lawful ds) ∧
    (∀ s : Script,
      let r := s.run {}
      let ds := s.deeds {}
      ds.flatMap Deed.events = r.events ∧ ds.filterMap Deed.entry? = r.journal ∧
        Deed.along {} ds = r.generator.scratch ∧ Deed.Told ds ∧ Deed.Lawful ds) ∧
    ∀ (action : Action) (g : Generator) (e : ScratchError),
      (action.run g).outcome = .error e → (action.run g).generator = g := by
  refine ⟨fun cs => ?_, fun s => ?_, fun action g e => action.generator_of_error⟩
  · exact ⟨Scratch.calls_deeds cs {}, Scratch.answers_deeds cs {},
      (Scratch.linked_deeds cs {}).lawful⟩
  · have hrun := s.follows_run {}
    exact ⟨hrun.events, hrun.entries, hrun.stack, s.told_deeds {}, hrun.linked.lawful⟩

/-- The body of a loop releases the counter, so that the loop is refused its own release, and this is
caught. The slot is claimed once more behind it. -/
theorem Script.scratch_holds_cells_caught :
    let s : Script := .block .attempt (.block (.repeated 3) (.act .pop .done) .done)
      (.act (.push 7) .done)
    let log := (s.run {}).events.map BuildEvent.record
    log.filter (·.level = .warn) = [(ScratchEvent.refused .underflow).record] ∧
      log.foldl Log.Record.replay [] = ["0"] ∧ (s.run {}).generator.scratch.held = [0] := by
  intro s log
  obtain ⟨hevents, -, hstack, -, hlawful⟩ := scratch_holds_cells.2.1 s
  have hlog : Deed.records (s.deeds {}) = log := congrArg _ hevents
  have hwarns := hlawful.warns _ List.prefix_rfl
  have hreplays := hlawful.replays _ List.prefix_rfl
  rw [hlog] at hwarns hreplays
  rw [hstack] at hreplays
  exact ⟨hwarns, hreplays, rfl⟩

end TapeMachine
