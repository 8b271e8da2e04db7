import TapeMachine.Proofs.Plan

/-!
# Which scripts are refused something

Only the scratch stack refuses calls. So whether a script is refused something, and what, is decided by
the calls of the stack in its plan and by how many slots are held before it, and by nothing else.

* `Script.stackCalls` : the calls of the stack in the order of the plan, the body of every loop once;
* `Scratch.depthAt` : the number of slots along such calls, as an integer that nothing holds back;
  `Scratch.Stumbles` : the first call at which this walk leaves the stack;
* `Scratch.serveAll` : calls served one after the other, up to one that is refused. This is the first
  at which the walk stumbles (`serveAll_eq_error_iff`);
* `Script.refused_iff_stumbles` : a script is refused just what its walk stumbles at. One that leaves
  the stack to the loops is not refused anything if they nest no deeper than slots are free.
-/

namespace TapeMachine

/-! ## Walks -/

namespace Scratch

/-- By how much a call changes the number of slots held. -/
def Call.change : Call → Int
  | push => 1
  | pop => -1
  | top => 0

/-- What is wrong with a call where the walk is at `depth`. -/
def Call.misstep? (depth : Int) : Call → Option ScratchError
  | push => if 4 < depth + 1 then some .overflow else none
  | pop => if depth - 1 < 0 then some .underflow else none
  | top => if depth = 0 then some .empty else none

/-- Where the walk that starts at `depth` is before the `k`-th call. -/
def depthAt (depth : Int) (cs : List Call) (k : Nat) : Int :=
  (cs.take k).foldl (fun d c => d + c.change) depth

/-- The walk that starts at `depth` goes wrong at the `k`-th call, and at none before it. -/
structure Stumbles (depth : Int) (cs : List Call) (k : Nat) (e : ScratchError) : Prop where
  misstep : ∃ c, cs[k]? = some c ∧ c.misstep? (depthAt depth cs k) = some e
  first : ∀ j < k, ∀ c, cs[j]? = some c → c.misstep? (depthAt depth cs j) = none

section Walks
variable {depth : Int} {c : Call} {cs : List Call} {k : Nat} {e : ScratchError}

@[simp] theorem depthAt_zero (depth : Int) (cs : List Call) : depthAt depth cs 0 = depth := rfl

@[simp] theorem depthAt_succ (depth : Int) (c : Call) (cs : List Call) (k : Nat) :
    depthAt depth (c :: cs) (k + 1) = depthAt (depth + c.change) cs k := rfl

theorem not_stumbles_nil : ¬ Stumbles depth [] k e := by
  rintro ⟨⟨c, hc, -⟩, -⟩
  cases hc

theorem stumbles_zero_iff : Stumbles depth (c :: cs) 0 e ↔ c.misstep? depth = some e := by
  constructor
  · rintro ⟨⟨c', hc, he⟩, -⟩
    cases hc
    simpa using he
  · intro he
    exact ⟨⟨c, rfl, by simpa using he⟩, fun j hj => absurd hj (Nat.not_lt_zero j)⟩

theorem stumbles_succ_iff : Stumbles depth (c :: cs) (k + 1) e ↔
    c.misstep? depth = none ∧ Stumbles (depth + c.change) cs k e := by
  constructor
  · rintro ⟨⟨c', hc, he⟩, hfirst⟩
    refine ⟨by simpa using hfirst 0 (Nat.succ_pos k) c rfl, ⟨c', hc, by simpa using he⟩, ?_⟩
    intro j hj d hd
    simpa using hfirst (j + 1) (Nat.succ_lt_succ hj) d hd
  · rintro ⟨hc, ⟨c', hc', he⟩, hfirst⟩
    refine ⟨⟨c', hc', by simpa using he⟩, ?_⟩
    intro j hj d hd
    cases j with
    | zero =>
      cases hd
      simpa using hc
    | succ j => simpa using hfirst j (Nat.lt_of_succ_lt_succ hj) d hd

theorem exists_stumbles_cons_iff : (∃ k, Stumbles depth (c :: cs) k e) ↔
    c.misstep? depth = some e ∨
      (c.misstep? depth = none ∧ ∃ k, Stumbles (depth + c.change) cs k e) := by
  constructor
  · rintro ⟨k, hk⟩
    cases k with
    | zero => exact .inl (stumbles_zero_iff.mp hk)
    | succ k =>
      obtain ⟨hc, hrest⟩ := stumbles_succ_iff.mp hk
      exact .inr ⟨hc, k, hrest⟩
  · rintro (he | ⟨hc, k, hk⟩)
    · exact ⟨0, stumbles_zero_iff.mpr he⟩
    · exact ⟨k + 1, stumbles_succ_iff.mpr ⟨hc, hk⟩⟩

end Walks

/-! ## Calls of the stack -/

def serve (s : Scratch) (c : Call) : Except ScratchError Scratch :=
  (s.answer c).result.map fun _ => (s.answer c).stack

/-- Serves calls one after the other, up to one that is refused. -/
def serveAll (cs : List Call) (s : Scratch) : Except ScratchError Scratch := cs.foldlM serve s

theorem serve_push (s : Scratch) :
    s.serve .push = if s.depth < 4 then .ok ⟨s.depth + 1⟩ else .error .overflow := by
  unfold serve answer push
  by_cases hfree : s.depth < 4
  · simp [Layout.scratchSlots, hfree, Except.map]
  · simp [Layout.scratchSlots, hfree, refuse, Except.map]

/-- All that serving a call can come to: it is refused just where the walk goes wrong. -/
theorem serve_cases (s : Scratch) (c : Call) :
    (∃ t, s.serve c = .ok t ∧ c.misstep? s.depth = none ∧ (t.depth : Int) = s.depth + c.change) ∨
    ∃ e, s.serve c = .error e ∧ c.misstep? s.depth = some e := by
  obtain ⟨depth⟩ := s
  cases c with
  | push =>
    simp only [serve_push, Call.misstep?]
    by_cases hfree : depth < 4
    · left
      rw [if_pos hfree, if_neg (by omega)]
      exact ⟨⟨depth + 1⟩, rfl, rfl, by simp [Call.change]⟩
    · right
      rw [if_neg hfree, if_pos (by omega)]
      exact ⟨.overflow, rfl, rfl⟩
  | pop =>
    cases depth with
    | zero => exact .inr ⟨.underflow, rfl, rfl⟩
    | succ depth =>
      left
      refine ⟨⟨depth⟩, rfl, ?_, by simp only [Call.change]; omega⟩
      simp only [Call.misstep?]
      rw [if_neg (by omega)]
  | top =>
    cases depth with
    | zero => exact .inr ⟨.empty, rfl, rfl⟩
    | succ depth =>
      left
      refine ⟨⟨depth + 1⟩, rfl, ?_, by simp [Call.change]⟩
      simp only [Call.misstep?]
      rw [if_neg (by omega)]

theorem serveAll_cons (c : Call) (cs : List Call) (s : Scratch) :
    serveAll (c :: cs) s = (s.serve c).bind (serveAll cs) := rfl

theorem serveAll_append (cs ds : List Call) (s : Scratch) :
    serveAll (cs ++ ds) s = (serveAll cs s).bind (serveAll ds) := by
  unfold serveAll
  rw [List.foldlM_append]
  rfl

/-- Calls are refused what their walk stumbles at first. -/
theorem serveAll_eq_error_iff {e : ScratchError} (cs : List Call) (s : Scratch) :
    serveAll cs s = .error e ↔ ∃ k, Stumbles s.depth cs k e := by
  induction cs generalizing s with
  | nil =>
    constructor
    · intro h
      cases h
    · rintro ⟨k, hk⟩
      exact absurd hk not_stumbles_nil
  | cons c cs ih =>
    rw [exists_stumbles_cons_iff, serveAll_cons]
    rcases serve_cases s c with ⟨t, hserve, hgood, hdepth⟩ | ⟨e', hserve, hbad⟩
    · rw [hserve, hgood, ← hdepth]
      simpa [Except.bind] using ih t
    · rw [hserve, hbad]
      simp [Except.bind]

theorem depth_of_serveAll {t : Scratch} (cs : List Call) (s : Scratch)
    (h : serveAll cs s = .ok t) : (t.depth : Int) = depthAt s.depth cs cs.length := by
  induction cs generalizing s with
  | nil =>
    cases h
    simp
  | cons c cs ih =>
    rw [serveAll_cons] at h
    rcases serve_cases s c with ⟨t', hserve, -, hdepth⟩ | ⟨e, hserve, -⟩
    · rw [hserve] at h
      rw [List.length_cons, depthAt_succ, ← hdepth]
      exact ih t' h
    · rw [hserve] at h
      cases h

end Scratch

/-! ## The calls of a script -/

def Stroke.request? : Stroke → Option Scratch.Call
  | request call => some call
  | _ => none

def Action.stackCalls : Action → List Scratch.Call
  | push _ => [.push]
  | pop => [.pop]
  | top => [.top]
  | _ => []

def Block.stackCalls (body : List Scratch.Call) : Block → List Scratch.Call
  | repeated _ => .push :: (body ++ [.pop])
  | _ => body

namespace Script

/-- The calls of the stack that a script makes, the body of every loop once. -/
def stackCalls : Script → List Scratch.Call
  | done => []
  | act action rest => action.stackCalls ++ rest.stackCalls
  | block head body rest => head.stackCalls body.stackCalls ++ rest.stackCalls

/-- No call but those of loops claims, releases or looks at a slot. -/
def Slotless : Script → Prop := All (·.stackCalls = []) (fun _ => True)

instance : DecidablePred Slotless := decideAll _ _

end Script

/-- How many slots a loop holds while its body is generated. -/
def Block.slots : Block → Nat
  | repeated _ => 1
  | _ => 0

/-- How deep the loops of a given number of rounds are nested. -/
def Script.nesting : Script → Nat
  | done => 0
  | act _ rest => rest.nesting
  | block head body rest => max (head.slots + body.nesting) rest.nesting

theorem Action.requests_plan (action : Action) (pos : Position) :
    (action.plan pos).filterMap Stroke.request? = action.stackCalls := by
  cases action <;> rfl

theorem Stroke.requests_countDown (cell : Nat) (ss : List Stroke) :
    (countDown cell ss).filterMap request? = ss.filterMap request? := by
  unfold countDown
  rw [List.filterMap_append, List.filterMap_append]
  exact List.append_nil _

theorem Block.requests_plan {plan : Position → List Stroke} {calls : List Scratch.Call}
    (h : ∀ pos, (plan pos).filterMap Stroke.request? = calls) (head : Block) (pos : Position) :
    (head.plan plan pos).filterMap Stroke.request? = head.stackCalls calls := by
  cases head with
  | countDown cell =>
    rw [Block.plan, Stroke.requests_countDown, h]
    rfl
  | countDownAccumulator =>
    rw [Block.plan, Stroke.requests_countDown, h]
    rfl
  | repeated n =>
    have hbody := h { pos with depth := pos.depth + 1 }
    simp only [Block.plan, List.filterMap_cons, List.filterMap_append, Stroke.requests_countDown,
      Stroke.request?, hbody]
    rfl
  | attempt => exact h pos

theorem Script.requests_plan (s : Script) : ∀ pos,
    (s.plan pos).filterMap Stroke.request? = s.stackCalls := by
  induction s with
  | done => exact fun _ => rfl
  | act action rest ih =>
    intro pos
    rw [plan, List.filterMap_append, action.requests_plan, ih, stackCalls]
  | block head body rest ihb ihr =>
    intro pos
    rw [plan, List.filterMap_append, Block.requests_plan ihb, ihr, stackCalls]

/-- Strokes are performed as far as the calls of the stack among them are served. -/
theorem Generator.serveAll_perform (ss : List Stroke) (g : Generator) :
    Scratch.serveAll (ss.filterMap Stroke.request?) g.scratch =
      (g.perform ss).2.map fun _ => (g.perform ss).1.scratch := by
  induction ss generalizing g with
  | nil => rfl
  | cons s ss ih =>
    cases s with
    | request call =>
      simp only [List.filterMap_cons, Stroke.request?, Scratch.serveAll_cons, Scratch.serve, perform,
        refusal?]
      cases (g.scratch.answer call).result with
      | ok reply => exact ih (g.draw (.request call))
      | error e => rfl
    | moveTo cell => exact ih (g.draw (.moveTo cell))
    | emit code => exact ih (g.draw (.emit code))
    | annotate note => exact ih (g.draw (.annotate note))
    | indentMore => exact ih (g.draw .indentMore)
    | indentLess => exact ih (g.draw .indentLess)

namespace Script

variable {s : Script} {g : Generator}

/-- A run of a script comes as far as its calls are served. -/
theorem serveAll_stackCalls (hs : s.Propagates) (g : Generator) :
    Scratch.serveAll s.stackCalls g.scratch =
      (s.run g).outcome.map fun _ => (s.run g).generator.scratch := by
  rw [← s.requests_plan g.position, Generator.serveAll_perform, ← ended_run hs]
  unfold Run.ended
  cases (s.run g).outcome <;> rfl

theorem outcome_eq_error_iff (hs : s.Propagates) {e : ScratchError} :
    (s.run g).outcome = .error e ↔ Scratch.serveAll s.stackCalls g.scratch = .error e := by
  rw [serveAll_stackCalls hs]
  cases (s.run g).outcome <;> simp [Except.map]

theorem exists_of_serveAll (hs : s.Propagates) {t : Scratch}
    (h : Scratch.serveAll s.stackCalls g.scratch = .ok t) :
    (∃ reply, (s.run g).outcome = .ok reply) ∧ (s.run g).generator.scratch = t := by
  rw [serveAll_stackCalls hs] at h
  cases hrun : (s.run g).outcome with
  | error e =>
    rw [hrun] at h
    cases h
  | ok reply =>
    rw [hrun] at h
    exact ⟨⟨reply, rfl⟩, Except.ok.inj h⟩

end Script

/-! ## How many slots there are -/

theorem Scratch.depth_answer_le (s : Scratch) (call : Call) (h : s.depth ≤ 4) :
    (s.answer call).stack.depth ≤ 4 := by
  obtain ⟨depth⟩ := s
  cases call with
  | push =>
    by_cases hfree : depth < Layout.scratchSlots
    · simp only [answer, push, hfree, if_true]
      exact hfree
    · simpa [answer, push, hfree, refuse] using h
  | pop =>
    cases depth with
    | zero => exact h
    | succ depth => exact Nat.le_of_succ_le h
  | top => cases depth <;> exact h

theorem Generator.depth_perform_le (ss : List Stroke) (g : Generator) (h : g.depth ≤ 4) :
    (g.perform ss).1.depth ≤ 4 := by
  induction ss generalizing g with
  | nil => exact h
  | cons s ss ih =>
    rw [perform]
    cases g.refusal? s with
    | some e => exact h
    | none =>
      refine ih (g.draw s) ?_
      cases s with
      | request call => exact g.scratch.depth_answer_le call h
      | _ => exact h

theorem Action.depth_run_le (action : Action) (g : Generator) (h : g.depth ≤ 4) :
    (action.run g).generator.depth ≤ 4 := by
  have hrun := congrArg Prod.fst (action.ended_run g)
  simp only [Run.ended] at hrun
  rw [hrun]
  exact Generator.depth_perform_le _ g h

theorem Run.depth_andThen_le {r : Run} {next : Generator → Run} (hr : r.generator.depth ≤ 4)
    (hnext : ∀ g : Generator, g.depth ≤ 4 → (next g).generator.depth ≤ 4) :
    (r.andThen next).generator.depth ≤ 4 := by
  unfold andThen
  cases r.outcome with
  | error e => exact hr
  | ok reply => exact hnext r.generator hr

theorem Block.depth_run_le {body : Generator → Run}
    (hb : ∀ g : Generator, g.depth ≤ 4 → (body g).generator.depth ≤ 4) (head : Block)
    (g : Generator) (h : g.depth ≤ 4) : (head.run body g).generator.depth ≤ 4 := by
  have hloop (cell : Nat) (body : Generator → Run)
      (hb : ∀ g : Generator, g.depth ≤ 4 → (body g).generator.depth ≤ 4) (g : Generator)
      (h : g.depth ≤ 4) : (runCountDown cell body g).generator.depth ≤ 4 :=
    Run.depth_andThen_le (hb (g.openLoop cell) h) fun _ hg => hg
  cases head with
  | countDown cell => exact hloop cell body hb g h
  | countDownAccumulator => exact hloop Layout.accumulator body hb g h
  | repeated n =>
    have hpush := (Action.push n).depth_run_le g h
    simp only [Action.run, Run.push] at hpush
    simp only [run, runRepeated]
    cases hg : g.push n with
    | error e => exact h
    | ok pushed =>
      rw [hg] at hpush
      have hrounds := hloop pushed.1 _ (fun k hk => hb (k.moveTo g.cursor) hk) pushed.2 hpush
      refine Run.depth_andThen_le ?_ fun k hk => hk
      exact Run.depth_andThen_le hrounds Action.pop.depth_run_le
  | attempt =>
    simp only [run, Run.recover]
    split <;> exact hb g h

/-- However a script goes, no more than four slots are held behind it. -/
theorem Script.depth_run_le (s : Script) : ∀ g : Generator, g.depth ≤ 4 →
    (s.run g).generator.depth ≤ 4 := by
  induction s with
  | done => exact fun _ h => h
  | act action rest ih =>
    intro g h
    exact Run.depth_andThen_le (action.depth_run_le g h) ih
  | block head body rest ihb ihr =>
    intro g h
    exact Run.depth_andThen_le (Block.depth_run_le ihb head g h) ihr

/-! ## Scripts that leave the stack to the loops -/

namespace Scratch

/-- Calls that are served where `n` slots are free, and leave the stack as it is. -/
def Needs (cs : List Call) (n : Nat) : Prop :=
  ∀ s : Scratch, s.depth ≤ 4 →
    serveAll cs s = if s.depth + n ≤ 4 then .ok s else .error .overflow

namespace Needs
variable {cs ds : List Call} {m n : Nat}

theorem nil : Needs [] 0 := by
  intro s hs
  exact (if_pos hs).symm

theorem append (hc : Needs cs m) (hd : Needs ds n) : Needs (cs ++ ds) (max m n) := by
  intro s hs
  rw [serveAll_append, hc s hs]
  by_cases hm : s.depth + m ≤ 4
  · rw [if_pos hm]
    show serveAll ds s = _
    rw [hd s hs]
    by_cases hn : s.depth + n ≤ 4
    · rw [if_pos hn, if_pos (by omega)]
    · rw [if_neg hn, if_neg (by omega)]
  · rw [if_neg hm, if_neg (by omega)]
    rfl

/-- A slot that is held for the time of some calls is one more that has to be free. -/
theorem bracket (hc : Needs cs n) : Needs (.push :: (cs ++ [.pop])) (1 + n) := by
  intro s hs
  rw [serveAll_cons, serve_push]
  by_cases hfree : s.depth < 4
  · rw [if_pos hfree]
    show serveAll (cs ++ [.pop]) ⟨s.depth + 1⟩ = _
    rw [serveAll_append, hc ⟨s.depth + 1⟩ hfree, Nat.add_assoc]
    by_cases hn : s.depth + (1 + n) ≤ 4
    · rw [if_pos hn, if_pos hn]
      rfl
    · rw [if_neg hn, if_neg hn]
      rfl
  · rw [if_neg hfree, if_neg (by omega)]
    rfl

end Needs

end Scratch

theorem Block.needs_stackCalls {calls : List Scratch.Call} {n : Nat} (h : Scratch.Needs calls n)
    (head : Block) : Scratch.Needs (head.stackCalls calls) (head.slots + n) := by
  cases head with
  | repeated k => exact h.bracket
  | _ => exact (Nat.zero_add n).symm ▸ h

namespace Script

theorem needs_of_slotless {s : Script} (hs : s.Slotless) : Scratch.Needs s.stackCalls s.nesting := by
  induction s with
  | done => exact .nil
  | act action rest ih =>
    rw [stackCalls, hs.1]
    exact ih hs.2
  | block head body rest ihb ihr =>
    exact (Block.needs_stackCalls (ihb hs.2.1) head).append (ihr hs.2.2)

/-- A script that leaves the stack to its loops is not refused anything where slots are free for them,
and leaves the stack as it was. -/
theorem exists_of_slotless {s : Script} {g : Generator} (hs : s.Propagates) (hslotless : s.Slotless)
    (hfits : g.depth + s.nesting ≤ 4) :
    (∃ reply, (s.run g).outcome = .ok reply) ∧ (s.run g).generator.scratch = g.scratch := by
  have hneeds := needs_of_slotless hslotless g.scratch (Nat.le_of_add_right_le hfits)
  exact exists_of_serveAll hs (hneeds.trans (if_pos hfits))

/-- A script is refused what its walk stumbles at first. If it leaves the stack to its loops, this is so
just if they nest deeper than slots are free. -/
theorem refused_iff_stumbles (s : Script) (hs : s.Propagates) (g : Generator) :
    (∀ e, (s.run g).outcome = .error e ↔ ∃ k, Scratch.Stumbles g.depth s.stackCalls k e) ∧
    ((∀ k e, ¬ Scratch.Stumbles g.depth s.stackCalls k e) →
      (∃ reply, (s.run g).outcome = .ok reply) ∧ ((s.run g).generator.depth : Int) =
        Scratch.depthAt g.depth s.stackCalls s.stackCalls.length) ∧
    (g.depth ≤ 4 → (∀ other : Script, (other.run g).generator.depth ≤ 4) ∧
      (s.Slotless →
        ((∃ reply, (s.run g).outcome = .ok reply) ↔ g.depth + s.nesting ≤ 4) ∧
        ((∃ reply, (s.run g).outcome = .ok reply) → (s.run g).generator.depth = g.depth) ∧
        (4 < g.depth + s.nesting → (s.run g).outcome = .error .overflow))) ∧
    ScratchError.overflow.message =
      "Scratch stack overflow: at most 4 slots can be held at once" := by
  refine ⟨?_, ?_, ?_, by decide⟩
  · intro e
    rw [outcome_eq_error_iff hs]
    exact Scratch.serveAll_eq_error_iff s.stackCalls g.scratch
  · intro hnone
    cases hserved : Scratch.serveAll s.stackCalls g.scratch with
    | error e =>
      obtain ⟨k, hk⟩ := (Scratch.serveAll_eq_error_iff _ _).mp hserved
      exact absurd hk (hnone k e)
    | ok t =>
      obtain ⟨hok, hscratch⟩ := exists_of_serveAll hs hserved
      refine ⟨hok, ?_⟩
      rw [Generator.depth, hscratch]
      exact Scratch.depth_of_serveAll _ _ hserved
  · intro hg
    refine ⟨fun other => other.depth_run_le g hg, ?_⟩
    intro hslotless
    by_cases hfits : g.depth + s.nesting ≤ 4
    · obtain ⟨hok, hscratch⟩ := exists_of_slotless hs hslotless hfits
      exact ⟨⟨fun _ => hfits, fun _ => hok⟩, fun _ => congrArg Scratch.depth hscratch,
        fun hdeep => absurd hfits (Nat.not_le.mpr hdeep)⟩
    · have hneeds := needs_of_slotless hslotless g.scratch hg
      have hrefused := (outcome_eq_error_iff hs).mpr (hneeds.trans (if_neg hfits))
      have hnot : ¬ ∃ reply, (s.run g).outcome = .ok reply := by
        rintro ⟨reply, hok⟩
        cases hok.symm.trans hrefused
      exact ⟨⟨fun hok => absurd hok hnot, fun h => absurd h hfits⟩, fun hok => absurd hok hnot,
        fun _ => hrefused⟩

/-- A loop of no rounds whose body releases more slots than the loops hold is refused the fifth call. Four
loops, one in the other, are served on an empty stack. -/
theorem refused_iff_stumbles_release :
    let released : Script := .block (.repeated 0)
      (.block (.repeated 1) (.act .pop (.act .pop .done)) .done) .done
    let four (body : Script) : Script := .block (.repeated 2) (.block (.repeated 0)
      (.block (.repeated 3) (.block (.repeated 1) body .done) .done) .done) .done
    let nested : Script := four (.block (.countDown 5) (.act (.copy 6 7) .done) .done)
    released.Propagates ∧ released.stackCalls = [.push, .push, .pop, .pop, .pop, .pop] ∧
      (released.run {}).outcome = .error .underflow ∧
      nested.Propagates ∧ nested.Slotless ∧ nested.nesting = 4 ∧
      (∃ reply, (nested.run {}).outcome = .ok reply) ∧ (nested.run {}).generator.depth = 0 := by
  intro released four nested
  have hreleased : released.Propagates := by decide
  have hnested : nested.Propagates := by decide
  have hslotless : nested.Slotless := by decide
  have hstumbles : Scratch.Stumbles 0 released.stackCalls 4 .underflow := by
    show Scratch.Stumbles 0 [.push, .push, .pop, .pop, .pop, .pop] 4 .underflow
    iterate 4 refine Scratch.stumbles_succ_iff.mpr ⟨by decide, ?_⟩
    exact Scratch.stumbles_zero_iff.mpr (by decide)
  have hrefused := ((refused_iff_stumbles released hreleased {}).1 .underflow).mpr ⟨4, hstumbles⟩
  obtain ⟨-, -, hfree, -⟩ := refused_iff_stumbles nested hnested {}
  obtain ⟨hserved, hdepth, -⟩ := (hfree (by decide)).2 hslotless
  have hok := hserved.mpr (by decide)
  exact ⟨hreleased, rfl, hrefused, hnested, hslotless, rfl, hok, hdepth hok⟩

end Script

end TapeMachine
