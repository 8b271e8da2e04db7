import TapeMachine.Proofs.JumpTargets
import TapeMachine.Proofs.Plan

/-!
# Generators that know where the head is

The cursor of a generator is where the machine leaves the head, if raw code neither moves the head nor
holds brackets. This is so for scripts that catch refusals too. A refusal inside a loop leaves a bracket
open, and a bracket that stands for the end of an outer loop would then end the inner one, at another cell.
But as raw code closes no bracket, one of them stays open for good, and the program cannot be decoded.

* `Generator.Climbs g h a b` : the code from `g` to `h` leads from `a` open brackets to `b`;
* `Generator.Settles g h` : from `g` to `h` the code of a routine was added, or a bracket was left open;
* `Script.Tame` : raw code neither moves the head nor holds brackets. All that such a script can come to is
  settled (`Script.settles_run`);
* `Generator.Tracks` : the program so far leaves the head at the cursor (`Script.tracks`).
-/

namespace TapeMachine

open Machine

/-! ## Open brackets -/

namespace Generator

/-- The code that was added from `g` to `h` leads from `a` open brackets to `b`, whatever is open around
them. -/
def Climbs (g h : Generator) (a b : Nat) : Prop :=
  ∃ code, h.program.symbols = g.program.symbols ++ code ∧ ∀ n, nest? code (n + a) = some (n + b)

variable {g h k : Generator} {a b c d : Nat} {r r' : Routine}

namespace Climbs

theorem trans (hg : g.Climbs h a b) (hh : h.Climbs k b c) : g.Climbs k a c := by
  obtain ⟨xs, hxs, hx⟩ := hg
  obtain ⟨ys, hys, hy⟩ := hh
  refine ⟨xs ++ ys, by rw [hys, hxs, List.append_assoc], fun n => ?_⟩
  rw [nest?_append, hx, Option.bind_some, hy]

theorem lift (hg : g.Climbs h a b) (d : Nat) : g.Climbs h (a + d) (b + d) := by
  obtain ⟨code, hcode, hnest⟩ := hg
  refine ⟨code, hcode, fun n => ?_⟩
  have hlifted := hnest (n + d)
  rw [Nat.add_assoc, Nat.add_comm d a, Nat.add_assoc, Nat.add_comm d b] at hlifted
  exact hlifted

theorem openLoop (g : Generator) (cell : Nat) : g.Climbs (g.openLoop cell) 0 1 := by
  refine ⟨_, Emits.symbols_openLoop g cell, fun n => ?_⟩
  rw [nest?_append, (LoopTree.balanced_symbols _).nest?_eq]
  rfl

theorem closeLoop (g : Generator) (cell : Nat) : g.Climbs (g.closeLoop cell) 1 0 := by
  refine ⟨_, Emits.symbols_closeLoop g cell, fun n => ?_⟩
  rw [nest?_append, (LoopTree.balanced_symbols _).nest?_eq]
  rfl

end Climbs

theorem Emits.climbs (hg : g.Emits h r d) : g.Climbs h 0 0 :=
  ⟨_, hg.symbols, (LoopTree.balanced_symbols _).nest?_eq⟩

/-- Brackets were opened from `g` to `h` and not closed. -/
def Leaks (g h : Generator) : Prop := ∃ n, 0 < n ∧ g.Climbs h 0 n

/-- Either the code of a routine was added from `g` to `h`, or a bracket was left open. -/
def Settles (g h : Generator) : Prop := (∃ r d, g.Emits h r d) ∨ g.Leaks h

theorem Settles.refl (g : Generator) : g.Settles g := .inl ⟨.done, g.depth, .refl g⟩

theorem Leaks.settles (hg : g.Leaks h) (hh : h.Settles k) : g.Leaks k := by
  obtain ⟨n, hn, hclimbs⟩ := hg
  rcases hh with ⟨r, d, hemits⟩ | ⟨m, -, hmore⟩
  · have hrest := hemits.climbs.lift n
    rw [Nat.zero_add] at hrest
    exact ⟨n, hn, hclimbs.trans hrest⟩
  · have hrest := hmore.lift n
    rw [Nat.zero_add] at hrest
    exact ⟨m + n, by omega, hclimbs.trans hrest⟩

theorem Settles.trans (hg : g.Settles h) (hh : h.Settles k) : g.Settles k := by
  rcases hg with ⟨r, d, hemits⟩ | hleaks
  · rcases hh with ⟨r', d', hemits'⟩ | ⟨n, hn, hclimbs⟩
    · exact .inl ⟨r ++ r', d', hemits.trans hemits'⟩
    · exact .inr ⟨n, hn, hemits.climbs.trans hclimbs⟩
  · exact .inr (hleaks.settles hh)

theorem Settles.abandoned {cell : Nat} (hb : (g.openLoop cell).Settles h) : g.Settles h :=
  .inr (Leaks.settles ⟨1, Nat.one_pos, Climbs.openLoop g cell⟩ hb)

/-- A loop that is closed. If a bracket was left open inside, one is open behind it. -/
theorem Settles.closed {cell : Nat} (hb : (g.openLoop cell).Settles h) :
    g.Settles (h.closeLoop cell) := by
  rcases hb with ⟨r, d, hemits⟩ | ⟨n, hn, hclimbs⟩
  · exact .inl ⟨_, d, hemits.countDown cell⟩
  · have hbody := hclimbs.lift 1
    have hclose := (Climbs.closeLoop h cell).lift n
    rw [Nat.zero_add] at hbody
    rw [Nat.add_comm 1 n, Nat.zero_add] at hclose
    exact .inr ⟨n, hn, ((Climbs.openLoop g cell).trans hbody).trans hclose⟩

end Generator

/-! ## Scripts that catch refusals -/

namespace Script

/-- Raw code of the script neither moves the head nor holds brackets. Refusals may be caught. -/
def Tame : Script → Prop := All Action.Plain (fun _ => True)

instance : DecidablePred Tame := decideAll _ _

end Script

theorem Run.settles_andThen {g : Generator} {r : Run} {next : Generator → Run}
    (hr : g.Settles r.generator) (hnext : ∀ h : Generator, h.Settles (next h).generator) :
    g.Settles (r.andThen next).generator := by
  unfold Run.andThen
  cases r.outcome with
  | error e => exact hr
  | ok reply => exact hr.trans (hnext r.generator)

theorem Action.settles_run {action : Action} (ha : action.Plain) (g : Generator) :
    g.Settles (action.run g).generator := by
  cases hr : (action.run g).outcome with
  | error e =>
    rw [Action.generator_of_error hr]
    exact .refl g
  | ok reply => exact .inl ⟨_, _, Action.emits_run ha hr⟩

namespace Block

variable {body : Generator → Run}

theorem settles_runCountDown (hb : ∀ g : Generator, g.Settles (body g).generator) (cell : Nat)
    (g : Generator) : g.Settles (runCountDown cell body g).generator := by
  have hbody := hb (g.openLoop cell)
  unfold runCountDown Run.andThen
  cases (body (g.openLoop cell)).outcome with
  | error e => exact hbody.abandoned
  | ok reply => exact hbody.closed

theorem settles_runRepeated (hb : ∀ g : Generator, g.Settles (body g).generator) (n : UInt8)
    (g : Generator) : g.Settles (runRepeated n body g).generator := by
  have hmove (cell : Nat) (h : Generator) : h.Settles (h.moveTo cell) :=
    .inl ⟨_, _, .moveTo h cell⟩
  unfold runRepeated
  split
  · exact .refl g
  · rename_i slot held hpush
    have hclaim : g.Settles held := .inl ⟨_, _, (Generator.Emits.push hpush).2⟩
    have hloop := settles_runCountDown (fun h => (hmove g.cursor h).trans (hb _)) slot held
    have hrelease (h : Generator) : h.Settles (Run.pop h).generator :=
      @Action.settles_run .pop trivial h
    refine Run.settles_andThen (Run.settles_andThen ?_ hrelease) fun h => hmove g.cursor h
    exact hclaim.trans hloop

theorem settles_run (hb : ∀ g : Generator, g.Settles (body g).generator) (head : Block)
    (g : Generator) : g.Settles (head.run body g).generator := by
  cases head with
  | countDown cell => exact settles_runCountDown hb cell g
  | countDownAccumulator => exact settles_runCountDown hb Layout.accumulator g
  | repeated n => exact settles_runRepeated hb n g
  | attempt =>
    have hbody := hb g
    unfold run Run.recover
    cases (body g).outcome <;> exact hbody

end Block

/-- Whatever is refused and caught in a script, it adds the code of a routine or leaves a bracket open. -/
theorem Script.settles_run {s : Script} (hs : s.Tame) : ∀ g : Generator,
    g.Settles (s.run g).generator := by
  induction s with
  | done => exact fun g => .refl g
  | act action rest ih =>
    intro g
    exact Run.settles_andThen (r := (action.run g).recorded _) (Action.settles_run hs.1 g) (ih hs.2)
  | block head body rest ihb ihr =>
    intro g
    exact Run.settles_andThen (r := (head.run _ g).recorded _)
      (Block.settles_run (ihb hs.2.1) head g) (ihr hs.2.2)

/-! ## The head behind a program -/

/-- The program so far leaves the head at the cursor, if it can be decoded and comes to its end. -/
def Generator.Tracks (g : Generator) (eof : EofPolicy) (inputs : List UInt8) : Prop :=
  ∀ ops t, Op.decode g.program.text = .ok ops → Reaches ops eof (start inputs) t → t.pc = ops.size →
    t.head = g.cursor

theorem Generator.Leaks.decode_ne {h : Generator} (hleaks : Leaks {} h) (ops : Array Op) :
    Op.decode h.program.text ≠ .ok ops := by
  intro hdecode
  obtain ⟨n, hn, code, hcode, hnest⟩ := hleaks
  have hsymbols : h.program.symbols = code := hcode
  have hopen : nest? h.program.symbols 0 = some n := by
    rw [hsymbols]
    simpa using hnest 0
  have hvalid := validate_of_decode hdecode
  rw [Program.ofText_text, (Program.validate_of_nest? hopen).1] at hvalid
  omega

theorem Generator.Emits.tracks {h : Generator} {r : Routine} {d : Nat} (he : Emits {} h r d)
    (eof : EofPolicy) (inputs : List UInt8) : h.Tracks eof inputs := by
  intro ops t hdecode hreach hpc
  have hsymbols : h.program.symbols = (r.code 0).symbols := he.symbols
  have hcode := LoopTree.decode_of_symbols h.program.text (r.code 0)
    (by rw [Program.ofText_text, hsymbols])
  cases hdecode.symm.trans hcode
  have hsize : t.pc = (r.code 0).symbols.length := by
    rw [hpc, LoopTree.length_symbols]
    simp
  have hhead := LoopTree.head_of_reaches (r.level_code 0) hreach
  rw [hsize, List.take_length] at hhead
  have hdrift := drift_of_walk (r.walk_code 0)
  have hcursor : h.cursor = r.after 0 := he.cursor
  omega

/-- A tame script knows where the head is. -/
theorem Script.tracks {s : Script} (hs : s.Tame) (eof : EofPolicy) (inputs : List UInt8) :
    (s.run {}).generator.Tracks eof inputs := by
  rcases Script.settles_run hs {} with ⟨r, d, hemits⟩ | hleaks
  · exact hemits.tracks eof inputs
  · exact fun ops _ hdecode => absurd hdecode (hleaks.decode_ne ops)

end TapeMachine
