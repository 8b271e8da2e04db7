import TapeMachine.Proofs.JumpTargets
import TapeMachine.Proofs.Plan

/-!
# Listings as programs

A listing that is written out is itself a text that the machine can decode. The blanks before a line,
the mark of a comment and the end of a line are no symbols, so what the machine finds there beyond the
program are the symbols in the comments, and nothing else.

* `Symbol.sift` : a text without all that is no symbol; `Symbol.AbsentFrom` : nothing of it is left;
* `Listing.notes` : the comments of a listing;
* `Listing.program_sublist_render`, `Listing.program_eq_ofText_render_iff` : the program is part of what
  is written out, and all of it just where no comment has a symbol;
* `Script.annotates_run` : the comments that a script leaves are those of the calls that it performed;
* `render_agrees_with_program` : so both run alike just where the comments are free of symbols.
-/

namespace TapeMachine

/-! ## Symbols in texts -/

namespace Symbol

/-- The characters of a text that stand for symbols. -/
def sift (text : String) : String := String.ofList (text.toList.filter (· ∈ all.map char))

/-- No character of the text stands for a symbol. -/
def AbsentFrom (text : String) : Prop := ∀ s : Symbol, s.char ∉ text.toList

instance (text : String) : Decidable (AbsentFrom text) :=
  decidable_of_iff (∀ s ∈ all, s.char ∉ text.toList) ⟨fun h s => h s (mem_all s), fun h s _ => h s⟩

theorem mem_chars_iff {c : Char} : c ∈ all.map char ↔ ∃ s, ofChar? c = some s := by
  constructor
  · intro h
    obtain ⟨s, -, rfl⟩ := List.mem_map.mp h
    exact ⟨s, ofChar?_char s⟩
  · rintro ⟨s, hs⟩
    exact List.mem_map.mpr ⟨s, mem_all s, char_of_ofChar? hs⟩

end Symbol

namespace Program

theorem text_injective : Function.Injective text :=
  Function.LeftInverse.injective ofText_text

/-- The program of a text spells out what the text has of symbols. -/
theorem text_ofText (text : String) : (ofText text).text = Symbol.sift text := by
  have hchars : ∀ cs : List Char, (cs.filterMap Symbol.ofChar?).map Symbol.char =
      cs.filter (· ∈ Symbol.all.map Symbol.char) := by
    intro cs
    induction cs with
    | nil => rfl
    | cons c cs ih =>
      cases hc : Symbol.ofChar? c with
      | none =>
        have hnot : c ∉ Symbol.all.map Symbol.char := by
          rw [Symbol.mem_chars_iff, hc]
          simp
        rw [List.filterMap_cons_none hc, ih, List.filter_cons_of_neg (by simpa using hnot)]
      | some s =>
        have hmem : c ∈ Symbol.all.map Symbol.char := Symbol.mem_chars_iff.mpr ⟨s, hc⟩
        rw [List.filterMap_cons_some hc, List.map_cons, ih, Symbol.char_of_ofChar? hc,
          List.filter_cons_of_pos (by simpa using hmem)]
  exact congrArg String.ofList (hchars text.toList)

theorem ofText_eq_empty_iff {text : String} : ofText text = {} ↔ Symbol.AbsentFrom text := by
  unfold ofText Symbol.AbsentFrom
  rw [Program.mk.injEq, List.filterMap_eq_nil_iff]
  constructor
  · intro h s hs
    have hnone := h s.char hs
    rw [Symbol.ofChar?_char] at hnone
    cases hnone
  · intro h c hc
    cases hs : Symbol.ofChar? c with
    | none => rfl
    | some s => exact absurd (Symbol.char_of_ofChar? hs ▸ hc) (h s)

end Program

theorem decode_of_ofText_eq {t u : String} {ops : Array Op} (h : Program.ofText t = Program.ofText u)
    (hdecode : Op.decode t = .ok ops) : Op.decode u = .ok ops := by
  obtain ⟨tree, htree, rfl⟩ := exists_tree_of_decode hdecode
  exact LoopTree.decode_of_symbols u tree (by rw [htree, h])

/-! ## Listings that are written out -/

def Line.note? (l : Line) : Option String :=
  match l.kind with
  | .code => none
  | .comment => some l.text

namespace Line

/-- What is written around the text of a line is no symbol. -/
theorem ofText_render (l : Line) : Program.ofText l.render = Program.ofText l.text := by
  have hblanks : Program.ofText (String.ofList (List.replicate l.indent ' ')) = {} := by
    rw [Program.ofText_eq_empty_iff]
    intro s hs
    rw [String.toList_ofList] at hs
    have hblank := (List.mem_replicate.mp hs).2
    cases s <;> cases hblank
  have hmark : Program.ofText (mark l.kind) = {} := by
    cases l.kind <;> rfl
  have hend : Program.ofText "\n" = {} := rfl
  unfold render
  rw [Program.ofText_append, Program.ofText_append, Program.ofText_append, hblanks, hmark, hend]
  show Program.mk _ = _
  simp

/-- A line of code is what it says, and a comment says nothing. -/
theorem program_eq_iff (l : Line) : l.program = Program.ofText l.text ↔
    ∀ note, l.note? = some note → Symbol.AbsentFrom note := by
  unfold program note?
  cases l.kind with
  | code => simp
  | comment =>
    simp only [Option.some.injEq, forall_eq']
    rw [← Program.ofText_eq_empty_iff]
    exact eq_comm

theorem program_sublist (l : Line) :
    l.program.symbols.Sublist (Program.ofText l.text).symbols := by
  unfold program
  cases l.kind with
  | code => exact List.Sublist.refl _
  | comment => exact List.nil_sublist _

end Line

namespace Listing

def notes (l : Listing) : List String := l.lines.toList.filterMap Line.note?

def Edit.code? : Edit → Option String
  | .emit code => some code
  | _ => none

def Edit.note? : Edit → Option String
  | .annotate note => some note
  | _ => none

theorem symbols_render (l : Listing) : (Program.ofText l.render).symbols =
    l.lines.toList.flatMap fun line => (Program.ofText line.text).symbols := by
  have hlines : ∀ lines : List Line, (Program.ofText (String.join (lines.map Line.render))).symbols =
      lines.flatMap fun line => (Program.ofText line.text).symbols := by
    intro lines
    induction lines with
    | nil => rfl
    | cons line lines ih =>
      rw [List.map_cons, String.join_cons, Program.ofText_append, Program.symbols_append, ih,
        Line.ofText_render, List.flatMap_cons]
  exact hlines l.lines.toList

theorem flatMap_program_sublist (lines : List Line) :
    (lines.flatMap (·.program.symbols)).Sublist
      (lines.flatMap fun line => (Program.ofText line.text).symbols) := by
  induction lines with
  | nil => exact List.Sublist.refl _
  | cons line lines ih => exact line.program_sublist.append ih

/-- The program is a part of what is written out. -/
theorem program_sublist_render (l : Listing) :
    l.program.symbols.Sublist (Program.ofText l.render).symbols := by
  rw [symbols_render]
  exact flatMap_program_sublist l.lines.toList

/-- It is all of what is written out just where no comment has a symbol. -/
theorem program_eq_ofText_render_iff (l : Listing) : l.program = Program.ofText l.render ↔
    ∀ note ∈ l.notes, Symbol.AbsentFrom note := by
  have hlines : ∀ lines : List Line, lines.flatMap (·.program.symbols) =
      lines.flatMap (fun line => (Program.ofText line.text).symbols) ↔
        ∀ line ∈ lines, line.program = Program.ofText line.text := by
    intro lines
    induction lines with
    | nil => simp
    | cons line lines ih =>
      have hline := line.program_sublist
      have hrest := flatMap_program_sublist lines
      rw [List.flatMap_cons, List.flatMap_cons, List.forall_mem_cons, ← ih]
      constructor
      · intro heq
        -- both parts are at most as long as what they are part of, so both are all of it
        have hlength := congrArg List.length heq
        have hle := hline.length_le
        have hle' := hrest.length_le
        rw [List.length_append, List.length_append] at hlength
        have hsymbols := hline.eq_of_length (by omega)
        exact ⟨congrArg Program.mk hsymbols, hrest.eq_of_length (by omega)⟩
      · rintro ⟨hfirst, hothers⟩
        rw [hfirst, hothers]
  have hprogram : l.program = Program.ofText l.render ↔
      ∀ line ∈ l.lines.toList, line.program = Program.ofText line.text := by
    rw [← hlines, ← symbols_render]
    exact ⟨fun h => congrArg Program.symbols h, fun h => congrArg Program.mk h⟩
  rw [hprogram]
  simp only [Line.program_eq_iff, notes, List.mem_filterMap, forall_exists_index, and_imp]
  exact ⟨fun h note line hline hnote => h line hline note hnote,
    fun h line hline note hnote => h note line hline hnote⟩

theorem text_eq_sift_render_iff (l : Listing) : l.program.text = Symbol.sift l.render ↔
    ∀ note ∈ l.notes, Symbol.AbsentFrom note := by
  rw [← Program.text_ofText, Program.text_injective.eq_iff, program_eq_ofText_render_iff]

@[simp] theorem notes_emit (l : Listing) (code : String) : (l.emit code).notes = l.notes := by
  unfold emit
  split
  · rfl
  · simp [notes, Line.note?]

@[simp] theorem notes_annotate (l : Listing) (note : String) :
    (l.annotate note).notes = l.notes ++ [note] := by
  simp [annotate, notes, Line.note?]

@[simp] theorem notes_indentMore (l : Listing) : l.indentMore.notes = l.notes := rfl

@[simp] theorem notes_indentLess (l : Listing) : l.indentLess.notes = l.notes := rfl

theorem notes_foldl_apply (es : List Edit) (l : Listing) :
    (es.foldl apply l).notes = l.notes ++ es.filterMap Edit.note? := by
  induction es generalizing l with
  | nil => simp
  | cons e es ih =>
    rw [List.foldl_cons, ih]
    cases e with
    | emit code => rw [apply, notes_emit, List.filterMap_cons_none rfl]
    | annotate note =>
      rw [apply, notes_annotate, List.append_assoc]
      rfl
    | indentMore => rfl
    | indentLess => rfl

/-- Changes add the symbols of their pieces of code, and no others. -/
theorem text_program_foldl_apply (es : List Edit) (l : Listing) : (es.foldl apply l).program.text =
    l.program.text ++ String.join ((es.filterMap Edit.code?).map Symbol.sift) := by
  induction es generalizing l with
  | nil => simp
  | cons e es ih =>
    rw [List.foldl_cons, ih]
    cases e with
    | emit code =>
      rw [apply, program_emit, Program.text_append, Program.text_ofText, String.append_assoc,
        ← String.join_cons]
      rfl
    | annotate note => rw [apply, program_annotate, List.filterMap_cons_none rfl]
    | indentMore => rfl
    | indentLess => rfl

end Listing

/-! ## Comments of scripts -/

def Action.note? : Action → Option String
  | annotate note => some note
  | _ => none

/-- The comment that the call of an entry added. -/
def Entry.note? (e : Entry) : Option String :=
  match e.call with
  | .act action => action.note?
  | .block _ => none

namespace Generator

def notes (g : Generator) : List String := g.listing.notes

@[simp] theorem notes_emit (g : Generator) (code : String) : (g.emit code).notes = g.notes :=
  g.listing.notes_emit code

@[simp] theorem notes_moveTo (g : Generator) (cell : Nat) : (g.moveTo cell).notes = g.notes :=
  g.notes_emit _

@[simp] theorem notes_set (g : Generator) (cell : Nat) (value : UInt8) :
    (g.set cell value).notes = g.notes := by
  simp [set, clear, increment]

@[simp] theorem notes_openLoop (g : Generator) (cell : Nat) : (g.openLoop cell).notes = g.notes := by
  unfold openLoop decrement
  rw [notes_emit]
  show ((g.moveTo cell).emit _).notes = g.notes
  rw [notes_emit, notes_moveTo]

@[simp] theorem notes_closeLoop (g : Generator) (cell : Nat) :
    (g.closeLoop cell).notes = g.notes := by
  unfold closeLoop
  rw [notes_emit]
  exact g.notes_moveTo cell

theorem notes_push {g h : Generator} {value : UInt8} {slot : Nat} (hpush : g.push value = .ok (slot, h)) :
    h.notes = g.notes := by
  rw [eq_of_push hpush]
  exact notes_set _ _ _

theorem notes_pop {g h : Generator} (hpop : g.pop = .ok h) : h.notes = g.notes := by
  rw [eq_of_pop hpop]
  rfl

end Generator

theorem Action.notes_run (action : Action) (g : Generator) :
    (action.run g).generator.notes = g.notes ++ action.note?.toList := by
  cases action with
  | annotate note => exact g.listing.notes_annotate note
  | push value =>
    simp only [run, Run.push]
    split
    · next hpush => exact (Generator.notes_push hpush).trans (List.append_nil _).symm
    · exact (List.append_nil _).symm
  | pop =>
    simp only [run, Run.pop]
    split
    · next hpop => exact (Generator.notes_pop hpop).trans (List.append_nil _).symm
    · exact (List.append_nil _).symm
  | top => simp [run, note?, Run.generator_top]
  | _ => simp [run, note?, Generator.increment, Generator.decrement, Generator.clear, Generator.read,
      Generator.write, Generator.readInto, Generator.writeFrom, Generator.copy, Generator.add,
      Generator.subtract]

namespace Run

/-- The comments that a run added to those of `g` are those of the calls in its journal. -/
def Annotates (g : Generator) (r : Run) : Prop :=
  r.generator.notes = g.notes ++ r.journal.filterMap Entry.note?

variable {g h : Generator} {r : Run} {next : Generator → Run}

theorem Annotates.of_nil (hnotes : r.generator.notes = g.notes) (hjournal : r.journal = []) :
    r.Annotates g := by
  rw [Annotates, hnotes, hjournal]
  exact (List.append_nil _).symm

theorem Annotates.congr (hr : r.Annotates g) (hnotes : g.notes = h.notes) : r.Annotates h := by
  rw [Annotates, ← hnotes]
  exact hr

theorem Annotates.andThen (hr : r.Annotates g) (hnext : ∀ h, (next h).Annotates h) :
    (r.andThen next).Annotates g := by
  unfold Run.andThen
  cases r.outcome with
  | error e => exact hr
  | ok reply =>
    have hrest := hnext r.generator
    unfold Annotates at hr hrest ⊢
    rw [hrest, hr, List.filterMap_append, List.append_assoc]

end Run

namespace Block

variable {body : Generator → Run}

theorem annotates_runCountDown (hb : ∀ g, (body g).Annotates g) (cell : Nat) (g : Generator) :
    (runCountDown cell body g).Annotates g := by
  have hopen := (hb (g.openLoop cell)).congr (g.notes_openLoop cell)
  exact hopen.andThen fun h => .of_nil (h.notes_closeLoop cell) rfl

theorem annotates_runRepeated (hb : ∀ g, (body g).Annotates g) (n : UInt8) (g : Generator) :
    (runRepeated n body g).Annotates g := by
  unfold runRepeated
  split
  · exact .of_nil rfl rfl
  · rename_i slot held hpush
    have hround (h : Generator) : (body (h.moveTo g.cursor)).Annotates h :=
      (hb _).congr (h.notes_moveTo g.cursor)
    have hloop := (annotates_runCountDown hround slot held).congr (Generator.notes_push hpush)
    have hrelease (h : Generator) : (Run.pop h).Annotates h :=
      .of_nil ((Action.notes_run .pop h).trans (List.append_nil _)) (Run.journal_pop h)
    exact (Run.Annotates.andThen (r := Run.after _ _) hloop hrelease).andThen
      fun h => .of_nil (h.notes_moveTo g.cursor) rfl

theorem annotates_run (hb : ∀ g, (body g).Annotates g) (head : Block) (g : Generator) :
    (head.run body g).Annotates g := by
  cases head with
  | countDown cell => exact annotates_runCountDown hb cell g
  | countDownAccumulator => exact annotates_runCountDown hb Layout.accumulator g
  | repeated n => exact annotates_runRepeated hb n g
  | attempt =>
    have hbody := hb g
    unfold run Run.recover
    cases (body g).outcome <;> exact hbody

end Block

/-- The comments that a script adds are those of its calls that were performed. -/
theorem Script.annotates_run (s : Script) : ∀ g : Generator, (s.run g).Annotates g := by
  induction s with
  | done => exact fun g => .of_nil rfl rfl
  | act action rest ih =>
    intro g
    refine Run.Annotates.andThen ?_ ih
    unfold Run.Annotates Run.recorded
    rw [action.journal_run]
    show (action.run g).generator.notes = _
    rw [action.notes_run]
    cases hnote : action.note? <;> simp [Entry.note?, hnote]
  | block head body rest ihb ihr =>
    intro g
    refine Run.Annotates.andThen ?_ ihr
    have hblock := head.annotates_run ihb g
    unfold Run.Annotates Run.recorded
    rw [List.filterMap_append, ← List.append_assoc]
    exact hblock.trans (List.append_nil _).symm

/-! ## Both texts at work -/

/-- The program of a listing can be found in what is written out, and is all that is found there just where
no comment has a symbol. Then both run alike. -/
theorem render_agrees_with_program :
    (∀ es : List Listing.Edit,
      let l := es.foldl Listing.apply {}
      l.program.text = String.join ((es.filterMap Listing.Edit.code?).map Symbol.sift) ∧
      l.program.text.toList.Sublist (Symbol.sift l.render).toList ∧
      (l.program.text = Symbol.sift l.render ↔
        ∀ note ∈ es.filterMap Listing.Edit.note?, Symbol.AbsentFrom note)) ∧
    ∀ script : Script,
      let g := (script.run {}).generator
      let notes := (script.run {}).journal.filterMap Entry.note?
      (Program.ofText g.program.text).text = g.program.text ∧
      (g.program.text = Symbol.sift g.render ↔ ∀ note ∈ notes, Symbol.AbsentFrom note) ∧
      ((∀ note ∈ notes, Symbol.AbsentFrom note) →
        (∀ ops, Op.decode g.render = .ok ops ↔ Op.decode g.program.text = .ok ops) ∧
        ∀ ops, Op.decode g.program.text = .ok ops → ∀ (inputs : List UInt8) (config : Config),
          execute g.render inputs config = execute g.program.text inputs config) := by
  refine ⟨fun es => ?_, fun script => ?_⟩
  · intro l
    have hnotes : l.notes = es.filterMap Listing.Edit.note? := Listing.notes_foldl_apply es {}
    have htext : l.program.text = "" ++ _ := Listing.text_program_foldl_apply es {}
    refine ⟨by rw [htext, String.empty_append], ?_, ?_⟩
    · rw [← Program.text_ofText, Program.toList_text, Program.toList_text]
      exact l.program_sublist_render.map Symbol.char
    · rw [l.text_eq_sift_render_iff, hnotes]
  · intro g notes
    have hnotes : g.listing.notes = notes := script.annotates_run {}
    have hiff : g.program.text = Symbol.sift g.render ↔ ∀ note ∈ notes, Symbol.AbsentFrom note := by
      rw [← hnotes]
      exact g.listing.text_eq_sift_render_iff
    refine ⟨by rw [Program.ofText_text], hiff, fun habsent => ?_⟩
    have hsame : Program.ofText g.render = Program.ofText g.program.text := by
      rw [Program.ofText_text]
      exact (g.listing.program_eq_ofText_render_iff.mpr (hnotes ▸ habsent)).symm
    refine ⟨fun ops => ⟨decode_of_ofText_eq hsame, decode_of_ofText_eq hsame.symm⟩, ?_⟩
    intro ops hdecode inputs config
    exact execute_of_decode_eq ((decode_of_ofText_eq hsame.symm hdecode).trans hdecode.symm) inputs config

/-- A loop below a comment: where the comment has no symbol the listing runs like the program, and a comma
in it is one symbol more. -/
theorem render_agrees_with_program_counting :
    let script (note : String) : Script :=
      .act (.annotate note) (.block (.countDown 1) (.act .write .done) .done)
    let g (note : String) : Generator := ((script note).run {}).generator
    (g "zähle, schreibe").program.text ≠ Symbol.sift (g "zähle, schreibe").render ∧
    (g "zähle").program.text = Symbol.sift (g "zähle").render ∧
    ∀ (inputs : List UInt8) (config : Config),
      execute (g "zähle").render inputs config =
        execute (g "zähle").program.text inputs config := by
  intro script g
  have hvalid : (Program.ofText (g "zähle").program.text).validate = .ok () := by
    rw [Program.ofText_text]
    rfl
  obtain ⟨-, hcomma, -⟩ := render_agrees_with_program.2 (script "zähle, schreibe")
  obtain ⟨-, hnone, hruns⟩ := render_agrees_with_program.2 (script "zähle")
  obtain ⟨-, ops, hdecode⟩ := decode_ofText_of_validate hvalid
  refine ⟨fun heq => ?_, hnone.mpr (by decide), (hruns (by decide)).2 ops hdecode⟩
  exact absurd (hcomma.mp heq) (by decide)

end TapeMachine
