import TapeMachine.Generator
import TapeMachine.Proofs.LoopTree

/-!
# Open loops of a listing

While code is generated some of its loops are open. How many there are can be read off the symbols,
and the indentation is to follow this number line by line.

* `unmatched ss` : the number of loops that are started among the symbols and not ended;
* `nest? ss n` : the number of loops open behind the symbols, where `n` are open before them; none
  where a loop is ended that was not started (`count_take_of_nest?`);
* `validate_of_nest?` : what the bracket check says of symbols that end no loop too many;
* `Listing.Nests l n` : in `l` there are `n` open loops, and every line is indented by the loops that
  are open there. Code without open ends keeps this (`Nests.emit`), the start and the end of a loop
  change the number by one (`Nests.openBracket`, `Nests.closeBracket`);
* `Generator.Nests` : the same of a generator, with one law for each of its operations.
-/

namespace TapeMachine

/-! ## Symbols -/

/-- The number of loops open behind a symbol, where `n` are open before it. The end of no loop is
passed over. -/
def Symbol.openAfter (n : Nat) : Symbol → Nat
  | loopStart => n + 1
  | loopEnd => n - 1
  | _ => n

/-- The number of starts of loops that have no end. -/
def unmatched (ss : List Symbol) : Nat := ss.foldl Symbol.openAfter 0

/-- The number of loops open behind a symbol; none where it ends no loop. -/
def Symbol.nest? : Nat → Symbol → Option Nat
  | n, loopStart => some (n + 1)
  | 0, loopEnd => none
  | n + 1, loopEnd => some n
  | n, _ => some n

/-- The number of loops open behind symbols; none where one of them ends no loop. -/
def nest? (ss : List Symbol) (n : Nat) : Option Nat := ss.foldlM Symbol.nest? n

theorem nest?_append (xs ys : List Symbol) (n : Nat) :
    nest? (xs ++ ys) n = (nest? xs n).bind (nest? ys) :=
  List.foldlM_append

theorem nest?_cons (s : Symbol) (ss : List Symbol) (n : Nat) :
    nest? (s :: ss) n = (s.nest? n).bind (nest? ss) :=
  List.foldlM_cons

theorem Basic.nest?_symbol (b : Basic) (n : Nat) : b.symbol.nest? n = some n := by
  cases b <;> cases n <;> rfl

theorem nest?_of_bracketless {ss : List Symbol}
    (h : ∀ s ∈ ss, s ≠ .loopStart ∧ s ≠ .loopEnd) (n : Nat) : nest? ss n = some n := by
  induction ss with
  | nil => rfl
  | cons s ss ih =>
    obtain ⟨hstart, hend⟩ := h s List.mem_cons_self
    obtain ⟨b, rfl⟩ | rfl | rfl := s.basic_or_bracket
    · rw [nest?_cons, b.nest?_symbol]
      exact ih fun s hs => h s (List.mem_cons_of_mem _ hs)
    · exact absurd rfl hstart
    · exact absurd rfl hend

theorem Symbol.count_of_nest? {s : Symbol} {a b : Nat} (h : s.nest? a = some b) :
    b + [s].count .loopEnd = a + [s].count .loopStart ∧ s.openAfter a = b := by
  obtain ⟨c, rfl⟩ | rfl | rfl := s.basic_or_bracket
  · rw [c.nest?_symbol] at h
    cases h
    cases c <;> exact ⟨rfl, rfl⟩
  · cases h
    exact ⟨rfl, rfl⟩
  · cases a with
    | zero => cases h
    | succ a =>
      cases h
      exact ⟨rfl, rfl⟩

theorem count_of_nest? {ss : List Symbol} : ∀ {a b : Nat}, nest? ss a = some b →
    b + ss.count .loopEnd = a + ss.count .loopStart ∧ ss.foldl Symbol.openAfter a = b := by
  induction ss with
  | nil =>
    intro a b h
    cases h
    exact ⟨rfl, rfl⟩
  | cons s ss ih =>
    intro a b h
    rw [nest?_cons] at h
    obtain ⟨c, hc, hb⟩ := Option.bind_eq_some_iff.mp h
    obtain ⟨hcount, hopen⟩ := Symbol.count_of_nest? hc
    obtain ⟨hrest, hfold⟩ := ih hb
    have hsplit (x : Symbol) : ([s] ++ ss).count x = [s].count x + ss.count x :=
      List.count_append
    refine ⟨?_, ?_⟩
    · rw [← List.singleton_append, hsplit, hsplit]
      omega
    · rw [List.foldl_cons, hopen, hfold]

theorem unmatched_of_nest? {ss : List Symbol} {n : Nat} (h : nest? ss 0 = some n) :
    unmatched ss = n :=
  (count_of_nest? h).2

theorem count_take_of_nest? {ss : List Symbol} {n : Nat} (h : nest? ss 0 = some n) (k : Nat) :
    (ss.take k).count .loopEnd ≤ (ss.take k).count .loopStart := by
  rw [← List.take_append_drop k ss, nest?_append] at h
  obtain ⟨c, hc, -⟩ := Option.bind_eq_some_iff.mp h
  have hcount := (count_of_nest? hc).1
  omega

/-- The check of symbols that end no loop too many comes to their end, with the loops that are open
there. -/
theorem Program.validateFrom_of_nest? (ss : List Symbol) : ∀ (openings : List Nat) (offset n : Nat),
    nest? ss openings.length = some n → ∃ left : List Nat, left.length = n ∧
      validateFrom openings offset ss = validateFrom left (offset + ss.length) [] := by
  induction ss with
  | nil =>
    intro openings offset n h
    cases h
    exact ⟨openings, rfl, rfl⟩
  | cons s ss ih =>
    intro openings offset n h
    have hlength : offset + (s :: ss).length = offset + 1 + ss.length := by
      rw [List.length_cons]
      omega
    rw [nest?_cons] at h
    rw [hlength]
    obtain ⟨b, rfl⟩ | rfl | rfl := s.basic_or_bracket
    · rw [b.nest?_symbol] at h
      rw [validateFrom_basic]
      exact ih openings (offset + 1) n h
    · exact ih (offset :: openings) (offset + 1) n h
    · cases openings with
      | nil => cases h
      | cons start outer => exact ih outer (offset + 1) n h

/-- Where no loop is ended too many, the check passes if none is left open, and blames the start of a
loop otherwise. -/
theorem Program.validate_of_nest? {p : Program} {n : Nat} (h : nest? p.symbols 0 = some n) :
    (p.validate = .ok () ↔ n = 0) ∧
      (n ≠ 0 → ∃ offset, p.validate = .error (.unmatchedLoopStart offset)) := by
  obtain ⟨left, rfl, hvalid⟩ := validateFrom_of_nest? p.symbols [] 0 n h
  rw [validate, hvalid]
  cases left with
  | nil => exact ⟨⟨fun _ => rfl, fun _ => rfl⟩, fun hn => absurd rfl hn⟩
  | cons start outer => exact ⟨⟨nofun, nofun⟩, fun _ => ⟨start, rfl⟩⟩

/-! ## Pieces of code -/

/-- Code that opens no loop and closes none but its own. -/
def Closed (code : String) : Prop := ∀ n, nest? (Program.ofText code).symbols n = some n

theorem closed_of_bracketless {code : String} (h : ∀ c ∈ code.toList, c ≠ '[' ∧ c ≠ ']') :
    Closed code := by
  refine nest?_of_bracketless fun s hs => ?_
  obtain ⟨c, hc, hcs⟩ := List.mem_filterMap.mp hs
  obtain rfl := Symbol.char_of_ofChar? hcs
  obtain ⟨hstart, hend⟩ := h s.char hc
  exact ⟨fun e => hstart (e ▸ rfl), fun e => hend (e ▸ rfl)⟩

theorem Basic.closed_times (b : Basic) (n : Nat) : Closed (b.symbol.times n) := by
  refine closed_of_bracketless fun c hc => ?_
  obtain rfl : c = b.symbol.char := by
    rw [Symbol.toList_times] at hc
    exact List.eq_of_mem_replicate hc
  cases b <;> decide

theorem Basic.closed_text (b : Basic) : Closed b.symbol.text := b.closed_times 1

theorem closed_seek (source target : Nat) : Closed (Cursor.seek source target) := by
  unfold Cursor.seek
  split
  · exact Basic.right.closed_times _
  · exact Basic.left.closed_times _

theorem closed_clear : Closed "[-]" := fun _ => rfl

/-! ## Listings -/

def Line.ends (l : Line) : Bool := l.kind = .code && l.text = Symbol.loopEnd.text

namespace Listing

def symbolsBefore (l : Listing) (i : Nat) : List Symbol :=
  (l.lines.toList.take i).flatMap (·.program.symbols)

/-- The number of loops open at the `i`-th line: before it, but behind it where it ends a loop. -/
def openAt (l : Listing) (i : Nat) (line : Line) : Nat :=
  unmatched (l.symbolsBefore (if line.ends then i + 1 else i))

/-- Every line is indented by the loops that are open there. -/
def Aligned (l : Listing) : Prop :=
  ∀ i line, l.lines[i]? = some line → line.indent = indentStep * l.openAt i line

/-- There are `n` open loops in the listing, and line by line it is indented by the open loops. -/
structure Nests (l : Listing) (n : Nat) : Prop where
  symbols : nest? l.program.symbols 0 = some n
  indent : l.indent = indentStep * n
  aligned : l.Aligned

variable {l : Listing} {n : Nat}

theorem symbolsBefore_push (l : Listing) (line : Line) (i : Nat) (hi : i ≤ l.lines.size) :
    { l with lines := l.lines.push line }.symbolsBefore i = l.symbolsBefore i := by
  simp only [symbolsBefore, Array.toList_push]
  rw [List.take_append_of_le_length (by simpa using hi)]

theorem symbolsBefore_size (l : Listing) : l.symbolsBefore l.lines.size = l.program.symbols := by
  rw [symbolsBefore, List.take_of_length_le (by simp)]
  rfl

theorem Aligned.push (h : l.Aligned) (line : Line) (hline : line.indent = indentStep *
    { l with lines := l.lines.push line }.openAt l.lines.size line) :
    { l with lines := l.lines.push line }.Aligned := by
  intro i other hi
  simp only [Array.getElem?_push] at hi
  split at hi
  · rename_i heq
    cases hi
    rw [heq]
    exact hline
  · have hlt : i < l.lines.size := (Array.getElem?_eq_some_iff.mp hi).1
    rw [h i other hi, openAt, openAt, symbolsBefore_push]
    split <;> omega

theorem openAt_push_of_not_ends {line : Line} (h : line.ends = false) :
    { l with lines := l.lines.push line }.openAt l.lines.size line = unmatched l.program.symbols := by
  rw [openAt, h, if_neg (by simp), symbolsBefore_push l line _ (Nat.le_refl _), symbolsBefore_size]

theorem openAt_push_of_ends {line : Line} (h : line.ends = true) :
    { l with lines := l.lines.push line }.openAt l.lines.size line =
      unmatched { l with lines := l.lines.push line }.program.symbols := by
  rw [openAt, h, if_pos rfl, ← symbolsBefore_size, Array.size_push]

namespace Nests

theorem empty : Nests {} 0 := ⟨rfl, rfl, nofun⟩

theorem annotate (h : l.Nests n) (note : String) : (l.annotate note).Nests n where
  symbols := by
    rw [program_annotate]
    exact h.symbols
  indent := h.indent
  aligned := by
    refine h.aligned.push _ ?_
    rw [openAt_push_of_not_ends rfl, unmatched_of_nest? h.symbols]
    exact h.indent

theorem emit (h : l.Nests n) {code : String} (hcode : Closed code) : (l.emit code).Nests n where
  symbols := by
    rw [program_emit, Program.symbols_append, nest?_append, h.symbols]
    exact hcode n
  indent := by
    unfold Listing.emit
    split <;> exact h.indent
  aligned := by
    unfold Listing.emit
    split
    · exact h.aligned
    · have hends : Line.ends ⟨l.indent, .code, code⟩ = false := by
        have hne : code ≠ Symbol.loopEnd.text := by
          rintro rfl
          cases hcode 0
        simp [Line.ends, hne]
      refine h.aligned.push _ ?_
      rw [openAt_push_of_not_ends hends, unmatched_of_nest? h.symbols]
      exact h.indent

theorem openBracket (h : l.Nests n) : (l.emit Symbol.loopStart.text).indentMore.Nests (n + 1) where
  symbols := by
    rw [program_indentMore, program_emit, Program.symbols_append, nest?_append, h.symbols]
    rfl
  indent := by
    show l.indent + indentStep = _
    rw [h.indent, Nat.mul_succ]
  aligned := by
    refine h.aligned.push ⟨l.indent, .code, Symbol.loopStart.text⟩ ?_
    rw [openAt_push_of_not_ends rfl, unmatched_of_nest? h.symbols]
    exact h.indent

theorem closeBracket (h : l.Nests (n + 1)) : (l.indentLess.emit Symbol.loopEnd.text).Nests n := by
  have hindent : l.indent - indentStep = indentStep * n := by
    rw [h.indent, Nat.mul_succ, Nat.add_sub_cancel]
  have hsymbols : nest? (l.indentLess.emit Symbol.loopEnd.text).program.symbols 0 = some n := by
    rw [program_emit, program_indentLess, Program.symbols_append, nest?_append, h.symbols]
    rfl
  refine ⟨hsymbols, hindent, ?_⟩
  -- the line counts among the lines before it, as its loop is no longer open
  have haligned : l.indentLess.Aligned := h.aligned
  refine haligned.push _ ?_
  rw [openAt_push_of_ends (by simp [Line.ends])]
  exact hindent.trans (congrArg (indentStep * ·) (unmatched_of_nest? hsymbols).symm)

end Nests

end Listing

/-! ## Generators -/

namespace Generator

def Nests (g : Generator) (n : Nat) : Prop := g.listing.Nests n

namespace Nests

variable {g : Generator} {n : Nat}

theorem emit (h : g.Nests n) {code : String} (hcode : Closed code) : (g.emit code).Nests n :=
  Listing.Nests.emit h hcode

theorem moveTo (h : g.Nests n) (cell : Nat) : (g.moveTo cell).Nests n :=
  h.emit (closed_seek g.cursor cell)

theorem increment (h : g.Nests n) (k : Nat) : (g.increment k).Nests n :=
  h.emit (Basic.increment.closed_times k)

theorem decrement (h : g.Nests n) (k : Nat) : (g.decrement k).Nests n :=
  h.emit (Basic.decrement.closed_times k)

theorem clear (h : g.Nests n) (cell : Nat) : (g.clear cell).Nests n :=
  (h.moveTo cell).emit closed_clear

theorem set (h : g.Nests n) (cell : Nat) (value : UInt8) : (g.set cell value).Nests n :=
  (h.clear cell).increment value.toNat

theorem openLoop (h : g.Nests n) (cell : Nat) : (g.openLoop cell).Nests (n + 1) := by
  have hopen : Nests { (g.moveTo cell).emit Symbol.loopStart.text with
      listing := ((g.moveTo cell).emit Symbol.loopStart.text).listing.indentMore } (n + 1) :=
    Listing.Nests.openBracket (h.moveTo cell)
  exact hopen.decrement 1

theorem closeLoop (h : g.Nests (n + 1)) (cell : Nat) : (g.closeLoop cell).Nests n :=
  Listing.Nests.closeBracket (h.moveTo cell)

theorem push {h : Generator} {slot : Nat} {value : UInt8} (hg : g.Nests n)
    (hpush : g.push value = .ok (slot, h)) : h.Nests n := by
  unfold Generator.push at hpush
  split at hpush
  · next slot' scratch _ =>
    have hscratch : Nests { g with scratch } n := hg
    cases hpush
    exact hscratch.set slot value
  · cases hpush

theorem pop {h : Generator} (hg : g.Nests n) (hpop : g.pop = .ok h) : h.Nests n := by
  unfold Generator.pop at hpop
  split at hpop
  · cases hpop
    exact hg
  · cases hpop

end Nests

end Generator

end TapeMachine
