import Mathlib.Order.Bounds.Basic
import TapeMachine.Proofs.Nesting

/-!
# The grammar of brackets

Which words nest can be said without a stack: the empty word, a symbol that is no bracket before such
a word, and such a word between brackets before another one. The bracket check keeps a stack instead.
What joins the two is what the stack says of the word read so far.

* `Balanced ss` : the words of the grammar;
* `Matches ss s e` : the brackets at `s` and `e` are partners, as what stands between them is a word of
  the grammar. In such a word every bracket has a partner (`Balanced.partnered`), and in any word loops
  are one inside the other or one behind the other (`Matches.nested_or_disjoint`);
* `Opened ss starts` : the loops that are open behind `ss` start at `starts`, innermost first. There is
  one law for each kind of symbol, and `Opened.explains_validateFrom` follows a check to its end;
* `Exceeds ss o`, `Unended ss s` : up to `o` more loops are ended than started; at `s` a loop is started
  that is not ended;
* `Program.validate_decides_grammar` : the check accepts the words of the grammar, and of any other
  word it blames the first end of a loop in excess or the last start of a loop without a partner.
-/

namespace TapeMachine

/-! ## Words whose brackets nest -/

/-- The words in which brackets nest. -/
inductive Balanced : List Symbol → Prop where
  | empty : Balanced []
  | basic (b : Basic) {rest : List Symbol} (hrest : Balanced rest) : Balanced (b.symbol :: rest)
  | loop {body rest : List Symbol} (hbody : Balanced body) (hrest : Balanced rest) :
      Balanced (.loopStart :: (body ++ .loopEnd :: rest))

namespace Balanced

variable {ss xs ys : List Symbol}

theorem append (hx : Balanced xs) (hy : Balanced ys) : Balanced (xs ++ ys) := by
  induction hx with
  | empty => exact hy
  | basic b _ ih => exact ih.basic b
  | loop hbody _ _ ih => simpa using hbody.loop ih

/-- The grammar ends no loop but its own and leaves none open. -/
theorem nest?_eq (h : Balanced ss) : ∀ n, nest? ss n = some n := by
  induction h with
  | empty => exact fun _ => rfl
  | basic b _ ih =>
    intro n
    rw [nest?_cons, b.nest?_symbol]
    exact ih n
  | loop _ _ ihb ihr =>
    intro n
    rw [nest?_cons]
    show nest? _ (n + 1) = _
    rw [nest?_append, ihb (n + 1), Option.bind_some, nest?_cons]
    exact ihr n

theorem exists_tree (h : Balanced ss) : ∃ t : LoopTree, t.symbols = ss := by
  induction h with
  | empty => exact ⟨.done, rfl⟩
  | basic b _ ih =>
    obtain ⟨t, rfl⟩ := ih
    exact ⟨.basic b t, rfl⟩
  | loop _ _ ihb ihr =>
    obtain ⟨t, rfl⟩ := ihb
    obtain ⟨u, rfl⟩ := ihr
    exact ⟨.loop t u, rfl⟩

end Balanced

theorem LoopTree.balanced_symbols (t : LoopTree) : Balanced t.symbols := by
  induction t with
  | done => exact .empty
  | basic b rest ih => exact ih.basic b
  | loop body rest ihb ihr => exact ihb.loop ihr

/-! ## Partners -/

theorem exists_split_of_getElem? {ss : List Symbol} {i : Nat} {c : Symbol} (h : ss[i]? = some c) :
    ∃ before after, ss = before ++ c :: after ∧ before.length = i := by
  obtain ⟨hi, rfl⟩ := List.getElem?_eq_some_iff.mp h
  refine ⟨ss.take i, ss.drop (i + 1), by simp, ?_⟩
  rw [List.length_take]
  omega

/-- The loop that starts at `s` ends at `e`: between the two the brackets nest. -/
structure Matches (ss : List Symbol) (s e : Nat) : Prop where
  lt : s < e
  start : ss[s]? = some .loopStart
  stop : ss[e]? = some .loopEnd
  inside : Balanced ((ss.take e).drop (s + 1))

namespace Matches

variable {ss : List Symbol} {s e : Nat}

theorem of_split {body : List Symbol} (before after : List Symbol) (hbody : Balanced body) :
    Matches (before ++ .loopStart :: (body ++ .loopEnd :: after)) before.length
      (before.length + body.length + 1) where
  lt := by omega
  start := by simp
  stop := by
    rw [List.getElem?_append_right (by omega), Nat.add_assoc, Nat.add_sub_cancel_left]
    simp
  inside := by
    have htake : (before ++ .loopStart :: (body ++ .loopEnd :: after)).take
        (before.length + body.length + 1) = before ++ .loopStart :: body := by
      rw [Nat.add_assoc, List.take_length_add_append]
      simp
    rw [htake, List.drop_length_add_append]
    exact hbody

/-- Partners divide a word: what stands before the loop, its body, and what stands behind it. -/
theorem exists_split (h : Matches ss s e) : ∃ before body after,
    ss = before ++ .loopStart :: (body ++ .loopEnd :: after) ∧ Balanced body ∧
      before.length = s ∧ before.length + body.length + 1 = e := by
  obtain ⟨hlt, hstart, hstop, hinside⟩ := h
  obtain ⟨front, after, rfl, rfl⟩ := exists_split_of_getElem? hstop
  rw [List.getElem?_append_left hlt] at hstart
  obtain ⟨before, body, rfl, rfl⟩ := exists_split_of_getElem? hstart
  rw [List.take_left, List.drop_length_add_append] at hinside
  refine ⟨before, body, after, by simp, hinside, rfl, ?_⟩
  rw [List.length_append, List.length_cons, Nat.add_assoc]

theorem lt_length (h : Matches ss s e) : e < ss.length := (List.getElem?_eq_some_iff.mp h.stop).1

/-- A start has one partner: the body of a loop tells where it ends. -/
theorem unique {e' : Nat} (h : Matches ss s e) (h' : Matches ss s e') : e = e' := by
  obtain ⟨before, body, after, rfl, hbody, rfl, rfl⟩ := h.exists_split
  obtain ⟨front, inner, rear, heq, hinner, hfront, rfl⟩ := h'.exists_split
  obtain ⟨-, hcons⟩ := List.append_inj heq hfront.symm
  obtain ⟨t, rfl⟩ := hbody.exists_tree
  obtain ⟨u, rfl⟩ := hinner.exists_tree
  obtain ⟨rfl, -⟩ := LoopTree.symbols_append_inj t u (.loopEnd :: after) (.loopEnd :: rear) rfl rfl
    (List.cons.inj hcons).2
  rw [hfront]

theorem within (h : Matches ss s e) (before after : List Symbol) :
    Matches (before ++ ss ++ after) (before.length + s) (before.length + e) := by
  obtain ⟨front, body, rear, rfl, hbody, rfl, rfl⟩ := h.exists_split
  have hsplit := of_split (before ++ front) (rear ++ after) hbody
  simpa [Nat.add_assoc] using hsplit

theorem behind (h : Matches ss s e) (before : List Symbol) (c : Symbol) (after : List Symbol) :
    Matches (before ++ c :: (ss ++ after)) (before.length + (s + 1)) (before.length + (e + 1)) := by
  have hwithin := h.within (before ++ [c]) after
  simpa [Nat.add_assoc, Nat.add_comm 1] using hwithin

end Matches

/-- At `i` stands a bracket that has a partner. -/
def Partnered (ss : List Symbol) (i : Nat) : Prop := ∃ s e, Matches ss s e ∧ (i = s ∨ i = e)

theorem Partnered.within {ss : List Symbol} {i : Nat} (h : Partnered ss i)
    (before after : List Symbol) : Partnered (before ++ ss ++ after) (before.length + i) := by
  obtain ⟨s, e, hm, hi⟩ := h
  exact ⟨_, _, hm.within before after, by omega⟩

/-- In a word of the grammar every bracket has a partner. -/
theorem Balanced.partnered {ss : List Symbol} (h : Balanced ss) : ∀ {i : Nat} {c : Symbol},
    ss[i]? = some c → c = .loopStart ∨ c = .loopEnd → Partnered ss i := by
  induction h with
  | empty =>
    intro i c hi
    cases hi
  | @basic b rest _ ih =>
    intro i c hi hc
    rcases i with _ | i
    · obtain rfl : b.symbol = c := Option.some.inj hi
      exact absurd hc (not_or.mpr ⟨b.symbol_ne_loopStart, b.symbol_ne_loopEnd⟩)
    · simpa [Nat.add_comm] using (ih hi hc).within [b.symbol] []
  | @loop body rest hbody _ ihb ihr =>
    intro i c hi hc
    have hloop := Matches.of_split [] rest hbody
    -- `i` is one of the two brackets of this loop, or it is in the body or behind the loop
    rcases i with _ | i
    · exact ⟨_, _, hloop, .inl rfl⟩
    rw [List.getElem?_cons_succ] at hi
    rcases Nat.lt_trichotomy i body.length with hlt | rfl | hgt
    · rw [List.getElem?_append_left hlt] at hi
      simpa [Nat.add_comm] using (ihb hi hc).within [.loopStart] (.loopEnd :: rest)
    · exact ⟨_, _, hloop, .inr (by simp)⟩
    · obtain ⟨j, rfl⟩ : ∃ j, i = body.length + (j + 1) := ⟨i - body.length - 1, by omega⟩
      rw [List.getElem?_append_right (by omega), Nat.add_sub_cancel_left,
        List.getElem?_cons_succ] at hi
      have hrest := (ihr hi hc).within (.loopStart :: (body ++ [.loopEnd])) []
      have hplace : (.loopStart :: (body ++ [.loopEnd]) : List Symbol).length + j =
          body.length + (j + 1) + 1 := by
        simp only [List.length_cons, List.length_append, List.length_nil]
        omega
      rw [hplace] at hrest
      simpa using hrest

theorem Balanced.exists_matches {ss : List Symbol} (h : Balanced ss) {s : Nat}
    (hs : ss[s]? = some .loopStart) : ∃ e, Matches ss s e := by
  obtain ⟨start, e, hm, rfl | rfl⟩ := h.partnered hs (.inl rfl)
  · exact ⟨e, hm⟩
  · cases hs.symm.trans hm.stop

/-- Of two loops the one that starts later starts behind the end of the other or ends before it. -/
theorem Matches.nested_or_disjoint {ss : List Symbol} {s e s' e' : Nat} (h : Matches ss s e)
    (h' : Matches ss s' e') (hlt : s < s') : e < s' ∨ e' < e := by
  by_cases hle : e < s'
  · exact .inl hle
  have hne : s' ≠ e := by
    rintro rfl
    cases h'.start.symm.trans h.stop
  right
  obtain ⟨before, body, after, rfl, hbody, rfl, rfl⟩ := h.exists_split
  obtain ⟨i, rfl⟩ : ∃ i, s' = before.length + (i + 1) := ⟨s' - before.length - 1, by omega⟩
  have hi : i < body.length := by omega
  have hstart := h'.start
  rw [List.getElem?_append_right (by omega), Nat.add_sub_cancel_left, List.getElem?_cons_succ,
    List.getElem?_append_left hi] at hstart
  -- the start in the body has its partner there, and it has no other
  obtain ⟨stop, hm⟩ := hbody.exists_matches hstart
  have hstop := hm.lt_length
  rw [h'.unique (hm.behind before .loopStart (.loopEnd :: after))]
  omega

/-! ## Loops that are open -/

/-- The loops that are open behind a word start at the given places, innermost first. Before the
outermost, between one and the next and behind the innermost stand words of the grammar. -/
inductive Opened : List Symbol → List Nat → Prop where
  | nested {ss : List Symbol} (h : Balanced ss) : Opened ss []
  | opened {before body : List Symbol} {starts : List Nat} (h : Opened before starts)
      (hbody : Balanced body) : Opened (before ++ .loopStart :: body) (before.length :: starts)

namespace Opened

variable {ss xs : List Symbol} {starts : List Nat}

theorem append (h : Opened ss starts) (hx : Balanced xs) : Opened (ss ++ xs) starts := by
  cases h with
  | nested h => exact .nested (h.append hx)
  | opened h hbody => simpa using h.opened (hbody.append hx)

theorem basic (h : Opened ss starts) (b : Basic) : Opened (ss ++ [b.symbol]) starts :=
  h.append (Balanced.empty.basic b)

theorem loopStart (h : Opened ss starts) : Opened (ss ++ [.loopStart]) (ss.length :: starts) :=
  h.opened .empty

/-- The end of a loop makes the innermost one a part of the word around it. -/
theorem loopEnd {start : Nat} (h : Opened ss (start :: starts)) :
    Opened (ss ++ [.loopEnd]) starts := by
  cases h with
  | opened h hbody => simpa using h.append (hbody.loop .empty)

theorem nest?_eq (h : Opened ss starts) : nest? ss 0 = some starts.length := by
  induction h with
  | nested h => exact h.nest?_eq 0
  | opened _ hbody ih =>
    rw [nest?_append, ih, Option.bind_some, nest?_cons]
    exact hbody.nest?_eq _

theorem balanced (h : Opened ss []) : Balanced ss := by
  cases h with
  | nested h => exact h

/-- What the outcome of a bracket check says of the word that was checked. -/
def Explains (ss : List Symbol) : Except BracketError Unit → Prop
  | .ok () => Opened ss []
  | .error (.unmatchedLoopStart o) => ∃ outer, Opened ss (o :: outer)
  | .error (.unmatchedLoopEnd o) =>
    ∃ before after, ss = before ++ .loopEnd :: after ∧ Opened before [] ∧ before.length = o

/-- A check keeps the places of the loops that are open, symbol by symbol, and so its outcome says
which are open in the end. -/
theorem explains_validateFrom (rest : List Symbol) : ∀ (before : List Symbol) (openings : List Nat),
    Opened before openings →
      Explains (before ++ rest) (Program.validateFrom openings before.length rest) := by
  induction rest with
  | nil =>
    intro before openings h
    rw [List.append_nil]
    rcases openings with _ | ⟨start, outer⟩
    · exact h
    · exact ⟨outer, h⟩
  | cons s rest ih =>
    intro before openings h
    -- the symbol goes over to the word read so far, where its law says what is open now
    have hsplit : before ++ s :: rest = before ++ [s] ++ rest := by simp
    have hlength : before.length + 1 = (before ++ [s]).length := by simp
    obtain ⟨b, rfl⟩ | rfl | rfl := s.basic_or_bracket
    · rw [Program.validateFrom_basic, hsplit, hlength]
      exact ih _ openings (h.basic b)
    · rw [Program.validateFrom, hsplit, hlength]
      exact ih _ _ h.loopStart
    · rcases openings with _ | ⟨start, outer⟩
      · exact ⟨before, rest, rfl, h, rfl⟩
      · simp only [Program.validateFrom]
        rw [hsplit, hlength]
        exact ih _ outer h.loopEnd

end Opened

/-- All outcomes of a check, with what they say of the word. -/
theorem Program.validate_cases (p : Program) :
    (p.validate = .ok () ∧ Balanced p.symbols) ∨
      (∃ before after, p.validate = .error (.unmatchedLoopEnd before.length) ∧
        p.symbols = before ++ .loopEnd :: after ∧ Balanced before) ∨
      ∃ before body n, p.validate = .error (.unmatchedLoopStart before.length) ∧
        p.symbols = before ++ .loopStart :: body ∧ Balanced body ∧ nest? p.symbols 0 = some n := by
  have h := Opened.explains_validateFrom p.symbols [] [] (.nested .empty)
  rw [List.nil_append, List.length_nil, ← validate] at h
  rcases hv : p.validate with (o | o) | ⟨⟩ <;> rw [hv] at h
  · obtain ⟨outer, hopened⟩ := h
    have hnest := hopened.nest?_eq
    generalize p.symbols = ss at hopened hnest
    cases hopened with
    | @opened before body _ _ hbody => exact .inr (.inr ⟨before, body, _, rfl, rfl, hbody, hnest⟩)
  · obtain ⟨before, after, hss, hbefore, rfl⟩ := h
    exact .inr (.inl ⟨before, after, rfl, hss, hbefore.balanced⟩)
  · exact .inl ⟨rfl, Opened.balanced h⟩

/-! ## Which bracket is blamed -/

/-- Up to the end of a loop at `o`, more loops are ended than were started. -/
def Exceeds (ss : List Symbol) (o : Nat) : Prop :=
  o < ss.length ∧ (ss.take (o + 1)).count .loopStart < (ss.take (o + 1)).count .loopEnd

/-- At `s` starts a loop that has no end. -/
def Unended (ss : List Symbol) (s : Nat) : Prop :=
  ss[s]? = some .loopStart ∧ ¬ ∃ e, Matches ss s e

theorem not_exceeds_of_nest? {ss : List Symbol} {n : Nat} (h : nest? ss 0 = some n) (o : Nat) :
    ¬ Exceeds ss o := by
  rintro ⟨-, hlt⟩
  exact Nat.not_le_of_lt hlt (count_take_of_nest? h (o + 1))

theorem Balanced.not_unended {ss : List Symbol} (h : Balanced ss) (s : Nat) : ¬ Unended ss s := by
  rintro ⟨hs, hnone⟩
  exact hnone (h.exists_matches hs)

/-- The end of a loop behind a word of the grammar is the first in excess. -/
theorem Balanced.isLeast_exceeds {before : List Symbol} (h : Balanced before)
    (after : List Symbol) : IsLeast {k | Exceeds (before ++ .loopEnd :: after) k} before.length := by
  have hcount := (count_of_nest? (h.nest?_eq 0)).1
  constructor
  · have htake : (before ++ .loopEnd :: after).take (before.length + 1) = before ++ [.loopEnd] := by
      rw [List.take_length_add_append]
      rfl
    refine ⟨by simp, ?_⟩
    rw [htake, List.count_append, List.count_append]
    show _ + 0 < _ + 1
    omega
  · rintro k ⟨-, hlt⟩
    by_contra hk
    rw [List.take_append_of_le_length (by omega)] at hlt
    have hle := count_take_of_nest? (h.nest?_eq 0) (k + 1)
    omega

/-- The start of a loop before a word of the grammar has no partner: the partner would be one end too
many in this word. Behind it every start has a partner. -/
theorem Balanced.isGreatest_unended {body : List Symbol} (before : List Symbol)
    (h : Balanced body) : IsGreatest {s | Unended (before ++ .loopStart :: body) s} before.length := by
  constructor
  · refine ⟨by simp, ?_⟩
    rintro ⟨e, hm⟩
    obtain ⟨front, inner, rear, heq, hinner, hfront, -⟩ := hm.exists_split
    obtain ⟨-, hcons⟩ := List.append_inj heq hfront.symm
    obtain ⟨-, rfl⟩ := List.cons.inj hcons
    have hbody := h.nest?_eq 0
    rw [nest?_append, hinner.nest?_eq 0] at hbody
    cases hbody
  · rintro s ⟨hs, hnone⟩
    by_contra hlt
    obtain ⟨i, rfl⟩ : ∃ i, s = before.length + (i + 1) := ⟨s - before.length - 1, by omega⟩
    rw [List.getElem?_append_right (by omega), Nat.add_sub_cancel_left,
      List.getElem?_cons_succ] at hs
    refine h.not_unended i ⟨hs, ?_⟩
    rintro ⟨e, hm⟩
    have hbehind := hm.behind before .loopStart []
    rw [List.append_nil] at hbehind
    exact hnone ⟨_, hbehind⟩

theorem isGreatest_unended_of_drop {ss : List Symbol} {o : Nat} (ho : ss[o]? = some .loopStart)
    (h : Balanced (ss.drop (o + 1))) : IsGreatest {s | Unended ss s} o := by
  obtain ⟨before, body, rfl, rfl⟩ := exists_split_of_getElem? ho
  rw [List.drop_length_add_append] at h
  exact Balanced.isGreatest_unended before h

namespace Program

variable {p : Program} {o : Nat}

theorem validate_eq_ok_iff : p.validate = .ok () ↔ Balanced p.symbols := by
  rcases p.validate_cases with ⟨hv, h⟩ | ⟨before, after, hv, hp, h⟩ | ⟨before, body, n, hv, hp, h, -⟩
  · exact iff_of_true hv h
  · refine iff_of_false (by simp [hv]) fun hbal => ?_
    exact not_exceeds_of_nest? (hbal.nest?_eq 0) _ (hp ▸ (h.isLeast_exceeds after).1)
  · refine iff_of_false (by simp [hv]) fun hbal => ?_
    exact hbal.not_unended _ (hp ▸ (h.isGreatest_unended before).1)

theorem validate_eq_loopEnd_iff :
    p.validate = .error (.unmatchedLoopEnd o) ↔ IsLeast {k | Exceeds p.symbols k} o := by
  rcases p.validate_cases with ⟨hv, h⟩ | ⟨before, after, hv, hp, h⟩ | ⟨before, body, n, hv, hp, -, hn⟩
  · refine iff_of_false (by simp [hv]) fun ho => ?_
    exact not_exceeds_of_nest? (h.nest?_eq 0) o ho.1
  · have hleast := h.isLeast_exceeds after
    rw [← hp] at hleast
    rw [hv]
    constructor
    · intro heq
      cases heq
      exact hleast
    · intro ho
      rw [hleast.unique ho]
  · refine iff_of_false (by simp [hv]) fun ho => ?_
    exact not_exceeds_of_nest? hn o ho.1

theorem validate_eq_loopStart_iff : p.validate = .error (.unmatchedLoopStart o) ↔
    (∀ k, ¬ Exceeds p.symbols k) ∧ IsGreatest {s | Unended p.symbols s} o := by
  rcases p.validate_cases with ⟨hv, h⟩ | ⟨before, after, hv, hp, h⟩ | ⟨before, body, n, hv, hp, h, hn⟩
  · refine iff_of_false (by simp [hv]) fun ⟨_, ho⟩ => ?_
    exact h.not_unended o ho.1
  · refine iff_of_false (by simp [hv]) fun ⟨hnone, _⟩ => ?_
    exact hnone before.length (hp ▸ (h.isLeast_exceeds after).1)
  · have hgreatest := h.isGreatest_unended before
    rw [← hp] at hgreatest
    rw [hv]
    constructor
    · intro heq
      cases heq
      exact ⟨not_exceeds_of_nest? hn, hgreatest⟩
    · rintro ⟨-, ho⟩
      rw [hgreatest.unique ho]

/-- A start of a loop that is blamed has only a word of the grammar behind it. -/
theorem balanced_drop_of_validate (h : p.validate = .error (.unmatchedLoopStart o)) :
    p.symbols[o]? = some .loopStart ∧ Balanced (p.symbols.drop (o + 1)) := by
  rcases p.validate_cases with ⟨hv, -⟩ | ⟨before, after, hv, -⟩ | ⟨before, body, n, hv, hp, hbody, -⟩
  · cases h.symm.trans hv
  · cases h.symm.trans hv
  · cases h.symm.trans hv
    rw [hp, List.drop_length_add_append]
    exact ⟨by simp, hbody⟩

/-- The bracket check decides the grammar, and of every other word it blames the first end in excess or,
if there is none, the last start without an end. -/
theorem validate_decides_grammar (p : Program) :
    (p.validate = .ok () ↔ Balanced p.symbols) ∧
    (∀ o, p.validate = .error (.unmatchedLoopEnd o) ↔ IsLeast {k | Exceeds p.symbols k} o) ∧
    (∀ o, p.validate = .error (.unmatchedLoopStart o) ↔
      (∀ k, ¬ Exceeds p.symbols k) ∧ IsGreatest {s | Unended p.symbols s} o) ∧
    ∀ o, p.validate = .error (.unmatchedLoopStart o) ↔
      (∀ k, ¬ Exceeds p.symbols k) ∧ p.symbols[o]? = some .loopStart ∧
        Balanced (p.symbols.drop (o + 1)) := by
  refine ⟨validate_eq_ok_iff, fun o => validate_eq_loopEnd_iff,
    fun o => validate_eq_loopStart_iff, fun o => ⟨fun h => ?_, ?_⟩⟩
  · exact ⟨(validate_eq_loopStart_iff.mp h).1, balanced_drop_of_validate h⟩
  · rintro ⟨hnone, hstart, hbody⟩
    exact validate_eq_loopStart_iff.mpr ⟨hnone, isGreatest_unended_of_drop hstart hbody⟩

/-- Of two loops that are open in the end the inner one is blamed, though a loop in it was ended. -/
example : (ofText "[+[>[-]<").validate = .error (.unmatchedLoopStart 2) := rfl

end Program

end TapeMachine
