import TapeMachine.Program

/-!
# Loop trees

A program whose brackets nest is a tree: symbols that are no brackets stand one after the other, and
a loop holds a tree of its own.

* `LoopTree.symbols` : the program that a tree is written as; no two trees are written alike
  (`symbols_inj`);
* `LoopTree.append` : one tree after another, as `symbols_append` says;
* `exists_symbols_of_validate` : every program that passes the bracket check is written from a tree.
-/

namespace TapeMachine

/-- A symbol that is no bracket. -/
inductive Basic where
  | right
  | left
  | increment
  | decrement
  | write
  | read
  deriving DecidableEq, Repr

def Basic.symbol : Basic → Symbol
  | right => .right
  | left => .left
  | increment => .increment
  | decrement => .decrement
  | write => .write
  | read => .read

theorem Basic.symbol_injective {a b : Basic} (h : a.symbol = b.symbol) : a = b := by
  cases a <;> cases b <;> first | rfl | cases h

theorem Basic.symbol_ne_loopEnd (b : Basic) : b.symbol ≠ .loopEnd := by
  cases b <;> nofun

theorem Basic.symbol_ne_loopStart (b : Basic) : b.symbol ≠ .loopStart := by
  cases b <;> nofun

theorem Symbol.basic_or_bracket (s : Symbol) :
    (∃ b : Basic, s = b.symbol) ∨ s = .loopStart ∨ s = .loopEnd := by
  cases s with
  | right => exact .inl ⟨.right, rfl⟩
  | left => exact .inl ⟨.left, rfl⟩
  | increment => exact .inl ⟨.increment, rfl⟩
  | decrement => exact .inl ⟨.decrement, rfl⟩
  | write => exact .inl ⟨.write, rfl⟩
  | read => exact .inl ⟨.read, rfl⟩
  | loopStart => exact .inr (.inl rfl)
  | loopEnd => exact .inr (.inr rfl)

theorem Program.validateFrom_basic (openings : List Nat) (offset : Nat) (b : Basic)
    (rest : List Symbol) :
    validateFrom openings offset (b.symbol :: rest) = validateFrom openings (offset + 1) rest := by
  cases b <;> rfl

/-- The code of a program, where every loop holds the code between its brackets. -/
inductive LoopTree where
  | done
  | basic (b : Basic) (rest : LoopTree)
  | loop (body rest : LoopTree)
  deriving DecidableEq, Repr

namespace LoopTree

def symbols : LoopTree → List Symbol
  | done => []
  | basic b rest => b.symbol :: rest.symbols
  | loop body rest => .loopStart :: (body.symbols ++ .loopEnd :: rest.symbols)

def length : LoopTree → Nat
  | done => 0
  | basic _ rest => rest.length + 1
  | loop body rest => body.length + rest.length + 2

def append : LoopTree → LoopTree → LoopTree
  | done, t => t
  | basic b rest, t => basic b (rest.append t)
  | loop body rest, t => loop body (rest.append t)

instance : Append LoopTree := ⟨append⟩

@[simp] theorem done_append (t : LoopTree) : done ++ t = t := rfl

@[simp] theorem basic_append (b : Basic) (rest t : LoopTree) :
    basic b rest ++ t = basic b (rest ++ t) := rfl

@[simp] theorem loop_append (body rest t : LoopTree) :
    loop body rest ++ t = loop body (rest ++ t) := rfl

@[simp] theorem length_symbols (t : LoopTree) : t.symbols.length = t.length := by
  induction t with
  | done => rfl
  | basic b rest ih => simp [symbols, length, ih]
  | loop body rest ihb ihr =>
    simp only [symbols, length, List.length_cons, List.length_append, ihb, ihr]
    omega

@[simp] theorem symbols_append (t u : LoopTree) : (t ++ u).symbols = t.symbols ++ u.symbols := by
  induction t with
  | done => rfl
  | basic b rest ih => simp [symbols, ih]
  | loop body rest _ ih => simp [symbols, ih]

/-! ## One way to read a program -/

/-- What can follow the symbols of a tree: nothing, or the end of the loop around it. -/
def Closes : List Symbol → Prop
  | [] => True
  | s :: _ => s = .loopEnd

/-- A tree ends where nothing but the end of a loop can follow, so the symbols of a tree tell where
they end. -/
theorem symbols_append_inj (t : LoopTree) : ∀ (u : LoopTree) (x y : List Symbol),
    Closes x → Closes y → t.symbols ++ x = u.symbols ++ y → t = u ∧ x = y := by
  induction t with
  | done =>
    intro u x y hx _ h
    cases u with
    | done => exact ⟨rfl, h⟩
    | basic b rest =>
      obtain rfl : x = b.symbol :: (rest.symbols ++ y) := h
      exact absurd hx (Basic.symbol_ne_loopEnd b)
    | loop body rest =>
      obtain rfl : x = .loopStart :: ((body.symbols ++ .loopEnd :: rest.symbols) ++ y) := h
      cases hx
  | basic a rest ih =>
    intro u x y hx hy h
    cases u with
    | done =>
      obtain rfl : a.symbol :: (rest.symbols ++ x) = y := h
      exact absurd hy (Basic.symbol_ne_loopEnd a)
    | basic b rest' =>
      obtain ⟨hs, h⟩ := List.cons.inj h
      obtain ⟨rfl, rfl⟩ := ih rest' x y hx hy h
      rw [Basic.symbol_injective hs]
      exact ⟨rfl, rfl⟩
    | loop body rest' => exact absurd (List.cons.inj h).1 (Basic.symbol_ne_loopStart a)
  | loop body rest ihb ihr =>
    intro u x y hx hy h
    cases u with
    | done =>
      obtain rfl : .loopStart :: ((body.symbols ++ .loopEnd :: rest.symbols) ++ x) = y := h
      cases hy
    | basic b rest' => exact absurd (List.cons.inj h).1.symm (Basic.symbol_ne_loopStart b)
    | loop body' rest' =>
      have h : (body.symbols ++ .loopEnd :: rest.symbols) ++ x =
          (body'.symbols ++ .loopEnd :: rest'.symbols) ++ y := (List.cons.inj h).2
      rw [List.append_assoc, List.append_assoc] at h
      obtain ⟨rfl, htail⟩ := ihb body' (.loopEnd :: (rest.symbols ++ x)) (.loopEnd :: (rest'.symbols ++ y))
        rfl rfl h
      obtain ⟨rfl, rfl⟩ := ihr rest' x y hx hy (List.cons.inj htail).2
      exact ⟨rfl, rfl⟩

theorem symbols_inj {t u : LoopTree} (h : t.symbols = u.symbols) : t = u :=
  (symbols_append_inj t u [] [] trivial trivial (by rw [h])).1

/-! ## Programs that pass the bracket check -/

/-- The end of a loop before each of the trees: what follows the code of the innermost of as many
loops. -/
def closing (ts : List LoopTree) : List Symbol := ts.flatMap fun t => .loopEnd :: t.symbols

/-- What is left of a program after `openings` is the rest of the innermost loop, its end, the rest
of the loop around it, and so on. -/
theorem exists_trees_of_validateFrom (ss : List Symbol) : ∀ (openings : List Nat) (offset : Nat),
    Program.validateFrom openings offset ss = .ok () →
      ∃ (t : LoopTree) (ts : List LoopTree),
        ts.length = openings.length ∧ ss = t.symbols ++ closing ts := by
  induction ss with
  | nil =>
    intro openings offset h
    cases openings with
    | nil => exact ⟨done, [], rfl, rfl⟩
    | cons start outer => cases h
  | cons s rest ih =>
    intro openings offset h
    obtain ⟨b, rfl⟩ | rfl | rfl := s.basic_or_bracket
    · rw [Program.validateFrom_basic] at h
      obtain ⟨t, ts, hlen, rfl⟩ := ih openings (offset + 1) h
      exact ⟨basic b t, ts, hlen, rfl⟩
    · obtain ⟨t, ts, hlen, rfl⟩ := ih (offset :: openings) (offset + 1) h
      cases ts with
      | nil => cases hlen
      | cons u ts =>
        refine ⟨loop t u, ts, Nat.succ.inj hlen, ?_⟩
        simp [symbols, closing]
    · cases openings with
      | nil => cases h
      | cons start outer =>
        obtain ⟨t, ts, hlen, rfl⟩ := ih outer (offset + 1) h
        exact ⟨done, t :: ts, congrArg Nat.succ hlen, rfl⟩

theorem exists_symbols_of_validate {p : Program} (h : p.validate = .ok ()) :
    ∃ t : LoopTree, t.symbols = p.symbols := by
  obtain ⟨t, ts, hlen, hp⟩ := exists_trees_of_validateFrom p.symbols [] 0 h
  obtain rfl := List.eq_nil_of_length_eq_zero hlen
  exact ⟨t, by rw [hp, closing, List.flatMap_nil, List.append_nil]⟩

end LoopTree

end TapeMachine
