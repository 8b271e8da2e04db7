import TapeMachine.Op
import TapeMachine.Proofs.LoopTree

/-!
# The ops of a loop tree

Decoding patches the first op of a loop when the end of the loop is met. On a tree both targets are
known beforehand, from the index of the first op and the length of the body.

* `LoopTree.ops` : the ops of a tree, one for each symbol (`map_symbol_ops`), with their targets;
* `decode_of_symbols` : decoding a text gives the ops of its tree;
* `Placed ops start code` : the ops `code` stand in `ops` from index `start` on.
-/

namespace TapeMachine

def Basic.op : Basic → Op
  | right => .right
  | left => .left
  | increment => .increment
  | decrement => .decrement
  | write => .write
  | read => .read

def Op.symbol : Op → Symbol
  | right => .right
  | left => .left
  | increment => .increment
  | decrement => .decrement
  | jumpIfZero _ => .loopStart
  | jumpUnlessZero _ => .loopEnd
  | write => .write
  | read => .read

namespace LoopTree

/-- The ops of a tree whose first op has the index `start`. -/
def ops : LoopTree → Nat → List Op
  | done, _ => []
  | basic b rest, start => b.op :: rest.ops (start + 1)
  | loop body rest, start =>
    .jumpIfZero (start + body.length + 1) ::
      (body.ops (start + 1) ++ .jumpUnlessZero start :: rest.ops (start + body.length + 2))

@[simp] theorem length_ops (t : LoopTree) (start : Nat) : (t.ops start).length = t.length := by
  induction t generalizing start with
  | done => rfl
  | basic b rest ih => simp [ops, length, ih]
  | loop body rest ihb ihr =>
    simp only [ops, length, List.length_cons, List.length_append, ihb, ihr]
    omega

theorem map_symbol_ops (t : LoopTree) : ∀ start, (t.ops start).map Op.symbol = t.symbols := by
  induction t with
  | done => exact fun _ => rfl
  | basic b rest ih =>
    intro start
    rw [ops, List.map_cons, ih, symbols]
    cases b <;> rfl
  | loop body rest ihb ihr =>
    intro start
    simp [ops, symbols, ihb, ihr, Op.symbol]

/-! ## Decoding -/

theorem feed_basic (d : Decoding) (t : Token) (b : Basic) (h : t.symbol = b.symbol) :
    d.feed t = .ok (d.push b.op) := by
  cases b <;> simp only [Decoding.feed, h, Basic.symbol, Basic.op]

theorem feed_loopStart (d : Decoding) (t : Token) (h : t.symbol = .loopStart) :
    d.feed t =
      .ok ⟨d.ops.push (.jumpIfZero Op.unresolved), ⟨d.ops.size, t.start⟩ :: d.openings⟩ := by
  simp only [Decoding.feed, h]

theorem feed_loopEnd (d : Decoding) (t : Token) (opening : Opening) (outer : List Opening)
    (h : t.symbol = .loopEnd) (hd : d.openings = opening :: outer) :
    d.feed t = .ok ⟨(d.ops.setIfInBounds opening.index (.jumpIfZero d.ops.size)).push
      (.jumpUnlessZero opening.index), outer⟩ := by
  simp only [Decoding.feed, h, hd]

/-- The op right after `a` is replaced, whatever stands behind it. -/
theorem setIfInBounds_push_append (a : Array Op) (old new : Op) (l : List Op) :
    (a.push old ++ l.toArray).setIfInBounds a.size new = a.push new ++ l.toArray := by
  apply Array.toList_inj.mp
  simp

/-- Decoding the symbols of a tree adds the ops of the tree and leaves the open loops as they are. -/
theorem foldlM_feed (t : LoopTree) : ∀ (tokens : List Token) (d : Decoding),
    tokens.map Token.symbol = t.symbols →
      tokens.foldlM Decoding.feed d = .ok ⟨d.ops ++ (t.ops d.ops.size).toArray, d.openings⟩ := by
  induction t with
  | done =>
    intro tokens d h
    obtain rfl := List.map_eq_nil_iff.mp h
    simp [ops, pure, Except.pure]
  | basic b rest ih =>
    intro tokens d h
    obtain ⟨token, tokens, rfl, hb, h⟩ := List.map_eq_cons_iff.mp h
    rw [List.foldlM_cons, feed_basic d token b hb]
    have h := ih tokens (d.push b.op) h
    simpa [bind, Except.bind, ops, Decoding.push] using h
  | loop body rest ihb ihr =>
    intro tokens d h
    obtain ⟨first, tokens, rfl, hfirst, h⟩ := List.map_eq_cons_iff.mp h
    obtain ⟨inner, tokens, rfl, hinner, h⟩ := List.map_eq_append_iff.mp h
    obtain ⟨last, outer, rfl, hlast, houter⟩ := List.map_eq_cons_iff.mp h
    rw [List.foldlM_cons, feed_loopStart d first hfirst]
    -- the jump at the start of the loop has no target until the end of the loop replaces it
    simp only [bind, Except.bind, List.foldlM_append, List.foldlM_cons]
    rw [ihb inner _ hinner]
    simp only
    rw [feed_loopEnd _ last ⟨d.ops.size, first.start⟩ d.openings hlast rfl]
    simp only [Array.size_append, Array.size_push, List.size_toArray, length_ops,
      setIfInBounds_push_append]
    rw [ihr outer _ houter]
    simp only [Array.size_append, Array.size_push, List.size_toArray, length_ops]
    have hstop : d.ops.size + 1 + body.length = d.ops.size + body.length + 1 := by omega
    have hrest : d.ops.size + 1 + body.length + 1 = d.ops.size + body.length + 2 := by omega
    rw [hrest, hstop]
    simp [ops]

theorem decode_of_symbols (text : String) (t : LoopTree)
    (h : (Program.ofText text).symbols = t.symbols) :
    Op.decode text = .ok (t.ops 0).toArray := by
  have hscan : (Token.scan text).map Token.symbol = t.symbols := by
    rw [← h]
    exact Token.map_symbol_scanFrom 0 text.toList
  rw [Op.decode, foldlM_feed t (Token.scan text) {} hscan]
  simp [Decoding.finish]

end LoopTree

/-! ## Ops inside a program -/

/-- The ops `code` stand in `ops` from index `start` on. -/
def Placed (ops : Array Op) (start : Nat) (code : List Op) : Prop :=
  ∀ i op, code[i]? = some op → ops[start + i]? = some op

namespace Placed

variable {ops : Array Op} {start : Nat} {code more : List Op}

theorem whole (code : List Op) : Placed code.toArray 0 code := by
  intro i op h
  simpa using h

theorem head {op : Op} (h : Placed ops start (op :: code)) : ops[start]? = some op := h 0 op rfl

theorem tail {op : Op} (h : Placed ops start (op :: code)) : Placed ops (start + 1) code := by
  intro i op' hi
  rw [Nat.add_assoc, Nat.add_comm 1]
  exact h (i + 1) op' hi

theorem left (h : Placed ops start (code ++ more)) : Placed ops start code := by
  intro i op hi
  apply h i op
  rw [List.getElem?_append_left (List.getElem?_eq_some_iff.mp hi).1, hi]

theorem right (h : Placed ops start (code ++ more)) : Placed ops (start + code.length) more := by
  intro i op hi
  rw [Nat.add_assoc]
  apply h (code.length + i) op
  rw [List.getElem?_append_right (by omega), Nat.add_sub_cancel_left, hi]

theorem loop {body rest : LoopTree} (h : Placed ops start ((LoopTree.loop body rest).ops start)) :
    Placed ops (start + 1) (body.ops (start + 1)) ∧
      ops[start + body.length + 1]? = some (.jumpUnlessZero start) ∧
        Placed ops (start + body.length + 2) (rest.ops (start + body.length + 2)) := by
  have hclose := h.tail.right.head
  have hrest := h.tail.right.tail
  rw [LoopTree.length_ops, Nat.add_right_comm start 1] at hclose hrest
  exact ⟨h.tail.left, hclose, hrest⟩

end Placed

end TapeMachine
