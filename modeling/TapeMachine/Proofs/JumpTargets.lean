import TapeMachine.Proofs.BracketCheck
import TapeMachine.Proofs.BracketGrammar
import TapeMachine.Proofs.Fragment

/-!
# Where jumps lead

A text is decoded in one pass, in which the start of a loop has no target until the end of the loop is
met. What comes out are the partners of the grammar: the start of a loop leads behind its end, and the
end behind its start.

* `exists_tree_of_decode` : a text that can be decoded is decoded to the ops of a tree;
* `Matches.jumps` : partners among the symbols point at one another among the ops;
* `matches_of_jumpIfZero`, `matches_of_jumpUnlessZero` : and nothing else is pointed at;
* `lt_size_of_jump` : what is pointed at is in the program, so no target is left unresolved;
* `decode_resolves_brackets` : so the targets of a decoded text are the matching of its brackets.
-/

namespace TapeMachine

section Decoded
variable {text : String} {ops : Array Op} {s e : Nat}

theorem validate_of_decode (hdecode : Op.decode text = .ok ops) :
    (Program.ofText text).validate = .ok () := by
  have heq := decode_eq_validate text
  rw [hdecode] at heq
  cases hv : (Program.ofText text).validate with
  | ok done => rfl
  | error fault =>
    rw [hv] at heq
    cases heq

theorem exists_tree_of_decode (hdecode : Op.decode text = .ok ops) :
    ∃ tree : LoopTree, tree.symbols = (Program.ofText text).symbols ∧ ops = (tree.ops 0).toArray := by
  obtain ⟨tree, htree⟩ := LoopTree.exists_symbols_of_validate (validate_of_decode hdecode)
  refine ⟨tree, htree, ?_⟩
  rw [LoopTree.decode_of_symbols text tree htree.symm] at hdecode
  exact (Except.ok.inj hdecode).symm

theorem map_symbol_of_decode (hdecode : Op.decode text = .ok ops) :
    ops.toList.map Op.symbol = (Program.ofText text).symbols := by
  obtain ⟨tree, htree, rfl⟩ := exists_tree_of_decode hdecode
  rw [← htree]
  exact tree.map_symbol_ops 0

theorem symbol_of_decode (hdecode : Op.decode text = .ok ops) (i : Nat) :
    (Program.ofText text).symbols[i]? = ops[i]?.map Op.symbol := by
  rw [← map_symbol_of_decode hdecode, List.getElem?_map, Array.getElem?_toList]

theorem size_of_decode (hdecode : Op.decode text = .ok ops) :
    ops.size = (Program.ofText text).symbols.length := by
  rw [← map_symbol_of_decode hdecode, List.length_map, Array.length_toList]

theorem Matches.jumps (h : Matches (Program.ofText text).symbols s e)
    (hdecode : Op.decode text = .ok ops) :
    ops[s]? = some (.jumpIfZero e) ∧ ops[e]? = some (.jumpUnlessZero s) := by
  obtain ⟨before, body, after, hsplit, hbody, rfl, rfl⟩ := h.exists_split
  obtain ⟨tree, rfl⟩ := hbody.exists_tree
  have hplaced := (LoopTree.loop tree .done).placed_of_decode before after hdecode
    (by simp [hsplit, LoopTree.symbols])
  rw [LoopTree.length_symbols]
  exact ⟨hplaced.head, hplaced.loop.2.1⟩

theorem matches_of_jumpIfZero (hdecode : Op.decode text = .ok ops)
    (h : ops[s]? = some (.jumpIfZero e)) : Matches (Program.ofText text).symbols s e := by
  have hbalanced := Program.validate_eq_ok_iff.mp (validate_of_decode hdecode)
  have hsymbol := symbol_of_decode hdecode s
  rw [h] at hsymbol
  obtain ⟨stop, hm⟩ := hbalanced.exists_matches hsymbol
  have hjump := h.symm.trans (hm.jumps hdecode).1
  cases hjump
  exact hm

theorem matches_of_jumpUnlessZero (hdecode : Op.decode text = .ok ops)
    (h : ops[e]? = some (.jumpUnlessZero s)) : Matches (Program.ofText text).symbols s e := by
  have hbalanced := Program.validate_eq_ok_iff.mp (validate_of_decode hdecode)
  have hsymbol := symbol_of_decode hdecode e
  rw [h] at hsymbol
  obtain ⟨start, stop, hm, rfl | rfl⟩ := hbalanced.partnered hsymbol (.inr rfl)
  · cases hsymbol.symm.trans hm.start
  · have hjump := h.symm.trans (hm.jumps hdecode).2
    cases hjump
    exact hm

theorem lt_size_of_jump {i target : Nat} (hdecode : Op.decode text = .ok ops)
    (h : ops[i]? = some (.jumpIfZero target) ∨ ops[i]? = some (.jumpUnlessZero target)) :
    target ≠ i ∧ target < ops.size := by
  rw [size_of_decode hdecode]
  rcases h with h | h
  · have hm := matches_of_jumpIfZero hdecode h
    exact ⟨Nat.ne_of_gt hm.lt, hm.lt_length⟩
  · have hm := matches_of_jumpUnlessZero hdecode h
    exact ⟨Nat.ne_of_lt hm.lt, Nat.lt_trans hm.lt hm.lt_length⟩

end Decoded

/-- The targets of a decoded text are the matching of its brackets. As long as the ops can be counted
in words, none of them is left unresolved. -/
theorem decode_resolves_brackets {text : String} {ops : Array Op}
    (hdecode : Op.decode text = .ok ops) :
    let ss := (Program.ofText text).symbols
    ops.toList.map Op.symbol = ss ∧
    (∀ s, ss[s]? = some .loopStart → ∃ e, ops[s]? = some (.jumpIfZero e) ∧
      ops[e]? = some (.jumpUnlessZero s) ∧ Matches ss s e ∧ e < ops.size) ∧
    (∀ s e, ops[e]? = some (.jumpUnlessZero s) →
      ops[s]? = some (.jumpIfZero e) ∧ Matches ss s e ∧ e < ops.size) ∧
    (∀ s e, Matches ss s e → ops[s]? = some (.jumpIfZero e)) ∧
    (∀ s e s' e' : Nat, ops[s]? = some (.jumpIfZero e) → ops[s']? = some (.jumpIfZero e') → s < s' →
      e < s' ∨ e' < e) ∧
    (∀ i target, ops[i]? = some (.jumpIfZero target) ∨ ops[i]? = some (.jumpUnlessZero target) →
      target ≠ i ∧ target + 1 ≤ ops.size) ∧
    (ops.size < Text.wordBound → ∀ i : Nat, ops[i]? ≠ some (.jumpIfZero Op.unresolved)) := by
  intro ss
  have hsize := size_of_decode hdecode
  have hbalanced := Program.validate_eq_ok_iff.mp (validate_of_decode hdecode)
  refine ⟨map_symbol_of_decode hdecode, fun s hs => ?_, fun s e h => ?_, fun s e h => ?_,
    fun s e s' e' h h' => ?_, fun i target h => lt_size_of_jump hdecode h, fun hwords i h => ?_⟩
  · obtain ⟨e, hm⟩ := hbalanced.exists_matches hs
    exact ⟨e, (hm.jumps hdecode).1, (hm.jumps hdecode).2, hm, hsize ▸ hm.lt_length⟩
  · have hm := matches_of_jumpUnlessZero hdecode h
    exact ⟨(hm.jumps hdecode).1, hm, hsize ▸ hm.lt_length⟩
  · exact (h.jumps hdecode).1
  · exact (matches_of_jumpIfZero hdecode h).nested_or_disjoint (matches_of_jumpIfZero hdecode h')
  · have hlt := (lt_size_of_jump hdecode (.inl h)).2
    exact absurd (Nat.le_sub_one_of_lt hwords) (Nat.not_le.mpr hlt)

/-- The loops of a text with a loop in a loop and a remark between them. -/
theorem decode_resolves_brackets_nested :
    ∃ ops, Op.decode "+[>ä[-]<-]" = .ok ops ∧
      ops[1]? = some (.jumpIfZero 8) ∧ ops[3]? = some (.jumpIfZero 5) ∧
        Matches (Program.ofText "+[>ä[-]<-]").symbols 1 8 ∧
          Matches (Program.ofText "+[>ä[-]<-]").symbols 3 5 := by
  have hdecode : Op.decode "+[>ä[-]<-]" = .ok #[.increment, .jumpIfZero 8, .right, .jumpIfZero 5,
    .decrement, .jumpUnlessZero 3, .left, .decrement, .jumpUnlessZero 1] := rfl
  obtain ⟨-, -, hends, -⟩ := decode_resolves_brackets hdecode
  obtain ⟨houter, hmatch, -⟩ := hends 1 8 rfl
  obtain ⟨hinner, hmatch', -⟩ := hends 3 5 rfl
  exact ⟨_, hdecode, houter, hinner, hmatch, hmatch'⟩

end TapeMachine
