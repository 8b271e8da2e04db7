import TapeMachine.Machine
import TapeMachine.Proofs.Decode

/-!
# The two bracket checks

Brackets are checked in two places. `Program.validate` counts the symbols of a program; `Op.decode`
goes over the tokens of a text, patches jumps on the way and names bytes of the text. Both accept the
same texts and blame the same bracket.

* `SymbolAt text k s offset` : the `k`-th symbol of a text is `s`, and it stands at byte `offset`;
  `getElem?_scan_iff` : the tokens of a text say just that;
* `BracketError.offset`, `symbol`, `placedAt` : where a fault is, which bracket it blames, and the
  same fault at another place;
* `decode_eq_validate` : decoding comes to what the check of the symbols comes to, with every
  fault at the byte of the symbol that is blamed;
* `decode_agrees_with_validate` : so the two checks agree on every text.
-/

namespace TapeMachine

/-! ## The place of a symbol -/

/-- The `k`-th symbol of a text, counted from zero and without the comments, is `s`. Its character
starts at the byte `offset` of the text, comments included. -/
def SymbolAt (text : String) (k : Nat) (s : Symbol) (offset : Nat) : Prop :=
  ∃ before c after, text.toList = before ++ c :: after ∧ Symbol.ofChar? c = some s ∧
    (before.filterMap Symbol.ofChar?).length = k ∧ (String.ofList before).utf8ByteSize = offset

namespace Token

theorem utf8ByteSize_ofList_cons (c : Char) (cs : List Char) :
    (String.ofList (c :: cs)).utf8ByteSize = c.utf8Size + (String.ofList cs).utf8ByteSize := by
  simp [String.ofList_cons]

theorem scanFrom_append (xs ys : List Char) : ∀ offset, scanFrom offset (xs ++ ys) =
    scanFrom offset xs ++ scanFrom (offset + (String.ofList xs).utf8ByteSize) ys := by
  induction xs with
  | nil =>
    intro offset
    simp [scanFrom]
  | cons c xs ih =>
    intro offset
    rw [utf8ByteSize_ofList_cons, ← Nat.add_assoc]
    cases hc : Symbol.ofChar? c with
    | none => rw [List.cons_append, scanFrom_cons_none hc, scanFrom_cons_none hc, ih]
    | some s =>
      rw [List.cons_append, scanFrom_cons_some hc, scanFrom_cons_some hc, ih, List.cons_append]

theorem length_scanFrom (offset : Nat) (cs : List Char) :
    (scanFrom offset cs).length = (cs.filterMap Symbol.ofChar?).length := by
  rw [← map_symbol_scanFrom offset cs, List.length_map]

theorem exists_split_of_scanFrom (cs : List Char) : ∀ (offset k : Nat) (t : Token),
    (scanFrom offset cs)[k]? = some t → ∃ before c after, cs = before ++ c :: after ∧
      Symbol.ofChar? c = some t.symbol ∧ (before.filterMap Symbol.ofChar?).length = k ∧
        offset + (String.ofList before).utf8ByteSize = t.start := by
  induction cs with
  | nil =>
    intro offset k t h
    cases h
  | cons c rest ih =>
    intro offset k t h
    cases hc : Symbol.ofChar? c with
    | none =>
      rw [scanFrom_cons_none hc] at h
      obtain ⟨before, d, after, rfl, hd, hk, hstart⟩ := ih _ k t h
      refine ⟨c :: before, d, after, rfl, hd, ?_, ?_⟩
      · rw [List.filterMap_cons_none hc, hk]
      · rw [utf8ByteSize_ofList_cons, ← Nat.add_assoc, hstart]
    | some s =>
      rw [scanFrom_cons_some hc] at h
      cases k with
      | zero =>
        cases h
        exact ⟨[], c, rest, rfl, hc, rfl, rfl⟩
      | succ k =>
        obtain ⟨before, d, after, rfl, hd, hk, hstart⟩ := ih _ k t h
        refine ⟨c :: before, d, after, rfl, hd, ?_, ?_⟩
        · rw [List.filterMap_cons_some hc, List.length_cons, hk]
        · rw [utf8ByteSize_ofList_cons, ← Nat.add_assoc, hstart]

/-- There is one token for each symbol of a text, at its place. -/
theorem getElem?_scan_iff {text : String} {k offset : Nat} {s : Symbol} :
    (scan text)[k]? = some ⟨s, offset⟩ ↔ SymbolAt text k s offset := by
  constructor
  · intro h
    obtain ⟨before, c, after, htext, hc, hk, hstart⟩ := exists_split_of_scanFrom _ 0 k _ h
    exact ⟨before, c, after, htext, hc, hk, (Nat.zero_add _).symm.trans hstart⟩
  · rintro ⟨before, c, after, htext, hc, rfl, rfl⟩
    rw [scan, htext, scanFrom_append, scanFrom_cons_some hc, ← length_scanFrom 0 before,
      List.getElem?_append_right (Nat.le_refl _), Nat.sub_self, Nat.zero_add]
    rfl

end Token

/-! ## Faults and their places -/

namespace BracketError

def offset : BracketError → Nat
  | unmatchedLoopStart offset => offset
  | unmatchedLoopEnd offset => offset

def symbol : BracketError → Symbol
  | unmatchedLoopStart _ => .loopStart
  | unmatchedLoopEnd _ => .loopEnd

def placedAt (e : BracketError) (offset : Nat) : BracketError :=
  match e with
  | unmatchedLoopStart _ => .unmatchedLoopStart offset
  | unmatchedLoopEnd _ => .unmatchedLoopEnd offset

end BracketError

/-- What is blamed is a bracket of the kind that the fault says: one of the symbols that are checked,
or the start of a loop that was open before them. -/
theorem Program.symbol_of_validateFrom (ss : List Symbol) : ∀ (openings : List Nat) (offset : Nat)
    (e : BracketError), validateFrom openings offset ss = .error e →
      (e.offset ∈ openings ∧ e.symbol = .loopStart) ∨
        ∃ i, e.offset = offset + i ∧ ss[i]? = some e.symbol := by
  induction ss with
  | nil =>
    intro openings offset e h
    cases openings with
    | nil => cases h
    | cons start outer =>
      cases h
      exact .inl ⟨List.mem_cons_self, rfl⟩
  | cons s rest ih =>
    intro openings offset e h
    -- what is blamed among the later symbols has the next index among all
    have later : ∀ i, e.offset = offset + 1 + i → rest[i]? = some e.symbol →
        ∃ i, e.offset = offset + i ∧ (s :: rest)[i]? = some e.symbol :=
      fun i hoffset hi => ⟨i + 1, by omega, hi⟩
    obtain ⟨b, rfl⟩ | rfl | rfl := s.basic_or_bracket
    · rw [validateFrom_basic] at h
      exact (ih openings (offset + 1) e h).imp_right fun ⟨i, ho, hi⟩ => later i ho hi
    · obtain ⟨hmem, hsymbol⟩ | ⟨i, ho, hi⟩ := ih (offset :: openings) (offset + 1) e h
      · obtain heq | hmem := List.mem_cons.mp hmem
        · exact .inr ⟨0, heq, congrArg some hsymbol.symm⟩
        · exact .inl ⟨hmem, hsymbol⟩
      · exact .inr (later i ho hi)
    · cases openings with
      | nil =>
        cases h
        exact .inr ⟨0, rfl, rfl⟩
      | cons start outer =>
        obtain ⟨hmem, hsymbol⟩ | ⟨i, ho, hi⟩ := ih outer (offset + 1) e h
        · exact .inl ⟨List.mem_cons_of_mem _ hmem, hsymbol⟩
        · exact .inr (later i ho hi)

theorem Program.symbol_of_validate {p : Program} {e : BracketError} (h : p.validate = .error e) :
    p.symbols[e.offset]? = some e.symbol := by
  obtain ⟨hmem, -⟩ | ⟨i, hoffset, hi⟩ := symbol_of_validateFrom p.symbols [] 0 e h
  · cases hmem
  · rw [hoffset, Nat.zero_add, hi]

/-! ## Decoding as a check -/

theorem Decoding.feed_loopEnd_of_nil {d : Decoding} {t : Token} (h : t.symbol = .loopEnd)
    (hd : d.openings = []) : d.feed t = .error (.unmatchedLoopEnd t.start) := by
  simp only [feed, h, hd]

/-- Decoding tokens comes to what the check of their symbols comes to. The loops that are open have
to stand at the same brackets, where `place` gives the byte of the symbol of an index. -/
theorem foldlM_feed_eq_validateFrom (place : Nat → Nat) (tokens : List Token) :
    ∀ (d : Decoding) (openings : List Nat) (offset : Nat),
      d.openings.map Opening.offset = openings.map place →
      (∀ i t, tokens[i]? = some t → t.start = place (offset + i)) →
        (tokens.foldlM Decoding.feed d >>= Decoding.finish).map (fun _ => ()) =
          (Program.validateFrom openings offset (tokens.map Token.symbol)).mapError
            fun e => e.placedAt (place e.offset) := by
  induction tokens with
  | nil =>
    intro d openings offset hd _
    cases openings with
    | nil =>
      have hnil : d.openings = [] := List.map_eq_nil_iff.mp hd
      have hfinish : d.finish = .ok d.ops := by simp only [Decoding.finish, hnil]
      show d.finish.map _ = _
      rw [hfinish]
      rfl
    | cons start outer =>
      obtain ⟨opening, rest, hopenings, hstart, -⟩ := List.map_eq_cons_iff.mp hd
      have hfinish : d.finish = .error (.unmatchedLoopStart (place start)) := by
        simp only [Decoding.finish, hopenings, hstart]
      show d.finish.map _ = _
      rw [hfinish]
      rfl
  | cons t rest ih =>
    intro d openings offset hd hplace
    have hstart : t.start = place offset := hplace 0 t rfl
    have hrest : ∀ i u, rest[i]? = some u → u.start = place (offset + 1 + i) := by
      intro i u hi
      rw [Nat.add_assoc, Nat.add_comm 1]
      exact hplace (i + 1) u hi
    rw [List.foldlM_cons, List.map_cons]
    obtain ⟨b, hb⟩ | hopen | hclose := t.symbol.basic_or_bracket
    · rw [LoopTree.feed_basic d t b hb, hb, Program.validateFrom_basic]
      exact ih (d.push b.op) openings (offset + 1) hd hrest
    · rw [LoopTree.feed_loopStart d t hopen, hopen]
      refine ih _ (offset :: openings) (offset + 1) ?_ hrest
      simp [hd, hstart]
    · rw [hclose]
      cases openings with
      | nil =>
        rw [Decoding.feed_loopEnd_of_nil hclose (List.map_eq_nil_iff.mp hd), hstart]
        rfl
      | cons start outer =>
        obtain ⟨opening, others, hopenings, -, hothers⟩ := List.map_eq_cons_iff.mp hd
        rw [LoopTree.feed_loopEnd d t opening others hclose hopenings]
        exact ih _ outer (offset + 1) hothers hrest

/-- The byte of a symbol of a text; zero where there are not so many symbols. -/
def Token.place (text : String) (k : Nat) : Nat := ((scan text)[k]?.map start).getD 0

/-- Decoding a text comes to what the check of its symbols comes to, but that a fault is at the byte
of the symbol that is blamed. -/
theorem decode_eq_validate (text : String) : (Op.decode text).map (fun _ => ()) =
    (Program.ofText text).validate.mapError fun e => e.placedAt (Token.place text e.offset) := by
  have hsymbols : (Token.scan text).map Token.symbol = (Program.ofText text).symbols :=
    Token.map_symbol_scanFrom 0 text.toList
  have hdecode : Op.decode text =
      (Token.scan text).foldlM Decoding.feed {} >>= Decoding.finish := by
    rw [Op.decode]
    cases (Token.scan text).foldlM Decoding.feed {} <;> rfl
  rw [hdecode, Program.validate, ← hsymbols]
  refine foldlM_feed_eq_validateFrom (Token.place text) _ {} [] 0 rfl ?_
  intro i t hi
  simp [Token.place, hi]

/-- The bracket that the check of the symbols blames stands at one place in the text, and decoding
the text blames it there. -/
theorem decode_of_validate_error {text : String} {e : BracketError}
    (h : (Program.ofText text).validate = .error e) :
    ∃ offset, (∀ o, SymbolAt text e.offset e.symbol o ↔ o = offset) ∧
      Op.decode text = .error (e.placedAt offset) := by
  have hsymbol : ((Token.scan text).map Token.symbol)[e.offset]? = some e.symbol := by
    rw [← Program.symbol_of_validate h]
    exact congrArg (·[e.offset]?) (Token.map_symbol_scanFrom 0 text.toList)
  rw [List.getElem?_map] at hsymbol
  obtain ⟨t, ht, hts⟩ := Option.map_eq_some_iff.mp hsymbol
  have htoken : (Token.scan text)[e.offset]? = some ⟨e.symbol, t.start⟩ := by rw [ht, ← hts]
  have hplace : Token.place text e.offset = t.start := by simp [Token.place, ht]
  refine ⟨t.start, fun o => ?_, ?_⟩
  · rw [← Token.getElem?_scan_iff, htoken]
    simp [eq_comm]
  · have hdecode := decode_eq_validate text
    rw [h] at hdecode
    rw [← hplace]
    cases hresult : Op.decode text with
    | ok ops =>
      rw [hresult] at hdecode
      cases hdecode
    | error e' =>
      rw [hresult] at hdecode
      cases hdecode
      rfl

theorem decode_ofText_of_validate {text : String} (h : (Program.ofText text).validate = .ok ()) :
    Op.decode text = Op.decode (Program.ofText text).text ∧ ∃ ops, Op.decode text = .ok ops := by
  obtain ⟨tree, htree⟩ := LoopTree.exists_symbols_of_validate h
  have hdecode := LoopTree.decode_of_symbols text tree htree.symm
  refine ⟨?_, _, hdecode⟩
  rw [hdecode, LoopTree.decode_of_symbols (Program.ofText text).text tree]
  rw [Program.ofText_text, htree]

theorem execute_of_decode_eq {t u : String} (h : Op.decode t = Op.decode u) (inputs : List UInt8)
    (config : Config) : execute t inputs config = execute u inputs config := by
  rw [execute, execute, Machine.load, Machine.load, h]

/-- The two checks agree on every text: they accept the same texts, and blame the same bracket of every
other. -/
theorem decode_agrees_with_validate (text : String) :
    ((∃ ops, Op.decode text = .ok ops) ↔ (Program.ofText text).validate = .ok ()) ∧
    ((Program.ofText text).validate = .ok () →
      Op.decode text = Op.decode (Program.ofText text).text ∧
        ∀ (inputs : List UInt8) (config : Config),
          execute text inputs config = execute (Program.ofText text).text inputs config) ∧
    ∀ e, (Program.ofText text).validate = .error e →
      ∃ offset, (∀ o, SymbolAt text e.offset e.symbol o ↔ o = offset) ∧
        Op.decode text = .error (e.placedAt offset) ∧
          ∀ (inputs : List UInt8) (config : Config),
            (execute text inputs config).result = .error (.malformed (e.placedAt offset)) := by
  refine ⟨⟨?_, fun h => (decode_ofText_of_validate h).2⟩, ?_, ?_⟩
  · rintro ⟨ops, hops⟩
    cases hvalid : (Program.ofText text).validate with
    | ok done => rfl
    | error e =>
      obtain ⟨offset, -, hdecode⟩ := decode_of_validate_error hvalid
      cases hops.symm.trans hdecode
  · intro h
    have hdecode := (decode_ofText_of_validate h).1
    exact ⟨hdecode, execute_of_decode_eq hdecode⟩
  · intro e h
    obtain ⟨offset, hplace, hdecode⟩ := decode_of_validate_error h
    refine ⟨offset, hplace, hdecode, fun inputs config => ?_⟩
    rw [execute, Machine.load, hdecode]

/-- In a text with comments of several bytes, the fourth symbol has no partner. It stands at the
eighth byte. Without it the comments have no bearing on a run. -/
theorem decode_agrees_with_validate_umlauts :
    (Program.ofText "ä[-]ö]").validate = .error (.unmatchedLoopEnd 3) ∧
      Op.decode "ä[-]ö]" = .error (.unmatchedLoopEnd 7) ∧
      (Program.ofText "ä[-]ö").validate = .ok () ∧
      ∀ (inputs : List UInt8) (config : Config),
        execute "ä[-]ö" inputs config = execute "[-]" inputs config := by
  have hfault : (Program.ofText "ä[-]ö]").validate = .error (.unmatchedLoopEnd 3) := rfl
  have hvalid : (Program.ofText "ä[-]ö").validate = .ok () := rfl
  have htext : (Program.ofText "ä[-]ö").text = "[-]" := by decide
  obtain ⟨offset, hplace, hdecode, -⟩ := (decode_agrees_with_validate "ä[-]ö]").2.2 _ hfault
  have hoffset : 7 = offset :=
    (hplace 7).mp ⟨['ä', '[', '-', ']', 'ö'], ']', [], by decide, rfl, rfl, by decide⟩
  refine ⟨hfault, hoffset ▸ hdecode, hvalid, ?_⟩
  exact htext ▸ ((decode_agrees_with_validate "ä[-]ö").2.1 hvalid).2

end TapeMachine
