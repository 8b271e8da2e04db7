import TapeMachine.Proofs.Rendering

/-!
# How programs are spelled

A program is a word over the symbols, and its text is the same word over eight ASCII characters. Any
other text can be turned into a program in two ways: its symbols are kept and all else is dropped, or it
is refused for the first character that is no symbol.

* `Symbol.spelled_or_foreign` : a text is spelled in symbols throughout, or up to a first character that
  is none;
* `Program.parse_eq_ok_iff`, `Program.parse_eq_error_iff` : the texts that are accepted are those of
  programs, and the others are refused for this character;
* `Program.Bytewise p` : bytes, characters and symbols of the text of `p` are counted alike;
* `Program.spells_symbols` : the correspondence of texts and symbols as a whole.
-/

namespace TapeMachine

/-! ## Texts that are spelled in symbols -/

namespace Symbol

/-- Either all characters of a text are symbols, or there is a first one that is none. -/
theorem spelled_or_foreign (cs : List Char) : (∃ ss : List Symbol, cs = ss.map char) ∨
    ∃ (ss : List Symbol) (c : Char) (rest : List Char), cs = ss.map char ++ c :: rest ∧
      ofChar? c = none := by
  induction cs with
  | nil => exact .inl ⟨[], rfl⟩
  | cons c cs ih =>
    cases hc : ofChar? c with
    | none => exact .inr ⟨[], c, cs, rfl, hc⟩
    | some s =>
      obtain rfl := char_of_ofChar? hc
      obtain ⟨ss, rfl⟩ | ⟨ss, d, rest, rfl, hd⟩ := ih
      · exact .inl ⟨s :: ss, rfl⟩
      · exact .inr ⟨s :: ss, d, rest, rfl, hd⟩

theorem parse_char (s : Symbol) : parse s.char = .ok s := by
  rw [parse, ofChar?_char]

theorem parse_of_foreign {c : Char} (h : ofChar? c = none) : parse c = .error ⟨c⟩ := by
  rw [parse, h]

theorem mapM_parse_append (ss : List Symbol) (rest : List Char) :
    (ss.map char ++ rest).mapM parse = (rest.mapM parse).map (ss ++ ·) := by
  induction ss with
  | nil =>
    rw [List.map_nil, List.nil_append]
    cases rest.mapM parse <;> rfl
  | cons s ss ih =>
    rw [List.map_cons, List.cons_append, List.mapM_cons, parse_char, ih]
    cases rest.mapM parse <;> rfl

theorem mapM_parse_map_char (ss : List Symbol) : (ss.map char).mapM parse = .ok ss := by
  have h := mapM_parse_append ss []
  rw [List.append_nil] at h
  rw [h]
  exact congrArg Except.ok (List.append_nil ss)

theorem mapM_parse_of_foreign (ss : List Symbol) {c : Char} (rest : List Char)
    (hc : ofChar? c = none) : (ss.map char ++ c :: rest).mapM parse = .error ⟨c⟩ := by
  rw [mapM_parse_append, List.mapM_cons, parse_of_foreign hc]
  rfl

theorem char_mem (s : Symbol) : s.char ∈ all.map char := mem_chars_iff.mpr ⟨s, ofChar?_char s⟩

theorem not_mem_of_foreign {c : Char} (h : ofChar? c = none) : c ∉ all.map char := by
  rw [mem_chars_iff, h]
  simp

theorem find?_foreign_append (ss : List Symbol) (rest : List Char) :
    (ss.map char ++ rest).find? (· ∉ all.map char) = rest.find? (· ∉ all.map char) := by
  have hnone : (ss.map char).find? (· ∉ all.map char) = none := by
    rw [List.find?_eq_none]
    intro c hc
    obtain ⟨s, -, rfl⟩ := List.mem_map.mp hc
    simpa using s.char_mem
  rw [List.find?_append, hnone, Option.none_or]

end Symbol

namespace Program

/-- The texts that are accepted are the texts of programs. -/
theorem parse_eq_ok_iff {t : String} {p : Program} : parse t = .ok p ↔ t = p.text := by
  constructor
  · intro h
    rw [parse] at h
    obtain ⟨ss, hss⟩ | ⟨ss, c, rest, hss, hc⟩ := Symbol.spelled_or_foreign t.toList
    · rw [hss, Symbol.mapM_parse_map_char] at h
      cases h
      apply String.ext
      rw [hss, toList_text]
    · rw [hss, Symbol.mapM_parse_of_foreign ss rest hc] at h
      cases h
  · rintro rfl
    rw [parse, toList_text, Symbol.mapM_parse_map_char]
    rfl

/-- The others are refused for their first character that is no symbol. -/
theorem parse_eq_error_iff {t : String} {c : Char} : parse t = .error ⟨c⟩ ↔
    t.toList.find? (· ∉ Symbol.all.map Symbol.char) = some c := by
  obtain ⟨ss, hss⟩ | ⟨ss, d, rest, hss, hd⟩ := Symbol.spelled_or_foreign t.toList
  · have hfind := Symbol.find?_foreign_append ss []
    rw [List.append_nil] at hfind
    rw [parse, hss, Symbol.mapM_parse_map_char, hfind]
    exact iff_of_false nofun nofun
  · have hfirst : (d :: rest).find? (· ∉ Symbol.all.map Symbol.char) = some d :=
      List.find?_cons_of_pos (by simpa using Symbol.not_mem_of_foreign hd)
    rw [parse, hss, Symbol.mapM_parse_of_foreign ss rest hd, Symbol.find?_foreign_append, hfirst]
    constructor
    · intro h
      cases h
      rfl
    · intro h
      cases h
      rfl

theorem parse_eq_ok_iff_ofText {t : String} {p : Program} :
    parse t = .ok p ↔ (ofText t).text = t ∧ p = ofText t := by
  rw [parse_eq_ok_iff]
  constructor
  · rintro rfl
    rw [ofText_text]
    exact ⟨rfl, rfl⟩
  · rintro ⟨ht, rfl⟩
    exact ht.symm

/-- A text from which nothing is dropped has no character but symbols. -/
theorem text_ofText_eq_iff {t : String} : (ofText t).text = t ↔
    t.toList.find? (· ∉ Symbol.all.map Symbol.char) = none := by
  rw [text_ofText, ← String.toList_inj, Symbol.sift, String.toList_ofList, List.filter_eq_self,
    List.find?_eq_none]
  simp only [decide_eq_true_eq, not_not]

end Program

/-! ## Bytes, characters and symbols -/

namespace Symbol

theorem ofUInt8_byte (s : Symbol) : Char.ofUInt8 s.byte = s.char := by
  cases s <;> decide

theorem utf8EncodeChar_char (s : Symbol) : String.utf8EncodeChar s.char = [s.byte] :=
  String.utf8EncodeChar_eq_singleton s.utf8Size_char

end Symbol

/-- The symbols of a text that has no others stand at its bytes one after the other. -/
theorem Token.scanFrom_map_char (ss : List Symbol) : ∀ offset,
    scanFrom offset (ss.map Symbol.char) = (ss.zipIdx offset).map fun x => ⟨x.1, x.2⟩ := by
  induction ss with
  | nil => exact fun _ => rfl
  | cons s ss ih =>
    intro offset
    rw [List.map_cons, scanFrom_cons_some s.ofChar?_char, s.utf8Size_char, ih, List.zipIdx_cons,
      List.map_cons]

namespace Program

variable (p : Program)

theorem getElem?_scan_text (i : Nat) : (Token.scan p.text)[i]? = p.symbols[i]?.map (⟨·, i⟩) := by
  rw [Token.scan, toList_text, Token.scanFrom_map_char, List.getElem?_map, List.getElem?_zipIdx,
    Option.map_map, Nat.zero_add]
  rfl

theorem symbolAt_text_iff {i offset : Nat} {s : Symbol} :
    SymbolAt p.text i s offset ↔ p.symbols[i]? = some s ∧ offset = i := by
  rw [← Token.getElem?_scan_iff, getElem?_scan_text, Option.map_eq_some_iff]
  constructor
  · rintro ⟨s', hs, h⟩
    cases h
    exact ⟨hs, rfl⟩
  · rintro ⟨hs, rfl⟩
    exact ⟨s, hs, rfl⟩

theorem bytes_text : p.text.toUTF8.data.toList = p.symbols.map Symbol.byte := by
  have hencode : (fun s : Symbol => String.utf8EncodeChar s.char) = fun s => [s.byte] :=
    funext Symbol.utf8EncodeChar_char
  rw [String.toUTF8, text, String.toByteArray_ofList, List.utf8Encode, List.toList_data_toByteArray,
    List.flatMap_map, hencode, List.map_eq_flatMap]

theorem length_text : p.text.length = p.length := by
  rw [← String.length_toList, toList_text, List.length_map, length]

theorem utf8ByteSize_text : p.text.utf8ByteSize = p.length := by
  have hlength := congrArg List.length p.bytes_text
  rw [List.length_map] at hlength
  rw [← String.size_toByteArray]
  exact hlength

/-- In its own text a program is blamed for the same bracket at the same offset. -/
theorem decode_text_of_validate_error {e : BracketError} (h : p.validate = .error e) :
    Op.decode p.text = .error e := by
  have hv : (ofText p.text).validate = .error e := by rwa [ofText_text]
  obtain ⟨offset, hplace, hdecode⟩ := decode_of_validate_error hv
  obtain rfl : e.offset = offset :=
    (hplace e.offset).mp (p.symbolAt_text_iff.mpr ⟨symbol_of_validate h, rfl⟩)
  rw [hdecode]
  cases e <;> rfl

theorem decode_text_eq_error_iff {e : BracketError} :
    Op.decode p.text = .error e ↔ p.validate = .error e := by
  refine ⟨fun h => ?_, p.decode_text_of_validate_error⟩
  cases hv : p.validate with
  | ok done =>
    have hvalid : (ofText p.text).validate = .ok () := by rwa [ofText_text]
    obtain ⟨-, ops, hops⟩ := decode_ofText_of_validate hvalid
    cases hops.symm.trans h
  | error f =>
    cases h.symm.trans (p.decode_text_of_validate_error hv)
    rfl

/-- The text of a program has one character and one byte for each symbol, so that an offset into it can
be taken for one of bytes, of characters or of symbols. -/
structure Bytewise : Prop where
  /-- There are no characters but the eight. -/
  eight : p.text.toList ⊆ ['[', ']', '>', '<', '+', '-', '.', ',']
  chars : p.text.toList = p.symbols.map Symbol.char
  bytes : p.text.toUTF8.data.toList = p.symbols.map Symbol.byte
  /-- Each byte is a character by itself. -/
  ascii : p.text.toUTF8.data.toList.map Char.ofUInt8 = p.text.toList
  size : p.text.utf8ByteSize = p.length ∧ p.text.length = p.length
  /-- The symbol of an index stands at the byte of this offset. -/
  places : ∀ i s offset, SymbolAt p.text i s offset ↔ p.symbols[i]? = some s ∧ offset = i
  /-- A bracket is blamed at the same offset, be it of bytes or of symbols. -/
  faults : ∀ e, Op.decode p.text = .error e ↔ p.validate = .error e

theorem bytewise : p.Bytewise where
  eight := by
    rw [toList_text]
    intro c hc
    obtain ⟨s, -, rfl⟩ := List.mem_map.mp hc
    exact s.char_mem
  chars := p.toList_text
  bytes := p.bytes_text
  ascii := by
    rw [bytes_text, toList_text, List.map_map]
    exact List.map_congr_left fun s _ => s.ofUInt8_byte
  size := ⟨p.utf8ByteSize_text, p.length_text⟩
  places := fun _ _ _ => p.symbolAt_text_iff
  faults := fun _ => p.decode_text_eq_error_iff

/-- Texts and symbols correspond: a program can be read back from its text, and a text is accepted as it
stands just where all its characters are symbols. -/
theorem spells_symbols (t u : String) (ss : List Symbol) (p : Program) :
    (ofText (Program.mk ss).text).symbols = ss ∧
    (Program.mk (ofText t).symbols).text = Symbol.sift t ∧
    ofText (ofText t).text = ofText t ∧
    ofText (t ++ u) = ofText t ++ ofText u ∧
    (ofText (t ++ u)).text = (ofText t).text ++ (ofText u).text ∧
    (parse t = .ok p ↔ (ofText t).text = t ∧ p = ofText t) ∧
    ((ofText t).text = t ↔ t.toList.find? (· ∉ Symbol.all.map Symbol.char) = none) ∧
    (∀ c, parse t = .error ⟨c⟩ ↔ t.toList.find? (· ∉ Symbol.all.map Symbol.char) = some c) ∧
    p.Bytewise := by
  refine ⟨?_, text_ofText t, ofText_text _, ofText_append t u, ?_, parse_eq_ok_iff_ofText,
    text_ofText_eq_iff, fun _ => parse_eq_error_iff, p.bytewise⟩
  · rw [ofText_text]
  · rw [ofText_append, text_append]

example : (parse "+ +", parse "+-") = (.error ⟨' '⟩, .ok ⟨[.increment, .decrement]⟩) := rfl

end Program

end TapeMachine
