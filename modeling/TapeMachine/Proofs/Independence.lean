import TapeMachine.Proofs.Comparison
import TapeMachine.Proofs.RegisterScript

/-!
# Scripts that do not meet

Two register scripts that name no register in common can change places, if one of them neither reads
nor writes bytes. This is so of the register machine, where what one script does to the registers that
the other one does not name is not seen by the other; and the generated programs do what the register
machine does.

* `RegisterScript.registers` : the registers that a script names; `RegisterScript.Silent` : no byte is
  read or written;
* `Bank.Overlooks r f` : what `f` does has nothing to do with the register `r`. So it is of a script
  that does not name it (`RegisterScript.overlooks`);
* `Bank.Commutes f g` : `f` and `g` can change places. It is closed under sequence and rounds in `g`,
  so what overlooks all registers of a silent script commutes with it (`RegisterScript.commutes`);
* `RegisterScript.completes_iff` : a generated program completes just if the register machine does;
* `RegisterScript.completes_append_comm` : scripts that do not meet can be generated in either order.
-/

namespace TapeMachine

namespace RegisterCall

def registers : RegisterCall → List Nat
  | set r _ | clear r | increase r _ | decrease r _ | readInto r | writeFrom r => [r]
  | copy x y | add x y | subtract x y => [x, y]

def Silent : RegisterCall → Prop
  | readInto _ | writeFrom _ => False
  | _ => True

instance : DecidablePred Silent
  | readInto _ | writeFrom _ => isFalse id
  | set .. | clear _ | increase .. | decrease .. | copy .. | add .. | subtract .. => isTrue trivial

end RegisterCall

namespace RegisterScript

def registers : RegisterScript → List Nat
  | done => []
  | call head rest => head.registers ++ rest.registers
  | repeated _ body rest => body.registers ++ rest.registers
  | countDown r body rest => r :: (body.registers ++ rest.registers)

def Silent : RegisterScript → Prop
  | done => True
  | call head rest => head.Silent ∧ rest.Silent
  | repeated _ body rest => body.Silent ∧ rest.Silent
  | countDown _ body rest => body.Silent ∧ rest.Silent

def decideSilent : (s : RegisterScript) → Decidable s.Silent
  | done => isTrue trivial
  | call head rest =>
    have := rest.decideSilent
    inferInstanceAs (Decidable (head.Silent ∧ rest.Silent))
  | repeated _ body rest | countDown _ body rest =>
    have := body.decideSilent
    have := rest.decideSilent
    inferInstanceAs (Decidable (body.Silent ∧ rest.Silent))

instance : DecidablePred Silent := decideSilent

def append : RegisterScript → RegisterScript → RegisterScript
  | done, t => t
  | call head rest, t => call head (rest.append t)
  | repeated n body rest, t => repeated n body (rest.append t)
  | countDown r body rest, t => countDown r body (rest.append t)

instance : Append RegisterScript := ⟨append⟩

theorem eval_append (eof : EofPolicy) (s t : RegisterScript) : ∀ b : Bank,
    (s ++ t).eval eof b = s.eval eof b >>= t.eval eof := by
  induction s with
  | done => exact fun _ => rfl
  | call head rest ih =>
    intro b
    show head.perform eof b >>= (rest ++ t).eval eof = _
    rw [eval, bind_assoc, funext ih]
  | repeated n body rest _ ih =>
    intro b
    show Bank.rounds (body.eval eof) n.toNat b >>= (rest ++ t).eval eof = _
    rw [eval, bind_assoc, funext ih]
  | countDown r body rest _ ih =>
    intro b
    show Bank.rounds (fun b => body.eval eof (b.put r (b.registers r - 1))) (b.registers r).toNat b >>=
      (rest ++ t).eval eof = _
    rw [eval, bind_assoc, funext ih]

theorem sound_append {s t : RegisterScript} (hs : s.Sound) (ht : t.Sound) : (s ++ t).Sound := by
  induction s with
  | done => exact ht
  | call head rest ih => exact ⟨hs.1, ih hs.2⟩
  | repeated n body rest _ ih => exact ⟨hs.1, ih hs.2⟩
  | countDown r body rest _ ih => exact ⟨hs.1, hs.2.1, ih hs.2.2⟩

theorem nesting_append (s t : RegisterScript) : (s ++ t).nesting = max s.nesting t.nesting := by
  induction s with
  | done => exact (Nat.zero_max _).symm
  | call head rest ih =>
    rw [nesting_call, ← ih]
    exact nesting_call head (rest ++ t)
  | repeated n body rest _ ih =>
    rw [nesting_repeated, Nat.max_assoc, ← ih]
    exact nesting_repeated n body (rest ++ t)
  | countDown r body rest _ ih =>
    rw [nesting_countDown, Nat.max_assoc, ← ih]
    exact nesting_countDown r body (rest ++ t)

end RegisterScript

/-! ## What has nothing to do with a register -/

namespace Bank

variable {r x y : Nat} {f g h : Bank → Except Bank Bank}

/-- Another value in the register makes no difference but that it is still there in the end. -/
def Overlooks (r : Nat) (f : Bank → Except Bank Bank) : Prop :=
  ∀ b c w, f b = .ok c → f (b.put r w) = .ok (c.put r w)

theorem Overlooks.keeps (hf : Overlooks r f) : Keeps r f := by
  intro b c hc
  have hsame := hf b c (b.registers r) hc
  rw [put_registers, hc] at hsame
  have hregister := congrArg (fun b => Bank.registers b r) (Except.ok.inj hsame)
  exact hregister.trans (registers_put_self c r _)

theorem Overlooks.bind (hf : Overlooks r f) (hg : Overlooks r g) : Overlooks r fun b => f b >>= g := by
  intro b c w hc
  obtain ⟨k, hk, hc⟩ := exists_of_bind hc
  show f (b.put r w) >>= g = _
  rw [hf b k w hk]
  exact hg k c w hc

theorem Overlooks.rounds (hf : Overlooks r f) : ∀ n, Overlooks r (rounds f n) := by
  intro n
  induction n with
  | zero =>
    intro b c w hc
    cases hc
    rfl
  | succ n ih => exact hf.bind ih

theorem overlooks_put {v : Bank → UInt8} (hx : x ≠ r) (hv : ∀ b w, v (b.put r w) = v b) :
    Overlooks r fun b => .ok (b.put x (v b)) := by
  intro b c w hc
  cases hc
  show Except.ok ((b.put r w).put x (v (b.put r w))) = _
  rw [hv, put_comm hx.symm]

theorem overlooks_transfer {v : Bank → UInt8} (hx : x ≠ r) (hy : y ≠ r)
    (hv : ∀ b w, v (b.put r w) = v b) : Overlooks r fun b => .ok ((b.put x (v b)).put y 0) :=
  (overlooks_put hx hv).bind (overlooks_put (v := fun _ => 0) hy fun _ _ => rfl)

theorem overlooks_read (eof : EofPolicy) (hx : x ≠ r) : Overlooks r (read eof x) := by
  intro b c w hc
  unfold read at hc ⊢
  have hinputs : (b.put r w).inputs = b.inputs := rfl
  rw [hinputs]
  split at hc
  · cases hc
    simp only [put, Function.update_comm hx]
  · split at hc
    · cases hc
    · cases hc
      simp only [put, Function.update_comm hx]
    · cases hc
      rfl

theorem overlooks_write (hx : x ≠ r) : Overlooks r fun b => .ok (write x b) := by
  intro b c w hc
  cases hc
  show Except.ok (write x (b.put r w)) = _
  unfold write
  rw [registers_put_of_ne hx.symm]
  rfl

theorem Overlooks.countDown (hf : Overlooks r f) (hx : x ≠ r) :
    Overlooks r fun b =>
      Bank.rounds (fun b => f (b.put x (b.registers x - 1))) (b.registers x).toNat b := by
  have htake : Overlooks r fun b => .ok (b.put x (b.registers x - 1)) :=
    overlooks_put hx fun b w => by rw [registers_put_of_ne hx.symm]
  intro b c w hc
  simp only [registers_put_of_ne hx.symm]
  exact (htake.bind hf).rounds _ b c w hc

end Bank

theorem RegisterCall.overlooks (eof : EofPolicy) {call : RegisterCall} {r : Nat}
    (h : r ∉ call.registers) : Bank.Overlooks r fun b => call.perform eof b := by
  have hne {x : Nat} (hx : x ∈ call.registers) : x ≠ r := fun hxr => h (hxr ▸ hx)
  have hsame {x : Nat} (hx : x ∈ call.registers) (b : Bank) (w : UInt8) :
      (b.put r w).registers x = b.registers x := Bank.registers_put_of_ne (hne hx).symm w
  cases call with
  | set x value => exact Bank.overlooks_put (hne (by simp [registers])) fun _ _ => rfl
  | clear x => exact Bank.overlooks_put (hne (by simp [registers])) fun _ _ => rfl
  | increase x n =>
    refine Bank.overlooks_put (hne (by simp [registers])) fun b w => ?_
    rw [hsame (by simp [registers])]
  | decrease x n =>
    refine Bank.overlooks_put (hne (by simp [registers])) fun b w => ?_
    rw [hsame (by simp [registers])]
  | readInto x => exact Bank.overlooks_read eof (hne (by simp [registers]))
  | writeFrom x => exact Bank.overlooks_write (hne (by simp [registers]))
  | copy x y => exact Bank.overlooks_put (hne (by simp [registers])) (hsame (by simp [registers]))
  | add x y =>
    refine Bank.overlooks_transfer (hne (by simp [registers])) (hne (by simp [registers])) fun b w => ?_
    rw [hsame (by simp [registers]), hsame (by simp [registers])]
  | subtract x y =>
    refine Bank.overlooks_transfer (hne (by simp [registers])) (hne (by simp [registers])) fun b w => ?_
    rw [hsame (by simp [registers]), hsame (by simp [registers])]

/-- A script has nothing to do with the registers that it does not name. -/
theorem RegisterScript.overlooks (eof : EofPolicy) (s : RegisterScript) {r : Nat}
    (h : r ∉ s.registers) : Bank.Overlooks r (s.eval eof) := by
  induction s with
  | done =>
    intro b c w hc
    cases hc
    rfl
  | call head rest ih =>
    simp only [registers, List.mem_append, not_or] at h
    exact (RegisterCall.overlooks eof h.1).bind (ih h.2)
  | repeated n body rest ihb ihr =>
    simp only [registers, List.mem_append, not_or] at h
    exact ((ihb h.1).rounds n.toNat).bind (ihr h.2)
  | countDown x body rest ihb ihr =>
    simp only [registers, List.mem_cons, List.mem_append, not_or] at h
    exact ((ihb h.2.1).countDown (Ne.symm h.1)).bind (ihr h.2.2)

/-! ## What can change places -/

namespace Bank

variable {r x y : Nat} {f g h : Bank → Except Bank Bank}

/-- Both orders come to the same end, where one of them comes to an end without stopping at a read. -/
def Commutes (f g : Bank → Except Bank Bank) : Prop :=
  ∀ b d, f b >>= g = .ok d ↔ g b >>= f = .ok d

theorem bind_eq_ok_iff {x : Except Bank Bank} {d : Bank} :
    x >>= g = .ok d ↔ ∃ b, x = .ok b ∧ g b = .ok d := by
  constructor
  · exact exists_of_bind
  · rintro ⟨b, rfl, hd⟩
    exact hd

theorem Commutes.bind (hg : Commutes f g) (hh : Commutes f h) : Commutes f fun b => g b >>= h := by
  intro b d
  calc (f b >>= fun c => g c >>= h) = .ok d
      ↔ (f b >>= g) >>= h = .ok d := by rw [bind_assoc]
    _ ↔ (g b >>= f) >>= h = .ok d := by
        rw [bind_eq_ok_iff, bind_eq_ok_iff]
        exact exists_congr fun k => and_congr_left fun _ => hg b k
    _ ↔ (g b >>= fun c => f c >>= h) = .ok d := by rw [bind_assoc]
    _ ↔ (g b >>= fun c => h c >>= f) = .ok d := by
        rw [bind_eq_ok_iff, bind_eq_ok_iff]
        exact exists_congr fun k => and_congr_right fun _ => hh k d
    _ ↔ (g b >>= h) >>= f = .ok d := by rw [bind_assoc]

theorem commutes_ok (f : Bank → Except Bank Bank) : Commutes f .ok := by
  intro b d
  rw [bind_eq_ok_iff]
  constructor
  · rintro ⟨c, hc, hd⟩
    cases hd
    exact hc
  · intro hd
    exact ⟨d, hd, rfl⟩

theorem Commutes.rounds (hg : Commutes f g) (n : Nat) : Commutes f (Bank.rounds g n) := by
  induction n with
  | zero => exact commutes_ok f
  | succ n ih => exact hg.bind ih

theorem Overlooks.commutes_put (hf : Overlooks x f) {v : Bank → UInt8}
    (hv : ∀ b c, f b = .ok c → v c = v b) : Commutes f fun b => .ok (b.put x (v b)) := by
  intro b d
  rw [bind_eq_ok_iff]
  constructor
  · rintro ⟨c, hc, hd⟩
    cases hd
    rw [hv b c hc]
    exact hf b c (v b) hc
  · intro hd
    -- with the old value put back, `f` goes from `b` on as it goes from the new one
    have hback := hf _ d (b.registers x) hd
    rw [put_put, put_registers] at hback
    refine ⟨_, hback, ?_⟩
    have hnew : d.registers x = v b := by
      rw [hf.keeps _ d hd, registers_put_self]
    rw [hv b _ hback, put_put, ← hnew, put_registers]

theorem Overlooks.commutes_transfer (hx : Overlooks x f) (hy : Overlooks y f) {v : Bank → UInt8}
    (hv : ∀ b c, f b = .ok c → v c = v b) : Commutes f fun b => .ok ((b.put x (v b)).put y 0) :=
  (hx.commutes_put hv).bind (hy.commutes_put (v := fun _ => 0) fun _ _ _ => rfl)

theorem Commutes.countDown (hg : Commutes f g) (hf : Overlooks x f) :
    Commutes f fun b =>
      Bank.rounds (fun b => g (b.put x (b.registers x - 1))) (b.registers x).toNat b := by
  have htake : Commutes f fun b => .ok (b.put x (b.registers x - 1)) :=
    hf.commutes_put fun b c hc => by rw [hf.keeps b c hc]
  intro b d
  refine Iff.trans ?_ ((htake.bind hg).rounds (b.registers x).toNat b d)
  rw [bind_eq_ok_iff, bind_eq_ok_iff]
  refine exists_congr fun c => and_congr_right fun hc => ?_
  -- the number of rounds is the same before and after
  rw [hf.keeps b c hc]
  rfl

end Bank

theorem RegisterCall.commutes (eof : EofPolicy) {call : RegisterCall} (hcall : call.Silent)
    {f : Bank → Except Bank Bank} (hf : ∀ r ∈ call.registers, Bank.Overlooks r f) :
    Bank.Commutes f fun b => call.perform eof b := by
  have hsame {x : Nat} (hx : x ∈ call.registers) {b c : Bank} (hc : f b = .ok c) :
      c.registers x = b.registers x := (hf x hx).keeps b c hc
  cases call with
  | set x value => exact (hf x (by simp [registers])).commutes_put fun _ _ _ => rfl
  | clear x => exact (hf x (by simp [registers])).commutes_put fun _ _ _ => rfl
  | increase x n =>
    refine (hf x (by simp [registers])).commutes_put fun b c hc => ?_
    rw [hsame (by simp [registers]) hc]
  | decrease x n =>
    refine (hf x (by simp [registers])).commutes_put fun b c hc => ?_
    rw [hsame (by simp [registers]) hc]
  | readInto x => cases hcall
  | writeFrom x => cases hcall
  | copy x y =>
    exact (hf y (by simp [registers])).commutes_put fun b c hc => hsame (by simp [registers]) hc
  | add x y =>
    refine (hf x (by simp [registers])).commutes_transfer (hf y (by simp [registers])) fun b c hc => ?_
    rw [hsame (by simp [registers]) hc, hsame (by simp [registers]) hc]
  | subtract x y =>
    refine (hf x (by simp [registers])).commutes_transfer (hf y (by simp [registers])) fun b c hc => ?_
    rw [hsame (by simp [registers]) hc, hsame (by simp [registers]) hc]

/-- A silent script changes places with whatever overlooks all its registers. -/
theorem RegisterScript.commutes (eof : EofPolicy) {f : Bank → Except Bank Bank} (s : RegisterScript)
    (hs : s.Silent) (hf : ∀ r ∈ s.registers, Bank.Overlooks r f) : Bank.Commutes f (s.eval eof) := by
  induction s with
  | done => exact Bank.commutes_ok f
  | call head rest ih =>
    obtain ⟨hhead, hrest⟩ := List.forall_mem_append.mp hf
    exact (RegisterCall.commutes eof hs.1 hhead).bind (ih hs.2 hrest)
  | repeated n body rest ihb ihr =>
    obtain ⟨hbody, hrest⟩ := List.forall_mem_append.mp hf
    exact ((ihb hs.1 hbody).rounds n.toNat).bind (ihr hs.2 hrest)
  | countDown r body rest ihb ihr =>
    obtain ⟨hr, hparts⟩ := List.forall_mem_cons.mp hf
    obtain ⟨hbody, hrest⟩ := List.forall_mem_append.mp hparts
    exact ((ihb hs.1 hbody).countDown hr).bind (ihr hs.2 hrest)

/-! ## Generated programs -/

/-- Under some limit, the run of a program with the given input and policy completes with a result. -/
def Program.Completes (p : Program) (inputs : List UInt8) (eof : EofPolicy) (r : Result) : Prop :=
  ∃ config : Config, config.eof = eof ∧ (execute p.text inputs config).result = .ok r ∧
    r.halt = .completed

theorem Result.Agrees.same {r r' : Result} {b : Bank} (h : r.Agrees (.ok b))
    (h' : r'.Agrees (.ok b)) : r.outputs = r'.outputs ∧ ∀ c, r.cell c = r'.cell c := by
  obtain ⟨-, houtputs, hregisters, hreserved⟩ := h
  obtain ⟨-, houtputs', hregisters', hreserved'⟩ := h'
  refine ⟨houtputs.trans houtputs'.symm, fun c => ?_⟩
  by_cases hc : c < Layout.registerBase
  · rw [hreserved c hc, hreserved' c hc]
  · obtain ⟨k, rfl⟩ : ∃ k, c = Layout.register k := ⟨c - Layout.registerBase, by
      unfold Layout.register
      omega⟩
    rw [hregisters k, hregisters' k]

namespace RegisterScript

variable {s : RegisterScript} {p : Program} {inputs : List UInt8} {eof : EofPolicy}

/-- Every result with which the generated program completes is the one of the register machine. -/
theorem agrees_of_completes (hs : s.Sound) (hn : s.nesting ≤ 4) (hp : s.toScript.generate = .ok p)
    {r : Result} (h : p.Completes inputs eof r) : r.Agrees (s.eval eof (Bank.start inputs)) := by
  obtain ⟨config, rfl, hr, hhalt⟩ := h
  obtain ⟨n, hrun⟩ := exists_agrees hs hn hp inputs config.eof
  obtain ⟨r', hr', hagrees⟩ := hrun { config with maxCycles := max n config.maxCycles } rfl
    (Nat.le_max_left _ _)
  have hdecode := LoopTree.decode_of_symbols p.text _
    (Script.symbols_ofText_of_generate s.plain_toScript hp)
  rw [result_execute inputs hdecode] at hr hr'
  have hlimit (r'' : Result) (h : Except.ok r = (.ok r'' : Except Fault Result)) :
      r''.halt ≠ .cycleLimit := by
    cases h
    rw [hhalt]
    exact HaltReason.noConfusion
  -- a higher limit makes no difference to a run that completes
  rw [outcome_of_le rfl (Nat.zero_le _) (Nat.le_max_right n config.maxCycles) (hr ▸ hlimit)] at hr'
  cases hr.symm.trans hr'
  exact hagrees

/-- A generated program completes just if the register machine does. -/
theorem completes_iff (hs : s.Sound) (hn : s.nesting ≤ 4) (hp : s.toScript.generate = .ok p) :
    (∃ r, p.Completes inputs eof r) ↔ ∃ b, s.eval eof (Bank.start inputs) = .ok b := by
  constructor
  · rintro ⟨r, hr⟩
    have hagrees := agrees_of_completes hs hn hp hr
    obtain ⟨-, -, -, hhalt⟩ := hr
    cases heval : s.eval eof (Bank.start inputs) with
    | ok b => exact ⟨b, rfl⟩
    | error b =>
      rw [heval] at hagrees
      obtain ⟨⟨pc, hpc⟩, -⟩ := hagrees
      cases hhalt.symm.trans hpc
  · rintro ⟨b, hb⟩
    obtain ⟨n, hrun⟩ := exists_agrees hs hn hp inputs eof
    obtain ⟨r, hr, hagrees⟩ := hrun { eof, maxCycles := n } rfl (Nat.le_refl n)
    rw [hb] at hagrees
    exact ⟨r, { eof, maxCycles := n }, rfl, hr, hagrees.1⟩

/-- Of two register scripts that name no register in common, one of them silent, either order completes just
if the other does, with the same output and the same value in every cell. -/
theorem completes_append_comm (s t : RegisterScript) (hs : s.Sound) (ht : t.Sound)
    (hsn : s.nesting ≤ 4) (htn : t.nesting ≤ 4) (hsilent : t.Silent)
    (hdisjoint : ∀ r ∈ t.registers, r ∉ s.registers) :
    ∃ p q, (s ++ t).toScript.generate = .ok p ∧ (t ++ s).toScript.generate = .ok q ∧
      ∀ (inputs : List UInt8) (eof : EofPolicy),
        ((∃ r, p.Completes inputs eof r) ↔ ∃ r, q.Completes inputs eof r) ∧
        ∀ r r', p.Completes inputs eof r → q.Completes inputs eof r' →
          r.outputs = r'.outputs ∧ ∀ c, r.cell c = r'.cell c := by
  have hst : (s ++ t).nesting ≤ 4 := by
    rw [nesting_append]
    omega
  have hts : (t ++ s).nesting ≤ 4 := by
    rw [nesting_append]
    omega
  obtain ⟨p, hp⟩ := (s ++ t).exists_generate hst
  obtain ⟨q, hq⟩ := (t ++ s).exists_generate hts
  refine ⟨p, q, hp, hq, ?_⟩
  intro inputs eof
  have hcomm (b : Bank) : (s ++ t).eval eof (Bank.start inputs) = .ok b ↔
      (t ++ s).eval eof (Bank.start inputs) = .ok b := by
    rw [eval_append, eval_append]
    exact t.commutes eof hsilent (fun r hr => s.overlooks eof (hdisjoint r hr)) _ b
  have hiff : (∃ r, p.Completes inputs eof r) ↔
      ∃ b, (s ++ t).eval eof (Bank.start inputs) = .ok b :=
    completes_iff (sound_append hs ht) hst hp
  constructor
  · rw [hiff, completes_iff (sound_append ht hs) hts hq]
    exact exists_congr hcomm
  · intro r r' hr hr'
    obtain ⟨b, hb⟩ := hiff.mp ⟨r, hr⟩
    have hagrees := agrees_of_completes (sound_append hs ht) hst hp hr
    have hagrees' := agrees_of_completes (sound_append ht hs) hts hq hr'
    rw [hb] at hagrees
    rw [(hcomm b).mp hb] at hagrees'
    exact hagrees.same hagrees'

/-- A script that reads a number and writes its double, and one that multiplies in two loops: on the
input of one byte both orders complete, and on no input neither does. -/
theorem completes_append_comm_double :
    let s : RegisterScript := .call (.readInto 0) (.countDown 0 (.call (.increase 1 2) .done)
      (.call (.writeFrom 1) .done))
    let t : RegisterScript := .call (.set 2 3) (.repeated 2
      (.call (.copy 2 3) (.call (.add 4 3) .done)) .done)
    s.Sound ∧ t.Sound ∧ s.nesting ≤ 4 ∧ t.nesting ≤ 4 ∧ t.Silent ∧
      (∀ r ∈ t.registers, r ∉ s.registers) ∧
      ∃ p q, (s ++ t).toScript.generate = .ok p ∧ (t ++ s).toScript.generate = .ok q ∧
        (¬ ∃ r, p.Completes [] .halt r) ∧ (¬ ∃ r, q.Completes [] .halt r) ∧
        ∃ r r', p.Completes [7] .halt r ∧ q.Completes [7] .halt r' ∧ r.outputs = r'.outputs ∧
          ∀ c, r.cell c = r'.cell c := by
  intro s t
  have hs : s.Sound := by decide
  have ht : t.Sound := by decide
  have hsilent : t.Silent := by decide
  have hdisjoint : ∀ r ∈ t.registers, r ∉ s.registers := by decide
  have hsn : s.nesting ≤ 4 := by decide
  have htn : t.nesting ≤ 4 := by decide
  obtain ⟨p, q, hp, hq, hruns⟩ := completes_append_comm s t hs ht hsn htn hsilent hdisjoint
  have hempty : ¬ ∃ r, p.Completes [] .halt r := by
    rw [completes_iff (sound_append hs ht) (by decide) hp]
    rintro ⟨b, hb⟩
    cases hb
  obtain ⟨r, hr⟩ := (completes_iff (sound_append hs ht) (by decide) hp).mpr
    (⟨_, rfl⟩ : ∃ b, (s ++ t).eval .halt (Bank.start [7]) = .ok b)
  obtain ⟨r', hr'⟩ := (hruns [7] .halt).1.mp ⟨r, hr⟩
  exact ⟨hs, ht, hsn, htn, hsilent, hdisjoint, p, q, hp, hq, hempty,
    fun h => hempty ((hruns [] .halt).1.mpr h), r, r', hr, hr', (hruns [7] .halt).2 r r' hr hr'⟩

end RegisterScript

end TapeMachine
