import TapeMachine.Proofs.RegisterMachine
import TapeMachine.Proofs.Routine

/-!
# Refinement of the register machine

The registers of the register machine are the cells behind the accumulator. The cells before them
are the business of the generated code: what the loops around it count in their slots is not to be
touched, and the slots that are free and the accumulator are to be zero again.

* `Holds held b m` : the memory `m` holds the registers of `b`, and `held` in the cells before them;
* `Behaviour.Refines R f pre post` : where the register machine does `f`, the tape does `R`. It is
  closed under sequence (`andThen`) and rounds (`loop`);
* `refines_countDown_register`, `refines_countDown_slot` : counting down a register, and counting down
  a cell before the registers, refine as many rounds as the counter says.
-/

namespace TapeMachine

/-- The memory holds the registers, the input and the output of a bank, and `held` in the cells
before the registers. -/
structure Holds (held : Nat → UInt8) (b : Bank) (m : Memory) : Prop where
  registers : ∀ r, m.cells (Layout.register r) = b.registers r
  reserved : ∀ c < Layout.registerBase, m.cells c = held c
  inputs : m.inputs = b.inputs
  outputs : m.outputs = b.outputs

/-- The tape ends as the register machine does. Where a read has stopped both, slots may be in use. -/
def Ends (post : Bank → Memory → Prop) : Except Bank Bank → Final → Prop
  | .ok b, .completed m => post b m
  | .error b, .exhausted m => ∃ held, Holds held b m
  | _, _ => False

theorem Ends.mono {Q T : Bank → Memory → Prop} {x : Except Bank Bank} {e : Final}
    (h : Ends Q x e) (hQ : ∀ c n, x = .ok c → Q c n → T c n) : Ends T x e := by
  cases x with
  | error c =>
    cases e with
    | completed n => cases h
    | exhausted n => exact h
  | ok c =>
    cases e with
    | completed n => exact hQ c n rfl h
    | exhausted n => cases h

/-- From memories that stand for a bank, a behaviour comes to an end that stands for what `f` makes
of the bank. -/
def Behaviour.Refines (R : Behaviour) (f : Bank → Except Bank Bank)
    (pre post : Bank → Memory → Prop) : Prop :=
  ∀ b m, pre b m → ∃ e, R m e ∧ Ends post (f b) e

theorem register_inj {r s : Nat} (h : r ≠ s) : Layout.register r ≠ Layout.register s := by
  unfold Layout.register
  omega

theorem register_ne {c : Nat} (h : c < Layout.registerBase) (r : Nat) : Layout.register r ≠ c := by
  unfold Layout.register
  omega

namespace Holds

variable {held : Nat → UInt8} {b : Bank} {m : Memory}

theorem go (h : Holds held b m) (cell : Nat) : Holds held b (m.go cell) :=
  ⟨h.registers, h.reserved, h.inputs, h.outputs⟩

theorem register (h : Holds held b m) (r head : Nat) (v : UInt8) : Holds held (b.put r v)
    { m with cells := Function.update m.cells (Layout.register r) v, head } where
  registers := by
    intro s
    show Function.update m.cells (Layout.register r) v (Layout.register s) = _
    by_cases hs : s = r
    · rw [hs, Bank.registers_put_self, Function.update_self]
    · rw [Bank.registers_put_of_ne (Ne.symm hs), Function.update_of_ne (register_inj hs)]
      exact h.registers s
  reserved := by
    intro c hc
    show Function.update m.cells (Layout.register r) v c = _
    rw [Function.update_of_ne (register_ne hc r).symm]
    exact h.reserved c hc
  inputs := h.inputs
  outputs := h.outputs

theorem slot (h : Holds held b m) {cell : Nat} (hcell : cell < Layout.registerBase) (head : Nat)
    (v : UInt8) : Holds (Function.update held cell v) b
      { m with cells := Function.update m.cells cell v, head } where
  registers := by
    intro r
    show Function.update m.cells cell v (Layout.register r) = _
    rw [Function.update_of_ne (register_ne hcell r)]
    exact h.registers r
  reserved := by
    intro c hc
    show Function.update m.cells cell v c = _
    rw [Function.update_apply, Function.update_apply]
    split
    · rfl
    · exact h.reserved c hc
  inputs := h.inputs
  outputs := h.outputs

theorem take_register (h : Holds held b m) (r : Nat) :
    Holds held (b.put r (b.registers r - 1)) (m.take (Layout.register r)) := by
  rw [Memory.take, h.registers]
  exact h.register r m.head _

theorem take_slot {cell : Nat} {v : UInt8} (hcell : cell < Layout.registerBase)
    (h : Holds (Function.update held cell v) b m) :
    Holds (Function.update held cell (v - 1)) b (m.take cell) := by
  have hslot := h.slot hcell m.head (v - 1)
  rw [Function.update_idem] at hslot
  rw [Memory.take, h.reserved cell hcell, Function.update_self]
  exact hslot

end Holds

/-! ## Laws of refinement -/

namespace Behaviour.Refines

variable {R S : Behaviour} {f g : Bank → Except Bank Bank} {P Q T : Bank → Memory → Prop}

theorem skip : skip.Refines .ok P P := fun _ m hm => ⟨.completed m, rfl, hm⟩

theorem congr (h : R.Refines f P Q) (hfg : ∀ b, f b = g b) : R.Refines g P Q := by
  intro b m hm
  rw [← hfg b]
  exact h b m hm

theorem consequence {P' : Bank → Memory → Prop} (h : R.Refines f P Q)
    (hP : ∀ b m, P' b m → P b m)
    (hQ : ∀ b m c n, P' b m → f b = .ok c → Q c n → T c n) : R.Refines f P' T := by
  intro b m hm
  obtain ⟨e, he, hends⟩ := h b m (hP b m hm)
  exact ⟨e, he, hends.mono fun c n hc => hQ b m c n hm hc⟩

theorem andThen (hR : R.Refines f P Q) (hS : S.Refines g Q T) :
    (R.andThen S).Refines (fun b => f b >>= g) P T := by
  intro b m hm
  obtain ⟨e, he, hends⟩ := hR b m hm
  show ∃ e, R.andThen S m e ∧ Ends T (f b >>= g) e
  cases hf : f b with
  | error c =>
    rw [hf] at hends
    cases e with
    | completed n => cases hends
    | exhausted n => exact ⟨.exhausted n, andThen_exhausted he, hends⟩
  | ok c =>
    rw [hf] at hends
    cases e with
    | exhausted n => cases hends
    | completed n =>
      obtain ⟨e, hn, hends⟩ := hS c n hends
      exact ⟨e, andThen_completed he hn, hends⟩

/-- Counting down refines as many rounds as the counter says: `P n` is to hold where `n` rounds are
left. -/
theorem loop {test : Memory → Prop} (P : Nat → Bank → Memory → Prop)
    (htest : ∀ n b m, P n b m → (test m ↔ n ≠ 0)) (hR : ∀ n, R.Refines f (P (n + 1)) (P n)) :
    ∀ n, (loop test R).Refines (Bank.rounds f n) (P n) (P 0) := by
  intro n
  induction n with
  | zero =>
    intro b m hm
    exact ⟨.completed m, .stop fun ht => (htest 0 b m hm).mp ht rfl, hm⟩
  | succ n ih =>
    intro b m hm
    have ht : test m := (htest (n + 1) b m hm).mpr (Nat.succ_ne_zero n)
    obtain ⟨e, he, hends⟩ := (hR n).andThen ih b m hm
    refine ⟨e, ?_, hends⟩
    obtain ⟨k, hround, hrest⟩ | ⟨k, hround, rfl⟩ := he
    · exact .again ht hround hrest
    · exact .starve ht hround

theorem update_andThen {u : Memory → Memory} {g : Bank → Bank} (h : R.Refines f Q T)
    (hu : ∀ b m, P b m → Q (g b) (u m)) : ((update u).andThen R).Refines (fun b => f (g b)) P T := by
  intro b m hm
  obtain ⟨e, he, hends⟩ := h (g b) (u m) (hu b m hm)
  exact ⟨e, (Behaviour.update_andThen u R m e).mpr he, hends⟩

theorem andThen_go (h : R.Refines f P Q) {cell : Nat} (hQ : ∀ b m, Q b m → Q b (m.go cell)) :
    (R.andThen (go cell)).Refines f P Q := by
  have hgo : (go cell).Refines .ok Q Q := fun b m hm => ⟨.completed (m.go cell), rfl, hQ b m hm⟩
  refine (h.andThen hgo).congr fun b => ?_
  cases f b <;> rfl

theorem countDown {body : Behaviour} {cell : Nat} (P : Nat → Bank → Memory → Prop)
    (hvalue : ∀ n b m, P n b m → (m.cells cell).toNat = n)
    (hgo : ∀ n b m, P n b m → P n b (m.go cell))
    (hround : ∀ n, ((update fun m => m.take cell).andThen body).Refines f (P (n + 1)) (P n))
    (n : Nat) : (Behaviour.countDown cell body).Refines (Bank.rounds f n) (P n) (P 0) := by
  have htest : ∀ n b m, P n b m → (m.cells cell ≠ 0 ↔ n ≠ 0) := by
    intro n b m hm
    rw [← hvalue n b m hm, Ne, Ne, ← UInt8.toNat_inj, UInt8.toNat_zero]
  refine (loop P htest (fun n => ?_) n).update_andThen (hgo n)
  rw [← andThen_assoc]
  exact (hround n).andThen_go (hgo n)

end Behaviour.Refines

section Counters
variable {body : Behaviour} {f : Bank → Except Bank Bank} {held : Nat → UInt8}

/-- Counting down a register that the body leaves as it is. What is held before the registers may
depend on the other registers. -/
theorem refines_countDown_register {held : Bank → Nat → UInt8} {r : Nat}
    (hheld : ∀ b v, held (b.put r v) = held b)
    (hb : body.Refines f (fun b => Holds (held b) b) (fun b => Holds (held b) b))
    (hf : Bank.Keeps r f) :
    (Behaviour.countDown (Layout.register r) body).Refines
      (fun b => Bank.rounds (fun b => f (b.put r (b.registers r - 1))) (b.registers r).toNat b)
      (fun b => Holds (held b) b) (fun b => Holds (held b) b) := by
  -- the number of rounds depends on the bank, so it is fixed first and read off the register after
  have hcount : ∀ n, (Behaviour.countDown (Layout.register r) body).Refines
      (Bank.rounds (fun b => f (b.put r (b.registers r - 1))) n)
      (fun b m => Holds (held b) b m ∧ (b.registers r).toNat = n)
      (fun b m => Holds (held b) b m ∧ (b.registers r).toNat = 0) := by
    refine .countDown (fun n b m => Holds (held b) b m ∧ (b.registers r).toNat = n) ?_ ?_ ?_
    · rintro n b m ⟨hm, rfl⟩
      rw [hm.registers]
    · rintro n b m ⟨hm, hn⟩
      exact ⟨hm.go _, hn⟩
    · intro n
      have hbody : body.Refines f (fun b m => Holds (held b) b m ∧ (b.registers r).toNat = n)
          (fun b m => Holds (held b) b m ∧ (b.registers r).toNat = n) := by
        refine hb.consequence (fun b m hm => hm.1) ?_
        rintro b m c k ⟨-, hn⟩ hc hk
        rw [← hf b c hc] at hn
        exact ⟨hk, hn⟩
      refine hbody.update_andThen ?_
      rintro b m ⟨hm, hn⟩
      have hnz : b.registers r ≠ 0 := fun h0 => by simp [h0] at hn
      have hless := toNat_sub_one hnz
      rw [hheld, Bank.registers_put_self]
      exact ⟨hm.take_register r, by omega⟩
  intro b m hm
  obtain ⟨e, he, hends⟩ := hcount (b.registers r).toNat b m ⟨hm, rfl⟩
  exact ⟨e, he, hends.mono fun c n _ hn => hn.1⟩

/-- Counting down a cell before the registers that the body leaves as it is. -/
theorem refines_countDown_slot {cell : Nat} (hcell : cell < Layout.registerBase)
    (hb : ∀ v, body.Refines f (Holds (Function.update held cell v))
      (Holds (Function.update held cell v))) (v : UInt8) :
    (Behaviour.countDown cell body).Refines (Bank.rounds f v.toNat)
      (Holds (Function.update held cell v)) (Holds (Function.update held cell 0)) := by
  have hcount : ∀ n, (Behaviour.countDown cell body).Refines (Bank.rounds f n)
      (fun b m => ∃ v : UInt8, v.toNat = n ∧ Holds (Function.update held cell v) b m)
      (fun b m => ∃ v : UInt8, v.toNat = 0 ∧ Holds (Function.update held cell v) b m) := by
    refine .countDown
      (fun n b m => ∃ v : UInt8, v.toNat = n ∧ Holds (Function.update held cell v) b m) ?_ ?_ ?_
    · rintro n b m ⟨v, rfl, hm⟩
      rw [hm.reserved cell hcell, Function.update_self]
    · rintro n b m ⟨v, hv, hm⟩
      exact ⟨v, hv, hm.go cell⟩
    · rintro n b m ⟨v, hv, hm⟩
      have hnz : v ≠ 0 := fun h0 => by simp [h0] at hv
      obtain ⟨e, he, hends⟩ :=
        (hb (v - 1)).update_andThen (g := id) (fun b m hm => hm.take_slot hcell) b m hm
      refine ⟨e, he, hends.mono fun c k _ hk => ⟨v - 1, ?_, hk⟩⟩
      have := toNat_sub_one hnz
      omega
  intro b m hm
  obtain ⟨e, he, hends⟩ := hcount v.toNat b m ⟨v, rfl, hm⟩
  refine ⟨e, he, hends.mono ?_⟩
  rintro c n - ⟨w, hw, hn⟩
  obtain rfl : w = 0 := UInt8.toNat_inj.mp hw
  exact hn

end Counters

end TapeMachine
