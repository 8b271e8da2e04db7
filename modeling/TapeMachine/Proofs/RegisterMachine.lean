import Mathlib.Logic.Function.Basic
import TapeMachine.Script
import TapeMachine.State

/-!
# The register machine

A register script names registers only and leaves the scratch cells and the accumulator to the
generator. What it is to do is said by a machine that has nothing but registers, an input and an
output.

* `RegisterScript.toScript` : the generator calls of a register script;
* `RegisterScript.Sound` : no call names a register twice, and no body writes the register that its
  loop counts down;
* `RegisterScript.eval` : what the script does to the registers. It always ends, in `.ok` or, where a
  read found no input and the policy is to stop, in `.error`;
* `RegisterScript.keeps` : a script leaves the registers as they were that it does not write;
* `Bank.rounds_shift_all` : counting one register while another is counted down adds the one to the
  other, or takes it.
-/

namespace TapeMachine

inductive RegisterCall where
  | set (register : Nat) (value : UInt8)
  | clear (register : Nat)
  | increase (register n : Nat)
  | decrease (register n : Nat)
  | readInto (register : Nat)
  | writeFrom (register : Nat)
  | copy (source target : Nat)
  | add (sum addend : Nat)
  | subtract (minuend subtrahend : Nat)
  deriving DecidableEq, Repr

/-- A list of calls on registers, some of them inside loops. -/
inductive RegisterScript where
  | done
  | call (head : RegisterCall) (rest : RegisterScript)
  | repeated (n : UInt8) (body rest : RegisterScript)
  | countDown (register : Nat) (body rest : RegisterScript)
  deriving DecidableEq, Repr

namespace RegisterCall

def actions : RegisterCall → List Action
  | set r value => [.set (Layout.register r) value]
  | clear r => [.clear (Layout.register r)]
  | increase r n => [.moveTo (Layout.register r), .increment n]
  | decrease r n => [.moveTo (Layout.register r), .decrement n]
  | readInto r => [.readInto (Layout.register r)]
  | writeFrom r => [.writeFrom (Layout.register r)]
  | copy source target => [.copy (Layout.register source) (Layout.register target)]
  | add sum addend => [.add (Layout.register sum) (Layout.register addend)]
  | subtract minuend subtrahend =>
    [.subtract (Layout.register minuend) (Layout.register subtrahend)]

/-- A call on two registers names two registers. -/
def Sound : RegisterCall → Prop
  | copy a b | add a b | subtract a b => a ≠ b
  | _ => True

def Writes (r : Nat) : RegisterCall → Prop
  | set s _ | clear s | increase s _ | decrease s _ | readInto s => s = r
  | writeFrom _ => False
  | copy _ target => target = r
  | add a b | subtract a b => a = r ∨ b = r

instance : DecidablePred Sound
  | copy a b | add a b | subtract a b => inferInstanceAs (Decidable (a ≠ b))
  | set .. | clear _ | increase .. | decrease .. | readInto _ | writeFrom _ => isTrue trivial

instance (r : Nat) : DecidablePred (Writes r)
  | set s _ | clear s | increase s _ | decrease s _ | readInto s | copy _ s =>
    inferInstanceAs (Decidable (s = r))
  | writeFrom _ => isFalse id
  | add a b | subtract a b => inferInstanceAs (Decidable (a = r ∨ b = r))

end RegisterCall

namespace RegisterScript

def toScript : RegisterScript → Script
  | done => .done
  | call head rest => head.actions.foldr .act rest.toScript
  | repeated n body rest => .block (.repeated n) body.toScript rest.toScript
  | countDown r body rest => .block (.countDown (Layout.register r)) body.toScript rest.toScript

def Writes (r : Nat) : RegisterScript → Prop
  | done => False
  | call head rest => head.Writes r ∨ rest.Writes r
  | repeated _ body rest => body.Writes r ∨ rest.Writes r
  | countDown s body rest => s = r ∨ body.Writes r ∨ rest.Writes r

/-- No call names a register twice, and no body writes the register that is counted down. -/
def Sound : RegisterScript → Prop
  | done => True
  | call head rest => head.Sound ∧ rest.Sound
  | repeated _ body rest => body.Sound ∧ rest.Sound
  | countDown r body rest => ¬ body.Writes r ∧ body.Sound ∧ rest.Sound

def decideWrites (r : Nat) : (s : RegisterScript) → Decidable (s.Writes r)
  | done => isFalse id
  | call head rest =>
    have := rest.decideWrites r
    inferInstanceAs (Decidable (head.Writes r ∨ rest.Writes r))
  | repeated _ body rest =>
    have := body.decideWrites r
    have := rest.decideWrites r
    inferInstanceAs (Decidable (body.Writes r ∨ rest.Writes r))
  | countDown s body rest =>
    have := body.decideWrites r
    have := rest.decideWrites r
    inferInstanceAs (Decidable (s = r ∨ body.Writes r ∨ rest.Writes r))

instance (r : Nat) : DecidablePred (Writes r) := decideWrites r

def decideSound : (s : RegisterScript) → Decidable s.Sound
  | done => isTrue trivial
  | call head rest =>
    have := rest.decideSound
    inferInstanceAs (Decidable (head.Sound ∧ rest.Sound))
  | repeated _ body rest =>
    have := body.decideSound
    have := rest.decideSound
    inferInstanceAs (Decidable (body.Sound ∧ rest.Sound))
  | countDown r body rest =>
    have := body.decideSound
    have := rest.decideSound
    inferInstanceAs (Decidable (¬ body.Writes r ∧ body.Sound ∧ rest.Sound))

instance : DecidablePred Sound := decideSound

end RegisterScript

/-! ## The machine -/

structure Bank where
  registers : Nat → UInt8
  inputs : List UInt8
  outputs : Array UInt8

namespace Bank

def start (inputs : List UInt8) : Bank := { registers := fun _ => 0, inputs, outputs := #[] }

def put (b : Bank) (r : Nat) (value : UInt8) : Bank :=
  { b with registers := Function.update b.registers r value }

def read (eof : EofPolicy) (r : Nat) (b : Bank) : Except Bank Bank :=
  match b.inputs with
  | byte :: inputs => .ok { b.put r byte with inputs }
  | [] =>
    match eof with
    | .halt => .error b
    | .zero => .ok (b.put r 0)
    | .unchanged => .ok b

def write (r : Nat) (b : Bank) : Bank := { b with outputs := b.outputs.push (b.registers r) }

/-- Something again and again, a given number of times. -/
def rounds (f : Bank → Except Bank Bank) : Nat → Bank → Except Bank Bank
  | 0, b => .ok b
  | n + 1, b => f b >>= rounds f n

end Bank

def RegisterCall.perform (eof : EofPolicy) (b : Bank) : RegisterCall → Except Bank Bank
  | set r value => .ok (b.put r value)
  | clear r => .ok (b.put r 0)
  | increase r n => .ok (b.put r (b.registers r + UInt8.ofNat n))
  | decrease r n => .ok (b.put r (b.registers r - UInt8.ofNat n))
  | readInto r => b.read eof r
  | writeFrom r => .ok (b.write r)
  | copy source target => .ok (b.put target (b.registers source))
  | add x y => .ok ((b.put x (b.registers x + b.registers y)).put y 0)
  | subtract x y => .ok ((b.put x (b.registers x - b.registers y)).put y 0)

def RegisterScript.eval (eof : EofPolicy) : RegisterScript → Bank → Except Bank Bank
  | done, b => .ok b
  | call head rest, b => head.perform eof b >>= rest.eval eof
  | repeated n body rest, b => Bank.rounds (body.eval eof) n.toNat b >>= rest.eval eof
  | countDown r body rest, b =>
    Bank.rounds (fun b => body.eval eof (b.put r (b.registers r - 1))) (b.registers r).toNat b >>=
      rest.eval eof

/-! ## What the machine leaves as it is -/

namespace Bank

variable {b c : Bank} {r x y : Nat} {f g : Bank → Except Bank Bank}

@[simp] theorem registers_put_self (b : Bank) (r : Nat) (v : UInt8) :
    (b.put r v).registers r = v := by
  simp [put]

theorem registers_put_of_ne (h : x ≠ y) (v : UInt8) : (b.put x v).registers y = b.registers y := by
  simp [put, h.symm]

/-- What ends without stopping at a read leaves the register as it was. -/
def Keeps (r : Nat) (f : Bank → Except Bank Bank) : Prop :=
  ∀ b c, f b = .ok c → c.registers r = b.registers r

theorem exists_of_bind {x : Except Bank Bank} (h : x >>= g = .ok c) :
    ∃ b, x = .ok b ∧ g b = .ok c := by
  cases x with
  | error e => cases h
  | ok b => exact ⟨b, rfl, h⟩

theorem Keeps.bind (hf : Keeps r f) (hg : Keeps r g) : Keeps r fun b => f b >>= g := by
  intro b c h
  obtain ⟨k, hk, hc⟩ := exists_of_bind h
  rw [hg k c hc, hf b k hk]

theorem Keeps.rounds (hf : Keeps r f) : ∀ n, Keeps r (rounds f n) := by
  intro n
  induction n with
  | zero =>
    intro b c h
    cases h
    rfl
  | succ n ih => exact hf.bind ih

theorem keeps_put {v : Bank → UInt8} (h : x ≠ r) : Keeps r fun b => .ok (b.put x (v b)) := by
  intro b c hc
  cases hc
  exact registers_put_of_ne h _

theorem keeps_read (eof : EofPolicy) (h : x ≠ r) : Keeps r (read eof x) := by
  intro b c hc
  unfold read at hc
  split at hc
  · cases hc
    exact registers_put_of_ne h _
  · split at hc <;> cases hc
    · exact registers_put_of_ne h _
    · rfl

end Bank

theorem RegisterCall.keeps (eof : EofPolicy) {call : RegisterCall} {r : Nat} (h : ¬ call.Writes r) :
    Bank.Keeps r fun b => call.perform eof b := by
  cases call with
  | readInto x => exact Bank.keeps_read eof h
  | writeFrom x =>
    intro b c hc
    cases hc
    rfl
  | add x y =>
    exact (Bank.keeps_put (v := fun b => b.registers x + b.registers y) fun hx => h (.inl hx)).bind
      (Bank.keeps_put (v := fun _ => 0) fun hy => h (.inr hy))
  | subtract x y =>
    exact (Bank.keeps_put (v := fun b => b.registers x - b.registers y) fun hx => h (.inl hx)).bind
      (Bank.keeps_put (v := fun _ => 0) fun hy => h (.inr hy))
  | _ => exact Bank.keeps_put h

/-- A script leaves the registers as they were that it does not write. -/
theorem RegisterScript.keeps (eof : EofPolicy) (s : RegisterScript) {r : Nat} (h : ¬ s.Writes r) :
    Bank.Keeps r (s.eval eof) := by
  induction s with
  | done =>
    intro b c hc
    cases hc
    rfl
  | call head rest ih =>
    exact (head.keeps eof fun hw => h (.inl hw)).bind (ih fun hw => h (.inr hw))
  | repeated n body rest ihb ihr =>
    exact ((ihb fun hw => h (.inl hw)).rounds n.toNat).bind (ihr fun hw => h (.inr hw))
  | countDown x body rest ihb ihr =>
    have hround : Bank.Keeps r fun b => body.eval eof (b.put x (b.registers x - 1)) :=
      (Bank.keeps_put fun hx => h (.inl hx)).bind (ihb fun hw => h (.inr (.inl hw)))
    intro b c hc
    obtain ⟨k, hk, hc⟩ := Bank.exists_of_bind hc
    rw [ihr (fun hw => h (.inr (.inr hw))) k c hc]
    exact hround.rounds _ b k hk

/-! ## Counting one register while another is counted down -/

namespace Bank

variable {x y : Nat}

theorem put_put (b : Bank) (r : Nat) (v w : UInt8) : (b.put r v).put r w = b.put r w := by
  simp [put]

theorem put_comm {b : Bank} (h : x ≠ y) (v w : UInt8) :
    (b.put x v).put y w = (b.put y w).put x v := by
  simp only [put]
  rw [Function.update_comm h]

theorem put_registers (b : Bank) (r : Nat) : b.put r (b.registers r) = b := by
  simp [put]

theorem rounds_raise (n : Nat) : ∀ b : Bank,
    rounds (fun b => .ok (b.put x (b.registers x + 1))) n b =
      .ok (b.put x (b.registers x + UInt8.ofNat n)) := by
  induction n with
  | zero =>
    intro b
    rw [show UInt8.ofNat 0 = 0 from rfl, UInt8.add_zero, put_registers, rounds]
  | succ n ih =>
    intro b
    have hx : b.registers x + 1 + UInt8.ofNat n = b.registers x + UInt8.ofNat (n + 1) := by
      rw [UInt8.ofNat_add]
      grind
    rw [rounds]
    show rounds _ n _ = _
    rw [ih, registers_put_self, put_put, hx]

/-- In `n` rounds, each of which takes one from `y` and adds `δ` to `x`. -/
theorem rounds_shift (h : x ≠ y) (δ : UInt8) (n : Nat) : ∀ b : Bank,
    rounds (fun b => .ok ((b.put y (b.registers y - 1)).put x (b.registers x + δ))) n b =
      .ok ((b.put y (b.registers y - UInt8.ofNat n)).put x (b.registers x + UInt8.ofNat n * δ)) := by
  induction n with
  | zero =>
    intro b
    rw [show UInt8.ofNat 0 = 0 from rfl, UInt8.sub_zero, UInt8.zero_mul, UInt8.add_zero,
      put_registers, put_registers, rounds]
  | succ n ih =>
    intro b
    have hy : b.registers y - 1 - UInt8.ofNat n = b.registers y - UInt8.ofNat (n + 1) := by
      rw [UInt8.ofNat_add]
      grind
    have hx : b.registers x + δ + UInt8.ofNat n * δ =
        b.registers x + UInt8.ofNat (n + 1) * δ := by
      rw [UInt8.ofNat_add]
      grind
    rw [rounds]
    show rounds _ n _ = _
    rw [ih, registers_put_self, registers_put_of_ne h, registers_put_self, hx, hy, put_comm h,
      put_put, put_put]

/-- Counting `y` down to zero adds `δ` to `x` as often as `y` says. -/
theorem rounds_shift_all (h : x ≠ y) (δ : UInt8) (b : Bank) :
    rounds (fun b => .ok ((b.put y (b.registers y - 1)).put x (b.registers x + δ)))
        (b.registers y).toNat b =
      .ok ((b.put x (b.registers x + b.registers y * δ)).put y 0) := by
  rw [rounds_shift h, UInt8.ofNat_toNat, UInt8.sub_self, put_comm h]

end Bank

end TapeMachine
