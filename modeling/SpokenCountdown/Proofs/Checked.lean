import SpokenCountdown.Text.Numeral

/-!
# Checked arithmetic

Arithmetic on machine words that says where it goes wrong. A sum or a product that
is no word of 64 bits is a fault, and so are a difference below zero and a division
by zero.
-/

namespace SpokenCountdown

inductive WordFault where
  | overflow
  | underflow
  | divisionByZero
  /-- Rounds were left to go. -/
  | unfinished
  deriving DecidableEq, Repr

abbrev Checked := Except WordFault

namespace Words

def add (a b : Nat) : Checked Nat :=
  if a + b < Text.word64 then .ok (a + b) else .error .overflow

def mul (a b : Nat) : Checked Nat :=
  if a * b < Text.word64 then .ok (a * b) else .error .overflow

def mulSaturating (a b : Nat) : Nat :=
  min (a * b) (Text.word64 - 1)

def sub (a b : Nat) : Checked Nat :=
  if b ≤ a then .ok (a - b) else .error .underflow

def div (a b : Nat) : Checked Nat :=
  if b = 0 then .error .divisionByZero else .ok (a / b)

def mod (a b : Nat) : Checked Nat :=
  if b = 0 then .error .divisionByZero else .ok (a % b)

-- ---------------------------------------------------------------------------
-- Where nothing goes wrong
-- ---------------------------------------------------------------------------

section
variable {a b : Nat}

theorem add_eq (h : a + b < Text.word64) : add a b = .ok (a + b) :=
  if_pos h

theorem mul_eq (h : a * b < Text.word64) : mul a b = .ok (a * b) :=
  if_pos h

theorem sub_eq (h : b ≤ a) : sub a b = .ok (a - b) :=
  if_pos h

theorem div_eq (h : 0 < b) : div a b = .ok (a / b) :=
  if_neg (Nat.ne_of_gt h)

theorem mod_eq (h : 0 < b) : mod a b = .ok (a % b) :=
  if_neg (Nat.ne_of_gt h)

theorem mulSaturating_eq (h : a * b < Text.word64) : mulSaturating a b = a * b :=
  Nat.min_eq_left (Nat.le_sub_one_of_lt h)

end

@[simp] theorem ok_bind (a : α) (f : α → Checked β) : (Except.ok a >>= f) = f a := rfl

theorem mapM_eq {f : α → Checked β} {g : α → β} {xs : List α} (h : ∀ x ∈ xs, f x = .ok (g x)) :
    xs.mapM f = .ok (xs.map g) := by
  induction xs with
  | nil => rfl
  | cons x rest ih =>
    obtain ⟨hx, hrest⟩ := List.forall_mem_cons.mp h
    rw [List.mapM_cons, hx, ok_bind, ih hrest]
    rfl

end Words

end SpokenCountdown
