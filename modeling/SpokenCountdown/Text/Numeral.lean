/-!
# Decimal numerals

A numeral is a non-empty run of ASCII digits; leading zeros do not matter. The
readers take the first value that is too large as a bound.
-/

namespace SpokenCountdown.Text

/-- Number of values of a 32-bit word. -/
abbrev word32 : Nat := 4294967296

/-- Number of values of a 64-bit word. -/
abbrev word64 : Nat := 18446744073709551616

def numeral (n : Nat) : List Char :=
  Nat.toDigits 10 n

def readNumeral (bound : Nat) (cs : List Char) : Option Nat :=
  if cs ≠ [] ∧ cs.all Char.isDigit = true ∧ Nat.ofDigitChars 10 cs 0 < bound then
    some (Nat.ofDigitChars 10 cs 0)
  else
    none

/-- A numeral that one plus sign may precede. -/
def readSignedNumeral (bound : Nat) : List Char → Option Nat
  | '+' :: cs => readNumeral bound cs
  | cs => readNumeral bound cs

def digitRun (cs : List Char) : List Char × List Char :=
  (cs.takeWhile Char.isDigit, cs.dropWhile Char.isDigit)

theorem digitRun_append (cs : List Char) : (digitRun cs).1 ++ (digitRun cs).2 = cs :=
  List.takeWhile_append_dropWhile

theorem digitRun_of_digits {digits cs : List Char} (h : ∀ c ∈ digits, c.isDigit = true)
    (hcs : ∀ c ∈ cs.head?, c.isDigit = false) : digitRun (digits ++ cs) = (digits, cs) := by
  induction digits with
  | nil =>
    cases cs with
    | nil => rfl
    | cons c cs =>
      have hc := hcs c rfl
      simp [digitRun, hc]
  | cons c digits ih =>
    have hc := h c List.mem_cons_self
    have hrun := ih fun x hx => h x (List.mem_cons_of_mem c hx)
    simp only [digitRun, Prod.mk.injEq] at hrun
    simp [digitRun, hc, hrun]

/-- The numeral for `n` with zeros in front up to two digits. -/
def twoDigits (n : Nat) : List Char :=
  if n < 10 then '0' :: numeral n else numeral n

theorem numeral_ne_nil {n : Nat} : numeral n ≠ [] :=
  Nat.toDigits_ne_nil

theorem ofDigitChars_numeral {n : Nat} : Nat.ofDigitChars 10 (numeral n) 0 = n :=
  Nat.ofDigitChars_ten_toDigits

theorem isDigit_of_mem_numeral {n : Nat} {c : Char} (h : c ∈ numeral n) : c.isDigit = true :=
  Nat.isDigit_of_mem_toDigits (by decide) (by decide) h

/-- A run of digits and the number that it stands for. -/
structure IsNumeral (n : Nat) (cs : List Char) : Prop where
  nonempty : cs ≠ []
  digits : ∀ c ∈ cs, c.isDigit = true
  value : Nat.ofDigitChars 10 cs 0 = n

section
variable {bound n m : Nat} {c : Char} {cs : List Char}

theorem IsNumeral.unique (h : IsNumeral n cs) (hm : IsNumeral m cs) : n = m :=
  h.value.symm.trans hm.value

theorem IsNumeral.not_mem (h : IsNumeral n cs) (hc : c.isDigit = false) : c ∉ cs := by
  intro hmem
  simp [h.digits c hmem] at hc

theorem not_isNumeral_signed : ¬ IsNumeral n ('+' :: cs) :=
  fun h => h.not_mem (by decide) List.mem_cons_self

theorem IsNumeral.head_isDigit {rest tail : List Char} (h : IsNumeral n cs)
    (hcs : cs ++ rest = c :: tail) : c.isDigit = true := by
  obtain ⟨d, ds, rfl⟩ := List.exists_cons_of_ne_nil h.nonempty
  obtain rfl := (List.cons.inj hcs).1
  exact h.digits d List.mem_cons_self

theorem IsNumeral.cons_zero (h : IsNumeral n cs) : IsNumeral n ('0' :: cs) where
  nonempty := List.cons_ne_nil _ _
  digits := List.forall_mem_cons.mpr ⟨rfl, h.digits⟩
  value := h.value

theorem ofDigitChars_lt (h : ∀ c ∈ cs, c.isDigit = true) (init : Nat) :
    Nat.ofDigitChars 10 cs init < (init + 1) * Nat.pow 10 cs.length := by
  induction cs generalizing init with
  | nil => simp
  | cons c cs ih =>
    obtain ⟨hc, hcs⟩ := List.forall_mem_cons.mp h
    have hdigit : c.toNat - '0'.toNat ≤ 9 :=
      Nat.sub_le_sub_right (Char.isDigit_iff_toNat.mp hc).2 '0'.toNat
    have hpow : Nat.pow 10 (c :: cs).length = 10 * Nat.pow 10 cs.length := Nat.mul_comm _ 10
    rw [Nat.ofDigitChars_cons, hpow]
    calc Nat.ofDigitChars 10 cs (10 * init + (c.toNat - '0'.toNat))
        < (10 * init + (c.toNat - '0'.toNat) + 1) * Nat.pow 10 cs.length := ih hcs _
      _ ≤ ((init + 1) * 10) * Nat.pow 10 cs.length := Nat.mul_le_mul_right _ (by omega)
      _ = (init + 1) * (10 * Nat.pow 10 cs.length) := Nat.mul_assoc ..

theorem IsNumeral.lt_pow (h : IsNumeral n cs) : n < Nat.pow 10 cs.length := by
  have hlt := ofDigitChars_lt h.digits 0
  rwa [h.value, Nat.zero_add, Nat.one_mul] at hlt

theorem isNumeral_numeral : IsNumeral n (numeral n) where
  nonempty := numeral_ne_nil
  digits _ := isDigit_of_mem_numeral
  value := ofDigitChars_numeral

theorem isNumeral_twoDigits : IsNumeral n (twoDigits n) := by
  unfold twoDigits
  split
  · exact isNumeral_numeral.cons_zero
  · exact isNumeral_numeral

theorem readNumeral_eq_some_iff :
    readNumeral bound cs = some n ↔ IsNumeral n cs ∧ n < bound := by
  unfold readNumeral
  constructor
  · intro h
    split at h
    · rename_i hread
      obtain ⟨hne, hall, hlt⟩ := hread
      obtain rfl := Option.some.inj h
      exact ⟨⟨hne, List.all_eq_true.mp hall, rfl⟩, hlt⟩
    · cases h
  · rintro ⟨⟨hne, hall, rfl⟩, hlt⟩
    exact if_pos ⟨hne, List.all_eq_true.mpr hall, hlt⟩

theorem readSignedNumeral_eq_some_iff : readSignedNumeral bound cs = some n ↔
    (IsNumeral n cs ∨ ∃ digits, cs = '+' :: digits ∧ IsNumeral n digits) ∧ n < bound := by
  unfold readSignedNumeral
  split
  · simp [readNumeral_eq_some_iff, not_isNumeral_signed]
  · rename_i hunsigned
    rw [readNumeral_eq_some_iff]
    refine and_congr_left fun _ => (or_iff_left ?_).symm
    rintro ⟨digits, hcs, -⟩
    exact hunsigned digits hcs

end

/-- No zero stands in front. -/
theorem numeral_head {n : Nat} (hn : n ≠ 0) : (numeral n).head? ≠ some '0' := by
  induction n using Nat.strongRecOn with
  | ind n ih =>
    by_cases hlt : n < 10
    · have hdigit : ∀ n < 10, n ≠ 0 → (numeral n).head? ≠ some '0' := by decide
      exact hdigit n hlt hn
    · have hsplit : numeral n = numeral (n / 10) ++ numeral (n % 10) := by
        have h := Nat.toDigits_append_toDigits (b := 10) (n := n / 10) (d := n % 10) (by decide)
          (by omega) (Nat.mod_lt n (by decide))
        rw [Nat.div_add_mod] at h
        exact h.symm
      have hfront := ih (n / 10) (by omega) (by omega)
      obtain ⟨c, cs, hcs⟩ := List.exists_cons_of_ne_nil (@numeral_ne_nil (n / 10))
      rw [hcs] at hfront
      rw [hsplit, hcs]
      exact hfront

end SpokenCountdown.Text
