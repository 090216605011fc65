import Mathlib.Tactic.IntervalCases
import SpokenCountdown.Directive.Parser

/-!
# The language of directives

A directive is an optional quantifier and a reading: a body, or a body behind a
count, an anchor or both. The rules say nothing of how a text is read; two of
them may hold of one text, and `Chosen` says which one counts then. There is one
kind of such texts: `body_and_counted_iff`.
-/

namespace SpokenCountdown

/-- Amounts and counts are words of 32 bits. -/
def Form.WellFormed : Form → Prop
  | .time amount _ => 1 ≤ amount ∧ amount < Text.word32
  | .fraction numerator denominator =>
    (∀ n ∈ numerator, 1 ≤ n ∧ n ≤ 9) ∧ 2 ≤ denominator ∧ denominator ≤ 10

namespace Directive

def WellFormed (d : Directive) : Prop :=
  d.form.WellFormed ∧ ∀ m ∈ d.multiplier, 1 ≤ m ∧ m < Text.word32

-- ---------------------------------------------------------------------------
-- The rules
-- ---------------------------------------------------------------------------

def IsSeparator (c : Char) : Prop :=
  c = '-' ∨ c = '_'

/-- At most one separator. -/
inductive Gap : List Char → Prop where
  | nothing : Gap []
  | separator {c : Char} (hc : IsSeparator c) : Gap [c]

/-- A run of digits; zeros in front make no difference. -/
structure Digits (n : Nat) (cs : List Char) : Prop where
  nonempty : cs ≠ []
  digits : ∀ c ∈ cs, c.isDigit = true
  value : Nat.ofDigitChars 10 cs 0 = n
  bounded : n < Text.word32

inductive UnitName : TimeUnit → List Char → Prop where
  | implied : UnitName .seconds []
  | seconds : UnitName .seconds ['s']
  | minutes : UnitName .minutes ['m']
  | hours : UnitName .hours ['h']

def unitFraction (d : Nat) : List Char :=
  '1' :: '/' :: Text.numeral d

inductive Body : Form → List Char → Prop where
  | fraction {d : Nat} {gap : List Char} (low : 2 ≤ d) (high : d ≤ 10) (hgap : Gap gap) :
      Body (.fraction none d) (gap ++ unitFraction d)
  | fractions {n d : Nat} {gap : List Char} (positive : 1 ≤ n) (digit : n ≤ 9) (low : 2 ≤ d)
      (high : d ≤ 10) (hgap : Gap gap) :
      Body (.fraction (some n) d) (Text.numeral n ++ (gap ++ unitFraction d))
  | time {amount : Nat} {unit : TimeUnit} {digits gap name : List Char}
      (hamount : Digits amount digits) (hzero : digits.head? ≠ some '0') (hgap : Gap gap)
      (hunit : UnitName unit name) : Body (.time amount unit) (digits ++ (gap ++ name))

inductive AnchorName : Anchor → List Char → Prop where
  | first : AnchorName .first "first".toList
  | last : AnchorName .last "last".toList

/-- What stands behind the quantifier, with the count, the anchor and the form it tells. -/
inductive Reading : Option Nat → Anchor → Form → List Char → Prop where
  | plain {form : Form} {body : List Char} (hbody : Body form body) : Reading none .both form body
  | countedAnchored {count : Nat} {anchor : Anchor} {form : Form}
      {digits gap name space body : List Char} (hcount : Digits count digits)
      (positive : 1 ≤ count) (hgap : Gap gap) (hanchor : AnchorName anchor name)
      (hspace : Gap space) (hbody : Body form body) :
      Reading (some count) anchor form (digits ++ (gap ++ (name ++ (space ++ body))))
  | counted {count : Nat} {form : Form} {digits body : List Char} {c : Char}
      (hcount : Digits count digits) (positive : 1 ≤ count) (hc : IsSeparator c)
      (hbody : Body form body) : Reading (some count) .both form (digits ++ c :: body)
  | anchored {anchor : Anchor} {form : Form} {name space body : List Char}
      (hanchor : AnchorName anchor name) (hspace : Gap space) (hbody : Body form body) :
      Reading none anchor form (name ++ (space ++ body))

inductive Quantified : Quantifier → List Char → Prop where
  | single : Quantified .single []
  | every {gap : List Char} (hgap : Gap gap) : Quantified .every ("every".toList ++ gap)
  | all {gap : List Char} (hgap : Gap gap) : Quantified .all ("all".toList ++ gap)

/-- A text that is a body is read as one. -/
structure Chosen (multiplier : Option Nat) (anchor : Anchor) (form : Form) (cs : List Char) :
    Prop where
  reading : Reading multiplier anchor form cs
  plain : (∃ form, Body form cs) → multiplier = none ∧ anchor = .both

/-- The text is a quantifier and what the fields of the directive say. -/
def Denotes (cs : List Char) (d : Directive) : Prop :=
  ∃ text rest, cs = text ++ rest ∧ Quantified d.quantifier text ∧
    Chosen d.multiplier d.anchor d.form rest

section
variable {n d : Nat} {c : Char} {cs gap rest text : List Char} {form : Form} {anchor : Anchor}
  {multiplier : Option Nat}

-- ---------------------------------------------------------------------------
-- How texts begin
-- ---------------------------------------------------------------------------

theorem IsSeparator.isDigit (h : IsSeparator c) : c.isDigit = false := by
  rcases h with rfl | rfl <;> rfl

theorem not_isSeparator_of_isDigit (h : c.isDigit = true) : ¬ IsSeparator c := by
  intro hc
  simp [hc.isDigit] at h

theorem not_isSeparator_slash : ¬ IsSeparator '/' := by
  rintro (h | h) <;> cases h

theorem Digits.exists_cons (h : Digits n cs) : ∃ c rest, cs = c :: rest ∧ c.isDigit = true := by
  cases cs with
  | nil => exact absurd rfl h.nonempty
  | cons c rest => exact ⟨c, rest, rfl, h.digits c List.mem_cons_self⟩

theorem Digits.slash_not_mem (h : Digits n cs) : '/' ∉ cs :=
  fun hslash => absurd (h.digits _ hslash) (by decide)

theorem numeral_digits (h : n < Text.word32) : Digits n (Text.numeral n) where
  nonempty := Text.numeral_ne_nil
  digits _ := Text.isDigit_of_mem_numeral
  value := Text.ofDigitChars_numeral
  bounded := h

theorem numeral_digits_of_le (digit : n ≤ 9) : Digits n (Text.numeral n) :=
  numeral_digits (Nat.lt_of_le_of_lt digit (by decide))

theorem numeral_eq_singleton (positive : 1 ≤ n) (digit : n ≤ 9) :
    ∃ c, Text.numeral n = [c] ∧ '1' ≤ c ∧ c ≤ '9' ∧ c.toNat - '0'.toNat = n := by
  interval_cases n
  all_goals exact ⟨_, rfl, by decide, by decide, by decide⟩

theorem numeral_of_digit (h : '1' ≤ c ∧ c ≤ '9') :
    1 ≤ c.toNat - '0'.toNat ∧ c.toNat - '0'.toNat ≤ 9 ∧
      Text.numeral (c.toNat - '0'.toNat) = [c] := by
  have low : 49 ≤ c.toNat := h.1
  have high : c.toNat ≤ 57 := h.2
  rw [← Char.ofNat_toNat c]
  generalize c.toNat = n at low high
  interval_cases n <;> decide

theorem Body.exists_cons (h : Body form cs) :
    ∃ c rest, cs = c :: rest ∧ (c.isDigit = true ∨ IsSeparator c) := by
  cases h with
  | fraction _ _ hgap =>
    cases hgap with
    | nothing => exact ⟨_, _, rfl, .inl rfl⟩
    | separator hc => exact ⟨_, _, rfl, .inr hc⟩
  | @fractions n d gap positive digit =>
    obtain ⟨c, rest, hn, hc⟩ := (numeral_digits_of_le digit).exists_cons
    exact ⟨c, rest ++ (gap ++ unitFraction d), by rw [hn]; rfl, .inl hc⟩
  | time hamount =>
    obtain ⟨c, rest, rfl, hc⟩ := hamount.exists_cons
    exact ⟨c, _, rfl, .inl hc⟩

theorem AnchorName.exists_cons (h : AnchorName anchor cs) :
    ∃ c rest, cs = c :: rest ∧ (c = 'f' ∨ c = 'l') := by
  cases h with
  | first => exact ⟨_, _, rfl, .inl rfl⟩
  | last => exact ⟨_, _, rfl, .inr rfl⟩

theorem Reading.exists_cons (h : Reading multiplier anchor form cs) :
    ∃ c rest, cs = c :: rest ∧ (c.isDigit = true ∨ c = 'f' ∨ c = 'l' ∨
      IsSeparator c ∧ multiplier = none ∧ anchor = .both) := by
  cases h with
  | plain hbody =>
    obtain ⟨c, rest, rfl, hc | hc⟩ := hbody.exists_cons
    · exact ⟨c, rest, rfl, .inl hc⟩
    · exact ⟨c, rest, rfl, .inr (.inr (.inr ⟨hc, rfl, rfl⟩))⟩
  | countedAnchored hcount | counted hcount =>
    obtain ⟨c, rest, rfl, hc⟩ := hcount.exists_cons
    exact ⟨c, _, rfl, .inl hc⟩
  | anchored hanchor =>
    obtain ⟨c, rest, rfl, hc | hc⟩ := hanchor.exists_cons
    · exact ⟨c, _, rfl, .inr (.inl hc)⟩
    · exact ⟨c, _, rfl, .inr (.inr (.inl hc))⟩

-- ---------------------------------------------------------------------------
-- Separators
-- ---------------------------------------------------------------------------

theorem skipSeparator_separator (h : IsSeparator c) : skipSeparator (c :: cs) = cs := by
  rcases h with rfl | rfl <;> rfl

theorem skipSeparator_cons (h : ¬ IsSeparator c) : skipSeparator (c :: cs) = c :: cs := by
  unfold skipSeparator
  split
  · rename_i heq
    cases heq
    exact absurd (.inl rfl) h
  · rename_i heq
    cases heq
    exact absurd (.inr rfl) h
  · rfl

theorem exists_gap (cs : List Char) : ∃ gap, Gap gap ∧ cs = gap ++ skipSeparator cs := by
  cases cs with
  | nil => exact ⟨[], .nothing, rfl⟩
  | cons c rest =>
    by_cases h : IsSeparator c
    · exact ⟨[c], .separator h, by rw [skipSeparator_separator h]; rfl⟩
    · exact ⟨[], .nothing, by rw [skipSeparator_cons h]; rfl⟩

/-- A gap is skipped, and with no gap a separator behind it. -/
theorem Gap.skip (h : Gap gap) (cs : List Char) :
    skipSeparator (gap ++ cs) = cs ∨ skipSeparator (gap ++ cs) = skipSeparator cs := by
  cases h with
  | nothing => exact .inr rfl
  | separator hc => exact .inl (skipSeparator_separator hc)

theorem Gap.slash_not_mem (h : Gap gap) : '/' ∉ gap := by
  cases h with
  | nothing => exact List.not_mem_nil
  | separator hc =>
    intro hslash
    obtain rfl := List.mem_singleton.mp hslash
    exact not_isSeparator_slash hc

theorem Gap.reverse (h : Gap gap) : gap.reverse = gap := by
  cases h <;> rfl

theorem Body.skip (h : Body form cs) : Body form (skipSeparator cs) := by
  obtain ⟨c, rest, rfl, hc | hc⟩ := h.exists_cons
  · rw [skipSeparator_cons (not_isSeparator_of_isDigit hc)]
    exact h
  · rw [skipSeparator_separator hc]
    generalize hcs : c :: rest = cs at h
    cases h with
    | @fraction d gap low high hgap =>
      cases hgap with
      | nothing =>
        cases hcs
        rcases hc with h | h <;> cases h
      | separator =>
        cases hcs
        exact @Body.fraction d [] low high .nothing
    | @fractions n d gap positive digit =>
      obtain ⟨x, hx, low, high, -⟩ := numeral_eq_singleton positive digit
      rw [hx] at hcs
      cases hcs
      rcases hc with rfl | rfl
      · exact absurd low (by decide)
      · exact absurd high (by decide)
    | @time amount unit digits gap name hamount =>
      obtain ⟨x, more, rfl, hx⟩ := hamount.exists_cons
      cases hcs
      exact absurd hc (not_isSeparator_of_isDigit hx)

theorem Body.skip_gap (h : Body form cs) (hgap : Gap gap) :
    Body form (skipSeparator (gap ++ cs)) := by
  rcases hgap.skip cs with heq | heq
  · rw [heq]
    exact h
  · rw [heq]
    exact h.skip

theorem Chosen.skip (h : Chosen multiplier anchor form cs) :
    Chosen multiplier anchor form (skipSeparator cs) := by
  obtain ⟨c, rest, rfl, hc⟩ := h.reading.exists_cons
  by_cases hsep : IsSeparator c
  · rcases hc with hc | rfl | rfl | ⟨-, rfl, rfl⟩
    · exact absurd hsep (not_isSeparator_of_isDigit hc)
    · rcases hsep with hsep | hsep <;> cases hsep
    · rcases hsep with hsep | hsep <;> cases hsep
    · have hbody : Body form (c :: rest) := by
        generalize c :: rest = cs at h
        cases h.reading with
        | plain hbody => exact hbody
        | anchored hanchor => cases hanchor
      exact ⟨.plain hbody.skip, fun _ => ⟨rfl, rfl⟩⟩
  · rw [skipSeparator_cons hsep]
    exact h

-- ---------------------------------------------------------------------------
-- Runs of digits
-- ---------------------------------------------------------------------------

theorem Digits.digitRun_append (h : Digits n cs) (hrest : ∀ c ∈ rest.head?, c.isDigit = false) :
    Text.digitRun (cs ++ rest) = (cs, rest) :=
  Text.digitRun_of_digits h.digits hrest

theorem digitRun_nil (h : ∀ c ∈ cs.head?, c.isDigit = false) : Text.digitRun cs = ([], cs) :=
  @Text.digitRun_of_digits [] cs nofun h

theorem IsSeparator.head? (h : IsSeparator c) : ∀ x ∈ (c :: rest).head?, x.isDigit = false := by
  rintro x ⟨⟩
  exact h.isDigit

theorem UnitName.slash_not_mem {unit : TimeUnit} (h : UnitName unit cs) : '/' ∉ cs := by
  cases h <;> decide

theorem UnitName.head? {unit : TimeUnit} (h : UnitName unit cs) :
    ∀ c ∈ cs.head?, c.isDigit = false ∧ ¬ IsSeparator c := by
  intro c hc
  cases h <;> cases hc
  all_goals exact ⟨rfl, by rintro (h | h) <;> cases h⟩

theorem UnitName.head?_gap {unit : TimeUnit} (h : UnitName unit cs) (hgap : Gap gap) :
    ∀ c ∈ (gap ++ cs).head?, c.isDigit = false := by
  cases hgap with
  | nothing => exact fun c hc => (h.head? c hc).1
  | separator hc => exact hc.head?

-- ---------------------------------------------------------------------------
-- Where two rules meet
-- ---------------------------------------------------------------------------

theorem Reading.of_counted {count : Nat} (h : Reading (some count) .both form cs) :
    ∃ digits c body, cs = digits ++ c :: body ∧ Digits count digits ∧ IsSeparator c ∧
      Body form body := by
  cases h with
  | countedAnchored _ _ _ hanchor => cases hanchor
  | counted hcount _ hc hbody => exact ⟨_, _, _, rfl, hcount, hc, hbody⟩

/-- A text is both a body and a body behind a count and a separator exactly if it
is a digit, a separator and a fraction. -/
theorem body_and_counted_iff :
    ((∃ form, Body form cs) ∧ ∃ count form, Reading (some count) .both form cs) ↔
      ∃ n c d, 1 ≤ n ∧ n ≤ 9 ∧ IsSeparator c ∧ 2 ≤ d ∧ d ≤ 10 ∧
        cs = Text.numeral n ++ c :: unitFraction d := by
  constructor
  · rintro ⟨⟨form, hbody⟩, count, counted, hreading⟩
    obtain ⟨digits, c, body, hcs, hcount, hc, hrest⟩ := hreading.of_counted
    -- the digits in front are the same in both readings
    have hrun : Text.digitRun cs = (digits, c :: body) := by
      rw [hcs, hcount.digitRun_append hc.head?]
    have separated (front more : List Char) (hfront : ∀ x ∈ front, x.isDigit = true) :
        cs ≠ front ++ '/' :: more := by
      intro h
      rw [h, Text.digitRun_of_digits hfront (by rintro x ⟨⟩; rfl)] at hrun
      cases hrun
      exact not_isSeparator_slash hc
    cases hbody with
    | @fraction d gap _ _ hgap =>
      cases hgap with
      | nothing => exact absurd rfl (separated ['1'] (Text.numeral d) (by simp))
      | separator hx =>
        obtain ⟨y, more, rfl, hy⟩ := hcount.exists_cons
        obtain rfl := (List.cons.inj hcs).1
        exact absurd hx (not_isSeparator_of_isDigit hy)
    | @fractions n d gap positive digit low high hgap =>
      cases hgap with
      | nothing =>
        have hdigits : ∀ x ∈ Text.numeral n ++ ['1'], x.isDigit = true := by
          intro x hx
          rcases List.mem_append.mp hx with hx | hx
          · exact Text.isDigit_of_mem_numeral hx
          · cases List.mem_singleton.mp hx
            rfl
        refine absurd ?_ (separated (Text.numeral n ++ ['1']) (Text.numeral d) hdigits)
        simp [unitFraction]
      | separator hx => exact ⟨n, _, d, positive, digit, hx, low, high, rfl⟩
    | @time amount unit front gap name hamount _ hgap hunit =>
      rw [hamount.digitRun_append (hunit.head?_gap hgap), Prod.mk.injEq] at hrun
      cases hgap with
      | nothing =>
        have hname : name = c :: body := hrun.2
        exact absurd hc (hunit.head? c (by rw [hname]; rfl)).2
      | separator =>
        obtain ⟨x, more, hx, hfirst⟩ := hrest.exists_cons
        have hname : name = x :: more := (List.cons.inj hrun.2).2.trans hx
        obtain ⟨hdigit, hseparator⟩ := hunit.head? x (by rw [hname]; rfl)
        rcases hfirst with h | h
        · exact absurd h (ne_true_of_eq_false hdigit)
        · exact absurd h hseparator
  · rintro ⟨n, c, d, positive, digit, hc, low, high, rfl⟩
    have hbody : Body (.fraction none d) (unitFraction d) := @Body.fraction d [] low high .nothing
    exact ⟨⟨_, .fractions positive digit low high (.separator hc)⟩,
      n, _, .counted (numeral_digits_of_le digit) positive hc hbody⟩

end

end Directive

end SpokenCountdown
