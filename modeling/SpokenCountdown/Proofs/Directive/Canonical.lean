import SpokenCountdown.Proofs.Directive.Parsing

/-!
# The canonical token of a directive

Of the tokens of a directive one is canonical: the parts in lower case, a hyphen
behind each but the last, no numeral with a zero in front. It parses to the directive
exactly if that is well formed: `canonical_parses`.

A hyphen decides between a count and a numerator. In `5-1/3` the five is a numerator,
so a count takes one more hyphen there: `5--1/3`.
-/

namespace SpokenCountdown

open Directive (unitFraction)

def Quantifier.written : Quantifier → List Char
  | .single => []
  | .all => "all-".toList
  | .every => "every-".toList

def Anchor.written : Anchor → List Char
  | .both => []
  | .first => "first-".toList
  | .last => "last-".toList

def TimeUnit.written : TimeUnit → List Char
  | .seconds => ['s']
  | .minutes => ['m']
  | .hours => ['h']

def Form.written : Form → List Char
  | .time amount unit => Text.numeral amount ++ unit.written
  | .fraction (some n) parts => Text.numeral n ++ '-' :: unitFraction parts
  | .fraction none parts => unitFraction parts

namespace Text

variable {c : Char} {n : Nat}

theorem toLower_of_isDigit (h : c.isDigit = true) : c.toLower = c := by
  have hdigit : c.toNat ≤ 57 := (Char.isDigit_iff_toNat.mp h).2
  unfold Char.toLower
  split
  · rename_i hupper
    have hletter : 65 ≤ c.toNat := hupper.1
    omega
  · rfl

theorem lowercase_append (front back : List Char) :
    lowercase (front ++ back) = lowercase front ++ lowercase back :=
  List.map_append

theorem lowercase_numeral : lowercase (numeral n) = numeral n := by
  have hdigits : ∀ c ∈ numeral n, c.toLower = id c :=
    fun _ h => toLower_of_isDigit (isDigit_of_mem_numeral h)
  rw [lowercase, List.map_congr_left hdigits, List.map_id]

end Text

namespace Directive

def writtenCount : Option Nat → List Char
  | none => []
  | some m => Text.numeral m ++ ['-']

/-- The form, behind one more hyphen where a count would be taken for its numerator. -/
def writtenBody (d : Directive) : List Char :=
  match d.multiplier, d.anchor, d.form with
  | some _, .both, .fraction none _ => '-' :: d.form.written
  | _, _, _ => d.form.written

/-- What stands behind the quantifier. -/
def writtenReading (d : Directive) : List Char :=
  writtenCount d.multiplier ++ (d.anchor.written ++ d.writtenBody)

def canonical (d : Directive) : String :=
  String.ofList (d.quantifier.written ++ d.writtenReading)

section
variable {d : Directive} {cs : List Char} {form : Form}

-- ---------------------------------------------------------------------------
-- The parts
-- ---------------------------------------------------------------------------

theorem quantified_written (quantifier : Quantifier) : Quantified quantifier quantifier.written := by
  cases quantifier with
  | single => exact .single
  | all => exact .all (.separator (.inl rfl))
  | every => exact .every (.separator (.inl rfl))

theorem unitName_written (unit : TimeUnit) : UnitName unit unit.written := by
  cases unit with
  | seconds => exact .seconds
  | minutes => exact .minutes
  | hours => exact .hours

theorem anchorName_written {anchor : Anchor} (h : anchor ≠ .both) :
    ∃ name, AnchorName anchor name ∧ anchor.written = name ++ ['-'] := by
  cases anchor with
  | both => exact absurd rfl h
  | first => exact ⟨_, .first, rfl⟩
  | last => exact ⟨_, .last, rfl⟩

theorem body_written (h : form.WellFormed) : Body form form.written := by
  cases form with
  | time amount unit =>
    exact .time (numeral_digits h.2) (Text.numeral_head (Nat.ne_of_gt h.1)) .nothing
      (unitName_written unit)
  | fraction numerator parts =>
    cases numerator with
    | none => exact @Body.fraction parts [] h.2.1 h.2.2 .nothing
    | some n =>
      obtain ⟨positive, digit⟩ := h.1 n rfl
      exact .fractions positive digit h.2.1 h.2.2 (.separator (.inl rfl))

theorem body_writtenBody (h : d.form.WellFormed) : Body d.form d.writtenBody := by
  unfold writtenBody
  split
  · rename_i parts _ _ hform
    rw [hform] at h ⊢
    exact .fraction h.2.1 h.2.2 (.separator (.inl rfl))
  · exact body_written h

theorem Body.unique {other : Form} (h : Body form cs) (hother : Body other cs) : form = other :=
  Option.some.inj ((body?_eq_some_iff.mpr h).symm.trans (body?_eq_some_iff.mpr hother))

-- ---------------------------------------------------------------------------
-- The reading
-- ---------------------------------------------------------------------------

theorem writtenReading_counted {m : Nat} (hmultiplier : d.multiplier = some m)
    (hanchor : d.anchor = .both) :
    d.writtenReading = Text.numeral m ++ '-' :: d.writtenBody := by
  rw [writtenReading, hmultiplier, hanchor, writtenCount, List.append_assoc]
  rfl

theorem reading_written (h : d.WellFormed) :
    Reading d.multiplier d.anchor d.form d.writtenReading := by
  have hbody := body_writtenBody h.1
  have hyphen : Gap ['-'] := .separator (.inl rfl)
  cases hmultiplier : d.multiplier with
  | none =>
    rw [writtenReading, hmultiplier]
    by_cases hanchor : d.anchor = .both
    · rw [hanchor]
      exact .plain hbody
    · obtain ⟨name, hname, hwritten⟩ := anchorName_written hanchor
      rw [hwritten, writtenCount, List.nil_append, List.append_assoc]
      exact .anchored hname hyphen hbody
  | some m =>
    obtain ⟨positive, bounded⟩ := h.2 m hmultiplier
    have hcount := numeral_digits bounded
    by_cases hanchor : d.anchor = .both
    · rw [writtenReading_counted hmultiplier hanchor, hanchor]
      exact .counted hcount positive (.inl rfl) hbody
    · obtain ⟨name, hname, hwritten⟩ := anchorName_written hanchor
      rw [writtenReading, hmultiplier, writtenCount, hwritten, List.append_assoc,
        List.append_assoc]
      exact .countedAnchored hcount positive hyphen hname hyphen hbody

/-- No body holds the letter that both names of an anchor end in. -/
theorem Body.t_not_mem (h : Body form cs) : 't' ∉ cs := by
  have hdigits {n : Nat} {digits : List Char} (h : Digits n digits) : 't' ∉ digits :=
    fun ht => absurd (h.digits _ ht) (by decide)
  have hgap {gap : List Char} (h : Gap gap) : 't' ∉ gap := by
    cases h with
    | nothing => exact List.not_mem_nil
    | separator hc => rcases hc with rfl | rfl <;> decide
  have hname {unit : TimeUnit} {name : List Char} (h : UnitName unit name) : 't' ∉ name := by
    cases h <;> decide
  have hfraction {parts : Nat} (high : parts ≤ 10) : 't' ∉ unitFraction parts := by
    have hparts := hdigits (numeral_digits (Nat.lt_of_le_of_lt high (by decide)))
    simp [unitFraction, hparts]
  cases h with
  | fraction _ high hg => simp [hgap hg, hfraction high]
  | fractions _ digit _ high hg =>
    simp [hdigits (numeral_digits_of_le digit), hgap hg, hfraction high]
  | time hamount _ hg hunit => simp [hdigits hamount, hgap hg, hname hunit]

theorem AnchorName.t_mem {anchor : Anchor} (h : AnchorName anchor cs) : 't' ∈ cs := by
  cases h <;> decide

/-- No reading with an anchor is a body as well. -/
theorem Reading.not_body {multiplier : Option Nat} {anchor : Anchor}
    (h : Reading multiplier anchor form cs) (anchored : anchor ≠ .both) :
    ¬ ∃ form, Body form cs := by
  rintro ⟨form, hbody⟩
  refine hbody.t_not_mem ?_
  cases h with
  | plain | counted => exact absurd rfl anchored
  | countedAnchored _ _ _ hanchor | anchored hanchor => simp [hanchor.t_mem]

/-- Right behind a count stands no bare fraction, which would have it for a numerator. -/
theorem writtenBody_ne {m parts : Nat} (h : d.form.WellFormed) (hmultiplier : d.multiplier = some m)
    (hanchor : d.anchor = .both) (low : 2 ≤ parts) (high : parts ≤ 10) :
    d.writtenBody ≠ unitFraction parts := by
  intro heq
  have hbody := body_writtenBody h
  rw [heq] at hbody
  have hform : d.form = .fraction none parts :=
    hbody.unique (@Body.fraction parts [] low high .nothing)
  simp [writtenBody, hmultiplier, hanchor, hform, Form.written, unitFraction] at heq

theorem chosen_written (h : d.WellFormed) :
    Chosen d.multiplier d.anchor d.form d.writtenReading where
  reading := reading_written h
  plain := by
    rintro ⟨form, hbody⟩
    have hanchor : d.anchor = .both := by
      by_contra hanchor
      exact (reading_written h).not_body hanchor ⟨form, hbody⟩
    refine ⟨?_, hanchor⟩
    have hreading := reading_written h
    cases hmultiplier : d.multiplier with
    | none => rfl
    | some m =>
      rw [hmultiplier, hanchor] at hreading
      obtain ⟨n, c, parts, -, digit, hc, low, high, hnumerator⟩ :=
        body_and_counted_iff.mp ⟨⟨form, hbody⟩, m, d.form, hreading⟩
      -- the digits in front are the same in both readings, and so is what follows
      have hcount := writtenReading_counted hmultiplier hanchor
      have hrun := congrArg Text.digitRun (hcount.symm.trans hnumerator)
      rw [(numeral_digits (h.2 m hmultiplier).2).digitRun_append (IsSeparator.head? (.inl rfl)),
        (numeral_digits_of_le digit).digitRun_append hc.head?] at hrun
      exact absurd (List.cons.inj (Prod.mk.inj hrun).2).2
        (writtenBody_ne h.1 hmultiplier hanchor low high)

-- ---------------------------------------------------------------------------
-- The token
-- ---------------------------------------------------------------------------

theorem lowercase_unitFraction (parts : Nat) :
    Text.lowercase (unitFraction parts) = unitFraction parts :=
  (Text.lowercase_append ['1', '/'] _).trans (congrArg _ Text.lowercase_numeral)

theorem lowercase_form (form : Form) : Text.lowercase form.written = form.written := by
  cases form with
  | time amount unit =>
    rw [Form.written, Text.lowercase_append, Text.lowercase_numeral]
    cases unit <;> rfl
  | fraction numerator parts =>
    cases numerator with
    | none => exact lowercase_unitFraction parts
    | some n =>
      rw [Form.written, Text.lowercase_append, Text.lowercase_numeral]
      exact congrArg (_ ++ '-' :: ·) (lowercase_unitFraction parts)

/-- No part of the token has a letter in upper case. -/
theorem lowercase_canonical (d : Directive) :
    Text.lowercase d.canonical.toList = d.quantifier.written ++ d.writtenReading := by
  have hquantifier : Text.lowercase d.quantifier.written = d.quantifier.written := by
    cases d.quantifier <;> rfl
  have hcount : Text.lowercase (writtenCount d.multiplier) = writtenCount d.multiplier := by
    cases d.multiplier with
    | none => rfl
    | some m =>
      rw [writtenCount, Text.lowercase_append, Text.lowercase_numeral]
      rfl
  have hanchor : Text.lowercase d.anchor.written = d.anchor.written := by
    cases d.anchor <;> rfl
  have hbody : Text.lowercase d.writtenBody = d.writtenBody := by
    unfold writtenBody
    split
    · exact congrArg ('-' :: ·) (lowercase_form d.form)
    · exact lowercase_form d.form
  rw [canonical, String.toList_ofList, writtenReading]
  simp only [Text.lowercase_append, hquantifier, hcount, hanchor, hbody]

theorem parse?_canonical (h : d.WellFormed) :
    parse? d.canonical = some { d with raw := d.canonical } :=
  parse?_eq_some_iff.mpr ⟨rfl, _, _, lowercase_canonical d, quantified_written d.quantifier,
    chosen_written h⟩

/-- A directive is well formed exactly if its canonical token parses to it, and so does
that of every directive which was parsed from some token. -/
theorem canonical_parses (d : Directive) :
    (d.WellFormed ↔ parse? d.canonical = some { d with raw := d.canonical }) ∧
      ∀ token, parse? token = some d →
        parse? d.canonical = some { d with raw := d.canonical } := by
  refine ⟨⟨parse?_canonical, fun h => ?_⟩, fun token h => ?_⟩
  · exact (parse?_eq_some_iff.mp h).2.wellFormed
  · exact parse?_canonical (parse?_eq_some_iff.mp h).2.wellFormed

example : (⟨.every, .both, some 5, .fraction none 3, ""⟩ : Directive).canonical = "every-5--1/3" := by
  decide

end

end Directive

end SpokenCountdown
