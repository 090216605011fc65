import SpokenCountdown.Proofs.Directive.Grammar

/-!
# The parser and the language

The parser takes exactly the texts of the language and finds the directive that
they denote: `parse?_language`. Each of its functions has one lemma that says
which rule it decides, in both directions.
-/

namespace SpokenCountdown.Directive

section
variable {n d : Nat} {c : Char} {cs rest text : List Char} {form : Form} {anchor : Anchor}
  {multiplier : Option Nat} {unit : TimeUnit}

-- ---------------------------------------------------------------------------
-- Times
-- ---------------------------------------------------------------------------

theorem readNumeral_eq_some_iff : Text.readNumeral Text.word32 cs = some n ↔ Digits n cs := by
  rw [Text.readNumeral_eq_some_iff]
  constructor
  · rintro ⟨h, bounded⟩
    exact ⟨h.nonempty, h.digits, h.value, bounded⟩
  · intro h
    exact ⟨⟨h.nonempty, h.digits, h.value⟩, h.bounded⟩

theorem unit?_eq_some_iff : unit? cs = some unit ↔ UnitName unit cs := by
  constructor
  · intro h
    unfold unit? at h
    split at h <;> cases h
    · exact .implied
    · exact .seconds
    · exact .minutes
    · exact .hours
  · intro h
    cases h <;> rfl

theorem skipSeparator_unitName (h : UnitName unit cs) : skipSeparator cs = cs := by
  cases h <;> rfl

theorem time?_eq_some_iff :
    time? cs = some form ↔ ∃ amount unit, form = .time amount unit ∧ Body form cs := by
  constructor
  · intro h
    unfold time? at h
    split at h
    · cases h
    · rename_i hzero
      simp only [Option.bind_eq_bind, Option.bind_eq_some_iff, Option.some.injEq] at h
      obtain ⟨amount, hamount, unit, hunit, rfl⟩ := h
      have hamount := readNumeral_eq_some_iff.mp hamount
      have hunit := unit?_eq_some_iff.mp hunit
      obtain ⟨gap, hgap, hrest⟩ := exists_gap (Text.digitRun cs).2
      have happend := Text.digitRun_append cs
      have hhead : (Text.digitRun cs).1.head? ≠ some '0' := by
        obtain ⟨c, more, hdigits, -⟩ := hamount.exists_cons
        rw [← happend, hdigits] at hzero
        rw [hdigits]
        exact hzero
      refine ⟨amount, unit, rfl, ?_⟩
      rw [← happend, hrest]
      exact .time hamount hhead hgap hunit
  · rintro ⟨amount, unit, rfl, h⟩
    cases h with
    | @time _ _ digits gap name hamount hzero hgap hunit =>
      have hhead : (digits ++ (gap ++ name)).head? ≠ some '0' := by
        obtain ⟨c, more, rfl, -⟩ := hamount.exists_cons
        exact hzero
      have hskip : skipSeparator (gap ++ name) = name := by
        rcases hgap.skip name with h | h
        · exact h
        · rw [h, skipSeparator_unitName hunit]
      have hrun := hamount.digitRun_append (hunit.head?_gap hgap)
      unfold time?
      rw [if_neg hhead]
      simp only [hrun, hskip, readNumeral_eq_some_iff.mpr hamount, unit?_eq_some_iff.mpr hunit]
      rfl

-- ---------------------------------------------------------------------------
-- Fractions
-- ---------------------------------------------------------------------------

theorem denominator?_eq_some_iff :
    denominator? cs = some d ↔ 2 ≤ d ∧ d ≤ 10 ∧ cs = Text.numeral d := by
  constructor
  · intro h
    unfold denominator? at h
    split at h
    · rename_i hten
      cases h
      exact ⟨by decide, by decide, hten⟩
    · split at h
      · rename_i c _
        split at h
        · rename_i hc
          cases h
          have low : 50 ≤ c.toNat := hc.1
          have hc : '1' ≤ c ∧ c ≤ '9' := ⟨Char.le_trans (by decide) hc.1, hc.2⟩
          obtain ⟨-, high, hnumeral⟩ := numeral_of_digit hc
          have hvalue : '0'.toNat = 48 := rfl
          exact ⟨by omega, by omega, hnumeral.symm⟩
        · cases h
      · cases h
  · rintro ⟨low, high, rfl⟩
    interval_cases d <;> decide

inductive Numerator : Option Nat → List Char → Prop where
  | unwritten {gap : List Char} (hgap : Gap gap) : Numerator none (gap ++ ['1'])
  | written {n : Nat} {gap : List Char} (positive : 1 ≤ n) (digit : n ≤ 9) (hgap : Gap gap) :
      Numerator (some n) (Text.numeral n ++ (gap ++ ['1']))

theorem body_fraction_iff {numerator : Option Nat} :
    Body (.fraction numerator d) cs ↔ 2 ≤ d ∧ d ≤ 10 ∧
      ∃ left, Numerator numerator left ∧ cs = left ++ '/' :: Text.numeral d := by
  constructor
  · intro h
    cases h with
    | fraction low high hgap =>
      exact ⟨low, high, _, .unwritten hgap, by simp [unitFraction]⟩
    | fractions positive digit low high hgap =>
      exact ⟨low, high, _, .written positive digit hgap, by simp [unitFraction]⟩
  · rintro ⟨low, high, left, hleft, rfl⟩
    cases hleft with
    | unwritten hgap => simpa [unitFraction] using Body.fraction low high hgap
    | written positive digit hgap =>
      simpa [unitFraction] using Body.fractions positive digit low high hgap

theorem numerator?_eq_some_iff {numerator : Option Nat} :
    numerator? cs = some numerator ↔ Numerator numerator cs := by
  constructor
  · intro h
    unfold numerator? at h
    split at h
    · rename_i before hreverse
      obtain ⟨gap, hgap, hbefore⟩ := exists_gap before
      obtain rfl : cs = (skipSeparator before).reverse ++ (gap ++ ['1']) := by
        rw [List.reverse_eq_cons_iff.mp hreverse]
        conv_lhs => rw [hbefore]
        simp [hgap.reverse]
      split at h
      · rename_i hrest
        cases h
        rw [hrest]
        exact .unwritten hgap
      · rename_i c hrest
        split at h
        · rename_i hc
          cases h
          obtain ⟨positive, digit, hnumeral⟩ := numeral_of_digit hc
          have hwritten := Numerator.written positive digit hgap
          rw [hnumeral] at hwritten
          rw [hrest]
          exact hwritten
        · cases h
      · cases h
    · cases h
  · intro h
    unfold numerator?
    cases h with
    | @unwritten gap hgap =>
      cases hgap with
      | nothing => rfl
      | separator hc => simp [skipSeparator_separator hc]
    | @written n gap positive digit hgap =>
      obtain ⟨c, hnumeral, low, high, hvalue⟩ := numeral_eq_singleton positive digit
      have hdigit : c.isDigit = true := Text.isDigit_of_mem_numeral (by rw [hnumeral]; simp)
      have hskip : skipSeparator (gap ++ [c]) = [c] := by
        rcases hgap.skip [c] with h | h
        · exact h
        · rw [h, skipSeparator_cons (not_isSeparator_of_isDigit hdigit)]
      have hreverse : (Text.numeral n ++ (gap ++ ['1'])).reverse = '1' :: (gap ++ [c]) := by
        simp [hnumeral, hgap.reverse]
      rw [hreverse]
      simp only [hskip]
      rw [if_pos ⟨low, high⟩, hvalue]

theorem Numerator.slash_not_mem {numerator : Option Nat} (h : Numerator numerator cs) :
    '/' ∉ cs := by
  cases h with
  | unwritten hgap => simp [hgap.slash_not_mem]
  | written positive digit hgap =>
    simp [hgap.slash_not_mem, (numeral_digits_of_le digit).slash_not_mem]

theorem fraction?_eq_some_iff :
    fraction? cs = some form ↔ ∃ numerator d, form = .fraction numerator d ∧ Body form cs := by
  constructor
  · intro h
    unfold fraction? at h
    split at h
    · cases h
    · rename_i c right hright
      simp only [Option.bind_eq_bind, Option.bind_eq_some_iff, Option.some.injEq] at h
      obtain ⟨d, hd, numerator, hnumerator, rfl⟩ := h
      obtain ⟨low, high, rfl⟩ := denominator?_eq_some_iff.mp hd
      obtain rfl : c = '/' := by
        have hhead := List.head?_dropWhile_not (· != '/') cs
        rw [hright] at hhead
        simpa using hhead
      refine ⟨numerator, d, rfl, body_fraction_iff.mpr ⟨low, high, cs.takeWhile (· != '/'), ?_, ?_⟩⟩
      · exact numerator?_eq_some_iff.mp hnumerator
      · rw [← hright, List.takeWhile_append_dropWhile]
  · rintro ⟨numerator, d, rfl, h⟩
    obtain ⟨low, high, left, hleft, rfl⟩ := body_fraction_iff.mp h
    have hne : ∀ c ∈ left, (c != '/') = true := by
      intro c hc
      rw [bne_iff_ne]
      rintro rfl
      exact hleft.slash_not_mem hc
    have htake : (left ++ '/' :: Text.numeral d).takeWhile (· != '/') = left := by
      rw [List.takeWhile_append_of_pos hne]
      simp
    have hdrop : (left ++ '/' :: Text.numeral d).dropWhile (· != '/') =
        '/' :: Text.numeral d := by
      rw [List.dropWhile_append_of_pos hne]
      rfl
    unfold fraction?
    rw [hdrop, htake]
    simp only [denominator?_eq_some_iff.mpr ⟨low, high, rfl⟩, numerator?_eq_some_iff.mpr hleft]
    rfl

theorem fraction?_time {amount : Nat} (h : Body (.time amount unit) cs) : fraction? cs = none := by
  have hslash : '/' ∉ cs := by
    cases h with
    | time hamount _ hgap hunit =>
      simp [hamount.slash_not_mem, hgap.slash_not_mem, hunit.slash_not_mem]
  rw [Option.eq_none_iff_forall_ne_some]
  intro form hform
  obtain ⟨numerator, d, rfl, hbody⟩ := fraction?_eq_some_iff.mp hform
  obtain ⟨-, -, left, -, rfl⟩ := body_fraction_iff.mp hbody
  exact hslash (by simp)

theorem body?_eq_some_iff : body? cs = some form ↔ Body form cs := by
  unfold body?
  rw [Option.orElse_eq_some, fraction?_eq_some_iff, time?_eq_some_iff]
  constructor
  · rintro (⟨-, -, -, h⟩ | ⟨-, -, -, -, h⟩) <;> exact h
  · intro h
    cases form with
    | fraction numerator d => exact .inl ⟨numerator, d, rfl, h⟩
    | time amount unit => exact .inr ⟨fraction?_time h, amount, unit, rfl, h⟩

-- ---------------------------------------------------------------------------
-- Keywords
-- ---------------------------------------------------------------------------

theorem startsWith_iff {keyword : String} :
    startsWith keyword cs = true ↔ ∃ after, cs = keyword.toList ++ after := by
  unfold startsWith
  rw [List.isPrefixOf_iff_prefix]
  constructor
  · rintro ⟨after, h⟩
    exact ⟨after, h.symm⟩
  · rintro ⟨after, rfl⟩
    exact List.prefix_append _ _

theorem afterKeyword?_append (keyword : String) (after : List Char) :
    afterKeyword? keyword (keyword.toList ++ after) = some (skipSeparator after) := by
  unfold afterKeyword?
  rw [if_pos (startsWith_iff.mpr ⟨after, rfl⟩), List.drop_left]

theorem afterKeyword?_eq_append {keyword : String} (h : afterKeyword? keyword cs = some rest) :
    ∃ gap, Gap gap ∧ cs = keyword.toList ++ (gap ++ rest) := by
  unfold afterKeyword? at h
  split at h
  · rename_i hstarts
    obtain ⟨after, rfl⟩ := startsWith_iff.mp hstarts
    obtain ⟨gap, hgap, hafter⟩ := exists_gap after
    rw [List.drop_left, Option.some.injEq] at h
    rw [h] at hafter
    exact ⟨gap, hgap, congrArg _ hafter⟩
  · cases h

theorem afterKeyword?_cons {keyword : String} {k : Char} (hk : keyword.toList.head? = some k)
    (h : k ≠ c) : afterKeyword? keyword (c :: cs) = none := by
  unfold afterKeyword?
  refine if_neg fun hstarts => ?_
  obtain ⟨after, hafter⟩ := startsWith_iff.mp hstarts
  rw [List.head?_eq_some_iff] at hk
  obtain ⟨more, hk⟩ := hk
  rw [hk] at hafter
  exact h (List.cons.inj hafter).1.symm

theorem exists_quantified (cs : List Char) : ∃ text,
    cs = text ++ (readQuantifier cs).2 ∧ Quantified (readQuantifier cs).1 text := by
  unfold readQuantifier
  split
  · rename_i rest h
    obtain ⟨gap, hgap, rfl⟩ := afterKeyword?_eq_append h
    exact ⟨_, (List.append_assoc ..).symm, .every hgap⟩
  · split
    · rename_i rest h
      obtain ⟨gap, hgap, rfl⟩ := afterKeyword?_eq_append h
      exact ⟨_, (List.append_assoc ..).symm, .all hgap⟩
    · exact ⟨[], rfl, .single⟩

theorem readQuantifier_append {quantifier : Quantifier} (h : Quantified quantifier text)
    (hreading : Reading multiplier anchor form rest) :
    readQuantifier (text ++ rest) = (quantifier, rest) ∨
      readQuantifier (text ++ rest) = (quantifier, skipSeparator rest) := by
  cases h with
  | single =>
    obtain ⟨c, more, rfl, hc⟩ := hreading.exists_cons
    have hother : c ≠ 'e' ∧ c ≠ 'a' := by
      constructor
      all_goals
        rintro rfl
        simp [IsSeparator] at hc
    have hevery : afterKeyword? "every" (c :: more) = none :=
      afterKeyword?_cons rfl hother.1.symm
    have hall : afterKeyword? "all" (c :: more) = none :=
      afterKeyword?_cons rfl hother.2.symm
    refine .inl ?_
    simp [readQuantifier, hevery, hall]
  | @every gap hgap =>
    have hread : readQuantifier (("every".toList ++ gap) ++ rest) =
        (.every, skipSeparator (gap ++ rest)) := by
      simp only [readQuantifier, List.append_assoc, afterKeyword?_append]
    rw [hread]
    exact (hgap.skip rest).imp (congrArg _) (congrArg _)
  | @all gap hgap =>
    have hevery : afterKeyword? "every" (("all".toList ++ gap) ++ rest) = none :=
      afterKeyword?_cons rfl (by decide)
    have hread : readQuantifier (("all".toList ++ gap) ++ rest) =
        (.all, skipSeparator (gap ++ rest)) := by
      simp only [readQuantifier, hevery]
      simp only [List.append_assoc, afterKeyword?_append]
    rw [hread]
    exact (hgap.skip rest).imp (congrArg _) (congrArg _)

theorem readAnchor_eq (cs : List Char) : readAnchor cs = (.both, cs) ∨
    ∃ name space, AnchorName (readAnchor cs).1 name ∧ Gap space ∧
      cs = name ++ (space ++ (readAnchor cs).2) := by
  unfold readAnchor
  split
  · rename_i rest h
    obtain ⟨space, hspace, hcs⟩ := afterKeyword?_eq_append h
    exact .inr ⟨_, space, .first, hspace, hcs⟩
  · split
    · rename_i rest h
      obtain ⟨space, hspace, hcs⟩ := afterKeyword?_eq_append h
      exact .inr ⟨_, space, .last, hspace, hcs⟩
    · exact .inl rfl

theorem readAnchor_anchorName (h : AnchorName anchor text) :
    readAnchor (text ++ rest) = (anchor, skipSeparator rest) := by
  cases h with
  | first => simp only [readAnchor, afterKeyword?_append]
  | last =>
    have hfirst : afterKeyword? "first" ("last".toList ++ rest) = none :=
      afterKeyword?_cons rfl (by decide)
    simp only [readAnchor, hfirst, afterKeyword?_append]

theorem Body.readAnchor (h : Body form cs) : readAnchor cs = (.both, cs) := by
  obtain ⟨c, more, rfl, hc⟩ := h.exists_cons
  have hother : c ≠ 'f' ∧ c ≠ 'l' := by
    constructor
    all_goals
      rintro rfl
      simp [IsSeparator] at hc
  have hfirst : afterKeyword? "first" (c :: more) = none :=
    afterKeyword?_cons rfl hother.1.symm
  have hlast : afterKeyword? "last" (c :: more) = none :=
    afterKeyword?_cons rfl hother.2.symm
  simp [Directive.readAnchor, hfirst, hlast]

def Named (cs : List Char) : Prop :=
  ∃ anchor name rest, AnchorName anchor name ∧ cs = name ++ rest

theorem named_iff :
    Named cs ↔ startsWith "first" cs = true ∨ startsWith "last" cs = true := by
  constructor
  · rintro ⟨anchor, name, rest, hanchor, rfl⟩
    cases hanchor with
    | first => exact .inl (startsWith_iff.mpr ⟨rest, rfl⟩)
    | last => exact .inr (startsWith_iff.mpr ⟨rest, rfl⟩)
  · rintro (h | h)
    · obtain ⟨rest, rfl⟩ := startsWith_iff.mp h
      exact ⟨.first, _, rest, .first, rfl⟩
    · obtain ⟨rest, rfl⟩ := startsWith_iff.mp h
      exact ⟨.last, _, rest, .last, rfl⟩

theorem AnchorName.ne_both (h : AnchorName anchor text) : anchor ≠ .both := by
  cases h <;> decide

theorem AnchorName.head? (h : AnchorName anchor text) :
    ∀ c ∈ (text ++ rest).head?, c.isDigit = false := by
  intro c hc
  cases h <;> cases hc <;> rfl

theorem Gap.skip_anchorName {gap : List Char} (hgap : Gap gap) (h : AnchorName anchor text) :
    skipSeparator (gap ++ (text ++ rest)) = text ++ rest := by
  have hname : skipSeparator (text ++ rest) = text ++ rest := by
    cases h <;> rfl
  rcases hgap.skip (text ++ rest) with hskip | hskip
  · exact hskip
  · rw [hskip, hname]

theorem Named.readAnchor (h : Named cs) : readAnchor cs ≠ (.both, cs) := by
  obtain ⟨anchor, name, rest, hanchor, rfl⟩ := h
  rw [readAnchor_anchorName hanchor]
  intro hboth
  exact hanchor.ne_both (Prod.mk.inj hboth).1

-- ---------------------------------------------------------------------------
-- Counts
-- ---------------------------------------------------------------------------

theorem count?_nil (h : ∀ c ∈ cs.head?, c.isDigit = false) : count? cs = some (none, cs) := by
  simp only [count?, digitRun_nil h]

theorem count?_digits (h : Digits n text) (positive : 1 ≤ n)
    (hhead : ∀ c ∈ rest.head?, c.isDigit = false)
    (hend : skipSeparator rest ≠ rest ∨ Named rest) :
    count? (text ++ rest) = some (some n, skipSeparator rest) := by
  have hzero : n ≠ 0 := Nat.ne_of_gt positive
  unfold count?
  rw [h.digitRun_append hhead]
  split
  · rename_i heq
    exact absurd (Prod.mk.inj heq).1 h.nonempty
  · rename_i heq
    cases heq
    simp only [readNumeral_eq_some_iff.mpr h, Option.bind_eq_bind, Option.bind_some, if_neg hzero]
    refine if_neg ?_
    rintro ⟨hskip, hfirst, hlast⟩
    rcases hend with h | h
    · exact h hskip
    · rcases named_iff.mp h with h | h
      · simp [h] at hfirst
      · simp [h] at hlast

theorem count?_eq_some (h : count? cs = some (multiplier, rest)) :
    (multiplier = none ∧ rest = cs) ∨ ∃ n digits after, multiplier = some n ∧ 1 ≤ n ∧
      Digits n digits ∧ cs = digits ++ after ∧ rest = skipSeparator after ∧
      (rest = after → Named rest) := by
  unfold count? at h
  split at h
  · cases h
    exact .inl ⟨rfl, rfl⟩
  · rename_i digits after hne hrun
    have hcs := Text.digitRun_append cs
    rw [hrun] at hcs
    simp only [Option.bind_eq_bind, Option.bind_eq_some_iff] at h
    obtain ⟨n, hn, h⟩ := h
    split at h
    · cases h
    · rename_i hzero
      split at h
      · cases h
      · rename_i hend
        cases h
        refine .inr ⟨n, digits, after, rfl, Nat.pos_of_ne_zero hzero,
          readNumeral_eq_some_iff.mp hn, hcs.symm, rfl, fun hskip => ?_⟩
        rw [hskip, named_iff]
        simpa [hskip, or_iff_not_imp_left] using hend

theorem reading_of_count? {after : List Char} (hcount : count? cs = some (multiplier, after))
    (hsome : ¬ (multiplier = none ∧ (readAnchor after).1 = .both))
    (hbody : Body form (readAnchor after).2) :
    Reading multiplier (readAnchor after).1 form cs := by
  rcases count?_eq_some hcount with
    ⟨rfl, rfl⟩ | ⟨n, digits, behind, rfl, positive, hdigits, rfl, rfl, hend⟩
  · rcases readAnchor_eq after with hboth | ⟨name, space, hanchor, hspace, heq⟩
    · exact absurd ⟨rfl, by rw [hboth]⟩ hsome
    · have h := Reading.anchored hanchor hspace hbody
      rwa [← heq] at h
  · obtain ⟨gap, hgap, hbehind⟩ := exists_gap behind
    rcases readAnchor_eq (skipSeparator behind) with hboth | ⟨name, space, hanchor, hspace, heq⟩
    · rw [hboth] at hbody ⊢
      cases hgap with
      | nothing =>
        -- without a separator a name follows, and it would have been read
        have hskip : skipSeparator behind = behind := hbehind.symm
        exact absurd hboth (hend hskip).readAnchor
      | separator hc =>
        rw [hbehind]
        exact .counted hdigits positive hc hbody
    · have h := Reading.countedAnchored hdigits positive hgap hanchor hspace hbody
      rwa [← heq, ← hbehind] at h

theorem counted?_of_count? {after : List Char} (hcount : count? cs = some (multiplier, after))
    (hanchor : readAnchor after = (anchor, rest)) (hbody : Body form rest)
    (hsome : multiplier ≠ none ∨ anchor ≠ .both) :
    counted? cs = some (multiplier, anchor, form) := by
  have hsome : ¬ (multiplier = none ∧ anchor = .both) := not_and_or.mpr hsome
  simp only [counted?, hcount, Option.bind_eq_bind, Option.bind_some, hanchor, if_neg hsome,
    body?_eq_some_iff.mpr hbody]

theorem counted?_eq_some_iff : counted? cs = some (multiplier, anchor, form) ↔
    Reading multiplier anchor form cs ∧ (multiplier ≠ none ∨ anchor ≠ .both) := by
  constructor
  · intro h
    simp only [counted?, Option.bind_eq_bind, Option.bind_eq_some_iff] at h
    obtain ⟨⟨multiplier', after⟩, hcount, h⟩ := h
    split at h
    · cases h
    · rename_i hsome
      simp only [Option.bind_eq_some_iff, Option.some.injEq, Prod.mk.injEq] at h
      obtain ⟨form', hbody, rfl, rfl, rfl⟩ := h
      have hbody := body?_eq_some_iff.mp hbody
      exact ⟨reading_of_count? hcount hsome hbody, not_and_or.mp hsome⟩
  · rintro ⟨h, hsome⟩
    cases h with
    | plain => simp at hsome
    | @countedAnchored count anchor form digits gap name space body hdigits positive hgap hanchor
        hspace hbody =>
      have hhead : ∀ c ∈ (gap ++ (name ++ (space ++ body))).head?, c.isDigit = false := by
        cases hgap with
        | nothing => exact hanchor.head?
        | separator hc => exact hc.head?
      have hskip : skipSeparator (gap ++ (name ++ (space ++ body))) = name ++ (space ++ body) :=
        hgap.skip_anchorName hanchor
      have hend : skipSeparator (gap ++ (name ++ (space ++ body))) ≠
          gap ++ (name ++ (space ++ body)) ∨ Named (gap ++ (name ++ (space ++ body))) := by
        rw [hskip]
        cases hgap with
        | nothing => exact .inr ⟨anchor, name, _, hanchor, rfl⟩
        | separator => exact .inl (by simp)
      have hcount := count?_digits hdigits positive hhead hend
      rw [hskip] at hcount
      exact counted?_of_count? hcount (readAnchor_anchorName hanchor) (hbody.skip_gap hspace) hsome
    | @counted count form digits body c hdigits positive hc hbody =>
      have hskip : skipSeparator (c :: body) = body := skipSeparator_separator hc
      have hend : skipSeparator (c :: body) ≠ c :: body := by simp [hskip]
      have hcount := count?_digits hdigits positive hc.head? (.inl hend)
      rw [hskip] at hcount
      exact counted?_of_count? hcount hbody.readAnchor hbody hsome
    | anchored hanchor hspace hbody =>
      exact counted?_of_count? (count?_nil hanchor.head?) (readAnchor_anchorName hanchor)
        (hbody.skip_gap hspace) hsome

-- ---------------------------------------------------------------------------
-- Directives
-- ---------------------------------------------------------------------------

theorem Reading.exists_chosen (h : Reading multiplier anchor form cs) :
    ∃ multiplier anchor form, Chosen multiplier anchor form cs := by
  by_cases hbody : ∃ form, Body form cs
  · obtain ⟨form, hbody⟩ := hbody
    exact ⟨none, .both, form, .plain hbody, fun _ => ⟨rfl, rfl⟩⟩
  · exact ⟨multiplier, anchor, form, h, fun h => absurd h hbody⟩

theorem parse?_eq_some_iff_chosen {token : String} {directive : Directive} :
    parse? token = some directive ↔ directive.raw = token ∧
      directive.quantifier = (readQuantifier (Text.lowercase token.toList)).1 ∧
      Chosen directive.multiplier directive.anchor directive.form
        (readQuantifier (Text.lowercase token.toList)).2 := by
  obtain ⟨quantifier, anchor, multiplier, form, raw⟩ := directive
  unfold parse?
  generalize readQuantifier (Text.lowercase token.toList) = read
  obtain ⟨found, rest⟩ := read
  dsimp only
  cases hbody : body? rest with
  | some plain =>
    have hplain := body?_eq_some_iff.mp hbody
    simp only [Option.some.injEq, Directive.mk.injEq]
    constructor
    · rintro ⟨rfl, rfl, rfl, rfl, rfl⟩
      exact ⟨rfl, rfl, .plain hplain, fun _ => ⟨rfl, rfl⟩⟩
    · rintro ⟨rfl, rfl, hreading, hchosen⟩
      obtain ⟨rfl, rfl⟩ := hchosen ⟨plain, hplain⟩
      cases hreading with
      | plain h =>
        have h := body?_eq_some_iff.mpr h
        rw [hbody, Option.some.injEq] at h
        exact ⟨rfl, rfl, rfl, h, rfl⟩
      | anchored h => exact absurd rfl h.ne_both
  | none =>
    have hplain : ¬ ∃ form, Body form rest := by
      rintro ⟨form, h⟩
      rw [body?_eq_some_iff.mpr h] at hbody
      cases hbody
    simp only [Option.map_eq_some_iff, Prod.exists, Directive.mk.injEq]
    constructor
    · rintro ⟨_, _, _, h, rfl, rfl, rfl, rfl, rfl⟩
      exact ⟨rfl, rfl, (counted?_eq_some_iff.mp h).1, fun h => absurd h hplain⟩
    · rintro ⟨rfl, rfl, hreading, -⟩
      refine ⟨multiplier, anchor, form, counted?_eq_some_iff.mpr ⟨hreading, ?_⟩, rfl, rfl, rfl,
        rfl, rfl⟩
      cases hreading with
      | plain h => exact absurd ⟨form, h⟩ hplain
      | countedAnchored | counted => exact .inl (by simp)
      | anchored h => exact .inr h.ne_both

theorem parse?_eq_some_iff {token : String} {directive : Directive} :
    parse? token = some directive ↔
      directive.raw = token ∧ Denotes (Text.lowercase token.toList) directive := by
  rw [parse?_eq_some_iff_chosen]
  refine and_congr_right fun _ => ?_
  constructor
  · rintro ⟨hquantifier, hchosen⟩
    obtain ⟨text, hsplit, hquantified⟩ := exists_quantified (Text.lowercase token.toList)
    rw [← hquantifier] at hquantified
    exact ⟨text, _, hsplit, hquantified, hchosen⟩
  · rintro ⟨text, rest, hsplit, hquantified, hchosen⟩
    rw [hsplit]
    rcases readQuantifier_append hquantified hchosen.reading with h | h
    · rw [h]
      exact ⟨rfl, hchosen⟩
    · rw [h]
      exact ⟨rfl, hchosen.skip⟩

theorem parse?_eq_none_iff {token : String} : parse? token = none ↔
    ¬ ∃ quantifier multiplier anchor form text rest,
      Text.lowercase token.toList = text ++ rest ∧ Quantified quantifier text ∧
        Reading multiplier anchor form rest := by
  constructor
  · rintro hnone ⟨quantifier, _, _, _, text, rest, hsplit, hquantified, hreading⟩
    obtain ⟨multiplier, anchor, form, hchosen⟩ := hreading.exists_chosen
    have h : parse? token = some ⟨quantifier, anchor, multiplier, form, token⟩ :=
      parse?_eq_some_iff.mpr ⟨rfl, text, rest, hsplit, hquantified, hchosen⟩
    rw [hnone] at h
    cases h
  · intro h
    rw [Option.eq_none_iff_forall_ne_some]
    intro directive hparse
    obtain ⟨-, text, rest, hsplit, hquantified, hchosen⟩ := parse?_eq_some_iff.mp hparse
    exact h ⟨_, _, _, _, text, rest, hsplit, hquantified, hchosen.reading⟩

theorem Digits.positive (h : Digits n cs) (hzero : cs.head? ≠ some '0') : 1 ≤ n := by
  obtain ⟨c, rest, rfl, hc⟩ := h.exists_cons
  have hdigit : '0'.toNat < c.toNat := by
    have low : '0'.toNat ≤ c.toNat := (Char.isDigit_iff_toNat.mp hc).1
    refine Nat.lt_of_le_of_ne low fun heq => hzero ?_
    rw [List.head?_cons, Char.toNat_inj.mp heq]
  have hvalue := h.value
  rw [Nat.ofDigitChars_cons, Nat.mul_zero, Nat.zero_add,
    Nat.ofDigitChars_eq_ofDigitChars_zero] at hvalue
  have hpow : 0 < 10 ^ rest.length * (c.toNat - '0'.toNat) :=
    Nat.mul_pos (Nat.pow_pos (by decide)) (Nat.sub_pos_of_lt hdigit)
  omega

theorem Body.wellFormed (h : Body form cs) : form.WellFormed := by
  cases h with
  | fraction low high => exact ⟨nofun, low, high⟩
  | fractions positive digit low high =>
    refine ⟨?_, low, high⟩
    rintro n ⟨⟩
    exact ⟨positive, digit⟩
  | time hamount hzero => exact ⟨hamount.positive hzero, hamount.bounded⟩

theorem Denotes.wellFormed {directive : Directive} (h : Denotes cs directive) :
    directive.WellFormed := by
  obtain ⟨quantifier, anchor, multiplier, form, raw⟩ := directive
  obtain ⟨-, rest, -, -, hreading, -⟩ := h
  cases hreading with
  | plain hbody | anchored _ _ hbody => exact ⟨hbody.wellFormed, nofun⟩
  | countedAnchored hcount positive _ _ _ hbody | counted hcount positive _ hbody =>
    refine ⟨hbody.wellFormed, ?_⟩
    rintro m ⟨⟩
    exact ⟨positive, hcount.bounded⟩

/-- A token is parsed exactly if its text is in the language, and to the directive
that the text denotes. -/
theorem parse?_language (token : String) :
    (∀ directive, parse? token = some directive ↔
        directive.raw = token ∧ Denotes (Text.lowercase token.toList) directive) ∧
      (parse? token = none ↔ ¬ ∃ quantifier multiplier anchor form text rest,
        Text.lowercase token.toList = text ++ rest ∧ Quantified quantifier text ∧
          Reading multiplier anchor form rest) ∧
      (∀ rest, ((∃ form, Body form rest) ∧ ∃ count form, Reading (some count) .both form rest) ↔
        ∃ n c d, 1 ≤ n ∧ n ≤ 9 ∧ IsSeparator c ∧ 2 ≤ d ∧ d ≤ 10 ∧
          rest = Text.numeral n ++ c :: unitFraction d) ∧
      (∀ directive, parse? token = some directive → directive.WellFormed) := by
  refine ⟨fun _ => parse?_eq_some_iff, parse?_eq_none_iff, fun _ => body_and_counted_iff, ?_⟩
  intro directive h
  exact (parse?_eq_some_iff.mp h).2.wellFormed

example : parse? "3-1/2" = some ⟨.single, .both, none, .fraction (some 3) 2, "3-1/2"⟩ := by
  decide

end

end SpokenCountdown.Directive
