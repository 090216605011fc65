import Mathlib.Data.List.Basic
import SpokenCountdown.Toml.Quoted

/-!
# Quoted text is read back

Whatever text is written, reading hands back the same text and stops right
behind its closing quotes, as long as no further quote follows them. The hard
form is the tripled one: quotes that belong to the text stand next to those that
close it, and the reader decides at the first of a run which are which.
-/

namespace SpokenCountdown.Toml.Quoted

variable {quote c : Char} {cs text tail rest : List Char} {fuel n : Nat}

-- ---------------------------------------------------------------------------
-- Escapes
-- ---------------------------------------------------------------------------

theorem hexDigits_control : ∀ n < 128, (n < 0x20 ∨ n = 0x7F) →
    Scalar.isHexDigit (hexDigit (n / 16)) = true ∧ Scalar.isHexDigit (hexDigit (n % 16)) = true ∧
      Scalar.ofDigits 16 ['0', '0', hexDigit (n / 16), hexDigit (n % 16)] = n := by
  decide

theorem numbered?_append {digits : List Char} (hdigits : digits.all Scalar.isHexDigit = true)
    (hvalue : Scalar.ofDigits 16 digits = c.toNat) :
    numbered? digits.length (digits ++ rest) = some (c, rest) := by
  have hchar (m : Nat) (hm : m.isValidChar) (heq : m = c.toNat) : Char.ofNatAux m hm = c := by
    subst heq
    rfl
  unfold numbered?
  rw [List.take_left, if_pos ⟨rfl, hdigits⟩, dif_pos (hvalue.symm ▸ c.valid), List.drop_left,
    hchar _ _ hvalue]

theorem numbered?_control (h : isControl c = true) :
    numbered? 4 ('0' :: '0' :: hexDigit (c.toNat / 16) :: hexDigit (c.toNat % 16) :: rest) =
      some (c, rest) := by
  have hc : c.toNat < 0x20 ∨ c.toNat = 0x7F := by
    simp only [isControl, Bool.or_eq_true, Bool.and_eq_true, decide_eq_true_eq, beq_iff_eq] at h
    exact h.imp_left And.left
  obtain ⟨hhigh, hlow, hvalue⟩ := hexDigits_control c.toNat (by omega) hc
  have hzero : Scalar.isHexDigit '0' = true := by decide
  exact numbered?_append (by simp [hhigh, hlow, hzero]) hvalue

/-- A character stands for itself, or behind a backslash stands a code for it. -/
theorem escaped_cases (c : Char) :
    (escaped c = [c] ∧ isControl c = false ∧ c ≠ '"' ∧ c ≠ '\\') ∨
      ∃ code, escaped c = '\\' :: code ∧
        ∀ rest, escape? (code ++ rest) = some (c, rest) ∧ joined? (code ++ rest) = none := by
  unfold escaped
  split
  case h_8 hb ht hn hf hr hq hs =>
    split
    · next h => exact .inr ⟨_, rfl, fun rest => ⟨numbered?_control h, rfl⟩⟩
    · next h => exact .inl ⟨rfl, by simpa using h, hq, hs⟩
  all_goals exact .inr ⟨_, rfl, fun rest => ⟨rfl, rfl⟩⟩

-- ---------------------------------------------------------------------------
-- One line
-- ---------------------------------------------------------------------------

theorem line?_escaped (h : (cs.flatMap escaped).length < fuel) :
    line? '"' fuel (cs.flatMap escaped ++ '"' :: rest) = some (cs, rest) := by
  induction cs generalizing fuel with
  | nil =>
    obtain ⟨fuel, rfl⟩ := Nat.exists_eq_succ_of_ne_zero (Nat.ne_of_gt h)
    rfl
  | cons c cs ih =>
    obtain ⟨fuel, rfl⟩ := Nat.exists_eq_succ_of_ne_zero (Nat.ne_of_gt (Nat.zero_lt_of_lt h))
    obtain ⟨heq, hcontrol, hquote, hslash⟩ | ⟨code, heq, hcode⟩ := escaped_cases c
    · have hfuel : (cs.flatMap escaped).length < fuel := by
        simp only [List.flatMap_cons, heq, List.length_append, List.length_cons] at h
        omega
      simp [heq, line?, hquote, hslash, hcontrol, ih hfuel]
    · have hfuel : (cs.flatMap escaped).length < fuel := by
        simp only [List.flatMap_cons, heq, List.length_append, List.length_cons] at h
        omega
      simp [heq, line?, (hcode _).1, ih hfuel]

theorem line?_literal (hcs : ∀ c ∈ cs, c ≠ '\'' ∧ isControl c = false) (h : cs.length < fuel) :
    line? '\'' fuel (cs ++ '\'' :: rest) = some (cs, rest) := by
  induction cs generalizing fuel with
  | nil =>
    obtain ⟨fuel, rfl⟩ := Nat.exists_eq_succ_of_ne_zero (Nat.ne_of_gt h)
    rfl
  | cons c cs ih =>
    obtain ⟨fuel, rfl⟩ := Nat.exists_eq_succ_of_ne_zero (Nat.ne_of_gt (Nat.zero_lt_of_lt h))
    obtain ⟨hquote, hcontrol⟩ := hcs c List.mem_cons_self
    have hrest := ih (fun x hx => hcs x (List.mem_cons_of_mem c hx)) (Nat.lt_of_succ_lt_succ h)
    simp [line?, hquote, hcontrol, hrest]

-- ---------------------------------------------------------------------------
-- Several lines
-- ---------------------------------------------------------------------------

/-- With enough fuel, `cs` is read as the text up to the closing quotes and `rest`. -/
def ReadsLines (quote : Char) (cs text rest : List Char) : Prop :=
  ∀ fuel, cs.length < fuel → lines? quote fuel cs = some (text, rest)

namespace ReadsLines

theorem cons (h : ReadsLines quote cs text rest)
    (hstep : ∀ fuel, lines? quote fuel cs = some (text, rest) →
      lines? quote (fuel + 1) (c :: cs) = some (c :: text, rest)) :
    ReadsLines quote (c :: cs) (c :: text) rest := by
  intro fuel hfuel
  obtain ⟨fuel, rfl⟩ := Nat.exists_eq_succ_of_ne_zero (Nat.ne_of_gt (Nat.zero_lt_of_lt hfuel))
  exact hstep fuel (h fuel (Nat.lt_of_succ_lt_succ hfuel))

theorem closing (hn : n ≤ 2) (hrest : rest.head? ≠ some quote) :
    ReadsLines quote (List.replicate n quote ++ quote :: quote :: quote :: rest)
      (List.replicate n quote) rest := by
  intro fuel hfuel
  obtain ⟨fuel, rfl⟩ := Nat.exists_eq_succ_of_ne_zero (Nat.ne_of_gt (Nat.zero_lt_of_lt hfuel))
  have hrun : rest.takeWhile (· == quote) = [] := by
    cases rest with
    | nil => rfl
    | cons c rest =>
      have hc : c ≠ quote := by simpa using hrest
      simp [hc]
  obtain rfl | rfl | rfl : n = 0 ∨ n = 1 ∨ n = 2 := by omega
  all_goals simp [lines?, hrun, List.replicate]

theorem plain (hthree : [quote, quote, quote].isPrefixOf (c :: cs) = false)
    (hslash : c ≠ '\\' ∨ quote ≠ '"') (hcontrol : isControl c = false ∨ c = '\n')
    (h : ReadsLines quote cs text rest) : ReadsLines quote (c :: cs) (c :: text) rest := by
  have hend : ¬(isControl c = true ∧ (afterLineEnd? (c :: cs)).isNone = true) := by
    rintro ⟨hc, hnone⟩
    obtain h | rfl := hcontrol
    · simp [h] at hc
    · simp [afterLineEnd?] at hnone
  refine h.cons fun fuel hcs => ?_
  simp only [lines?, hthree]
  rw [if_neg (by simp), if_neg (by tauto), if_neg hend, hcs]
  rfl

theorem other (hquote : c ≠ quote) (hslash : c ≠ '\\' ∨ quote ≠ '"')
    (hcontrol : isControl c = false ∨ c = '\n') (h : ReadsLines quote cs text rest) :
    ReadsLines quote (c :: cs) (c :: text) rest :=
  plain (by simp [List.isPrefixOf, hquote.symm]) hslash hcontrol h

theorem quotes (hslash : quote ≠ '\\') (hcontrol : isControl quote = false) (hn : n ≤ 2)
    (hcs : cs.head? ≠ some quote) (h : ReadsLines quote cs text rest) :
    ReadsLines quote (List.replicate n quote ++ cs) (List.replicate n quote ++ text) rest := by
  induction n with
  | zero => exact h
  | succ n ih =>
    have hthree :
        [quote, quote, quote].isPrefixOf (List.replicate (n + 1) quote ++ cs) = false := by
      obtain rfl | rfl : n = 0 ∨ n = 1 := by omega
      all_goals cases cs with
        | nil => simp [List.replicate, List.isPrefixOf]
        | cons c cs =>
          have hc : quote ≠ c := by simpa [eq_comm] using hcs
          simp [List.replicate, List.isPrefixOf, hc]
    exact plain hthree (.inl hslash) (.inl hcontrol) (ih (by omega))

theorem escape {code : List Char}
    (hcode : ∀ more, escape? (code ++ more) = some (c, more) ∧ joined? (code ++ more) = none)
    (h : ReadsLines '"' cs text rest) :
    ReadsLines '"' ('\\' :: code ++ cs) (c :: text) rest := by
  intro fuel hfuel
  obtain ⟨fuel, rfl⟩ := Nat.exists_eq_succ_of_ne_zero (Nat.ne_of_gt (Nat.zero_lt_of_lt hfuel))
  have hcs : lines? '"' fuel cs = some (text, rest) := by
    apply h
    simp only [List.cons_append, List.length_cons, List.length_append] at hfuel
    omega
  simp [lines?, (hcode cs).1, (hcode cs).2, hcs]

end ReadsLines

theorem escapedLines_cons (h : c ≠ '"') (run : Nat) :
    escapedLines run (c :: cs) =
      (if c = '\n' then ['\n'] else escaped c) ++ escapedLines 0 cs := by
  by_cases hc : c = '\n'
  · subst hc
    rfl
  · simp [escapedLines, hc]

theorem readsLines_escapedLines_cons (hquote : c ≠ '"') (run : Nat)
    (h : ReadsLines '"' (escapedLines 0 cs ++ tail) text rest) :
    (escapedLines run (c :: cs) ++ tail).head? ≠ some '"' ∧
      ReadsLines '"' (escapedLines run (c :: cs) ++ tail) (c :: text) rest := by
  rw [escapedLines_cons hquote, List.append_assoc]
  by_cases hc : c = '\n'
  · subst hc
    exact ⟨by simp, h.other (by decide) (.inl (by decide)) (.inr rfl)⟩
  · rw [if_neg hc]
    obtain ⟨heq, hcontrol, -, hslash⟩ | ⟨code, heq, hcode⟩ := escaped_cases c
    · rw [heq]
      exact ⟨by simpa using hquote, h.other hquote (.inl hslash) (.inl hcontrol)⟩
    · rw [heq]
      exact ⟨by simp, h.escape hcode⟩

theorem readsLines_escapedLines (hn : n ≤ 2) (hrest : rest.head? ≠ some '"') :
    ReadsLines '"' (List.replicate n '"' ++ (escapedLines n cs ++ '"' :: '"' :: '"' :: rest))
      (List.replicate n '"' ++ cs) rest := by
  induction cs generalizing n with
  | nil => simpa [escapedLines] using ReadsLines.closing hn hrest
  | cons c cs ih =>
    have hafter := ih (n := 0) (by omega)
    by_cases hc : c = '"'
    · subst hc
      by_cases hrun : n = 2
      · subst hrun
        refine ReadsLines.quotes (by decide) (by decide) (by omega) (by simp [escapedLines]) ?_
        show ReadsLines '"' ('\\' :: ['"'] ++ (escapedLines 0 cs ++ _)) ('"' :: cs) rest
        exact ReadsLines.escape (fun _ => ⟨rfl, rfl⟩) hafter
      · have hnext := ih (n := n + 1) (by omega)
        simpa [escapedLines, hrun, List.replicate_succ'] using hnext
    · obtain ⟨hhead, hreads⟩ := readsLines_escapedLines_cons hc n hafter
      exact hreads.quotes (by decide) (by decide) hn hhead

theorem hasTripled_of_cons (h : hasTripled quote (c :: cs) = false) :
    hasTripled quote cs = false := by
  match cs with
  | [] | [_] => rfl
  | _ :: _ :: _ =>
    simp only [hasTripled, Bool.or_eq_false_iff] at h
    exact h.2

theorem hasTripled_of_append {front : List Char} (h : hasTripled quote (front ++ cs) = false) :
    hasTripled quote cs = false := by
  induction front with
  | nil => exact h
  | cons c front ih => exact ih (hasTripled_of_cons h)

theorem readsLines_literal (hcs : ∀ c ∈ cs, isControl c = false ∨ c = '\n')
    (htripled : hasTripled '\'' (List.replicate n '\'' ++ cs) = false) (hn : n ≤ 2)
    (hrest : rest.head? ≠ some '\'') :
    ReadsLines '\'' (List.replicate n '\'' ++ (cs ++ '\'' :: '\'' :: '\'' :: rest))
      (List.replicate n '\'' ++ cs) rest := by
  induction cs generalizing n with
  | nil => simpa using ReadsLines.closing hn hrest
  | cons c cs ih =>
    have hin := fun x hx => hcs x (List.mem_cons_of_mem c hx)
    by_cases hc : c = '\''
    · subst hc
      have hlt : n ≠ 2 := by
        rintro rfl
        simp [List.replicate, hasTripled] at htripled
      have hnext := ih (n := n + 1) hin (by simpa [List.replicate_succ'] using htripled) (by omega)
      simpa [List.replicate_succ'] using hnext
    · have hnone : hasTripled '\'' (c :: cs) = false := hasTripled_of_append htripled
      have hafter := ih (n := 0) hin (hasTripled_of_cons hnone) (by omega)
      exact (hafter.other hc (.inr (by decide)) (hcs c List.mem_cons_self)).quotes (by decide)
        (by decide) hn (by simpa using hc)

-- ---------------------------------------------------------------------------
-- The four forms
-- ---------------------------------------------------------------------------

theorem read?_of_line? (hquote : quote = '"' ∨ quote = '\'')
    (htwo : ∀ more, cs ≠ quote :: quote :: more)
    (h : line? quote (cs.length + 1) cs = some (text, rest)) :
    read? (quote :: cs) = some (String.ofList text, rest) := by
  have hread : read? (quote :: cs) = readLine? (quote :: cs) := by
    unfold read?
    split
    · next heq =>
      obtain ⟨rfl, rfl⟩ := List.cons.inj heq
      exact absurd rfl (htwo _)
    · next heq =>
      obtain ⟨rfl, rfl⟩ := List.cons.inj heq
      exact absurd rfl (htwo _)
    · rfl
  simp [hread, readLine?, hquote, h]

theorem read?_inLine (hrest : rest.head? ≠ some '"') :
    read? (inLine cs ++ rest) = some (String.ofList cs, rest) := by
  have hline : line? '"' ((cs.flatMap escaped ++ '"' :: rest).length + 1)
      (cs.flatMap escaped ++ '"' :: rest) = some (cs, rest) :=
    line?_escaped (by simp only [List.length_append]; omega)
  have htwo : ∀ more, cs.flatMap escaped ++ '"' :: rest ≠ '"' :: '"' :: more := by
    intro more h
    cases cs with
    | nil => simp [List.cons.inj h] at hrest
    | cons c cs =>
      obtain ⟨heq, -, hquote, -⟩ | ⟨code, heq, -⟩ := escaped_cases c
      all_goals simp [heq] at h
      exact hquote h.1
  simpa [inLine] using read?_of_line? (.inl rfl) htwo hline

theorem read?_literal (hcs : ∀ c ∈ cs, c ≠ '\'' ∧ isControl c = false)
    (hrest : rest.head? ≠ some '\'') :
    read? ('\'' :: cs ++ ['\''] ++ rest) = some (String.ofList cs, rest) := by
  have hline : line? '\'' ((cs ++ '\'' :: rest).length + 1) (cs ++ '\'' :: rest) =
      some (cs, rest) :=
    line?_literal hcs (by simp only [List.length_append]; omega)
  have htwo : ∀ more, cs ++ '\'' :: rest ≠ '\'' :: '\'' :: more := by
    intro more h
    cases cs with
    | nil => simp [List.cons.inj h] at hrest
    | cons c cs => exact (hcs c List.mem_cons_self).1 (List.cons.inj h).1
  simpa using read?_of_line? (.inr rfl) htwo hline

theorem read?_tripled {body : List Char} (hquote : quote = '"' ∨ quote = '\'')
    (h : ReadsLines quote (body ++ quote :: quote :: quote :: rest) cs rest)
    (hbody : '\n' ∉ cs → afterLineEnd? (body ++ quote :: quote :: quote :: rest) = none) :
    read? (tripled quote cs body ++ rest) = some (String.ofList cs, rest) := by
  have hwithout : withoutFirstLineEnd ((if cs.contains '\n' then ['\n'] else []) ++
      (body ++ quote :: quote :: quote :: rest)) = body ++ quote :: quote :: quote :: rest := by
    by_cases hend : '\n' ∈ cs
    · simp [withoutFirstLineEnd, afterLineEnd?, hend]
    · simp [withoutFirstLineEnd, hend, hbody hend]
  have hseveral : read?.several quote ((if cs.contains '\n' then ['\n'] else []) ++
      (body ++ quote :: quote :: quote :: rest)) = some (String.ofList cs, rest) := by
    rw [read?.several, hwithout, h _ (by simp only [List.length_append]; omega)]
    rfl
  obtain rfl | rfl := hquote
  all_goals simpa [read?, tripled] using hseveral

theorem afterLineEnd?_eq_none (hfeed : cs.head? ≠ some '\n') (hreturn : cs.head? ≠ some '\x0d') :
    afterLineEnd? cs = none := by
  unfold afterLineEnd?
  split
  · simp at hfeed
  · simp at hreturn
  · rfl

theorem read?_inLines (hrest : rest.head? ≠ some '"') :
    read? (inLines cs ++ rest) = some (String.ofList cs, rest) := by
  refine read?_tripled (.inl rfl) (readsLines_escapedLines (n := 0) (by omega) hrest) fun hend => ?_
  cases cs with
  | nil => rfl
  | cons c cs =>
    by_cases hc : c = '"'
    · subst hc
      rfl
    · have hfeed : c ≠ '\n' := fun h => hend (h ▸ List.mem_cons_self)
      rw [escapedLines_cons hc, if_neg hfeed]
      obtain ⟨heq, hcontrol, -⟩ | ⟨code, heq, -⟩ := escaped_cases c
      · have hreturn : c ≠ '\x0d' := by
          rintro rfl
          exact absurd hcontrol (by decide)
        exact afterLineEnd?_eq_none (by simpa [heq] using hfeed) (by simpa [heq] using hreturn)
      · exact afterLineEnd?_eq_none (by simp [heq]) (by simp [heq])

theorem read?_tripled_self (hcs : ∀ c ∈ cs, isControl c = false ∨ c = '\n')
    (htripled : hasTripled '\'' cs = false) (hrest : rest.head? ≠ some '\'') :
    read? (tripled '\'' cs cs ++ rest) = some (String.ofList cs, rest) := by
  refine read?_tripled (.inr rfl) (readsLines_literal (n := 0) hcs htripled (by omega) hrest)
    fun hend => ?_
  cases cs with
  | nil => rfl
  | cons c cs =>
    have hfeed : c ≠ '\n' := fun h => hend (h ▸ List.mem_cons_self)
    have hreturn : c ≠ '\x0d' := by
      rintro rfl
      exact absurd (hcs _ List.mem_cons_self) (by decide)
    exact afterLineEnd?_eq_none (by simpa using hfeed) (by simpa using hreturn)

theorem read?_writeChars (hdouble : rest.head? ≠ some '"') (hsingle : rest.head? ≠ some '\'') :
    read? (writeChars cs ++ rest) = some (String.ofList cs, rest) := by
  have hplain (h : cs.all (fun c => c == '\n' || !isControl c) = true) :
      ∀ c ∈ cs, isControl c = false ∨ c = '\n' := by
    intro c hc
    simpa [or_comm] using List.all_eq_true.mp h c hc
  unfold writeChars
  simp only [Bool.and_eq_true, Bool.not_eq_true', List.contains_eq_mem, decide_eq_false_iff_not]
  split_ifs with h1 h2 h3 h4 h5
  · exact read?_inLine hdouble
  · obtain ⟨⟨hcontrol, hend⟩, hquote⟩ := h2
    refine read?_literal (fun c hc => ⟨ne_of_mem_of_not_mem hc hquote, ?_⟩) hsingle
    exact (hplain hcontrol c hc).resolve_right (ne_of_mem_of_not_mem hc hend)
  · exact read?_inLines hdouble
  · exact read?_tripled_self (hplain h4.1) h4.2 hsingle
  · exact read?_inLines hdouble
  · exact read?_inLine hdouble

theorem writeChars_head (cs : List Char) :
    ∃ more, writeChars cs = '"' :: more ∨ writeChars cs = '\'' :: more := by
  unfold writeChars
  simp only
  split_ifs
  all_goals simp [inLine, inLines, tripled]

end SpokenCountdown.Toml.Quoted
