import Mathlib.Data.List.TakeDrop
import Mathlib.Data.List.TakeWhile
import SpokenCountdown.Proofs.Toml.QuotedText
import SpokenCountdown.Proofs.Toml.ReadAs
import SpokenCountdown.Toml.Printer

/-!
# Plain values are read back

Texts, integers and booleans on one line behind their key come back as they
are, and the line ends right behind them. A number in single precision is
written with the fewest digits that tell it apart, but read with those of double
precision, and only then brought to single: `ReadsBack` says that both ways of
rounding agree on it.
-/

namespace SpokenCountdown

variable {cs rest : List Char} {c : Char} {m n : Nat}

theorem span_run {p : Char → Bool} (h : ∀ c ∈ cs, p c = true)
    (hrest : ∀ c ∈ rest.head?, p c = false) : (cs ++ rest).span p = (cs, rest) := by
  rw [List.span_eq_takeWhile_dropWhile, List.takeWhile_append_of_pos h,
    List.dropWhile_append_of_pos h]
  cases rest with
  | nil => simp
  | cons c rest =>
    have hc : p c = false := hrest c rfl
    simp [hc]

-- ---------------------------------------------------------------------------
-- Numerals
-- ---------------------------------------------------------------------------

namespace Toml.Scalar

theorem digitValue_of_isDigit (h : c.isDigit = true) : digitValue c = c.toNat - '0'.toNat := by
  simp [digitValue, h]

theorem ofDigits_eq (h : ∀ c ∈ cs, c.isDigit = true) (n : Nat) :
    cs.foldl (fun n c => n * 10 + digitValue c) n = Nat.ofDigitChars 10 cs n := by
  induction cs generalizing n with
  | nil => rfl
  | cons c cs ih =>
    rw [List.foldl_cons, digitValue_of_isDigit (h c List.mem_cons_self), Nat.mul_comm,
      ih fun x hx => h x (List.mem_cons_of_mem c hx)]
    rfl

theorem areBetweenDigits_of_digits (h : ∀ c ∈ cs, c.isDigit = true) :
    areBetweenDigits cs = true := by
  induction cs with
  | nil => rfl
  | cons a cs ih =>
    have hne (x : Char) (hx : x.isDigit = true) : x ≠ '_' := by
      rintro rfl
      exact absurd hx (by decide)
    have ha := hne a (h a List.mem_cons_self)
    cases cs with
    | nil => simp [areBetweenDigits, ha]
    | cons b cs =>
      have hb := hne b (h b (by simp))
      simp [areBetweenDigits, ha, hb, ih fun x hx => h x (List.mem_cons_of_mem a hx)]

theorem filter_digits {p : Char → Bool} (hp : ∀ c, c.isDigit = true → p c = true)
    (n : Nat) : (Text.numeral n).filter p = Text.numeral n :=
  List.filter_eq_self.mpr fun _ hc => hp _ (Text.isDigit_of_mem_numeral hc)

theorem not_isDigit_of_isFloatMark (h : isFloatMark c = true) : c.isDigit = false := by
  simp only [isFloatMark, Bool.or_eq_true, beq_iff_eq] at h
  obtain (rfl | rfl) | rfl := h
  all_goals rfl

theorem isWhole_numeral (n : Nat) : isWhole false (Text.numeral n) = true := by
  by_cases hn : n = 0
  · subst hn
    rfl
  · have hdigits : ∀ c ∈ Text.numeral n, c.isDigit = true := fun _ => Text.isDigit_of_mem_numeral
    have hspan : (Text.numeral n ++ []).span Char.isDigit = (Text.numeral n, []) :=
      span_run hdigits (by simp)
    rw [List.append_nil] at hspan
    have hmarks : (Text.numeral n).any isFloatMark = false := by
      rw [List.any_eq_false]
      intro c hc hmark
      simpa [hdigits c hc] using not_isDigit_of_isFloatMark hmark
    unfold isWhole
    rw [hspan]
    simp [hmarks, areBetweenDigits_of_digits hdigits, Text.numeral_ne_nil,
      Text.numeral_head hn]

theorem front_numeral (n : Nat) :
    front (Text.numeral n) = (⟨false, false⟩, Text.numeral n) ∧
      front ('-' :: Text.numeral n) = (⟨true, false⟩, Text.numeral n) := by
  obtain ⟨c, cs, heq⟩ := List.exists_cons_of_ne_nil (Text.numeral_ne_nil (n := n))
  have hc : c.isDigit = true := Text.isDigit_of_mem_numeral (heq ▸ List.mem_cons_self)
  have hne (x : Char) (hx : x.isDigit = false) : c ≠ x := by
    rintro rfl
    simp [hc] at hx
  have hminus := hne '-' rfl
  have hplus := hne '+' rfl
  have hunderscore := hne '_' rfl
  rw [heq]
  constructor
  · simp [front, sign, hminus, hplus]
  · simp [front, sign, hunderscore]

theorem decimalInteger?_writeInteger (n : Int) :
    decimalInteger? (writeInteger n).toList = some (integer (writeInteger n).toList n) := by
  have hfilter (m : Nat) : (Text.numeral m).filter (· != '_') = Text.numeral m := by
    refine filter_digits (fun c hc => ?_) m
    simp only [bne_iff_ne, ne_eq]
    rintro rfl
    exact absurd hc (by decide)
  have hdigits (m : Nat) : ∀ c ∈ Text.numeral m, c.isDigit = true :=
    fun _ => Text.isDigit_of_mem_numeral
  have hvalue (m : Nat) : ofDigits 10 (Text.numeral m) = m := by
    rw [ofDigits, ofDigits_eq (hdigits m), Text.ofDigitChars_numeral]
  have hall (m : Nat) : (Text.numeral m).all Char.isDigit = true := List.all_eq_true.mpr (hdigits m)
  unfold writeInteger
  generalize hm : n.natAbs = m
  split
  · next hn =>
    have habs : -(m : Int) = n := by omega
    simp [decimalInteger?, front_numeral, isWhole_numeral, hfilter, hall, hvalue, habs]
  · next hn =>
    have habs : (m : Int) = n := by omega
    simp [decimalInteger?, front_numeral, isWhole_numeral, hfilter, hall, hvalue, habs]

theorem ofChars?_writeInteger {n : Int} (h : -(word128 / 2) ≤ n ∧ n < word128) :
    ofChars? (writeInteger n).toList = some (.integer n) := by
  have hchars : ∀ c ∈ (writeInteger n).toList, c.isDigit = true ∨ c = '-' := by
    intro c hc
    unfold writeInteger at hc
    split at hc
    all_goals simp only [String.toList_ofList, List.mem_cons] at hc
    · exact hc.symm.imp_left Text.isDigit_of_mem_numeral
    · exact .inl (Text.isDigit_of_mem_numeral hc)
  have hinteger : integer (writeInteger n).toList n = .integer n := if_pos h
  have hdecimal := decimalInteger?_writeInteger n
  rw [hinteger] at hdecimal
  unfold ofChars?
  split
  case h_6 =>
    rw [hdecimal]
    rfl
  all_goals
    next heq =>
      rw [heq] at hchars
      simp at hchars

end Toml.Scalar

-- ---------------------------------------------------------------------------
-- Words
-- ---------------------------------------------------------------------------

namespace Toml.Reader

def IsWordChar (c : Char) : Prop :=
  endsScalar c = false ∧ c ≠ '"' ∧ c ≠ '\''

instance : DecidablePred IsWordChar :=
  fun _ => inferInstanceAs (Decidable (_ ∧ _ ∧ _))

theorem isWordChar_of_isDigit (h : c.isDigit = true) : IsWordChar c := by
  refine ⟨?_, ?_, ?_⟩
  · rw [← Bool.not_eq_true]
    intro hends
    simp only [endsScalar, List.contains_eq_mem, List.mem_cons, List.not_mem_nil, or_false,
      decide_eq_true_eq] at hends
    obtain rfl | rfl | rfl | rfl | rfl | rfl | rfl | rfl | rfl | rfl | rfl := hends
    all_goals simp at h
  all_goals
    rintro rfl
    simp at h

def IsWord (cs : List Char) : Prop :=
  cs ≠ [] ∧ ∀ c ∈ cs, IsWordChar c

theorem IsWord.value (h : IsWord cs) (rest : List Char) :
    Reader.value greatestNesting (cs ++ '\n' :: rest) =
      (Scalar.ofChars? cs).map fun value => (value, '\n' :: rest) := by
  obtain ⟨hne, hchars⟩ := h
  have hspan : (cs ++ '\n' :: rest).span (!endsScalar ·) = (cs, '\n' :: rest) :=
    span_run (fun c hc => by simp [(hchars c hc).1]) (by simp [endsScalar])
  have hscalar : scalar (cs ++ '\n' :: rest) =
      (Scalar.ofChars? cs).map fun value => (value, '\n' :: rest) := by
    unfold scalar
    rw [hspan]
    rfl
  obtain ⟨c, cs, rfl⟩ := List.exists_cons_of_ne_nil hne
  obtain ⟨hends, hdouble, hsingle⟩ := hchars c List.mem_cons_self
  have hbracket : c ≠ '[' := by
    rintro rfl
    simp [endsScalar] at hends
  have hbrace : c ≠ '\x7b' := by
    rintro rfl
    simp [endsScalar] at hends
  rw [← hscalar]
  simp [greatestNesting, Reader.value, Reader.value.leaf, hbracket, hbrace, hdouble, hsingle]

end Toml.Reader

-- ---------------------------------------------------------------------------
-- Floats
-- ---------------------------------------------------------------------------

theorem Decimal.positional_ne_nil (d : Decimal) : d.positional ≠ [] := by
  unfold positional
  simp only
  split_ifs
  all_goals simp [Text.numeral_ne_nil]

theorem Decimal.mem_positional {d : Decimal} (h : c ∈ d.positional) :
    c.isDigit = true ∨ c = '.' := by
  have hdigit : c ∈ Text.numeral d.coefficient → c.isDigit = true := Text.isDigit_of_mem_numeral
  have hzero (n : Nat) : c ∈ List.replicate n '0' → c.isDigit = true := by
    intro hc
    rw [List.eq_of_mem_replicate hc]
    rfl
  unfold positional at h
  simp only at h
  split_ifs at h
  · exact .inl (by simp [List.mem_singleton.mp h])
  · exact .inl ((List.mem_append.mp h).elim hdigit (hzero _))
  · obtain hfront | hback := List.mem_append.mp h
    · exact .inl (hdigit (List.mem_of_mem_take hfront))
    · obtain rfl | hback := List.mem_cons.mp hback
      · exact .inr rfl
      · exact .inl (hdigit (List.mem_of_mem_drop hback))
  · obtain rfl | h := List.mem_cons.mp h
    · exact .inl rfl
    · obtain rfl | h := List.mem_cons.mp h
      · exact .inr rfl
      · exact .inl ((List.mem_append.mp h).elim (hzero _) hdigit)

namespace Toml

theorem isWord_writeFloat (format : Binary.Format) (x : Binary) :
    Reader.IsWord (writeFloat format x).toList := by
  have hpositional (d : Decimal) : ∀ c ∈ d.positional, Reader.IsWordChar c := by
    intro c hc
    obtain hdigit | rfl := Decimal.mem_positional hc
    · exact Reader.isWordChar_of_isDigit hdigit
    · decide
  have hspecial : ∀ text ∈ ["nan", "-nan", "inf", "-inf"], Reader.IsWord text.toList := by
    simp [Reader.IsWord, Reader.IsWordChar, Reader.endsScalar]
  cases x with
  | nan negative => cases negative <;> exact hspecial _ (by simp [writeFloat])
  | infinite negative => cases negative <;> exact hspecial _ (by simp [writeFloat])
  | finite negative significand exponent =>
    have hminus : Reader.IsWordChar '-' := by decide
    have htext :
        Reader.IsWord ((Binary.finite negative significand exponent).text format).toList := by
      have hdigits := hpositional (Binary.shortest format significand exponent)
      cases negative with
      | false => exact ⟨by simp [Binary.text, Decimal.positional_ne_nil], by simpa [Binary.text]⟩
      | true => exact ⟨by simp [Binary.text], by simpa [Binary.text, hminus]⟩
    have hpoint : ∀ c ∈ ".0".toList, Reader.IsWordChar c := by
      simp [Reader.IsWordChar, Reader.endsScalar]
    simp only [writeFloat]
    split
    · rw [String.toList_append]
      exact ⟨by simp, fun c hc => (List.mem_append.mp hc).elim (htext.2 c) (hpoint c)⟩
    · exact htext

theorem isWord_writeInteger (n : Int) : Reader.IsWord (writeInteger n).toList := by
  have hdigits (m : Nat) : ∀ c ∈ Text.numeral m, Reader.IsWordChar c :=
    fun c hc => Reader.isWordChar_of_isDigit (Text.isDigit_of_mem_numeral hc)
  have hminus : Reader.IsWordChar '-' := by decide
  unfold writeInteger
  split
  · exact ⟨by simp, by simpa [hminus] using hdigits _⟩
  · exact ⟨by simp [Text.numeral_ne_nil], by simpa using hdigits _⟩

/-- The text of a number in single precision reads as a value that is the number
in single precision. -/
def ReadsBack (x : Binary) : Prop :=
  (Scalar.ofChars? (writeFloat .single x).toList).bind Value.single? = some x

instance : DecidablePred ReadsBack :=
  fun _ => inferInstanceAs (Decidable (_ = _))

/-- `7.038531e-26` lies so close to the middle of two neighbours in single precision
that double precision rounds it onto the middle. -/
example : (Binary.finite false 11420669 (-107)).InFormat .single ∧
    ¬ReadsBack (.finite false 11420669 (-107)) := by decide +kernel

-- ---------------------------------------------------------------------------
-- Plain values
-- ---------------------------------------------------------------------------

namespace Value

/-- Written on one line behind its key, the value is read back. -/
def PlainWritable : Value → Prop
  | .string _ | .boolean _ | .array [] => True
  | .integer n => -(Scalar.word128 / 2) ≤ n ∧ n < Scalar.word128
  | .float x => ReadsBack x
  | _ => False

structure Reads (text : List Char) (w : Value) : Prop where
  head : ∃ c cs, text = c :: cs ∧ c ≠ ' ' ∧ c ≠ '\t'
  value (rest : List Char) :
    Reader.value greatestNesting (text ++ '\n' :: rest) = some (w, '\n' :: rest)

theorem Reads.word {w : Value} (hword : Reader.IsWord cs) (hvalue : Scalar.ofChars? cs = some w) :
    Reads cs w where
  head := by
    obtain ⟨c, cs, rfl⟩ := List.exists_cons_of_ne_nil hword.1
    have hends := (hword.2 c List.mem_cons_self).1
    refine ⟨c, cs, rfl, ?_, ?_⟩
    all_goals
      rintro rfl
      simp [Reader.endsScalar] at hends
  value rest := by
    rw [hword.value, hvalue]
    rfl

theorem reads_string (s : String) : Reads (Quoted.write s).toList (.string s) where
  head := by
    obtain ⟨more, heq | heq⟩ := Quoted.writeChars_head s.toList
    all_goals exact ⟨_, more, by simpa [Quoted.write] using heq, by decide, by decide⟩
  value rest := by
    have hread : Quoted.read? (Quoted.writeChars s.toList ++ '\n' :: rest) =
        some (s, '\n' :: rest) := by
      rw [Quoted.read?_writeChars (by simp) (by simp), String.ofList_toList]
    obtain ⟨more, heq | heq⟩ := Quoted.writeChars_head s.toList
    all_goals
      rw [heq] at hread
      simpa [Quoted.write, heq, greatestNesting, Reader.value, Reader.value.leaf] using hread

theorem PlainWritable.reads {v : Value} (h : v.PlainWritable) :
    ∃ w, v.ReadAs w ∧ Reads (v.write .single).toList w := by
  cases v with
  | string s => exact ⟨_, .string s, reads_string s⟩
  | integer n =>
    exact ⟨_, .integer n, .word (isWord_writeInteger n) (Scalar.ofChars?_writeInteger h)⟩
  | float x =>
    obtain ⟨w, hvalue, hsingle⟩ := Option.bind_eq_some_iff.mp (show ReadsBack x from h)
    exact ⟨w, .float hsingle, .word (isWord_writeFloat .single x) hvalue⟩
  | boolean b =>
    have hword : Reader.IsWord ((Value.boolean b).write .single).toList := by
      cases b <;> simp [Value.write, Reader.IsWord, Reader.IsWordChar, Reader.endsScalar]
    exact ⟨_, .boolean b, .word hword (by cases b <;> rfl)⟩
  | array items =>
    cases items with
    | nil => exact ⟨_, .array .nil, ⟨⟨'[', [']'], rfl, by decide, by decide⟩, fun rest => rfl⟩⟩
    | cons item items => exact h.elim
  | _ => exact h.elim

end Value

end Toml

end SpokenCountdown
