import SpokenCountdown.Proofs.Toml.PlainText

/-!
# Lines are read back

A document is written line by line: headers, and keys with their plain values.
Each line reads as the statement it was written for, and a document of such
lines, with blank lines among them, reads as the list of their statements.
-/

namespace SpokenCountdown.Toml

variable {cs tail : List Char} {path : List String} {key : String}

namespace Reader

-- ---------------------------------------------------------------------------
-- Keys
-- ---------------------------------------------------------------------------

def IsBare (key : String) : Prop :=
  key ≠ "" ∧ key.toList.all isBareKeyChar = true

instance : DecidablePred IsBare :=
  fun _ => inferInstanceAs (Decidable (_ ∧ _))

theorem skipBlanks_eq_self (h : cs.head? ≠ some ' ' ∧ cs.head? ≠ some '\t') :
    skipBlanks cs = cs := by
  cases cs with
  | nil => rfl
  | cons c cs =>
    simp only [List.head?_cons, ne_eq, Option.some.injEq] at h
    simp [skipBlanks, h]

theorem IsBare.exists_cons (h : IsBare key) :
    ∃ c cs, key.toList = c :: cs ∧ isBareKeyChar c = true := by
  obtain ⟨hne, hchars⟩ := h
  obtain ⟨c, cs, heq⟩ := List.exists_cons_of_ne_nil (show key.toList ≠ [] by simpa using hne)
  exact ⟨c, cs, heq, List.all_eq_true.mp hchars c (by simp [heq])⟩

theorem isBareKeyChar_ne {c d : Char} (h : isBareKeyChar c = true)
    (hd : isBareKeyChar d = false) : c ≠ d := by
  rintro rfl
  simp [h] at hd

theorem IsBare.keyPart (h : IsBare key) (htail : ∀ c ∈ tail.head?, isBareKeyChar c = false) :
    keyPart (key.toList ++ tail) = some (key, tail) := by
  obtain ⟨c, cs, heq, -⟩ := h.exists_cons
  have hspan := span_run (List.all_eq_true.mp h.2) htail
  unfold Reader.keyPart
  rw [hspan, heq]
  simp [← heq]

def keyText (path : List String) (key : String) : List Char :=
  path.flatMap (fun part => part.toList ++ ['.']) ++ key.toList

theorem keyText_cons (part : String) (path : List String) (key : String) :
    keyText (part :: path) key = part.toList ++ '.' :: keyText path key := by
  simp [keyText]

theorem keyText_exists_cons (hpath : ∀ part ∈ path, IsBare part) (hkey : IsBare key) :
    ∃ c cs, keyText path key = c :: cs ∧ isBareKeyChar c = true := by
  cases path with
  | nil => simpa [keyText] using hkey.exists_cons
  | cons part path =>
    obtain ⟨c, cs, heq, hc⟩ := (hpath part List.mem_cons_self).exists_cons
    exact ⟨c, _, by simp [keyText_cons, heq]; rfl, hc⟩

theorem skipBlanks_keyText (hpath : ∀ part ∈ path, IsBare part) (hkey : IsBare key)
    (tail : List Char) : skipBlanks (keyText path key ++ tail) = keyText path key ++ tail := by
  obtain ⟨c, cs, heq, hc⟩ := keyText_exists_cons hpath hkey
  rw [heq]
  exact skipBlanks_eq_self
    ⟨by simpa using isBareKeyChar_ne hc rfl, by simpa using isBareKeyChar_ne hc rfl⟩

theorem keyParts_keyText (hpath : ∀ part ∈ path, IsBare part) (hkey : IsBare key)
    (htail : ∀ c ∈ tail.head?, isBareKeyChar c = false)
    (hdot : (skipBlanks tail).head? ≠ some '.') {fuel : Nat} (hfuel : path.length < fuel) :
    keyParts fuel (keyText path key ++ tail) = some (⟨path, key⟩, skipBlanks tail) := by
  induction path generalizing fuel with
  | nil =>
    obtain ⟨fuel, rfl⟩ := Nat.exists_eq_succ_of_ne_zero (Nat.ne_of_gt hfuel)
    have hpart : keyPart (keyText [] key ++ tail) = some (key, tail) := by
      simpa [keyText] using hkey.keyPart htail
    rw [keyParts, hpart]
    simp only [Option.bind_eq_bind, Option.bind_some]
    split
    · next heq => simp [heq] at hdot
    · rfl
  | cons part path ih =>
    obtain ⟨fuel, rfl⟩ := Nat.exists_eq_succ_of_ne_zero (Nat.ne_of_gt (Nat.zero_lt_of_lt hfuel))
    have hin := fun x hx => hpath x (List.mem_cons_of_mem part hx)
    have hpart : keyPart (part.toList ++ '.' :: (keyText path key ++ tail)) =
        some (part, '.' :: (keyText path key ++ tail)) :=
      (hpath part List.mem_cons_self).keyPart (by simp [isBareKeyChar])
    have hinner := ih hin (Nat.lt_of_succ_lt_succ hfuel)
    have hdot :
        skipBlanks ('.' :: (keyText path key ++ tail)) = '.' :: (keyText path key ++ tail) :=
      skipBlanks_eq_self ⟨by simp, by simp⟩
    rw [keyText_cons, List.append_assoc, List.cons_append, keyParts, hpart]
    simp only [Option.bind_eq_bind, Option.bind_some, hdot, skipBlanks_keyText hin hkey, hinner]

theorem length_keyText (path : List String) (key : String) :
    path.length ≤ (keyText path key).length := by
  induction path with
  | nil => exact Nat.zero_le _
  | cons part path ih =>
    rw [keyText_cons, List.length_append, List.length_cons, List.length_cons]
    omega

theorem key_keyText (hpath : ∀ part ∈ path, IsBare part) (hkey : IsBare key)
    (hlength : path.length < greatestKeyLength)
    (htail : ∀ c ∈ tail.head?, isBareKeyChar c = false)
    (hdot : (skipBlanks tail).head? ≠ some '.') :
    Reader.key (keyText path key ++ tail) = some (⟨path, key⟩, skipBlanks tail) := by
  have hfuel : path.length < (keyText path key ++ tail).length + 1 := by
    have hle := length_keyText path key
    rw [List.length_append]
    omega
  rw [Reader.key, skipBlanks_keyText hpath hkey, keyParts_keyText hpath hkey htail hdot hfuel]
  simp [hlength]

end Reader

-- ---------------------------------------------------------------------------
-- Lines
-- ---------------------------------------------------------------------------

structure Spells (line : String) (statement : Statement) : Prop where
  head : ∃ c cs, line.toList = c :: cs ∧ (c = '[' ∨ Reader.isBareKeyChar c = true)
  reads (rest : List Char) :
    Reader.statement (line.toList ++ '\n' :: rest) = some (statement, '\n' :: rest)

section

open Reader

theorem key_bracket (hpath : ∀ part ∈ path, IsBare part) (hkey : IsBare key)
    (hlength : path.length < greatestKeyLength) (rest : List Char) :
    Reader.key (keyText path key ++ ']' :: rest) = some (⟨path, key⟩, ']' :: rest) := by
  have hskip : skipBlanks (']' :: rest) = ']' :: rest := skipBlanks_eq_self ⟨by simp, by simp⟩
  have hread : Reader.key (keyText path key ++ ']' :: rest) =
      some (⟨path, key⟩, skipBlanks (']' :: rest)) :=
    key_keyText hpath hkey hlength (by simp [isBareKeyChar]) (by simp [hskip])
  rwa [hskip] at hread

theorem spells_header {text : String} (htext : text.toList = keyText path key)
    (hpath : ∀ part ∈ path, IsBare part) (hkey : IsBare key)
    (hlength : path.length < greatestKeyLength) :
    Spells s!"[{text}]" (.header ⟨path, key⟩) := by
  have hline : s!"[{text}]".toList = '[' :: (keyText path key ++ [']']) := by
    simp [← htext, toString]
  refine ⟨⟨_, _, hline, .inl rfl⟩, fun rest => ?_⟩
  have hread := key_bracket hpath hkey hlength ('\n' :: rest)
  obtain ⟨c, cs, heq, hc⟩ := keyText_exists_cons hpath hkey
  have hbracket : c ≠ '[' := isBareKeyChar_ne hc rfl
  rw [heq, List.cons_append] at hread
  simp [hline, heq, statement, hbracket, hread]

theorem spells_arrayHeader {text : String} (htext : text.toList = keyText path key)
    (hpath : ∀ part ∈ path, IsBare part) (hkey : IsBare key)
    (hlength : path.length < greatestKeyLength) :
    Spells s!"[[{text}]]" (.arrayHeader ⟨path, key⟩) := by
  have hline : s!"[[{text}]]".toList = '[' :: '[' :: (keyText path key ++ [']', ']']) := by
    simp [← htext, toString]
  refine ⟨⟨_, _, hline, .inl rfl⟩, fun rest => ?_⟩
  simp [hline, statement, key_bracket hpath hkey hlength]

theorem spells_entry {text : String} {w : Value} (hkey : IsBare key)
    (htext : Value.Reads text.toList w) :
    Spells (writeKey key ++ " = " ++ text) (.entry ⟨[], key⟩ w) := by
  obtain ⟨c, cs, heq, hc⟩ := hkey.exists_cons
  obtain ⟨first, more, hfirst, hblank, htab⟩ := htext.head
  have hline : (writeKey key ++ " = " ++ text).toList =
      key.toList ++ ' ' :: '=' :: ' ' :: text.toList := by
    simp [writeKey, show key ≠ "" ∧ key.toList.all isBareKeyChar = true from hkey]
  have hbracket : c ≠ '[' := isBareKeyChar_ne hc rfl
  refine ⟨⟨c, cs ++ ' ' :: '=' :: ' ' :: text.toList, by simp [hline, heq], .inr hc⟩,
    fun rest => ?_⟩
  have hread : Reader.key (keyText [] key ++ ' ' :: '=' :: ' ' :: (text.toList ++ '\n' :: rest)) =
      some (⟨[], key⟩, '=' :: ' ' :: (text.toList ++ '\n' :: rest)) :=
    key_keyText (by simp) hkey (by decide) (by simp [isBareKeyChar]) (by simp [skipBlanks])
  have hskip : skipBlanks (' ' :: (text.toList ++ '\n' :: rest)) = text.toList ++ '\n' :: rest := by
    rw [hfirst]
    simp [skipBlanks, hblank, htab]
  have hequals (cs : List Char) : skipBlanks ('=' :: cs) = '=' :: cs :=
    skipBlanks_eq_self ⟨by simp, by simp⟩
  have hentry : entry (some ∘ skipBlanks) (Reader.value greatestNesting)
      (key.toList ++ ' ' :: '=' :: ' ' :: (text.toList ++ '\n' :: rest)) =
        some ((⟨[], key⟩, w), '\n' :: rest) := by
    simp only [keyText, List.flatMap_nil, List.nil_append] at hread
    simp [entry, hread, hequals, hskip, htext.value]
  rw [heq] at hentry
  simp only [hline, heq, List.append_assoc, List.cons_append] at hentry ⊢
  simp [statement, hbracket, hentry]

end

-- ---------------------------------------------------------------------------
-- Documents
-- ---------------------------------------------------------------------------

/-- Lines that spell the statements, with blank lines among them. -/
inductive Document : List Char → List Statement → Prop
  | nil : Document [] []
  | blank {cs : List Char} {statements : List Statement} (h : Document cs statements) :
    Document ('\n' :: cs) statements
  | line {line : String} {first : Statement} {cs : List Char} {statements : List Statement}
    (hline : Spells line first) (h : Document cs statements) :
    Document (line.toList ++ '\n' :: cs) (first :: statements)

section

open Reader

theorem skipSpace_feed (cs : List Char) : skipSpace ('\n' :: cs) = skipSpace cs := by
  have hblanks : skipBlanks ('\n' :: cs) = '\n' :: cs := skipBlanks_eq_self ⟨by simp, by simp⟩
  simp [skipSpace, skipLines, hblanks, skipComment, Quoted.afterLineEnd?]

theorem skipSpace_line {c : Char} (hc : c = '[' ∨ isBareKeyChar c = true) (cs : List Char) :
    skipSpace (c :: cs) = some (c :: cs) := by
  have hne (d : Char) (hd : d ≠ '[') (hbare : isBareKeyChar d = false) : c ≠ d := by
    obtain rfl | hc := hc
    · exact hd.symm
    · exact isBareKeyChar_ne hc hbare
  have hblanks : skipBlanks (c :: cs) = c :: cs :=
    skipBlanks_eq_self
      ⟨by simpa using hne ' ' (by decide) rfl, by simpa using hne '\t' (by decide) rfl⟩
  have hcomment : c ≠ '#' := hne '#' (by decide) rfl
  have hfeed : c ≠ '\n' := hne '\n' (by decide) rfl
  have hreturn : c ≠ '\x0d' := hne '\x0d' (by decide) rfl
  have hend : Quoted.afterLineEnd? (c :: cs) = none :=
    Quoted.afterLineEnd?_eq_none (by simpa using hfeed) (by simpa using hreturn)
  simp [skipSpace, skipLines, hblanks, skipComment, hcomment, hend]

theorem Document.statements {cs : List Char} {statements : List Statement}
    (h : Document cs statements) {fuel : Nat} (hfuel : cs.length < fuel) :
    Reader.statements fuel cs = some statements := by
  induction h generalizing fuel with
  | nil =>
    obtain ⟨fuel, rfl⟩ := Nat.exists_eq_succ_of_ne_zero (Nat.ne_of_gt hfuel)
    rfl
  | blank h ih =>
    obtain ⟨fuel, rfl⟩ := Nat.exists_eq_succ_of_ne_zero (Nat.ne_of_gt (Nat.zero_lt_of_lt hfuel))
    have hrest := ih (Nat.lt_of_succ_lt hfuel)
    rw [Reader.statements, skipSpace_feed]
    rwa [Reader.statements] at hrest
  | @line line first cs statements hline h ih =>
    obtain ⟨fuel, rfl⟩ := Nat.exists_eq_succ_of_ne_zero (Nat.ne_of_gt (Nat.zero_lt_of_lt hfuel))
    obtain ⟨c, more, heq, hc⟩ := hline.head
    have hread := hline.reads cs
    have hrest : Reader.statements fuel cs = some statements := by
      apply ih
      simp only [List.length_append, List.length_cons] at hfuel
      omega
    have hend : endOfLine? ('\n' :: cs) = some cs := by
      have hblanks : skipBlanks ('\n' :: cs) = '\n' :: cs :=
        skipBlanks_eq_self ⟨by simp, by simp⟩
      simp [endOfLine?, hblanks, skipComment, Quoted.afterLineEnd?]
    rw [heq, List.cons_append] at hread ⊢
    simp [Reader.statements, skipSpace_line hc, hread, hend, hrest]

theorem Document.head {cs : List Char} {statements : List Statement} (h : Document cs statements) :
    cs.head? ≠ some '\ufeff' := by
  cases h with
  | nil => simp
  | blank => simp
  | line hline =>
    obtain ⟨c, more, heq, hc⟩ := hline.head
    have hne : c ≠ '\ufeff' := by
      rintro rfl
      simp [isBareKeyChar] at hc
    simpa [heq] using hne

end

end SpokenCountdown.Toml
