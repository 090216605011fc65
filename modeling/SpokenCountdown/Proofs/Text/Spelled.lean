import SpokenCountdown.Proofs.Directive.Selection

/-!
# How words spell a text

A text is spelled by its words: runs without blanks, with blanks around them and at
least one between any two. There is one way to see a text so, and `words` finds it
(`words_eq_iff`). A cut that goes through no word leaves the words on either side as
they are (`words_append`).
-/

namespace SpokenCountdown.Text

def IsGap (cs : List Char) : Prop :=
  ∀ c ∈ cs, isBlank c = true

def BeginsBlank (cs : List Char) : Prop :=
  ∀ c ∈ cs.head?, isBlank c = true

def Separated (before after : List Char) : Prop :=
  (∀ c ∈ before.getLast?, isBlank c = true) ∨ BeginsBlank after

inductive Spelled : List (List Char) → List Char → Prop where
  | blanks {gap : List Char} (hgap : IsGap gap) : Spelled [] gap
  | word {ws : List (List Char)} {gap word rest : List Char} (hgap : IsGap gap)
      (hword : IsWord word) (ends : BeginsBlank rest) (hrest : Spelled ws rest) :
      Spelled (word :: ws) (gap ++ (word ++ rest))

section
variable {c : Char} {before after more cs gap word : List Char} {ws : List (List Char)}

-- ---------------------------------------------------------------------------
-- Cuts
-- ---------------------------------------------------------------------------

theorem words_append (h : Separated before after) :
    words (before ++ after) = words before ++ words after := by
  rcases h with ends | begins
  · rcases List.eq_nil_or_concat before with rfl | ⟨init, c, rfl⟩
    · rfl
    · have hc : isBlank c = true := ends c (by simp)
      have hinit : words (init ++ [c]) = words init :=
        (words_append_blank hc init []).trans (List.append_nil _)
      rw [List.concat_eq_append, hinit, List.append_assoc, List.singleton_append,
        words_append_blank hc]
  · cases after with
    | nil =>
      rw [List.append_nil]
      exact (List.append_nil (words before)).symm
    | cons c after =>
      have hc : isBlank c = true := begins c rfl
      rw [words_append_blank hc before after]
      exact congrArg _ (words_append_blank hc [] after).symm

theorem Separated.of_getLast? (hlast : before.getLast? = some c) (hc : isBlank c = true)
    (after : List Char) : Separated before after := by
  refine .inl fun last h => ?_
  rw [hlast] at h
  cases h
  exact hc

theorem Separated.append (hbefore : Separated before after) (hmore : Separated more after) :
    Separated (before ++ more) after := by
  rcases hbefore with ends | begins
  · rcases hmore with more_ends | begins
    · refine .inl fun c hc => ?_
      rw [List.getLast?_append, Option.mem_def, Option.or_eq_some_iff] at hc
      rcases hc with hc | ⟨-, hc⟩
      · exact more_ends c hc
      · exact ends c hc
    · exact .inr begins
  · exact .inr begins

theorem IsGap.beginsBlank (h : IsGap gap) : BeginsBlank gap :=
  fun c hc => h c (List.mem_of_mem_head? hc)

-- ---------------------------------------------------------------------------
-- Every text is spelled by its words
-- ---------------------------------------------------------------------------

theorem Spelled.words_eq (h : Spelled ws cs) : words cs = ws := by
  induction h with
  | blanks hgap => exact words_of_blanks hgap
  | @word ws gap word rest hgap hword ends _ ih =>
    have hcut : Separated gap (word ++ rest) :=
      .inl fun c hc => hgap c (List.mem_of_mem_getLast? hc)
    rw [words_append hcut, words_append (.inr ends), words_of_blanks hgap, hword.words_eq, ih]
    rfl

theorem Spelled.cons_blank (h : Spelled ws cs) (hc : isBlank c = true) : Spelled ws (c :: cs) := by
  cases h with
  | blanks hgap => exact .blanks (List.forall_mem_cons.mpr ⟨hc, hgap⟩)
  | @word _ gap _ _ hgap hword ends hrest =>
    have longer : IsGap (c :: gap) := List.forall_mem_cons.mpr ⟨hc, hgap⟩
    exact .word longer hword ends hrest

theorem isWord_singleton (hc : isBlank c = false) : IsWord [c] :=
  ⟨List.cons_ne_nil c [], List.forall_mem_singleton.mpr hc⟩

theorem IsWord.cons (h : IsWord word) (hc : isBlank c = false) :
    IsWord (c :: word) :=
  ⟨List.cons_ne_nil c word, List.forall_mem_cons.mpr ⟨hc, h.solid⟩⟩

theorem exists_spelled (cs : List Char) : ∃ ws, Spelled ws cs := by
  induction cs with
  | nil => exact ⟨[], .blanks (List.forall_mem_nil _)⟩
  | cons c cs ih =>
    obtain ⟨ws, h⟩ := ih
    cases hc : isBlank c with
    | true => exact ⟨ws, h.cons_blank hc⟩
    | false =>
      have empty : IsGap [] := List.forall_mem_nil _
      cases h with
      | blanks hgap =>
        exact ⟨[[c]], .word empty (isWord_singleton hc) hgap.beginsBlank (.blanks hgap)⟩
      | @word ws gap word rest hgap hword ends hrest =>
        -- the character makes the first word longer, unless there is a blank between
        cases gap with
        | nil => exact ⟨(c :: word) :: ws, .word empty (hword.cons hc) ends hrest⟩
        | cons b gap =>
          have begins : BeginsBlank (b :: gap ++ (word ++ rest)) := by
            rintro _ ⟨⟩
            exact hgap b List.mem_cons_self
          exact ⟨[c] :: word :: ws,
            .word empty (isWord_singleton hc) begins (.word hgap hword ends hrest)⟩

theorem words_eq_iff : words cs = ws ↔ Spelled ws cs := by
  constructor
  · rintro rfl
    obtain ⟨ws, h⟩ := exists_spelled cs
    rwa [h.words_eq]
  · exact Spelled.words_eq

end

end SpokenCountdown.Text
