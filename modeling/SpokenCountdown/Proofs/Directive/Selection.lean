import SpokenCountdown.Directive.Parser

/-!
# Parts of a spec

`select` makes a spec of those words of another one that are directives of a
kind. Its directives are exactly these, in their order: `ofSpec_select`.
-/

namespace SpokenCountdown

namespace Text

structure IsWord (cs : List Char) : Prop where
  nonempty : cs ≠ []
  solid : ∀ c ∈ cs, isBlank c = false

section
variable {c : Char} {cs word : List Char} {ws : List (List Char)}

-- ---------------------------------------------------------------------------
-- Words
-- ---------------------------------------------------------------------------

theorem words_append_blank (h : isBlank c = true) (before after : List Char) :
    words (before ++ c :: after) = words before ++ words after := by
  unfold words
  rw [List.splitOnP_append_cons before after h, List.filter_append]

theorem words_of_blanks (h : ∀ c ∈ cs, isBlank c = true) : words cs = [] := by
  induction cs with
  | nil => rfl
  | cons c cs ih =>
    obtain ⟨hc, hcs⟩ := List.forall_mem_cons.mp h
    exact (words_append_blank hc [] cs).trans (ih hcs)

theorem IsWord.words_eq (h : IsWord word) : words word = [word] := by
  unfold words
  rw [List.splitOnP_eq_singleton h.solid]
  simp [h.nonempty]

theorem solid_of_mem_splitOnP {piece : List Char} (h : piece ∈ cs.splitOnP isBlank) :
    ∀ c ∈ piece, isBlank c = false := by
  induction cs generalizing piece with
  | nil => simp_all
  | cons c cs ih =>
    rw [List.splitOnP_cons_eq_if_modifyHead] at h
    split at h
    · rcases List.mem_cons.mp h with rfl | h
      · exact List.forall_mem_nil _
      · exact ih h
    · rename_i hc
      obtain ⟨head, tail, hsplit⟩ := List.exists_cons_of_ne_nil (List.splitOnP_ne_nil isBlank cs)
      rw [hsplit, List.modifyHead_cons] at h
      rcases List.mem_cons.mp h with rfl | h
      · exact List.forall_mem_cons.mpr
          ⟨Bool.eq_false_iff.mpr hc, ih (hsplit ▸ List.mem_cons_self)⟩
      · exact ih (hsplit ▸ List.mem_cons_of_mem _ h)

theorem isWord_of_mem_words (h : word ∈ words cs) : IsWord word := by
  obtain ⟨hpiece, hne⟩ := List.mem_filter.mp h
  exact ⟨by simpa using hne, solid_of_mem_splitOnP hpiece⟩

theorem words_intercalate (h : ∀ word ∈ ws, IsWord word) :
    words ([' '].intercalate ws) = ws := by
  induction ws with
  | nil => rfl
  | cons word rest ih =>
    obtain ⟨hword, hrest⟩ := List.forall_mem_cons.mp h
    cases rest with
    | nil => exact (congrArg words List.intercalate_singleton).trans hword.words_eq
    | cons next rest =>
      rw [List.intercalate_cons_cons, List.append_assoc, List.singleton_append,
        words_append_blank (by decide), hword.words_eq, ih hrest, List.singleton_append]

end

end Text

-- ---------------------------------------------------------------------------
-- Directives of one kind
-- ---------------------------------------------------------------------------

namespace Directive

/-- The words that are directives of a kind, with one blank between them. -/
def select (kind : Directive → Bool) (spec : String) : String :=
  String.ofList ([' '].intercalate ((Text.words spec.toList).filter fun word =>
    (parse? (String.ofList word)).any kind))

section
variable {kind : Directive → Bool} {spec : String}

theorem ofSpec_select (kind : Directive → Bool) (spec : String) :
    ofSpec (select kind spec) = (ofSpec spec).filter kind := by
  have hwords : Text.words (select kind spec).toList =
      (Text.words spec.toList).filter fun word => (parse? (String.ofList word)).any kind := by
    rw [select, String.toList_ofList]
    refine Text.words_intercalate fun word hword => ?_
    exact Text.isWord_of_mem_words (List.mem_filter.mp hword).1
  unfold ofSpec
  rw [hwords, List.filterMap_filter, List.filter_filterMap]
  refine congrArg (List.filterMap · _) (funext fun word => ?_)
  cases parse? (String.ofList word) with
  | none => rfl
  | some d => cases hd : kind d <;> simp [Option.filter, hd]

theorem ofSpec_of_blank (h : Text.isBlankText spec = true) : ofSpec spec = [] := by
  unfold ofSpec
  rw [Text.words_of_blanks (List.all_eq_true.mp h), List.filterMap_nil]

theorem isBlankText_select_iff :
    Text.isBlankText (select kind spec) = true ↔ ∀ d ∈ ofSpec spec, kind d = false := by
  constructor
  · intro h d hd
    have hnone : (ofSpec spec).filter kind = [] := by rw [← ofSpec_select, ofSpec_of_blank h]
    simpa using List.filter_eq_nil_iff.mp hnone d hd
  · intro h
    have hnone : ((Text.words spec.toList).filter fun word =>
        (parse? (String.ofList word)).any kind) = [] := by
      refine List.filter_eq_nil_iff.mpr fun word hword => ?_
      cases hparse : parse? (String.ofList word) with
      | none => simp
      | some d =>
        have hd : d ∈ ofSpec spec := List.mem_filterMap.mpr ⟨word, hword, hparse⟩
        simp [h d hd]
    rw [select, hnone]
    rfl

end

end Directive

end SpokenCountdown
