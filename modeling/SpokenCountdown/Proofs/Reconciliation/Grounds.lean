import SpokenCountdown.Proofs.Reconciliation.Precedence

/-!
# Nothing is dropped without grounds

A candidate is out of range, or a kept one before it has its offset or is too
close to it; otherwise it is kept. A candidate that was passed over once is
passed over whenever it comes again, so what is kept of the candidates before it
is what the result holds of them (`mem_keep_of_mem`), and the grounds can be read
off the result: `dropped_on_grounds`.
-/

namespace SpokenCountdown

namespace Reconciliation

/-- Why `a` is not in the result, given the candidates before it. -/
inductive Grounds (total : Nat) (before result : List Announcement) (a : Announcement) : Prop where
  | outOfRange (range : a.offset = 0 ∨ total ≤ a.offset)
  | taken (k : Announcement) (earlier : k ∈ before) (kept : k ∈ result)
      (same : k.offset = a.offset)
  | crowded (k : Announcement) (earlier : k ∈ before) (kept : k ∈ result)
      (early : 30000 < a.offset)
      (close : max a.offset k.offset - min a.offset k.offset < 5000)

section
variable {total : Nat} {before items kept more : List Announcement} {a k : Announcement}

-- ---------------------------------------------------------------------------
-- Admission
-- ---------------------------------------------------------------------------

theorem conflicts_iff {new old : Nat} : conflicts new old = true ↔
    new = old ∨ 30000 < new ∧ max new old - min new old < 5000 := by
  simp only [conflicts, tooClose, Bool.or_eq_true, beq_iff_eq, Bool.and_eq_true, decide_eq_true_eq]
  rfl

theorem not_admits_iff : admits total kept a = false ↔
    a.offset = 0 ∨ total ≤ a.offset ∨ ∃ k ∈ kept, conflicts a.offset k.offset = true := by
  simp only [admits, Bool.and_eq_false_iff, bne_eq_false_iff_eq, decide_eq_false_iff_not,
    Nat.not_lt, Bool.not_eq_false', List.any_eq_true, or_assoc]

theorem not_admits_mono (h : admits total kept a = false) (hsub : kept ⊆ more) :
    admits total more a = false := by
  rw [not_admits_iff] at h ⊢
  obtain hzero | hlate | ⟨k, hk, hconflict⟩ := h
  · exact .inl hzero
  · exact .inr (.inl hlate)
  · exact .inr (.inr ⟨k, hsub hk, hconflict⟩)

theorem keep_concat (items : List Announcement) (a : Announcement) :
    keep total (items ++ [a]) =
      if admits total (keep total items) a then a :: keep total items else keep total items := by
  rw [keep, List.foldl_append]
  rfl

theorem keep_mono (first later : List Announcement) :
    keep total first ⊆ keep total (first ++ later) :=
  (keep_suffix total first later).subset

theorem keep_reverse_sublist (items : List Announcement) :
    (keep total items).reverse.Sublist items := by
  induction items using List.reverseRecOn with
  | nil => exact .slnil
  | append_singleton items a ih =>
    rw [keep_concat]
    split
    · rw [List.reverse_cons]
      exact ih.append (List.Sublist.refl [a])
    · exact ih.trans (List.sublist_append_left items [a])

theorem not_admits_of_mem (h : a ∈ items) : admits total (keep total items) a = false := by
  obtain ⟨before, after, rfl⟩ := List.append_of_mem h
  rw [← List.singleton_append, ← List.append_assoc]
  refine not_admits_mono ?_ (keep_mono _ after)
  rw [keep_concat]
  split
  · exact not_admits_iff.mpr (.inr (.inr ⟨a, List.mem_cons_self, conflicts_iff.mpr (.inl rfl)⟩))
  · exact Bool.eq_false_iff.mpr ‹_›

theorem mem_keep_of_mem (h : k ∈ before) (later : List Announcement)
    (hkept : k ∈ keep total (before ++ later)) : k ∈ keep total before := by
  induction later generalizing before with
  | nil => rwa [List.append_nil] at hkept
  | cons b later ih =>
    rw [← List.singleton_append, ← List.append_assoc] at hkept
    have hlast := ih (List.mem_append_left [b] h) hkept
    rw [keep_concat] at hlast
    split at hlast
    · rename_i admitted
      rcases List.mem_cons.mp hlast with rfl | hlast
      · exact absurd admitted (Bool.eq_false_iff.mp (not_admits_of_mem h))
      · exact hlast
    · exact hlast

-- ---------------------------------------------------------------------------
-- Grounds
-- ---------------------------------------------------------------------------

theorem mem_reconcile_iff : a ∈ reconcile items total ↔ a ∈ keep total items :=
  (reconcile_perm items total).mem_iff

theorem grounds_iff (later : List Announcement) :
    Grounds total before (reconcile (before ++ later) total) a ↔
      admits total (keep total before) a = false := by
  rw [not_admits_iff]
  constructor
  · intro h
    have conflict {k : Announcement} (earlier : k ∈ before)
        (kept : k ∈ reconcile (before ++ later) total) (h : conflicts a.offset k.offset = true) :
        ∃ k ∈ keep total before, conflicts a.offset k.offset = true :=
      ⟨k, mem_keep_of_mem earlier later (mem_reconcile_iff.mp kept), h⟩
    cases h with
    | outOfRange range => exact range.imp_right .inl
    | taken k earlier kept same =>
      exact .inr (.inr (conflict earlier kept (conflicts_iff.mpr (.inl same.symm))))
    | crowded k earlier kept early close =>
      exact .inr (.inr (conflict earlier kept (conflicts_iff.mpr (.inr ⟨early, close⟩))))
  · rintro (hzero | hlate | ⟨k, hk, hconflict⟩)
    · exact .outOfRange (.inl hzero)
    · exact .outOfRange (.inr hlate)
    · have earlier : k ∈ before := keep_subset total before hk
      have kept : k ∈ reconcile (before ++ later) total :=
        mem_reconcile_iff.mpr (keep_mono before later hk)
      rcases conflicts_iff.mp hconflict with same | ⟨early, close⟩
      · exact .taken k earlier kept same.symm
      · exact .crowded k earlier kept early close

theorem mem_reconcile_of_admits (h : admits total (keep total before) a = true)
    (after : List Announcement) : a ∈ reconcile (before ++ a :: after) total := by
  rw [mem_reconcile_iff, ← List.singleton_append, ← List.append_assoc]
  apply keep_mono
  rw [keep_concat, if_pos h]
  exact List.mem_cons_self

theorem admits_of_mem_reconcile (hnew : a ∉ before) (after : List Announcement)
    (h : a ∈ reconcile (before ++ a :: after) total) :
    admits total (keep total before) a = true := by
  rw [mem_reconcile_iff, ← List.singleton_append, ← List.append_assoc] at h
  have hkept := mem_keep_of_mem (List.mem_append_right before List.mem_cons_self) after h
  rw [keep_concat] at hkept
  split at hkept
  · assumption
  · exact absurd (keep_subset total before hkept) hnew

end

/-- The result is made of candidates, each as it was and none more often than it
came. One that is missing has grounds at every place where it stands, and where
a candidate stands for the first time there are no other reasons than these. -/
theorem dropped_on_grounds (candidates : List Announcement) (total : Nat) :
    let result := reconcile candidates total
    result.Subperm candidates ∧
      ∀ before a after, candidates = before ++ a :: after →
        (a ∉ result → Grounds total before result a) ∧
        (a ∉ before → Grounds total before result a → a ∉ result) := by
  intro result
  have kept : (keep total candidates).Subperm candidates :=
    (List.reverse_perm _).symm.subperm.trans (keep_reverse_sublist candidates).subperm
  refine ⟨(reconcile_perm candidates total).subperm.trans kept, ?_⟩
  rintro before a after rfl
  refine ⟨fun hdropped => ?_, fun hnew grounds hkept => ?_⟩
  · rw [grounds_iff, Bool.eq_false_iff]
    exact fun admitted => hdropped (mem_reconcile_of_admits admitted after)
  · rw [grounds_iff, admits_of_mem_reconcile hnew after hkept] at grounds
    cases grounds

/-- An item beyond the end, a second one at 20 seconds and an early one that
stands too close are dropped; late ones may be close. -/
theorem dropped_on_grounds_minute :
    let rate := Rate.normal
    let first : List Announcement := [⟨60000, "Go", rate⟩, ⟨34000, "Sit", rate⟩, ⟨20000, "20", rate⟩]
    let second : List Announcement := [⟨20000, "Twenty", rate⟩]
    let third : List Announcement := [⟨38000, "Breathe", rate⟩]
    let candidates := first ++ second ++ third ++ [⟨19000, "19", rate⟩]
    let result := reconcile candidates 60000
    result = [⟨34000, "Sit", rate⟩, ⟨20000, "20", rate⟩, ⟨19000, "19", rate⟩] ∧
      Grounds 60000 [] result ⟨60000, "Go", rate⟩ ∧
      Grounds 60000 first result ⟨20000, "Twenty", rate⟩ ∧
      Grounds 60000 (first ++ second) result ⟨38000, "Breathe", rate⟩ := by
  intro rate first second third candidates result
  have hresult : reconcile candidates 60000 =
      [⟨34000, "Sit", rate⟩, ⟨20000, "20", rate⟩, ⟨19000, "19", rate⟩] := by
    rw [reconcile_of_descending (by decide +kernel)]
    decide +kernel
  have dropped := (dropped_on_grounds candidates 60000).2
  have missing : (⟨60000, "Go", rate⟩ : Announcement) ∉ result ∧
      (⟨20000, "Twenty", rate⟩ : Announcement) ∉ result ∧
      (⟨38000, "Breathe", rate⟩ : Announcement) ∉ result := by
    simp only [result, hresult]
    decide +kernel
  exact ⟨hresult, (dropped [] _ _ rfl).1 missing.1, (dropped first _ _ rfl).1 missing.2.1,
    (dropped (first ++ second) _ _ rfl).1 missing.2.2⟩

end Reconciliation

end SpokenCountdown
