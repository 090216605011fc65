import Mathlib.Data.List.Sort
import SpokenCountdown.Proofs.Directive.Selection
import SpokenCountdown.Proofs.Schedule

/-!
# Earlier candidates win

The filter looks back only: what it keeps of some candidates stays kept whatever
candidates follow. So say items lose nothing to a spec that is merged behind
them, and the preferred family of directives loses nothing to the other one:
`earlier_candidates_win`.
-/

namespace SpokenCountdown

def Priority.prefers : Priority → Directive → Bool
  | .fraction, d => d.isFraction
  | .time, d => !d.isFraction
  | .order, _ => true

namespace Reconciliation

-- ---------------------------------------------------------------------------
-- The filter
-- ---------------------------------------------------------------------------

theorem keep_suffix (total : Nat) (first later : List Announcement) :
    keep total first <:+ keep total (first ++ later) := by
  unfold keep
  rw [List.foldl_append]
  generalize first.foldl _ [] = kept
  induction later generalizing kept with
  | nil => exact List.suffix_refl kept
  | cons a later ih =>
    rw [List.foldl_cons]
    refine List.IsSuffix.trans ?_ (ih _)
    split
    · exact List.suffix_cons a kept
    · exact List.suffix_refl kept

theorem reconcile_sublist (first later : List Announcement) (total : Nat) :
    (reconcile first total).Sublist (reconcile (first ++ later) total) := by
  -- both are strictly descending, so all that counts is which announcements they hold
  have hkept : (reconcile first total).Subperm (reconcile (first ++ later) total) :=
    (reconcile_perm first total).subperm.trans
      ((keep_suffix total first later).sublist.subperm.trans
        (reconcile_perm (first ++ later) total).symm.subperm)
  have asymmetric : Std.Antisymm fun a b : Announcement => b.offset < a.offset :=
    ⟨fun a b hab hba => absurd hab (Nat.lt_asymm hba)⟩
  exact List.sublist_of_subperm_of_pairwise hkept (reconcile_descending first total)
    (reconcile_descending (first ++ later) total)

theorem reconcile_sublist_of_prefix {first all : List Announcement} (h : first <+: all)
    (total : Nat) : (reconcile first total).Sublist (reconcile all total) := by
  obtain ⟨later, rfl⟩ := h
  exact reconcile_sublist first later total

-- ---------------------------------------------------------------------------
-- The preferred family
-- ---------------------------------------------------------------------------

theorem candidates_select_prefix (priority : Priority) (spec : String) (total : Nat)
    (phrases : Phrases) :
    candidates (Directive.select priority.prefers spec) total priority phrases <+:
      candidates spec total priority phrases := by
  cases priority with
  | order =>
    have hall : (Directive.ofSpec spec).filter Priority.order.prefers = Directive.ofSpec spec :=
      List.filter_eq_self.mpr fun _ _ => rfl
    simp [candidates, Directive.ofSpec_select, hall]
  | fraction | time =>
    simp [candidates, Directive.ofSpec_select, List.filter_filter, Priority.prefers]

end Reconciliation

-- ---------------------------------------------------------------------------
-- Sources
-- ---------------------------------------------------------------------------

namespace Sources

section
variable {sources : Sources} {explicit : List Announcement} {total : Nat}

theorem announcements_eq (hsaid : Text.isBlankText sources.spec = false ∨ sources.sayItems ≠ [])
    (hexplicit : SayItem.announcements sources.sayItems = .ok explicit) :
    sources.announcements total =
      .ok (Reconciliation.reconcile (sources.candidates total explicit) total) := by
  have hnot : (Text.isBlankText sources.spec && sources.sayItems.isEmpty) = false := by
    rcases hsaid with h | h <;> simp [h]
  simp [announcements, hnot, hexplicit]

theorem candidates_nil (sources : Sources) (total : Nat) :
    sources.candidates total [] =
      Reconciliation.candidates sources.spec total sources.priority sources.phrases := by
  unfold candidates
  cases sources.sayMode <;> rfl

end

end Sources

theorem SayItem.announcements_ne_nil {items : List SayItem} (hitems : items ≠ [])
    (h : SayItem.announcements items = .ok explicit) : explicit ≠ [] := by
  cases items with
  | nil => exact absurd rfl hitems
  | cons item rest =>
    simp only [SayItem.announcements, announcementsFrom] at h
    split at h
    · cases h
    · split at h
      · cases h
      · cases h
        exact List.cons_ne_nil _ _

/-- Whatever comes behind them, the announcements of some candidates stay as they
are and in their order. Such candidates are the say items, where they would
replace the spec, and the preferred directives of a spec. -/
theorem earlier_candidates_win :
    (∀ first later total, (Reconciliation.reconcile first total).Sublist
      (Reconciliation.reconcile (first ++ later) total)) ∧
    (∀ (sources : Sources) (explicit : List Announcement) (total : Nat),
      sources.sayItems ≠ [] → SayItem.announcements sources.sayItems = .ok explicit →
        ∃ replaced merged,
          { sources with sayMode := .override }.announcements total = .ok replaced ∧
          { sources with sayMode := .merge }.announcements total = .ok merged ∧
          replaced.Sublist merged) ∧
    ∀ (priority : Priority) (spec : String) (sayMode : SayMode) (phrases : Phrases) (total : Nat),
      let part : Sources :=
        { spec := Directive.select priority.prefers spec, sayMode, priority, phrases }
      let whole : Sources := { spec, sayMode, priority, phrases }
      (∃ alone among, part.announcements total = .ok alone ∧
        whole.announcements total = .ok among ∧ alone.Sublist among) ∨
      ((∀ d ∈ Directive.ofSpec spec, priority.prefers d = false) ∧
        part.announcements total = .error .nothingToSay) := by
  refine ⟨Reconciliation.reconcile_sublist, fun sources explicit total hitems hexplicit => ?_,
    fun priority spec sayMode phrases total => ?_⟩
  · refine ⟨_, _, Sources.announcements_eq (.inr hitems) hexplicit,
      Sources.announcements_eq (.inr hitems) hexplicit, ?_⟩
    have hnone : explicit.isEmpty = false :=
      List.isEmpty_eq_false_iff.mpr (SayItem.announcements_ne_nil hitems hexplicit)
    apply Reconciliation.reconcile_sublist_of_prefix
    simp [Sources.candidates, hnone]
  · intro part whole
    cases hblank : Text.isBlankText part.spec with
    | true =>
      refine .inr ⟨Directive.isBlankText_select_iff.mp hblank, ?_⟩
      simp [Sources.announcements, hblank, part]
    | false =>
      have hwhole : Text.isBlankText whole.spec = false := by
        rw [Bool.eq_false_iff]
        intro h
        have hempty : Directive.ofSpec spec = [] := Directive.ofSpec_of_blank h
        have hnone : ∀ d ∈ Directive.ofSpec spec, priority.prefers d = false := by
          simp [hempty]
        exact Bool.eq_false_iff.mp hblank (Directive.isBlankText_select_iff.mpr hnone)
      refine .inl ⟨_, _, Sources.announcements_eq (.inl hblank) rfl,
        Sources.announcements_eq (.inl hwhole) rfl, ?_⟩
      rw [Sources.candidates_nil, Sources.candidates_nil]
      exact Reconciliation.reconcile_sublist_of_prefix
        (Reconciliation.candidates_select_prefix priority spec total phrases) total

set_option maxRecDepth 10000 in
/-- Two items keep their places between what is left of a spec: the midpoint and
the announcement two seconds before it are too close to the first of them. -/
theorem earlier_candidates_win_stretch :
    let sources : Sources :=
      { spec := "last92 1/2 10",
        sayItems := [⟨88000, "Breathe", none⟩, ⟨45000, "Stretch", none⟩] }
    ∃ explicit replaced merged,
      sources.sayItems ≠ [] ∧ SayItem.announcements sources.sayItems = .ok explicit ∧
      { sources with sayMode := .override }.announcements 180000 = .ok replaced ∧
      { sources with sayMode := .merge }.announcements 180000 = .ok merged ∧
      replaced.map (·.offset) = [88000, 45000] ∧
      merged.map (·.offset) = [88000, 45000, 10000] ∧ replaced.Sublist merged := by
  intro sources
  have hitems : sources.sayItems ≠ [] := List.cons_ne_nil _ _
  have hexplicit : SayItem.announcements sources.sayItems = .ok _ := rfl
  have hreplaced : { sources with sayMode := .override }.announcements 180000 = .ok _ :=
    Sources.announcements_eq (.inr hitems) hexplicit
  have hmerged : { sources with sayMode := .merge }.announcements 180000 = .ok _ :=
    Sources.announcements_eq (.inr hitems) hexplicit
  obtain ⟨replaced, merged, hr, hm, hsublist⟩ :=
    earlier_candidates_win.2.1 sources _ 180000 hitems hexplicit
  refine ⟨_, _, _, hitems, hexplicit, hreplaced, hmerged, ?_, ?_, ?_⟩
  · rw [Reconciliation.reconcile_of_descending (by decide +kernel)]
    decide +kernel
  · rw [Reconciliation.reconcile_of_descending (by decide +kernel)]
    decide +kernel
  · rw [← Except.ok.inj (hr.symm.trans hreplaced), ← Except.ok.inj (hm.symm.trans hmerged)]
    exact hsublist

end SpokenCountdown
