import SpokenCountdown.Proofs.Reconciliation.Grounds
import SpokenCountdown.Proofs.Text.Trimmed

/-!
# Reconciling again changes nothing

A result is in range, and any two of its announcements are apart. The filter then
drops none of them if they come in descending order: an early one finds early ones
before it, which are far enough away, and a late one may be close. So a result is
the result of itself (`reconcile_eq_self`), and say items with the announcements that
were built bring them about again, provided the messages are ones that say items keep:
`built_again_iff`.
-/

namespace SpokenCountdown

namespace Announcement

def sayItem (a : Announcement) : SayItem :=
  ⟨a.offset, a.message, some a.rate⟩

/-- There is a message, with nothing to trim. -/
def Worded (a : Announcement) : Prop :=
  a.message ≠ "" ∧ Text.trim a.message = a.message

end Announcement

namespace Reconciliation

section
variable {total : Nat} {items kept : List Announcement} {a : Announcement}

-- ---------------------------------------------------------------------------
-- Fixed points
-- ---------------------------------------------------------------------------

theorem admits_of_apart (hrange : 0 < a.offset ∧ a.offset < total)
    (hapart : ∀ k ∈ kept, a.offset ≤ k.offset ∧ Apart k a) : admits total kept a = true := by
  rw [← Bool.not_eq_false, not_admits_iff]
  rintro (hzero | hlate | ⟨k, hk, hconflict⟩)
  · exact absurd hzero (Nat.ne_of_gt hrange.1)
  · exact absurd hrange.2 (Nat.not_lt.mpr hlate)
  · obtain ⟨hbefore, hne, hfar⟩ := hapart k hk
    rcases conflicts_iff.mp hconflict with same | ⟨early, close⟩
    · exact hne same.symm
    · have hdistance := hfar (Nat.lt_of_lt_of_le early hbefore) early
      rw [Nat.max_comm, Nat.min_comm] at close
      exact absurd close (Nat.not_lt.mpr hdistance)

theorem keep_eq_reverse (hrange : ∀ a ∈ items, 0 < a.offset ∧ a.offset < total)
    (hapart : items.Pairwise fun a b => b.offset ≤ a.offset ∧ Apart a b) :
    keep total items = items.reverse := by
  induction items using List.reverseRecOn with
  | nil => rfl
  | append_singleton items a ih =>
    obtain ⟨hitems, -, hlast⟩ := List.pairwise_append.mp hapart
    obtain ⟨hfront, ha⟩ := List.forall_mem_append.mp hrange
    have hadmitted : admits total items.reverse a = true :=
      admits_of_apart (ha a List.mem_cons_self) fun k hk =>
        hlast k (List.mem_reverse.mp hk) a List.mem_cons_self
    rw [keep_concat, ih hfront hitems, if_pos hadmitted, List.reverse_concat]

theorem reconcile_eq_self (hrange : ∀ a ∈ items, 0 < a.offset ∧ a.offset < total)
    (hapart : items.Pairwise fun a b => b.offset ≤ a.offset ∧ Apart a b) :
    reconcile items total = items := by
  have hkept : (keep total items).reverse = items := by
    rw [keep_eq_reverse hrange hapart, List.reverse_reverse]
  have hdescending : items.Pairwise fun a b => b.offset ≤ a.offset := hapart.imp And.left
  rw [reconcile_of_descending (hkept.symm ▸ hdescending), hkept]

theorem reconcile_inRange : ∀ a ∈ reconcile items total, 0 < a.offset ∧ a.offset < total :=
  fun a ha => (keep_kept total items).inRange a (mem_reconcile_iff.mp ha)

theorem reconcile_reconcile (items : List Announcement) (total : Nat) :
    reconcile (reconcile items total) total = reconcile items total :=
  reconcile_eq_self reconcile_inRange (reconcile_apart items total)

end

end Reconciliation

-- ---------------------------------------------------------------------------
-- Say items
-- ---------------------------------------------------------------------------

namespace SayItem

section
variable {a : Announcement} {as : List Announcement} {item : SayItem} {index : Nat}

theorem announcement_sayItem (hoffset : 0 < a.offset) (hrate : a.rate.isPositive = true)
    (hworded : a.Worded) : SayItem.announcement a.sayItem = .ok a := by
  have hne := Nat.ne_of_gt hoffset
  simp [SayItem.announcement, Announcement.sayItem, hworded.2, hworded.1, hrate, hne]

theorem announcementsFrom_sayItem
    (h : ∀ a ∈ as, SayItem.announcement a.sayItem = .ok a) (index : Nat) :
    announcementsFrom index (as.map Announcement.sayItem) = .ok as := by
  induction as generalizing index with
  | nil => rfl
  | cons a rest ih =>
    obtain ⟨ha, hrest⟩ := List.forall_mem_cons.mp h
    simp only [List.map_cons, announcementsFrom, ha, ih hrest]

theorem announcement_worded (h : SayItem.announcement item = .ok a) : a.Worded := by
  unfold SayItem.announcement at h
  dsimp only at h
  split at h
  · cases h
  split at h
  · cases h
  rename_i hmessage
  have worded (offset : Nat) (rate : Binary) :
      Announcement.Worded ⟨offset, Text.trim item.message, rate⟩ :=
    ⟨hmessage, Text.trim_trim item.message⟩
  split at h
  · cases h
    exact worded ..
  · split at h
    · cases h
      exact worded ..
    · cases h

end

end SayItem

namespace Sources

section
variable {sources : Sources} {explicit as : List Announcement} {total : Nat}

theorem announcements_override (hmode : sources.sayMode = .override)
    (hitems : sources.sayItems ≠ [])
    (hexplicit : SayItem.announcements sources.sayItems = .ok explicit) :
    sources.announcements total = .ok (Reconciliation.reconcile explicit total) := by
  have hsome : explicit.isEmpty = false :=
    List.isEmpty_eq_false_iff.mpr (SayItem.announcements_ne_nil hitems hexplicit)
  rw [announcements_eq (.inr hitems) hexplicit]
  simp [candidates, hmode, hsome]

theorem announcements_worded (hmode : sources.sayMode = .override)
    (hitems : sources.sayItems ≠ []) (h : sources.announcements total = .ok as) :
    ∀ a ∈ as, a.Worded := by
  cases hexplicit : SayItem.announcements sources.sayItems with
  | error e =>
    have hsaid : sources.sayItems.isEmpty = false := List.isEmpty_eq_false_iff.mpr hitems
    simp [announcements, hsaid, hexplicit] at h
  | ok explicit =>
    rw [announcements_override hmode hitems hexplicit] at h
    cases h
    intro a ha
    have hcandidate := Reconciliation.keep_subset _ _ (Reconciliation.mem_reconcile_iff.mp ha)
    obtain ⟨item, -, hitem⟩ := SayItem.exists_of_announcementsFrom hexplicit a hcandidate
    exact SayItem.announcement_worded hitem

end

end Sources

namespace Schedule

variable {total : Nat} {as : List Announcement}

theorem reconcile_eq (h : Schedule total as) : Reconciliation.reconcile as total = as := by
  apply Reconciliation.reconcile_eq_self h.inRange
  refine (h.descending.and h.spaced).imp fun ⟨hbefore, hspaced⟩ => ?_
  refine ⟨Nat.le_of_lt hbefore, Nat.ne_of_gt hbefore, fun ha hb => ?_⟩
  have hdistance := hspaced ha hb
  omega

theorem announcements_sayItem (h : Schedule total as) (hworded : ∀ a ∈ as, a.Worded) :
    SayItem.announcements (as.map Announcement.sayItem) = .ok as :=
  SayItem.announcementsFrom_sayItem (fun a ha =>
    SayItem.announcement_sayItem (h.inRange a ha).1 (h.audible a ha).2 (hworded a ha)) 0

end Schedule

/-- A reconciled list is the result of its own reconciliation. What was built from any
sources is built again from its own announcements, as say items in place of a spec,
exactly if say items keep the messages. -/
theorem built_again_iff :
    (∀ candidates total,
      Reconciliation.reconcile (Reconciliation.reconcile candidates total) total =
        Reconciliation.reconcile candidates total) ∧
    ∀ (sources : Sources) (total : Nat) (as : List Announcement),
      sources.announcements total = .ok as → as ≠ [] → ∀ again : Sources,
        ({ again with
            sayItems := as.map Announcement.sayItem
            sayMode := .override }.announcements total = .ok as ↔
          ∀ a ∈ as, a.message ≠ "" ∧ Text.trim a.message = a.message) := by
  refine ⟨Reconciliation.reconcile_reconcile, fun sources total as hbuilt hne again => ?_⟩
  have hschedule := Sources.announcements_schedule hbuilt
  have hitems : as.map Announcement.sayItem ≠ [] := mt List.map_eq_nil_iff.mp hne
  constructor
  · exact Sources.announcements_worded rfl hitems
  · intro hworded
    rw [Sources.announcements_override rfl hitems (hschedule.announcements_sayItem hworded),
      hschedule.reconcile_eq]

set_option maxRecDepth 10000 in
/-- Of two items three seconds apart on either side of the limit the early one came first,
as it does in the result. -/
theorem built_again_iff_across :
    let sources : Sources :=
      { spec := "", sayItems := [⟨32000, "Sit", none⟩, ⟨29000, "Stand", none⟩] }
    ∃ as, sources.announcements 60000 = .ok as ∧ as ≠ [] ∧
      as.map (·.offset) = [32000, 29000] ∧
      { spec := "last20", sayItems := as.map Announcement.sayItem : Sources }.announcements
        60000 = .ok as := by
  intro sources
  have hexplicit : SayItem.announcements sources.sayItems = .ok _ := rfl
  have hbuilt : sources.announcements 60000 = .ok _ :=
    Sources.announcements_override rfl (List.cons_ne_nil _ _) hexplicit
  rw [Reconciliation.reconcile_of_descending (by decide +kernel)] at hbuilt
  refine ⟨_, hbuilt, by decide +kernel, by decide +kernel, ?_⟩
  exact (built_again_iff.2 sources 60000 _ hbuilt (by decide +kernel) { spec := "last20" }).mpr
    (by decide +kernel)

end SpokenCountdown
