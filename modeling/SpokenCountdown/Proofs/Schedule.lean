import Mathlib.Data.List.Chain
import SpokenCountdown.Proofs.Duration.Reading

/-!
# Schedules

What the announcements of a countdown satisfy however they came about: strictly
descending, inside the countdown, spaced above the close range, and spoken at a
rate that is a positive number. The candidates may be in any order and may
repeat each other; the filter that keeps an item looks at the kept ones only,
so its invariant does not mention the candidates.
-/

namespace SpokenCountdown

structure Schedule (total : Nat) (as : List Announcement) : Prop where
  descending : as.Pairwise fun a b => b.offset < a.offset
  inRange : ∀ a ∈ as, 0 < a.offset ∧ a.offset < total
  /-- Above half a minute neighbours and all others are five seconds apart. -/
  spaced : as.Pairwise fun a b => 30000 < a.offset → 30000 < b.offset → b.offset + 5000 ≤ a.offset
  audible : ∀ a ∈ as, a.rate.isFinite = true ∧ a.rate.isPositive = true

/-- Neighbours do not ascend: what a queue is made from. -/
def Queue.Sorted (queue : Queue) : Prop :=
  queue.IsChain fun a b => b.offset ≤ a.offset

namespace Schedule

theorem nodup (h : Schedule total as) : (as.map (·.offset)).Nodup :=
  List.pairwise_map.mpr (h.descending.imp fun h => Nat.ne_of_gt h)

theorem sorted (h : Schedule total as) : Queue.Sorted as :=
  (h.descending.imp fun h => Nat.le_of_lt h).isChain

end Schedule

-- ---------------------------------------------------------------------------
-- Rates
-- ---------------------------------------------------------------------------

namespace Binary

theorem isFinite_of_isPositive {x : Binary} (h : x.isPositive = true) : x.isFinite = true := by
  cases x with
  | finite => rfl
  | _ => cases h

end Binary

namespace Phrasing

theorem rateFor_isPositive (message : String) : (rateFor message).isPositive = true := by
  have normal : Rate.normal.isPositive = true := by decide
  have fast : Rate.fast.isPositive = true := by decide
  unfold rateFor
  split
  · split
    · exact fast
    · exact normal
  · exact normal

end Phrasing

namespace Announcement

def Audible (a : Announcement) : Prop :=
  a.rate.isPositive = true

theorem audible_generated (offset : Nat) (message : String) :
    (Phrasing.announcement offset message).Audible :=
  Phrasing.rateFor_isPositive message

end Announcement

namespace Expansion

theorem anchored_audible (h : anchored span anchor total phrases = some a) : a.Audible := by
  unfold anchored at h
  split at h
  · split at h
    · obtain rfl := Option.some.inj h
      exact Announcement.audible_generated ..
    · cases h
  all_goals
    obtain rfl := Option.some.inj h
    exact Announcement.audible_generated ..

theorem multiples_audible (h : a ∈ multiples span count anchor total phrases) : a.Audible := by
  obtain ⟨k, -, hk⟩ := List.mem_filterMap.mp h
  exact anchored_audible hk

theorem symmetric_audible (h : a ∈ symmetric cadence total phrases) : a.Audible := by
  obtain ⟨k, -, hk⟩ := List.mem_flatMap.mp h
  simp only [List.mem_cons, List.not_mem_nil, or_false] at hk
  rcases hk with rfl | rfl <;> exact Announcement.audible_generated ..

theorem times_audible (h : a ∈ times d amount unit total phrases) : a.Audible := by
  unfold times at h
  dsimp only at h
  split at h
  · exact multiples_audible h
  · exact symmetric_audible h
  · exact symmetric_audible h
  · exact multiples_audible (List.mem_reverse.mp h)
  · exact multiples_audible (List.mem_reverse.mp h)

theorem collapse_audible (h : a.Audible) : (collapse total phrases a).Audible := by
  unfold collapse
  dsimp only
  split
  · exact Announcement.audible_generated ..
  · exact h

theorem fractions_audible (h : a ∈ fractions d numerator denominator total phrases) :
    a.Audible := by
  unfold fractions at h
  split at h
  · obtain rfl := List.mem_singleton.mp h
    exact Announcement.audible_generated ..
  · obtain ⟨b, hb, rfl⟩ := List.mem_map.mp h
    apply collapse_audible
    dsimp only at hb
    split at hb
    · obtain ⟨k, -, hk⟩ := List.mem_flatMap.mp hb
      simp only [List.mem_cons, List.not_mem_nil, or_false] at hk
      rcases hk with rfl | rfl <;> exact Announcement.audible_generated ..
    all_goals
      obtain ⟨k, -, rfl⟩ := List.mem_map.mp hb
      exact Announcement.audible_generated ..

end Expansion

theorem Directive.expand_audible (h : a ∈ Directive.expand d total phrases) : a.Audible := by
  unfold Directive.expand at h
  split at h
  · cases h
  · split at h
    · exact Expansion.times_audible h
    · exact Expansion.fractions_audible h

theorem Reconciliation.candidates_audible
    (h : a ∈ Reconciliation.candidates spec total priority phrases) : a.Audible := by
  have expanded {ds : List Directive} (h : a ∈ ds.flatMap (·.expand total phrases)) :
      a.Audible := by
    obtain ⟨d, -, hd⟩ := List.mem_flatMap.mp h
    exact Directive.expand_audible hd
  unfold Reconciliation.candidates at h
  cases priority with
  | order => exact expanded h
  | fraction | time => rcases List.mem_append.mp h with h | h <;> exact expanded h

namespace SayItem

theorem announcement_audible (h : SayItem.announcement item = .ok a) : a.Audible := by
  unfold SayItem.announcement at h
  dsimp only at h
  split at h
  · exact nomatch h
  split at h
  · exact nomatch h
  split at h
  · obtain rfl := Except.ok.inj h
    simp only [Announcement.Audible, Phrasing.rateFor_isPositive]
  · split at h
    · rename_i hrate
      obtain rfl := Except.ok.inj h
      exact hrate
    · exact nomatch h

theorem exists_of_announcementsFrom (h : announcementsFrom index items = .ok as) :
    ∀ a ∈ as, ∃ item ∈ items, SayItem.announcement item = .ok a := by
  induction items generalizing index as with
  | nil => cases h; simp
  | cons item rest ih =>
    simp only [announcementsFrom] at h
    split at h
    · cases h
    · rename_i a ha
      split at h
      · cases h
      · rename_i as' has
        cases h
        refine List.forall_mem_cons.mpr ⟨⟨item, List.mem_cons_self, ha⟩, fun b hb => ?_⟩
        obtain ⟨other, hother, hannounced⟩ := ih has b hb
        exact ⟨other, List.mem_cons_of_mem item hother, hannounced⟩

theorem announcementsFrom_audible (h : announcementsFrom index items = .ok as) :
    ∀ a ∈ as, a.Audible := by
  intro a ha
  obtain ⟨item, -, hitem⟩ := exists_of_announcementsFrom h a ha
  exact announcement_audible hitem

end SayItem

theorem Sources.candidates_audible {sources : Sources} (he : ∀ a ∈ explicit, a.Audible) :
    ∀ a ∈ sources.candidates total explicit, a.Audible := by
  intro a ha
  unfold Sources.candidates at ha
  dsimp only at ha
  split at ha
  · split at ha
    · exact Reconciliation.candidates_audible ha
    · exact he a ha
  · rcases List.mem_append.mp ha with ha | ha
    · exact he a ha
    · exact Reconciliation.candidates_audible ha

-- ---------------------------------------------------------------------------
-- The filter
-- ---------------------------------------------------------------------------

namespace Reconciliation

def Apart (a b : Announcement) : Prop :=
  a.offset ≠ b.offset ∧
    (30000 < a.offset → 30000 < b.offset → 5000 ≤ max a.offset b.offset - min a.offset b.offset)

theorem Apart.symm (h : Apart a b) : Apart b a :=
  ⟨h.1.symm, fun hb ha => by rw [Nat.max_comm, Nat.min_comm]; exact h.2 ha hb⟩

/-- A late item is admitted next to any other; an early one keeps its distance
to all of them, which is more than `Apart` asks. -/
theorem apart_of_not_conflicts (h : conflicts a.offset b.offset = false) : Apart a b := by
  simp only [conflicts, tooClose, closeLimit, tolerance, Bool.or_eq_false_iff, beq_eq_false_iff_ne,
    Bool.and_eq_false_iff] at h
  obtain ⟨hne, hfar⟩ := h
  refine ⟨hne, fun ha _ => ?_⟩
  rcases hfar with hearly | hfar
  · exact absurd ha (of_decide_eq_false hearly)
  · exact Nat.le_of_not_lt (of_decide_eq_false hfar)

/-- What holds of the kept items at every point of the filter. -/
structure Kept (total : Nat) (kept : List Announcement) : Prop where
  inRange : ∀ a ∈ kept, 0 < a.offset ∧ a.offset < total
  apart : kept.Pairwise Apart

theorem Kept.cons (h : Kept total kept) (ha : admits total kept a = true) :
    Kept total (a :: kept) := by
  simp only [admits, Bool.and_eq_true, bne_iff_ne, decide_eq_true_eq, Bool.not_eq_true',
    List.any_eq_false] at ha
  obtain ⟨⟨hpos, hlt⟩, hfree⟩ := ha
  refine ⟨List.forall_mem_cons.mpr ⟨⟨Nat.pos_of_ne_zero hpos, hlt⟩, h.inRange⟩, ?_⟩
  refine List.pairwise_cons.mpr ⟨fun b hb => ?_, h.apart⟩
  exact apart_of_not_conflicts (Bool.eq_false_iff.mpr (hfree b hb))

/-- The one induction over the filter: it only ever adds an admitted candidate. -/
theorem keep_induct {motive : List Announcement → Prop} (items : List Announcement)
    (nil : motive [])
    (cons : ∀ a ∈ items, ∀ kept, admits total kept a = true → motive kept → motive (a :: kept)) :
    motive (keep total items) := by
  have run (rest kept : List Announcement) (hrest : ∀ a ∈ rest, a ∈ items) (h : motive kept) :
      motive (rest.foldl (fun kept a => if admits total kept a then a :: kept else kept) kept) := by
    induction rest generalizing kept with
    | nil => exact h
    | cons a rest ih =>
      apply ih _ fun b hb => hrest b (List.mem_cons_of_mem _ hb)
      dsimp only
      split
      · exact cons a (hrest a List.mem_cons_self) kept ‹_› h
      · exact h
  exact run items [] (fun _ h => h) nil

theorem keep_kept (total : Nat) (items : List Announcement) : Kept total (keep total items) :=
  keep_induct items ⟨by simp, .nil⟩ fun _ _ _ ha h => h.cons ha

theorem keep_subset (total : Nat) (items : List Announcement) : keep total items ⊆ items :=
  keep_induct (motive := (· ⊆ items)) items (List.nil_subset _) fun _ ha _ _ h =>
    List.cons_subset.mpr ⟨ha, h⟩

-- ---------------------------------------------------------------------------
-- The sorted result
-- ---------------------------------------------------------------------------

theorem reconcile_perm (items : List Announcement) (total : Nat) :
    (reconcile items total).Perm (keep total items) :=
  (List.mergeSort_perm _ _).trans (List.reverse_perm _)

theorem reconcile_sorted (items : List Announcement) (total : Nat) :
    (reconcile items total).Pairwise fun a b => b.offset ≤ a.offset := by
  have sorted : (reconcile items total).Pairwise fun a b => decide (b.offset ≤ a.offset) = true :=
    List.pairwise_mergeSort
      (fun a b c hab hbc => by simp only [decide_eq_true_eq] at *; omega)
      (fun a b => by simp only [Bool.or_eq_true, decide_eq_true_eq]; omega) _
  exact sorted.imp fun h => of_decide_eq_true h

theorem reconcile_of_descending {items : List Announcement}
    (h : (keep total items).reverse.Pairwise fun a b => b.offset ≤ a.offset) :
    reconcile items total = (keep total items).reverse :=
  List.mergeSort_of_pairwise (h.imp fun h => decide_eq_true h)

theorem reconcile_apart (items : List Announcement) (total : Nat) :
    (reconcile items total).Pairwise fun a b => b.offset ≤ a.offset ∧ Apart a b :=
  (reconcile_sorted items total).and
    ((reconcile_perm items total).symm.pairwise (keep_kept total items).apart Apart.symm)

theorem reconcile_descending (items : List Announcement) (total : Nat) :
    (reconcile items total).Pairwise fun a b => b.offset < a.offset :=
  (reconcile_apart items total).imp fun ⟨hle, hne, _⟩ => Nat.lt_of_le_of_ne hle hne.symm

theorem reconcile_schedule {items : List Announcement} (h : ∀ a ∈ items, a.Audible) :
    Schedule total (reconcile items total) := by
  have perm := reconcile_perm items total
  constructor
  case descending => exact reconcile_descending items total
  case inRange => exact fun a ha => (keep_kept total items).inRange a (perm.mem_iff.mp ha)
  case spaced =>
    exact (reconcile_apart items total).imp fun ⟨hle, _, hfar⟩ ha hb => by
      have := hfar ha hb
      omega
  case audible =>
    intro a ha
    have hrate : a.Audible := h a (keep_subset total items (perm.mem_iff.mp ha))
    exact ⟨Binary.isFinite_of_isPositive hrate, hrate⟩

end Reconciliation

-- ---------------------------------------------------------------------------
-- Sources and sessions
-- ---------------------------------------------------------------------------

theorem Sources.announcements_schedule {sources : Sources}
    (h : sources.announcements total = .ok as) : Schedule total as := by
  unfold Sources.announcements at h
  split at h
  · cases h
  split at h
  · cases h
  · rename_i explicit he
    cases h
    exact Reconciliation.reconcile_schedule
      (Sources.candidates_audible (SayItem.announcementsFrom_audible he))

structure Session.Sound (session : Session) : Prop where
  schedule : Schedule session.total session.announcements
  positive : 1 ≤ session.total
  bounded : session.total ≤ 86400000

theorem Settings.session_sound {settings : Settings} {session : Session}
    (h : settings.session = .ok session) : session.Sound := by
  unfold Settings.session at h
  split at h
  · cases h
  rename_i total htotal
  split at h
  · cases h
  rename_i as has
  cases h
  obtain ⟨hpos, hle⟩ := DurationInput.milliseconds_bounds htotal
  exact ⟨Sources.announcements_schedule has, hpos, hle⟩

/-- Whatever the spec, the say items, their mode, the priority and the phrases. -/
theorem accepted_schedule :
    (∀ (sources : Sources) (total : Nat) (as : List Announcement),
      sources.announcements total = .ok as →
        Schedule total as ∧ (as.map (·.offset)).Nodup ∧ Queue.Sorted as) ∧
    ∀ (settings : Settings) (session : Session), settings.session = .ok session →
      Schedule session.total session.announcements ∧
        (session.announcements.map (·.offset)).Nodup ∧ Queue.Sorted session.announcements ∧
        1 ≤ session.total ∧ session.total ≤ 86400000 := by
  constructor
  · intro sources total as h
    have schedule := Sources.announcements_schedule h
    exact ⟨schedule, schedule.nodup, schedule.sorted⟩
  · intro settings session h
    have sound := Settings.session_sound h
    exact ⟨sound.schedule, sound.schedule.nodup, sound.schedule.sorted, sound.positive,
      sound.bounded⟩

set_option maxRecDepth 10000 in
/-- An early item that stands too close is left out, late ones may be close. -/
theorem accepted_schedule_minute :
    let settings : Settings :=
      { duration := .number 60, say := "", sayItems :=
        [⟨45000, "Stretch", none⟩, ⟨44000, "Sit", none⟩, ⟨5000, "5", none⟩, ⟨4000, "4", none⟩] }
    ∃ session as, settings.session = .ok session ∧
      settings.sources.announcements 60000 = .ok as ∧
      as.map (·.offset) = [45000, 5000, 4000] ∧ Schedule 60000 as ∧
      Schedule session.total session.announcements := by
  intro settings
  have hsession : settings.session = .ok _ := rfl
  have has : settings.sources.announcements 60000 = .ok _ := rfl
  refine ⟨_, _, hsession, has, ?_, (accepted_schedule.1 settings.sources 60000 _ has).1,
    (accepted_schedule.2 settings _ hsession).1⟩
  rw [Reconciliation.reconcile_of_descending (by decide +kernel)]
  decide +kernel

end SpokenCountdown
