import SpokenCountdown.Proofs.Binary.Order
import SpokenCountdown.Proofs.Reconciliation.Again

/-!
# Which settings are accepted

Settings are accepted if their duration is, there is a spec or a say item, and every
say item can be announced; the mode in which items and spec are combined has no say in
it. What else they are is refused for the first of these that fails, an item by its
place in the list. Where items replace the spec, nothing about the spec is seen in what
is announced: `settings_verdict`.
-/

namespace SpokenCountdown

namespace SayItem

-- ---------------------------------------------------------------------------
-- One item
-- ---------------------------------------------------------------------------

structure Valid (item : SayItem) : Prop where
  offset : 0 < item.offset
  message : Text.isBlankText item.message = false
  rate : ∀ rate ∈ item.rate, rate.isFinite = true ∧ 0 < rate.value

inductive Refused (item : SayItem) : Fault → Prop where
  | zeroOffset (h : item.offset = 0) : Refused item .zeroOffset
  | blankMessage (offset : 0 < item.offset) (h : Text.isBlankText item.message = true) :
      Refused item .blankMessage
  | badRate {rate : Binary} (offset : 0 < item.offset)
      (message : Text.isBlankText item.message = false) (given : item.rate = some rate)
      (h : ¬ (rate.isFinite = true ∧ 0 < rate.value)) : Refused item (.badRate rate)

section
variable {item : SayItem} {items before : List SayItem} {fault : Fault}

theorem valid_or_refused (item : SayItem) : item.Valid ∨ ∃ fault, item.Refused fault := by
  rcases Nat.eq_zero_or_pos item.offset with hzero | offset
  · exact .inr ⟨_, .zeroOffset hzero⟩
  cases message : Text.isBlankText item.message with
  | true => exact .inr ⟨_, .blankMessage offset message⟩
  | false =>
    cases given : item.rate with
    | none => exact .inl ⟨offset, message, by simp [given]⟩
    | some rate =>
      by_cases hrate : rate.isFinite = true ∧ 0 < rate.value
      · refine .inl ⟨offset, message, ?_⟩
        rw [given]
        rintro _ ⟨⟩
        exact hrate
      · exact .inr ⟨_, .badRate offset message given hrate⟩

theorem trim_ne_empty (h : Text.isBlankText item.message = false) :
    Text.trim item.message ≠ "" :=
  fun hempty => Bool.eq_false_iff.mp h (Text.trim_eq_empty_iff.mp hempty)

theorem announcement_of_valid (h : item.Valid) : ∃ a, item.announcement = .ok a := by
  unfold announcement
  dsimp only
  rw [if_neg (Nat.ne_of_gt h.offset), if_neg (trim_ne_empty h.message)]
  cases given : item.rate with
  | none => exact ⟨_, rfl⟩
  | some rate =>
    dsimp only
    rw [if_pos (Binary.isPositive_iff.mpr (h.rate rate given))]
    exact ⟨_, rfl⟩

theorem announcement_of_refused (h : item.Refused fault) : item.announcement = .error fault := by
  unfold announcement
  dsimp only
  cases h with
  | zeroOffset hzero => rw [if_pos hzero]
  | blankMessage offset blank =>
    rw [if_neg (Nat.ne_of_gt offset), if_pos (Text.trim_eq_empty_iff.mpr blank)]
  | badRate offset message given bad =>
    rw [if_neg (Nat.ne_of_gt offset), if_neg (trim_ne_empty message), given]
    dsimp only
    rw [if_neg (mt Binary.isPositive_iff.mp bad)]

-- ---------------------------------------------------------------------------
-- A list of items
-- ---------------------------------------------------------------------------

theorem announcementsFrom_of_valid (h : ∀ item ∈ items, item.Valid) (index : Nat) :
    ∃ as, announcementsFrom index items = .ok as := by
  induction items generalizing index with
  | nil => exact ⟨[], rfl⟩
  | cons item rest ih =>
    obtain ⟨hitem, hrest⟩ := List.forall_mem_cons.mp h
    obtain ⟨a, ha⟩ := announcement_of_valid hitem
    obtain ⟨as, has⟩ := ih hrest (index + 1)
    exact ⟨a :: as, by simp only [announcementsFrom, ha, has]⟩

theorem announcementsFrom_of_refused (hbefore : ∀ other ∈ before, other.Valid)
    (h : item.Refused fault) (after : List SayItem) (index : Nat) :
    announcementsFrom index (before ++ item :: after) = .error (index + before.length, fault) := by
  induction before generalizing index with
  | nil => simp only [List.nil_append, announcementsFrom, announcement_of_refused h]; rfl
  | cons other before ih =>
    obtain ⟨hother, hrest⟩ := List.forall_mem_cons.mp hbefore
    obtain ⟨a, ha⟩ := announcement_of_valid hother
    simp only [List.cons_append, announcementsFrom, ha, ih hrest (index + 1), List.length_cons]
    congr 2
    omega

theorem valid_or_first_refused (items : List SayItem) : (∀ item ∈ items, item.Valid) ∨
    ∃ before item after fault, items = before ++ item :: after ∧
      (∀ other ∈ before, other.Valid) ∧ item.Refused fault := by
  induction items with
  | nil => exact .inl (List.forall_mem_nil _)
  | cons item rest ih =>
    rcases valid_or_refused item with hitem | ⟨fault, hitem⟩
    · rcases ih with hrest | ⟨before, first, after, fault, rfl, hbefore, hfirst⟩
      · exact .inl (List.forall_mem_cons.mpr ⟨hitem, hrest⟩)
      · exact .inr ⟨item :: before, first, after, fault, rfl,
          List.forall_mem_cons.mpr ⟨hitem, hbefore⟩, hfirst⟩
    · exact .inr ⟨[], item, rest, fault, rfl, List.forall_mem_nil _, hitem⟩

end

end SayItem

-- ---------------------------------------------------------------------------
-- Sources
-- ---------------------------------------------------------------------------

namespace Sources

variable {sources other : Sources} {place : Nat} {fault : SayItem.Fault}

theorem announcements_of_error (hitems : sources.sayItems ≠ [])
    (h : SayItem.announcements sources.sayItems = .error (place, fault)) (total : Nat) :
    sources.announcements total = .error (.sayItem place fault) := by
  have hsome : sources.sayItems.isEmpty = false := List.isEmpty_eq_false_iff.mpr hitems
  simp [announcements, hsome, h]

theorem announcements_hide (hmode : sources.sayMode = .override)
    (hother : other.sayMode = .override) (hitems : sources.sayItems ≠ [])
    (same : other.sayItems = sources.sayItems) (total : Nat) :
    other.announcements total = sources.announcements total := by
  have hothers : other.sayItems ≠ [] := same ▸ hitems
  cases h : SayItem.announcements sources.sayItems with
  | error e =>
    rw [announcements_of_error hitems h, announcements_of_error hothers (same ▸ h)]
  | ok explicit =>
    rw [announcements_override hmode hitems h, announcements_override hother hothers (same ▸ h)]

end Sources

-- ---------------------------------------------------------------------------
-- Settings
-- ---------------------------------------------------------------------------

namespace Settings

/-- Why settings are refused: the first of the three checks that fails. -/
inductive Refused (settings : Settings) : SettingsError → Prop where
  | duration {fault : Duration.Fault} (h : settings.duration.milliseconds = .error fault) :
      Refused settings (.duration settings.duration.shown fault)
  | nothingToSay {total : Nat} (timed : settings.duration.milliseconds = .ok total)
      (blank : Text.isBlankText settings.say = true) (none : settings.sayItems = []) :
      Refused settings .nothingToSay
  | sayItem {total : Nat} {before after : List SayItem} {item : SayItem} {fault : SayItem.Fault}
      (timed : settings.duration.milliseconds = .ok total)
      (place : settings.sayItems = before ++ item :: after)
      (valid : ∀ other ∈ before, other.Valid) (h : item.Refused fault) :
      Refused settings (.sayItem before.length fault)

section
variable {settings other : Settings} {e : SettingsError} {total : Nat}

theorem session_announcements (settings : Settings) :
    settings.session.map (·.announcements) =
      match settings.duration.milliseconds with
      | .error fault => .error (.duration settings.duration.shown fault)
      | .ok total => settings.sources.announcements total := by
  unfold session
  cases settings.duration.milliseconds with
  | error fault => rfl
  | ok total =>
    dsimp only
    cases settings.sources.announcements total <;> rfl

theorem session_of_valid (timed : settings.duration.milliseconds = .ok total)
    (said : Text.isBlankText settings.say = false ∨ settings.sayItems ≠ [])
    (valid : ∀ item ∈ settings.sayItems, item.Valid) :
    ∃ session, settings.session = .ok session := by
  obtain ⟨explicit, hexplicit⟩ := SayItem.announcementsFrom_of_valid valid 0
  have hbuilt : settings.sources.announcements total = .ok _ :=
    Sources.announcements_eq said hexplicit
  simp only [session, timed, hbuilt]
  exact ⟨_, rfl⟩

theorem session_of_refused (h : settings.Refused e) : settings.session = .error e := by
  cases h with
  | duration h => simp only [session, h]
  | @nothingToSay total timed blank none =>
    have hsilent : settings.sources.announcements total = .error .nothingToSay :=
      if_pos (by simp [sources, blank, none])
    simp only [session, timed, hsilent]
  | @sayItem _ before after item _ timed place valid h =>
    have hitems : SayItem.announcements settings.sources.sayItems = .error (0 + before.length, _) :=
      place ▸ SayItem.announcementsFrom_of_refused valid h after 0
    rw [Nat.zero_add] at hitems
    have hsome : settings.sources.sayItems ≠ [] := by simp [sources, place]
    simp only [session, timed, Sources.announcements_of_error hsome hitems]

theorem valid_or_refused (settings : Settings) :
    ((∃ total, settings.duration.milliseconds = .ok total) ∧
      (Text.isBlankText settings.say = false ∨ settings.sayItems ≠ []) ∧
      ∀ item ∈ settings.sayItems, item.Valid) ∨ ∃ e, settings.Refused e := by
  cases timed : settings.duration.milliseconds with
  | error fault => exact .inr ⟨_, .duration timed⟩
  | ok total =>
    rcases SayItem.valid_or_first_refused settings.sayItems with
      valid | ⟨before, item, after, fault, place, valid, h⟩
    · cases hsay : Text.isBlankText settings.say with
      | false => exact .inl ⟨⟨total, rfl⟩, .inl rfl, valid⟩
      | true =>
        cases hitems : settings.sayItems with
        | nil => exact .inr ⟨_, .nothingToSay timed hsay hitems⟩
        | cons item rest =>
          exact .inl ⟨⟨total, rfl⟩, .inr (List.cons_ne_nil item rest), hitems ▸ valid⟩
    · exact .inr ⟨_, .sayItem timed place valid h⟩

theorem session_hides (hmode : settings.sayMode = .override) (hother : other.sayMode = .override)
    (hitems : settings.sayItems ≠ []) (same : other.sayItems = settings.sayItems)
    (timed : other.duration = settings.duration) :
    other.session.map (·.announcements) = settings.session.map (·.announcements) := by
  rw [session_announcements, session_announcements, timed]
  cases settings.duration.milliseconds with
  | error fault => rfl
  | ok total => exact Sources.announcements_hide hmode hother hitems same total

end

/-- Settings make a session exactly if the duration is one, there is a spec or a say item,
and all say items are valid, in either mode. They are refused for the first of these that
is not so. Where items replace the spec, all that is announced depends on the duration and
the items alone. -/
theorem settings_verdict (settings : Settings) :
    ((∃ session, settings.session = .ok session) ↔
      (∃ total, settings.duration.milliseconds = .ok total) ∧
      (Text.isBlankText settings.say = false ∨ settings.sayItems ≠ []) ∧
      ∀ item ∈ settings.sayItems, item.Valid) ∧
    (∀ e, settings.session = .error e ↔ settings.Refused e) ∧
    ∀ other : Settings, settings.sayMode = .override → other.sayMode = .override →
      settings.sayItems ≠ [] → other.sayItems = settings.sayItems →
      other.duration = settings.duration →
        other.session.map (·.announcements) = settings.session.map (·.announcements) := by
  refine ⟨⟨?_, ?_⟩, fun e => ⟨fun h => ?_, session_of_refused⟩, fun other => session_hides⟩
  · rintro ⟨session, h⟩
    refine settings.valid_or_refused.resolve_right ?_
    rintro ⟨e, refused⟩
    cases h.symm.trans (session_of_refused refused)
  · rintro ⟨⟨total, timed⟩, said, valid⟩
    exact session_of_valid timed said valid
  · rcases settings.valid_or_refused with ⟨⟨total, timed⟩, said, valid⟩ | ⟨first, refused⟩
    · obtain ⟨session, hsession⟩ := session_of_valid timed said valid
      cases hsession.symm.trans h
    · cases (session_of_refused refused).symm.trans h
      exact refused

/-- Two settings whose specs, priorities and phrases have nothing in common. -/
theorem settings_verdict_hidden :
    let settings : Settings :=
      { duration := .number 60, say := "1/2", sayItems := [⟨45000, " Stretch ", none⟩] }
    let other : Settings :=
      { settings with say := "everyLast10", priority := .order, phrases := { toGo := " left" } }
    settings.sayMode = .override ∧ other.sayMode = .override ∧ settings.sayItems ≠ [] ∧
      other.sayItems = settings.sayItems ∧ other.duration = settings.duration ∧
      settings.session.map (·.announcements) = .ok [⟨45000, "Stretch", Rate.normal⟩] ∧
      other.session.map (·.announcements) = settings.session.map (·.announcements) := by
  intro settings other
  have hitems : settings.sayItems ≠ [] := List.cons_ne_nil _ _
  have hexplicit : SayItem.announcements settings.sayItems =
      .ok [⟨45000, "Stretch", Rate.normal⟩] := by decide +kernel
  have hbuilt : settings.session.map (·.announcements) =
      .ok [⟨45000, "Stretch", Rate.normal⟩] := by
    have hsources : settings.sources.announcements 60000 = .ok _ :=
      Sources.announcements_override rfl hitems hexplicit
    rw [Reconciliation.reconcile_of_descending (by decide +kernel)] at hsources
    exact (session_announcements settings).trans hsources
  exact ⟨rfl, rfl, hitems, rfl, rfl, hbuilt,
    (settings_verdict settings).2.2 other rfl rfl hitems rfl rfl⟩

end Settings

end SpokenCountdown
