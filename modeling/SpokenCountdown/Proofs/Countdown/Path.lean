import SpokenCountdown.Proofs.Countdown.Coherence
import SpokenCountdown.Proofs.Countdown.Route

/-!
# The path of states

The changes that a history reports are one connected path, from the state that
it began in to the state that it leads to, along the changes that there are in
the life of a countdown. So whoever watches them knows the state at any time:
`reported_path`.
-/

namespace SpokenCountdown

open Countdown

namespace Countdown

inductive Path : State → List Change → State → Prop where
  | nil {s : State} : Path s [] s
  | cons {s next last : State} {rest : List Change} (step : next ∈ s.successors)
      (path : Path next rest last) : Path s (⟨s, next⟩ :: rest) last

theorem State.ne_of_successor {s next : State} (h : next ∈ s.successors) : s ≠ next := by
  rintro rfl
  cases s <;> revert h <;> decide

theorem State.eq_of_starting {s : State} (h : State.starting ∈ s.successors) : s = .ready := by
  cases s <;> revert h <;> decide

section
variable {s t u : State} {changes first second before mid after : List Change}
  {stops : List State} {c : Countdown}

-- ---------------------------------------------------------------------------
-- Paths
-- ---------------------------------------------------------------------------

theorem Path.append (h : Path s first t) (k : Path t second u) : Path s (first ++ second) u := by
  induction h with
  | nil => exact k
  | cons step _ ih => exact .cons step (ih k)

theorem Path.head? (h : Path s changes t) : ∀ change ∈ changes.head?, change.previous = s := by
  cases h with
  | nil => nofun
  | cons =>
    rintro change ⟨⟩
    rfl

theorem Path.isChain (h : Path s changes t) :
    changes.IsChain fun change next => next.previous = change.current := by
  induction h with
  | nil => exact .nil
  | cons _ path ih => exact List.isChain_cons.mpr ⟨path.head?, ih⟩

theorem Path.getLast? (h : Path s changes t) :
    (changes.getLast?.elim s fun change => change.current) = t := by
  induction h with
  | nil => rfl
  | @cons _ _ _ rest _ _ ih =>
    rw [List.getLast?_cons, Option.elim_some]
    cases hlast : rest.getLast? with
    | none => simpa [hlast] using ih
    | some change => simpa [hlast] using ih

theorem Path.steps (h : Path s changes t) :
    ∀ change ∈ changes, change.current ∈ change.previous.successors := by
  induction h with
  | nil => exact List.forall_mem_nil _
  | cons step _ ih => exact List.forall_mem_cons.mpr ⟨step, ih⟩

/-- A change to starting comes from ready, so a change to ready comes before it. -/
theorem Path.ready_between {ended starting : Change} (h : Path s changes t)
    (hchanges : changes = before ++ ended :: mid ++ starting :: after)
    (hended : ended.current = .ended) (hstarting : starting.current = .starting) :
    ∃ change ∈ mid, change.current = .ready := by
  subst hchanges
  have hready : starting.previous = .ready := by
    have hstep := h.steps starting (List.mem_append_right _ List.mem_cons_self)
    rw [hstarting] at hstep
    exact State.eq_of_starting hstep
  have hjoint := (List.isChain_append.mp h.isChain).2.2
  have hlast : (before ++ ended :: mid).getLast? = some (mid.getLast?.getD ended) := by
    rw [List.getLast?_append, List.getLast?_cons, Option.some_or]
  have hbefore : (mid.getLast?.getD ended).current = .ready := by
    rw [← hready, hjoint _ hlast starting rfl]
  cases hmid : mid.getLast? with
  | none =>
    rw [hmid, Option.getD_none, hended] at hbefore
    cases hbefore
  | some change =>
    rw [hmid, Option.getD_some] at hbefore
    exact ⟨change, List.mem_of_getLast? hmid, hbefore⟩

-- ---------------------------------------------------------------------------
-- One operation, and a history
-- ---------------------------------------------------------------------------

theorem changesAlong_path (h : (s :: stops).IsChain State.Moves) :
    Path s (changesAlong s stops) (stops.getLast?.getD s) := by
  induction stops generalizing s with
  | nil => exact .nil
  | cons next rest ih =>
    obtain ⟨hmoves, hrest⟩ := List.isChain_cons_cons.mp h
    rw [List.getLast?_cons, Option.getD_some, changesAlong]
    split
    · rename_i hstay
      subst hstay
      exact ih hrest
    · exact .cons (hmoves.resolve_left ‹_›) (ih hrest)

theorem perform_path (c : Countdown) (op : Operation) :
    Path c.state (c.perform op).changes (c.perform op).countdown.state := by
  rw [perform_changes, ← route_last (c := c) (c.perform op).countdown (c.perform op).value]
  exact changesAlong_path (perform_transition c op).moves

theorem after_path (c : Countdown) (history : List Operation) :
    Path c.state (c.reported history) (c.after history).state := by
  induction history generalizing c with
  | nil => exact .nil
  | cons op rest ih => exact (perform_path c op).append (ih (c.perform op).countdown)

end

/-- Whatever is asked of an unset countdown: its register reports the same
changes, each of them follows the one before, they begin in unset and end in the
state that the countdown has, and each is one that there is. An ended countdown
comes through ready before it starts again, and only a run that was started ends. -/
theorem reported_path (history : List Operation) :
    let c := unset.after history
    let changes := unset.reported history
    (({} : Register).after history).changes = changes ∧
      (∀ change ∈ changes.head?, change.previous = .unset) ∧
      changes.IsChain (fun change next => next.previous = change.current) ∧
      (changes.getLast?.elim .unset fun change => change.current) = c.state ∧
      (∀ change ∈ changes,
        change.previous ≠ change.current ∧ change.current ∈ change.previous.successors) ∧
      (∀ before ended mid starting after,
        changes = before ++ ended :: mid ++ starting :: after → ended.current = .ended →
          starting.current = .starting → ∃ change ∈ mid, change.current = .ready) ∧
      ∀ change ∈ changes,
        (change.current = .running → change.previous = .starting ∨ change.previous = .paused) ∧
        (change.current = .ending → change.previous = .running ∨ change.previous = .paused) := by
  intro c changes
  have path : Path .unset changes c.state := after_path unset history
  refine ⟨?_, path.head?, path.isChain, path.getLast?, fun change hchange => ?_,
    fun before ended mid starting after hchanges hended hstarting =>
      path.ready_between hchanges hended hstarting, fun change hchange => ?_⟩
  · rw [Register.empty_eq, register_after_eq unset [] unset_sound history]
    rfl
  · have hstep := path.steps change hchange
    exact ⟨State.ne_of_successor hstep, hstep⟩
  · have hstep := path.steps change hchange
    obtain ⟨previous, current⟩ := change
    constructor
    · rintro rfl
      cases previous <;> revert hstep <;> decide
    · rintro rfl
      cases previous <;> revert hstep <;> decide

end Countdown

end SpokenCountdown
