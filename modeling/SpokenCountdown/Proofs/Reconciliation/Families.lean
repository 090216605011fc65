import SpokenCountdown.Proofs.Text.Spelled
import SpokenCountdown.Reconciliation

/-!
# Candidates by family

A priority does not choose candidates, it sorts them: those of the preferred family
come first, and within a family they keep the order in which they were written. What
is no directive leaves no trace, and in the order written a spec that is continued
adds its own candidates behind: `candidates_by_family`.
-/

namespace SpokenCountdown

namespace Directive

section
variable {before inserted after : String}

theorem ofSpec_append (h : Text.Separated before.toList after.toList) :
    ofSpec (before ++ after) = ofSpec before ++ ofSpec after := by
  unfold ofSpec
  rw [String.toList_append, Text.words_append h, List.filterMap_append]

theorem ofSpec_append_blank (before after : String) :
    ofSpec (before ++ " " ++ after) = ofSpec before ++ ofSpec after := by
  have hlast : Text.Separated (before ++ " ").toList after.toList := by
    refine .of_getLast? (c := ' ') ?_ (by decide) after.toList
    rw [String.toList_append, List.getLast?_append]
    rfl
  have hfirst : Text.Separated before.toList " ".toList := by
    refine .inr fun c hc => ?_
    cases hc
    rfl
  have hblank : ofSpec " " = [] := rfl
  rw [ofSpec_append hlast, ofSpec_append hfirst, hblank, List.append_nil]

theorem ofSpec_insert (hcut : Text.Separated before.toList after.toList)
    (hbefore : Text.Separated before.toList inserted.toList)
    (hafter : Text.Separated inserted.toList after.toList)
    (hprose : ∀ word ∈ Text.words inserted.toList, parse? (String.ofList word) = none) :
    ofSpec (before ++ inserted ++ after) = ofSpec (before ++ after) := by
  have hjoined : Text.Separated (before ++ inserted).toList after.toList := by
    rw [String.toList_append]
    exact hcut.append hafter
  have hnone : ofSpec inserted = [] := List.filterMap_eq_nil_iff.mpr hprose
  calc ofSpec (before ++ inserted ++ after)
      = ofSpec before ++ ofSpec inserted ++ ofSpec after := by
        rw [ofSpec_append hjoined, ofSpec_append hbefore]
    _ = ofSpec before ++ ofSpec after := by rw [hnone, List.append_nil]
    _ = ofSpec (before ++ after) := (ofSpec_append hcut).symm

end

end Directive

namespace Reconciliation

def attributed (directives : List Directive) (total : Nat) (phrases : Phrases) :
    List (Directive × Announcement) :=
  directives.flatMap fun d => (d.expand total phrases).map (d, ·)

section
variable {directives : List Directive} {total : Nat} {phrases : Phrases}

theorem attributed_snd : (attributed directives total phrases).map Prod.snd =
    directives.flatMap (·.expand total phrases) := by
  simp [attributed, List.map_flatMap, Function.comp_def]

theorem attributed_filter (kind : Directive → Bool) :
    (attributed directives total phrases).filter (fun found => kind found.1) =
      attributed (directives.filter kind) total phrases := by
  induction directives with
  | nil => rfl
  | cons d directives ih =>
    simp only [attributed, List.flatMap_cons, List.filter_append] at ih ⊢
    rw [ih]
    cases hd : kind d with
    | true => simp [hd]
    | false => simp [hd]

theorem attributed_partition (kind : Directive → Bool) :
    (attributed directives total phrases).partition (fun found => kind found.1) =
      (attributed (directives.filter kind) total phrases,
        attributed (directives.filter (!kind ·)) total phrases) := by
  rw [List.partition_eq_filter_filter, attributed_filter, ← attributed_filter (!kind ·)]
  rfl

end

-- ---------------------------------------------------------------------------
-- Candidates
-- ---------------------------------------------------------------------------

theorem candidates_perm_order (spec : String) (total : Nat) (priority : Priority)
    (phrases : Phrases) :
    (candidates spec total priority phrases).Perm (candidates spec total .order phrases) := by
  have sorted := (List.filter_append_perm (·.isFraction) (Directive.ofSpec spec)).flatMap_right
    (·.expand total phrases)
  rw [List.flatMap_append] at sorted
  cases priority with
  | order => exact .refl _
  | fraction => exact sorted
  | time => exact List.perm_append_comm.trans sorted

theorem candidates_eq_of_ofSpec {spec other : String}
    (h : Directive.ofSpec spec = Directive.ofSpec other) (total : Nat) (priority : Priority)
    (phrases : Phrases) :
    candidates spec total priority phrases = candidates other total priority phrases := by
  unfold candidates
  rw [h]

/-- Of the announcements of a spec in the order written, those of fractions and those of
times are told apart; one or the other part comes first, both in that order still. A spec
continued behind a blank has the announcements of both parts. Words that are no
directives and blanks change nothing, wherever they are put between the words of a
spec. -/
theorem candidates_by_family (total : Nat) (phrases : Phrases) :
    (∀ spec, ∃ ws, Text.Spelled ws spec.toList ∧
      let directives := ws.filterMap fun word => Directive.parse? (String.ofList word)
      let found := attributed directives total phrases
      let families := found.partition (·.1.isFraction)
      candidates spec total .order phrases = found.map Prod.snd ∧
        candidates spec total .fraction phrases = (families.1 ++ families.2).map Prod.snd ∧
        candidates spec total .time phrases = (families.2 ++ families.1).map Prod.snd ∧
        families.1.map Prod.snd =
          (directives.filter (·.isFraction)).flatMap (·.expand total phrases) ∧
        families.2.map Prod.snd =
          (directives.filter (!·.isFraction)).flatMap (·.expand total phrases)) ∧
    (∀ spec first second, (candidates spec total first phrases).Perm
      (candidates spec total second phrases)) ∧
    (∀ a b, candidates (a ++ " " ++ b) total .order phrases =
      candidates a total .order phrases ++ candidates b total .order phrases) ∧
    ∀ before inserted after : String,
      Text.Separated before.toList after.toList → Text.Separated before.toList inserted.toList →
      Text.Separated inserted.toList after.toList →
      (∀ word ∈ Text.words inserted.toList, Directive.parse? (String.ofList word) = none) →
        ∀ priority, candidates (before ++ inserted ++ after) total priority phrases =
          candidates (before ++ after) total priority phrases := by
  refine ⟨fun spec => ?_, fun spec first second => ?_, fun a b => ?_, ?_⟩
  · refine ⟨Text.words spec.toList, Text.words_eq_iff.mp rfl, ?_⟩
    intro directives found families
    have hfamilies : families = (attributed (directives.filter (·.isFraction)) total phrases,
        attributed (directives.filter (!·.isFraction)) total phrases) :=
      attributed_partition (·.isFraction)
    rw [hfamilies]
    refine ⟨attributed_snd.symm, ?_, ?_, attributed_snd, attributed_snd⟩
    · rw [List.map_append, attributed_snd, attributed_snd]
      rfl
    · rw [List.map_append, attributed_snd, attributed_snd]
      rfl
  · exact (candidates_perm_order spec total first phrases).trans
      (candidates_perm_order spec total second phrases).symm
  · unfold candidates
    dsimp only
    rw [Directive.ofSpec_append_blank, List.flatMap_append]
  · intro before inserted after hcut hbefore hafter hprose priority
    exact candidates_eq_of_ofSpec (Directive.ofSpec_insert hcut hbefore hafter hprose) ..

/-- An ideographic space and a word between two directives. -/
theorem candidates_by_family_prose :
    let before := "say 1/2 "
    let inserted := "\u3000please "
    let after := "then 30s"
    Text.Separated before.toList after.toList ∧ Text.Separated before.toList inserted.toList ∧
      Text.Separated inserted.toList after.toList ∧
      (∀ word ∈ Text.words inserted.toList, Directive.parse? (String.ofList word) = none) ∧
      (candidates (before ++ inserted ++ after) 180000 .time {}).map (·.offset) = [30000, 90000] ∧
      candidates (before ++ inserted ++ after) 180000 .time {} =
        candidates (before ++ after) 180000 .time {} := by
  intro before inserted after
  have hcut : Text.Separated before.toList after.toList :=
    .of_getLast? (c := ' ') (by decide) (by decide) _
  have hbefore : Text.Separated before.toList inserted.toList :=
    .of_getLast? (c := ' ') (by decide) (by decide) _
  have hafter : Text.Separated inserted.toList after.toList :=
    .of_getLast? (c := ' ') (by decide) (by decide) _
  have hprose : ∀ word ∈ Text.words inserted.toList,
      Directive.parse? (String.ofList word) = none := by decide
  exact ⟨hcut, hbefore, hafter, hprose, by decide +kernel,
    (candidates_by_family 180000 {}).2.2.2 before inserted after hcut hbefore hafter hprose .time⟩

end Reconciliation

end SpokenCountdown
