import Mathlib.Data.List.Forall2
import SpokenCountdown.Proofs.Binary.Exact
import SpokenCountdown.Toml.Record

/-!
# Values that are read back

What comes back of a value that was written and read: the same text, integer or
choice, tables with their fields in any order, and for a number in single
precision any value that is that number in single precision: the number itself,
and the equal one in double precision. A reader of records restores what was
written if it does so from all of these.
-/

namespace SpokenCountdown.Toml

/-- A value, and what may be read after it was written. -/
inductive Value.ReadAs : Value → Value → Prop
  | string (s : String) : ReadAs (.string s) (.string s)
  | integer (n : Int) : ReadAs (.integer n) (.integer n)
  | float {x : Binary} {w : Value} (h : w.single? = some x) : ReadAs (.float x) w
  | boolean (b : Bool) : ReadAs (.boolean b) (.boolean b)
  | array {items items' : List Value} (h : List.Forall₂ ReadAs items items') :
    ReadAs (.array items) (.array items')
  | table {t u : Table} (h : ∀ name, Option.Rel ReadAs (t.field? name) (u.field? name)) :
    ReadAs (.table t) (.table u)

attribute [simp] Value.ReadAs.string Value.ReadAs.integer Value.ReadAs.boolean

variable {α : Type} {t u : Table} {v : Value} {read? item? : Value → Option α}
  {write : α → Value} {a : α} {n bound : Nat} {name : String} {known : List String} {x : Binary}

theorem Value.ReadAs.float_self (h : x.InFormat .single) : (Value.float x).ReadAs (.float x) :=
  .float (congrArg some (Binary.convert_self Binary.Format.single_proper h))

theorem Value.ReadAs.float_double (h : x.InFormat .single) :
    (Value.float x).ReadAs (.float (x.convert .double)) :=
  .float (congrArg some (Binary.single_double h))

theorem Value.ReadAs.array_self {as : List α} (h : ∀ a ∈ as, (write a).ReadAs (write a)) :
    (Value.array (as.map write)).ReadAs (.array (as.map write)) :=
  .array (List.forall₂_same.mpr (List.forall_mem_map.mpr h))

/-- Whatever a value is read as, `read?` takes it for `a`. -/
def Value.Restores (read? : Value → Option α) (v : Value) (a : α) : Prop :=
  ∀ w, v.ReadAs w → read? w = some a

namespace Value.Restores

theorem string (s : String) : Restores string? (.string s) s
  | _, .string _ => rfl

theorem bool (b : Bool) : Restores bool? (.boolean b) b
  | _, .boolean _ => rfl

theorem nat (h : n < bound) : Restores (nat? bound) (.ofNat n) n
  | _, .integer _ => by simp [nat?, h]

theorem single (x : Binary) : Restores single? (.float x) x
  | _, .float h => h

theorem choice {ofName? : String → Option α} (h : ofName? name = some a) :
    Restores (choice? ofName?) (.string name) a
  | _, .string _ => h

theorem list {as : List α} (h : ∀ a ∈ as, Restores item? (write a) a) :
    Restores (list? item?) (.array (as.map write)) as := by
  intro w hw
  cases hw with
  | array hitems =>
    rw [List.forall₂_map_left_iff] at hitems
    rename_i items'
    show items'.mapM item? = some as
    induction hitems with
    | nil => rfl
    | cons hitem _ ih =>
      have hfirst := h _ List.mem_cons_self _ hitem
      have hrest := ih fun a ha => h a (List.mem_cons_of_mem _ ha)
      simp [List.mapM_cons, hfirst, hrest]

end Value.Restores

namespace Table

def ReadAs (t u : Table) : Prop :=
  ∀ name, Option.Rel Value.ReadAs (t.field? name) (u.field? name)

namespace ReadAs

theorem field? (h : t.ReadAs u) (ht : t.field? name = some v) (hv : v.Restores read? a) :
    ∃ w, u.field? name = some w ∧ read? w = some a := by
  have hname := h name
  rw [ht] at hname
  cases hu : u.field? name with
  | none => simp [hu] at hname
  | some w =>
    rw [hu, Option.rel_some_some] at hname
    exact ⟨w, rfl, hv w hname⟩

theorem field?_none (h : t.ReadAs u) (ht : t.field? name = none) : u.field? name = none := by
  have hname := h name
  rw [ht] at hname
  cases hu : u.field? name with
  | none => rfl
  | some w => simp [hu] at hname

theorem need (h : t.ReadAs u) (ht : t.field? name = some v) (hv : v.Restores read? a) :
    u.need name read? = some a := by
  obtain ⟨w, hu, hw⟩ := h.field? ht hv
  simp [Table.need, hu, hw]

theorem orDefault (h : t.ReadAs u) (ht : t.field? name = some v) (hv : v.Restores read? a)
    (default : α) : u.orDefault name read? default = some a := by
  obtain ⟨w, hu, hw⟩ := h.field? ht hv
  simp [Table.orDefault, hu, hw]

theorem optional {o : Option α} (h : t.ReadAs u) (ht : t.field? name = o.map write)
    (hv : ∀ a ∈ o, (write a).Restores read? a) : u.optional name read? = some o := by
  cases o with
  | none => simp [Table.optional, h.field?_none ht]
  | some a =>
    obtain ⟨w, hu, hw⟩ := h.field? ht (hv a rfl)
    simp [Table.optional, hu, hw]

theorem record? (h : t.ReadAs u) (ht : ∀ field ∈ t, field.1 ∈ known) :
    Table.record? known u = some u := by
  refine if_pos (List.all_eq_true.mpr fun field hfield => ?_)
  have hu : u.field? field.1 ≠ none := by
    intro hnone
    exact absurd (List.lookup_eq_none_iff.mp hnone field hfield) (by simp)
  have hname : field.1 ∈ known := by
    by_contra hnot
    refine hu (h.field?_none (List.lookup_eq_none_iff.mpr fun other hother => ?_))
    simpa using (ne_of_mem_of_not_mem (ht other hother) hnot).symm
  simp [hname]

end ReadAs

end Table

-- ---------------------------------------------------------------------------
-- Fields in order
-- ---------------------------------------------------------------------------

theorem lookup_eq_none {fields : List (String × α)} (h : name ∉ fields.map Prod.fst) :
    fields.lookup name = none := by
  rw [List.lookup_eq_none_iff]
  intro field hfield
  simpa using (ne_of_mem_of_not_mem (List.mem_map_of_mem hfield) h).symm

namespace Table

def InOrder (t u : Table) : Prop :=
  List.Forall₂ (fun field read => field.1 = read.1 ∧ field.2.ReadAs read.2) t u

theorem InOrder.nil : InOrder [] [] :=
  List.Forall₂.nil

theorem InOrder.cons {w : Value} (h : t.InOrder u) (hvalue : v.ReadAs w) :
    InOrder ((name, v) :: t) ((name, w) :: u) :=
  List.Forall₂.cons ⟨rfl, hvalue⟩ h

theorem InOrder.names (h : t.InOrder u) : u.map Prod.fst = t.map Prod.fst := by
  induction h with
  | nil => rfl
  | cons hfield _ ih => simp [hfield.1, ih]

theorem InOrder.readAs (h : t.InOrder u) : t.ReadAs u := by
  intro name
  induction h with
  | nil => exact .none
  | @cons field read t u hfirst _ ih =>
    obtain ⟨key, value⟩ := field
    obtain ⟨key', value'⟩ := read
    obtain ⟨rfl, hvalue⟩ : key = key' ∧ value.ReadAs value' := hfirst
    simp only [Table.field?, List.lookup_cons] at ih ⊢
    cases name == key with
    | false => exact ih
    | true => exact .some hvalue

theorem ReadAs.self (h : ∀ field ∈ t, field.2.ReadAs field.2) : t.ReadAs t :=
  InOrder.readAs (List.forall₂_same.mpr fun field hfield => ⟨rfl, h field hfield⟩)

theorem forall_mem_ofOption {o : Option α} {p : String × Value → Prop}
    (h : ∀ a ∈ o, p (name, write a)) : ∀ field ∈ ofOption name write o, p field := by
  cases o with
  | none => exact nofun
  | some a => simpa [ofOption] using h a rfl

theorem lookup_partition (p : String × Value → Bool) (h : (t.map Prod.fst).Nodup) (name : String) :
    (t.filter p ++ t.filter (!p ·)).lookup name = t.lookup name := by
  induction t with
  | nil => rfl
  | cons field t ih =>
    obtain ⟨key, value⟩ := field
    rw [List.map_cons, List.nodup_cons] at h
    have hrest := ih h.2
    cases hp : p (key, value) with
    | true =>
      simp only [List.filter_cons, hp, List.cons_append, List.lookup_cons, if_true, Bool.not_true]
      rw [← hrest]
      rfl
    | false =>
      simp only [List.filter_cons, hp, Bool.not_false, if_true, List.lookup_append,
        List.lookup_cons] at hrest ⊢
      cases heq : name == key with
      | false => exact hrest
      | true =>
        have hfront : (t.filter p).lookup name = none := by
          apply lookup_eq_none
          intro hmem
          rw [beq_iff_eq.mp heq] at hmem
          exact h.1 ((List.filter_sublist.map Prod.fst).subset hmem)
        simp [hfront]

theorem ReadAs.of_partition (p : String × Value → Bool) (hnodup : (t.map Prod.fst).Nodup)
    (h : InOrder (t.filter p ++ t.filter (!p ·)) u) : t.ReadAs u := by
  intro name
  have hname := h.readAs name
  rwa [Table.field?, lookup_partition p hnodup] at hname

end Table

theorem Value.Restores.record {fields? : Table → Option α} (ht : ∀ field ∈ t, field.1 ∈ known)
    (h : ∀ u, t.ReadAs u → fields? u = some a) :
    Restores (fun value => value.record? known >>= fields?) (.table t) a := by
  intro w hw
  cases hw with
  | table hu =>
    rename_i u
    have hrecord : Table.record? known u = some u := Table.ReadAs.record? hu ht
    simp [Value.record?, hrecord, h u hu]

end SpokenCountdown.Toml
