import SpokenCountdown.Proofs.Toml.ReadAs
import SpokenCountdown.Toml.Reader

/-!
# How a document grows

Each header names the full path of its table, so what the statements under it do
to the document depends on that one table only. A place in a document is a
function that puts a branch there; statements are described by what they add to
the branch, whatever the place.
-/

namespace SpokenCountdown.Toml

namespace Branch

variable {change : Branch → Option Branch} {branch fields : Branch} {path more : List String}
  {key : String} {node : Node} {plug : Branch → Branch} {statements : List Statement}

-- ---------------------------------------------------------------------------
-- Places in a document
-- ---------------------------------------------------------------------------

theorem lookup_append_last (h : branch.lookup key = none) :
    (branch ++ [(key, node)]).lookup key = some node := by
  simp [List.lookup_append, h]

theorem replace_append_last (h : branch.lookup key = none) (new : Node) :
    replace (branch ++ [(key, node)]) key new = branch ++ [(key, new)] := by
  have hother : branch.map (fun field => if field.1 = key then (key, new) else field) = branch := by
    refine (List.map_congr_left fun field hfield => ?_).trans (List.map_id branch)
    have hne : key ≠ field.1 := by simpa using List.lookup_eq_none_iff.mp h field hfield
    simp [hne.symm]
  simp [replace, hother]

theorem within_append :
    within change (path ++ more) branch = within (within change more) path branch := by
  induction path generalizing branch with
  | nil => rfl
  | cons part path ih =>
    simp only [List.cons_append, within, ih]

/-- `plug` puts a branch into a document, and `path` leads there. -/
def Leads (path : List String) (plug : Branch → Branch) : Prop :=
  ∀ change inner, within change path (plug inner) = (change inner).map plug

namespace Leads

theorem root : Leads [] id := by
  intro change inner
  simp [within]

theorem table (h : Leads path plug) (hkey : branch.lookup key = none) :
    Leads (path ++ [key]) fun inner => plug (branch ++ [(key, .table .header inner)]) := by
  intro change inner
  rw [within_append, h, within]
  simp only [lookup_append_last hkey, replace_append_last hkey, within]
  cases change inner <;> rfl

theorem latest (h : Leads path plug) (hkey : branch.lookup key = none) (earlier : List Branch) :
    Leads (path ++ [key]) fun inner => plug (branch ++ [(key, .tables inner earlier)]) := by
  intro change inner
  rw [within_append, h, within]
  simp only [lookup_append_last hkey, replace_append_last hkey, within]
  cases change inner <;> rfl

end Leads

-- ---------------------------------------------------------------------------
-- Statements
-- ---------------------------------------------------------------------------

def Fills (path : List String) (statements : List Statement) (fields : Branch) : Prop :=
  ∀ plug, Leads path plug → ∀ rest, ∃ current,
    ofStatements path (plug []) (statements ++ rest) = ofStatements current (plug fields) rest

def Adds (path : List String) (statements : List Statement) (fields : Branch) : Prop :=
  ∀ plug branch, Leads path plug → (∀ field ∈ fields, branch.lookup field.1 = none) →
    ∀ current rest, ∃ current',
      ofStatements current (plug branch) (statements ++ rest) =
        ofStatements current' (plug (branch ++ fields)) rest

def arrayOf (key : String) : List Branch → Branch
  | [] => []
  | latest :: earlier => [(key, .tables latest earlier)]

def Extends (path : List String) (key : String) (statements : List Statement)
    (tables : List Branch) : Prop :=
  ∀ plug branch, Leads path plug → branch.lookup key = none → ∀ done current rest, ∃ current',
    ofStatements current (plug (branch ++ arrayOf key done)) (statements ++ rest) =
      ofStatements current' (plug (branch ++ arrayOf key (tables.reverse ++ done))) rest

theorem Adds.nil : Adds path [] [] := by
  intro plug branch _ _ current rest
  exact ⟨current, by simp⟩

theorem Adds.append {front back : List Statement} {first second : Branch}
    (hfront : Adds path front first) (hback : Adds path back second)
    (hdistinct : ∀ field ∈ second, first.lookup field.1 = none) :
    Adds path (front ++ back) (first ++ second) := by
  intro plug branch hplug hfresh current rest
  obtain ⟨middle, hmiddle⟩ := hfront plug branch hplug
    (fun field hfield => hfresh field (List.mem_append_left _ hfield)) current (back ++ rest)
  have hnext : ∀ field ∈ second, (branch ++ first).lookup field.1 = none := by
    intro field hfield
    simp [List.lookup_append, hfresh field (List.mem_append_right _ hfield),
      hdistinct field hfield]
  obtain ⟨last, hlast⟩ := hback plug (branch ++ first) hplug hnext middle rest
  exact ⟨last, by rw [List.append_assoc, hmiddle, hlast, List.append_assoc]⟩

theorem follow_header (h : Leads path plug) (hkey : branch.lookup key = none)
    (current : List String) :
    follow current (plug branch) (.header ⟨path, key⟩) =
      some (path ++ [key], plug (branch ++ [(key, .table .header [])])) := by
  simp [follow, h _ _, define, hkey]

theorem follow_arrayHeader (h : Leads path plug) (hkey : branch.lookup key = none)
    (current : List String) (done : List Branch) :
    follow current (plug (branch ++ arrayOf key done)) (.arrayHeader ⟨path, key⟩) =
      some (path ++ [key], plug (branch ++ arrayOf key ([] :: done))) := by
  cases done with
  | nil => simp [follow, h _ _, addTable, hkey, arrayOf]
  | cons latest earlier =>
    simp [follow, h _ _, addTable, arrayOf, lookup_append_last hkey, replace_append_last hkey]

theorem follow_entry (h : Leads path plug) (hkey : branch.lookup key = none) (value : Value) :
    follow path (plug branch) (.entry ⟨[], key⟩ value) =
      some (path, plug (branch ++ [(key, .value value)])) := by
  simp [follow, h _ _, put, hkey]

theorem Fills.table (h : Fills (path ++ [key]) statements fields) :
    Adds path (.header ⟨path, key⟩ :: statements) [(key, .table .header fields)] := by
  intro plug branch hplug hfresh current rest
  have hkey : branch.lookup key = none := hfresh (key, _) List.mem_cons_self
  obtain ⟨last, hlast⟩ := h _ (hplug.table hkey) rest
  refine ⟨last, ?_⟩
  simp only [List.cons_append, ofStatements, follow_header hplug hkey]
  exact hlast

theorem Extends.nil : Extends path key [] [] := by
  intro plug branch _ _ done current rest
  exact ⟨current, by simp⟩

theorem Extends.cons {others : List Statement} {tables : List Branch}
    (h : Fills (path ++ [key]) statements fields) (hothers : Extends path key others tables) :
    Extends path key (.arrayHeader ⟨path, key⟩ :: (statements ++ others)) (fields :: tables) := by
  intro plug branch hplug hkey done current rest
  obtain ⟨middle, hmiddle⟩ := h _ (hplug.latest hkey done) (others ++ rest)
  obtain ⟨last, hlast⟩ := hothers plug branch hplug hkey (fields :: done) middle rest
  refine ⟨last, ?_⟩
  simp only [List.cons_append, ofStatements, follow_arrayHeader hplug hkey, List.append_assoc]
  simp only [List.reverse_cons, List.append_assoc, List.cons_append, List.nil_append, ← hlast]
  exact hmiddle

theorem Extends.adds {latest : Branch} {earlier tables : List Branch}
    (h : Extends path key statements tables) (htables : tables.reverse = latest :: earlier) :
    Adds path statements [(key, .tables latest earlier)] := by
  intro plug branch hplug hfresh current rest
  have hkey : branch.lookup key = none := hfresh (key, _) List.mem_cons_self
  obtain ⟨last, hlast⟩ := h plug branch hplug hkey [] current rest
  exact ⟨last, by simpa [arrayOf, htables] using hlast⟩

def entryStatements (entries : Table) : List Statement :=
  entries.map fun field => .entry ⟨[], field.1⟩ field.2

def ofEntries (entries : Table) : Branch :=
  entries.map fun field => (field.1, .value field.2)

theorem ofEntries_lookup (entries : Table) (key : String) :
    (ofEntries entries).lookup key = (entries.lookup key).map Node.value := by
  induction entries with
  | nil => rfl
  | cons field entries ih =>
    obtain ⟨name, value⟩ := field
    simp only [ofEntries, List.map_cons, List.lookup_cons] at ih ⊢
    cases key == name with
    | false => exact ih
    | true => rfl

theorem ofStatements_entries {entries : Table} (hplug : Leads path plug)
    (hentries : (entries.map Prod.fst).Nodup)
    (hfresh : ∀ field ∈ entries, branch.lookup field.1 = none) (rest : List Statement) :
    ofStatements path (plug branch) (entryStatements entries ++ rest) =
      ofStatements path (plug (branch ++ ofEntries entries)) rest := by
  induction entries generalizing branch with
  | nil => simp [entryStatements, ofEntries]
  | cons field entries ih =>
    obtain ⟨key, value⟩ := field
    rw [List.map_cons, List.nodup_cons] at hentries
    obtain ⟨hkey, hnodup⟩ := hentries
    have hnext : ∀ field ∈ entries,
        (branch ++ [(key, Node.value value)]).lookup field.1 = none := by
      intro field hfield
      have hne : field.1 ≠ key := ne_of_mem_of_not_mem (List.mem_map_of_mem hfield) hkey
      simp [List.lookup_append, hfresh field (List.mem_cons_of_mem _ hfield), hne]
    have hstep := follow_entry hplug (hfresh (key, value) List.mem_cons_self) value
    simp only [entryStatements, List.map_cons, List.cons_append, ofStatements, hstep]
    simpa [entryStatements, ofEntries] using ih hnodup hnext

theorem Adds.fills {entries : Table} (h : Adds path statements fields)
    (hentries : (entries.map Prod.fst).Nodup)
    (hfresh : ∀ field ∈ fields, entries.lookup field.1 = none) :
    Fills path (entryStatements entries ++ statements) (ofEntries entries ++ fields) := by
  intro plug hplug rest
  have hdistinct : ∀ field ∈ fields, (ofEntries entries).lookup field.1 = none := by
    intro field hfield
    simp [ofEntries_lookup, hfresh field hfield]
  obtain ⟨last, hlast⟩ := h plug (ofEntries entries) hplug hdistinct path rest
  refine ⟨last, ?_⟩
  rw [List.append_assoc, ofStatements_entries hplug hentries (by simp)]
  exact hlast

end Branch

-- ---------------------------------------------------------------------------
-- Closing
-- ---------------------------------------------------------------------------

theorem closeFields_eq_map (fields : Branch) :
    closeFields fields = fields.map fun field => (field.1, field.2.close) := by
  induction fields with
  | nil => rfl
  | cons field fields ih =>
    obtain ⟨key, node⟩ := field
    simp [closeFields, ih]

theorem closeFields_append (front back : Branch) :
    closeFields (front ++ back) = closeFields front ++ closeFields back := by
  simp [closeFields_eq_map]

theorem closeFields_names (fields : Branch) :
    (closeFields fields).map Prod.fst = fields.map Prod.fst := by
  simp [closeFields_eq_map]

theorem closeFields_ofEntries (entries : Table) :
    closeFields (Branch.ofEntries entries) = entries := by
  rw [closeFields_eq_map, Branch.ofEntries, List.map_map]
  exact List.map_id entries

theorem closeTables_eq_map (tables : List Branch) :
    closeTables tables = tables.map fun fields => .table (closeFields fields) := by
  induction tables with
  | nil => rfl
  | cons fields tables ih => simp [closeTables, ih]

end SpokenCountdown.Toml
