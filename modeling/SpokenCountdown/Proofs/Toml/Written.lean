import SpokenCountdown.Proofs.Toml.Growth
import SpokenCountdown.Proofs.Toml.Lines

/-!
# Documents are read back

A table that is written as a document is read back, its plain fields in front of
the tables inside it: `Table.ofText?_write`. Two things are followed side by side
through the blocks of the document: the statements that their lines spell, and
what those statements make of the document read so far.
-/

namespace SpokenCountdown.Toml

open Branch Reader

variable {path : List String} {key text parent header : String} {fields t : Table} {v : Value}
  {items : List Value} {lines : Block} {blocks others : List Block} {level : Nat}

-- ---------------------------------------------------------------------------
-- What is written so that it can be read
-- ---------------------------------------------------------------------------

mutual

/-- The value can be written behind a key that has `level` parts before it. -/
def Value.Writable (level : Nat) : Value → Prop
  | .table fields =>
    level < greatestKeyLength ∧ (fields.map Prod.fst).Nodup ∧ fieldsWritable (level + 1) fields
  | .array items => itemsWritable level items
  | value => value.PlainWritable

def itemsWritable (level : Nat) : List Value → Prop
  | [] => True
  | item :: rest => item.isTable = true ∧ item.Writable level ∧ itemsWritable level rest

def fieldsWritable (level : Nat) : List (String × Value) → Prop
  | [] => True
  | (key, value) :: rest => IsBare key ∧ value.Writable level ∧ fieldsWritable level rest

end

theorem itemsWritable_isTable (h : itemsWritable level items) :
    ∀ item ∈ items, item.isTable = true := by
  induction items with
  | nil => simp
  | cons item items ih =>
    obtain ⟨hitem, -, hrest⟩ := h
    simpa [hitem] using ih hrest

theorem Value.Writable.plain (h : v.Writable level) (hplain : v.isPlain = true) :
    v.PlainWritable := by
  cases v with
  | table fields => simp [Value.isPlain] at hplain
  | array items =>
    cases items with
    | nil => trivial
    | cons item items =>
      have htables := itemsWritable_isTable h
      simp only [Value.isPlain, List.isEmpty_cons, Bool.false_or, List.any_eq_true] at hplain
      obtain ⟨other, hother, hnot⟩ := hplain
      simp [htables other hother] at hnot
  | _ => exact h

theorem fieldsWritable_append {t u : Table} (ht : fieldsWritable level t)
    (hu : fieldsWritable level u) : fieldsWritable level (t ++ u) := by
  induction t with
  | nil => exact hu
  | cons field t ih =>
    obtain ⟨hkey, hvalue, hrest⟩ := ht
    exact ⟨hkey, hvalue, ih hrest⟩

theorem fieldsWritable_ofOption {α : Type} {name : String} {write : α → Value} {o : Option α}
    (hname : Reader.IsBare name) (h : ∀ a ∈ o, (write a).Writable level) :
    fieldsWritable level (Table.ofOption name write o) := by
  cases o with
  | none => trivial
  | some a => exact ⟨hname, h a rfl, trivial⟩

theorem itemsWritable_map {α : Type} {write : α → Value} {as : List α}
    (htable : ∀ a, (write a).isTable = true) (h : ∀ a ∈ as, (write a).Writable level) :
    itemsWritable level (as.map write) := by
  induction as with
  | nil => trivial
  | cons a as ih =>
    exact ⟨htable a, h a List.mem_cons_self, ih fun b hb => h b (List.mem_cons_of_mem a hb)⟩

@[simp]
theorem Value.Writable.string (s : String) : (Value.string s).Writable level :=
  trivial

@[simp]
theorem Value.Writable.boolean (b : Bool) : (Value.boolean b).Writable level :=
  trivial

theorem Value.Writable.ofNat {n : Nat} (h : n < Text.word64) : (Value.ofNat n).Writable level := by
  have hwide : Text.word64 ≤ Scalar.word128 := by decide
  constructor <;> omega

-- ---------------------------------------------------------------------------
-- Blocks
-- ---------------------------------------------------------------------------

inductive Blocks : List Block → List Statement → Prop
  | nil : Blocks [] []
  | cons {lines : Block} {statements : List Statement} {blocks : List Block} {more : List Statement}
    (hlines : List.Forall₂ Spells lines statements) (h : Blocks blocks more) :
    Blocks (lines :: blocks) (statements ++ more)

theorem Blocks.append {front back : List Block} {first second : List Statement}
    (hfront : Blocks front first) (hback : Blocks back second) :
    Blocks (front ++ back) (first ++ second) := by
  induction hfront with
  | nil => exact hback
  | cons hlines _ ih =>
    rw [List.cons_append, List.append_assoc]
    exact .cons hlines ih

def Regrows (path : List String) (blocks : List Block) (fields : Table) : Prop :=
  ∃ statements nodes,
    Blocks blocks statements ∧ Adds path statements nodes ∧ fields.InOrder (closeFields nodes)

def Refills (path : List String) (lines : Block) (blocks : List Block) (fields : Table) : Prop :=
  ∃ plain statements contents,
    List.Forall₂ Spells lines plain ∧ Blocks blocks statements ∧
      Fills path (plain ++ statements) contents ∧ fields.ReadAs (closeFields contents)

def Reextends (path : List String) (key : String) (blocks : List Block) (items : List Value) :
    Prop :=
  ∃ statements tables,
    Blocks blocks statements ∧ Extends path key statements tables ∧
      List.Forall₂ Value.ReadAs items (tables.map fun contents => .table (closeFields contents))

theorem Regrows.nil : Regrows path [] [] :=
  ⟨[], [], .nil, .nil, .nil⟩

theorem Regrows.append {front back : Table} (hfront : Regrows path blocks front)
    (hback : Regrows path others back) (hnodup : ((front ++ back).map Prod.fst).Nodup) :
    Regrows path (blocks ++ others) (front ++ back) := by
  obtain ⟨first, nodes, hfirst, hadds, hread⟩ := hfront
  obtain ⟨second, more, hsecond, hmore, hreadMore⟩ := hback
  refine ⟨first ++ second, nodes ++ more, hfirst.append hsecond, hadds.append hmore ?_, ?_⟩
  · intro field hfield
    apply lookup_eq_none
    intro hmem
    rw [List.map_append, List.nodup_append] at hnodup
    rw [← closeFields_names, hread.names] at hmem
    have hother : field.1 ∈ back.map Prod.fst := by
      rw [← hreadMore.names, closeFields_names]
      exact List.mem_map_of_mem hfield
    exact hnodup.2.2 _ hmem _ hother rfl
  · rw [closeFields_append]
    exact List.rel_append hread hreadMore

theorem Refills.table (h : Refills (path ++ [key]) lines blocks fields)
    (hheader : Spells header (.header ⟨path, key⟩)) :
    Regrows path ((header :: lines) :: blocks) [(key, .table fields)] := by
  obtain ⟨plain, statements, contents, hlines, hblocks, hfills, hread⟩ := h
  refine ⟨_, _, .cons (.cons hheader hlines) hblocks, hfills.table, ?_⟩
  exact Table.InOrder.nil.cons (.table hread)

theorem Reextends.nil : Reextends path key [] [] :=
  ⟨[], [], .nil, .nil, .nil⟩

theorem Reextends.cons (h : Refills (path ++ [key]) lines blocks fields)
    (hheader : Spells header (.arrayHeader ⟨path, key⟩))
    (hothers : Reextends path key others items) :
    Reextends path key ((header :: lines) :: (blocks ++ others)) (.table fields :: items) := by
  obtain ⟨plain, statements, contents, hlines, hblocks, hfills, hread⟩ := h
  obtain ⟨more, tables, hmore, hextends, hitems⟩ := hothers
  refine ⟨_, contents :: tables, .cons (.cons hheader hlines) (hblocks.append hmore), ?_,
    .cons (.table hread) hitems⟩
  simpa using Extends.cons hfills hextends

theorem Reextends.regrows (h : Reextends path key blocks items) (hitems : items ≠ []) :
    Regrows path blocks [(key, .array items)] := by
  obtain ⟨statements, tables, hblocks, hextends, hread⟩ := h
  have hne : tables.reverse ≠ [] := by
    rintro hnil
    rw [List.reverse_eq_nil_iff] at hnil
    subst hnil
    cases hread
    exact hitems rfl
  obtain ⟨latest, earlier, heq⟩ := List.exists_cons_of_ne_nil hne
  refine ⟨_, _, hblocks, hextends.adds heq, Table.InOrder.nil.cons ?_⟩
  have hclose : (Node.tables latest earlier).close =
      .array (tables.map fun contents => .table (closeFields contents)) := by
    have hreverse : tables = (latest :: earlier).reverse := by rw [← heq, List.reverse_reverse]
    simp [Node.close, closeTables_eq_map, hreverse]
  rw [hclose]
  exact .array hread

theorem plainLines_spell (h : fieldsWritable level fields) :
    ∃ entries, Table.InOrder (fields.filter (·.2.isPlain)) entries ∧
      List.Forall₂ Spells (Table.plainLines .single fields) (entryStatements entries) := by
  induction fields with
  | nil => exact ⟨[], .nil, .nil⟩
  | cons field fields ih =>
    obtain ⟨key, value⟩ := field
    obtain ⟨hkey, hvalue, hrest⟩ := h
    obtain ⟨entries, hread, hlines⟩ := ih hrest
    cases hplain : value.isPlain with
    | false =>
      refine ⟨entries, by simpa [hplain] using hread, ?_⟩
      simpa [Table.plainLines, hplain] using hlines
    | true =>
      obtain ⟨w, hw, htext⟩ := (hvalue.plain hplain).reads
      refine ⟨(key, w) :: entries, ?_, ?_⟩
      · simpa [hplain] using hread.cons hw
      · simpa [Table.plainLines, hplain, Value.writeFields, entryStatements] using
          List.Forall₂.cons (spells_entry hkey htext) hlines

theorem Regrows.refills (h : Regrows path blocks (fields.filter (!·.2.isPlain)))
    (hnodup : (fields.map Prod.fst).Nodup) (hwritable : fieldsWritable level fields) :
    Refills path (Table.plainLines .single fields) blocks fields := by
  obtain ⟨entries, hentries, hlines⟩ := plainLines_spell hwritable
  obtain ⟨statements, nodes, hblocks, hadds, hread⟩ := h
  have hsplit :
      ((fields.filter (·.2.isPlain) ++ fields.filter (!·.2.isPlain)).map Prod.fst).Nodup :=
    ((List.filter_append_perm (·.2.isPlain) fields).map Prod.fst).nodup_iff.mpr hnodup
  rw [List.map_append, List.nodup_append] at hsplit
  obtain ⟨hfront, -, hdisjoint⟩ := hsplit
  have hfresh : ∀ field ∈ nodes, entries.lookup field.1 = none := by
    intro field hfield
    apply lookup_eq_none
    intro hmem
    rw [hentries.names] at hmem
    have hother : field.1 ∈ (fields.filter (!·.2.isPlain)).map Prod.fst := by
      rw [← hread.names, closeFields_names]
      exact List.mem_map_of_mem hfield
    exact hdisjoint _ hmem _ hother rfl
  refine ⟨_, statements, _, hlines, hblocks, hadds.fills (hentries.names ▸ hfront) hfresh, ?_⟩
  apply Table.ReadAs.of_partition (·.2.isPlain) hnodup
  rw [closeFields_append, closeFields_ofEntries]
  exact List.rel_append hentries hread

-- ---------------------------------------------------------------------------
-- Documents
-- ---------------------------------------------------------------------------

theorem parent_text (htext : text.toList = keyText path key) :
    (text ++ ".").toList = (path ++ [key]).flatMap fun part => part.toList ++ ['.'] := by
  simp [htext, keyText]

theorem bare_append (hpath : ∀ part ∈ path, IsBare part) (hkey : IsBare key) :
    ∀ part ∈ path ++ [key], IsBare part := by
  simpa [or_imp, forall_and] using ⟨hpath, hkey⟩

-- Along the writer's own recursion. Each table is written under its full path, so
-- its statements may stand anywhere behind those of the tables around it.
mutual

theorem Value.regrows (v : Value) {path : List String} {key text : String}
    (hpath : ∀ part ∈ path, IsBare part) (hkey : IsBare key)
    (htext : text.toList = keyText path key) (hwritable : v.Writable path.length) :
    Regrows path (v.blocks .single text) ([(key, v)].filter (!·.2.isPlain)) := by
  cases v with
  | table fields =>
    obtain ⟨hlevel, hnodup, hfields⟩ := hwritable
    have hinner := fields_regrow fields (bare_append hpath hkey) (parent_text htext)
      (by simpa using hfields) hnodup
    exact (hinner.refills hnodup hfields).table (spells_header htext hpath hkey hlevel)
  | array items =>
    cases items with
    | nil => exact .nil
    | cons item items =>
      have htables : (item :: items).all (·.isTable) = true :=
        List.all_eq_true.mpr (itemsWritable_isTable hwritable)
      have hplain : (Value.array (item :: items)).isPlain = false := by
        simpa [Value.isPlain] using htables
      have hitems := items_reextend (item :: items) hpath hkey htext hwritable
      simp only [Value.blocks, htables, List.filter_cons, hplain, List.filter_nil]
      exact hitems.regrows (by simp)
  | _ => exact .nil

theorem items_reextend (items : List Value) {path : List String} {key text : String}
    (hpath : ∀ part ∈ path, IsBare part) (hkey : IsBare key)
    (htext : text.toList = keyText path key) (hwritable : itemsWritable path.length items) :
    Reextends path key (itemBlocks .single text true items) items := by
  cases items with
  | nil => exact .nil
  | cons item items =>
    obtain ⟨htable, hitem, hitems⟩ := hwritable
    have hothers := items_reextend items hpath hkey htext hitems
    cases item with
    | table fields =>
      obtain ⟨hlevel, hnodup, hfields⟩ := hitem
      have hinner := fields_regrow fields (bare_append hpath hkey) (parent_text htext)
        (by simpa using hfields) hnodup
      have hheader := spells_arrayHeader htext hpath hkey hlevel
      exact .cons (hinner.refills hnodup hfields) hheader hothers
    | _ => simp [Value.isTable] at htable

theorem fields_regrow (fields : Table) {path : List String} {parent : String}
    (hpath : ∀ part ∈ path, IsBare part)
    (hparent : parent.toList = path.flatMap fun part => part.toList ++ ['.'])
    (hwritable : fieldsWritable path.length fields) (hnodup : (fields.map Prod.fst).Nodup) :
    Regrows path (fieldBlocks .single parent fields) (fields.filter (!·.2.isPlain)) := by
  cases fields with
  | nil => exact .nil
  | cons field fields =>
    obtain ⟨key, value⟩ := field
    obtain ⟨hkey, hvalue, hrest⟩ := hwritable
    rw [List.map_cons, List.nodup_cons] at hnodup
    have htext : (parent ++ writeKey key).toList = keyText path key := by
      have hwrite : writeKey key = key := if_pos hkey
      simp [hwrite, hparent, keyText]
    have hfirst := value.regrows hpath hkey htext hvalue
    have hothers := fields_regrow fields hpath hparent hrest hnodup.2
    have hsplit : ((key, value) :: fields).filter (!·.2.isPlain) =
        [(key, value)].filter (!·.2.isPlain) ++ fields.filter (!·.2.isPlain) := by
      rw [← List.filter_append]
      rfl
    rw [hsplit]
    refine hfirst.append hothers ?_
    rw [← hsplit]
    exact (List.filter_sublist.map Prod.fst).nodup (List.nodup_cons.mpr hnodup)

end

def blockText (lines : Block) : List Char :=
  lines.flatMap fun line => line.toList ++ ['\n']

theorem Document.block {cs : List Char} {statements more : List Statement}
    (hlines : List.Forall₂ Spells lines statements) (h : Document cs more) :
    Document (blockText lines ++ cs) (statements ++ more) := by
  induction hlines with
  | nil => exact h
  | @cons line first lines statements hline _ ih =>
    have hdocument := ih.line hline
    simpa [blockText] using hdocument

theorem Blocks.document {statements : List Statement} (h : Blocks blocks statements) :
    Document (['\n'].intercalate (blocks.map blockText)) statements := by
  induction h with
  | nil => exact .nil
  | @cons lines statements blocks more hlines h ih =>
    cases blocks with
    | nil =>
      cases h
      simpa using Document.block hlines .nil
    | cons next blocks =>
      rw [List.map_cons, List.map_cons, List.intercalate_cons_cons, List.append_assoc]
      exact .block hlines (.blank ih)

theorem Blocks.filter {statements : List Statement} (h : Blocks blocks statements) :
    Blocks (blocks.filter (!·.isEmpty)) statements := by
  induction h with
  | nil => exact .nil
  | @cons lines statements blocks more hlines _ ih =>
    cases hlines with
    | nil => exact ih
    | cons hline hlines => exact .cons (.cons hline hlines) ih

theorem toList_write (t : Table) :
    (t.write .single).toList = ['\n'].intercalate
      (((Table.plainLines .single t :: fieldBlocks .single "" t).filter (!·.isEmpty)).map
        blockText) := by
  have hblock (lines : Block) :
      ("".intercalate (lines.map (· ++ "\n"))).toList = blockText lines := by
    rw [String.toList_intercalate, List.map_map]
    induction lines with
    | nil => rfl
    | cons line lines ih =>
      cases lines with
      | nil => simp [blockText]
      | cons next lines =>
        rw [List.map_cons] at ih ⊢
        rw [List.map_cons, List.intercalate_cons_cons, ih]
        simp [blockText]
  simp only [Table.write, String.toList_intercalate, List.map_map]
  refine congrArg _ (List.map_congr_left fun lines _ => ?_)
  exact hblock lines

theorem Table.ofText?_write (hnodup : (t.map Prod.fst).Nodup) (hwritable : fieldsWritable 0 t) :
    ∃ u, Table.ofText? (t.write .single) = some u ∧ t.ReadAs u := by
  have hregrows : Regrows [] (fieldBlocks .single "" t) (t.filter (!·.2.isPlain)) :=
    fields_regrow t (by simp) rfl hwritable hnodup
  obtain ⟨plain, statements, contents, hlines, hblocks, hfills, hread⟩ :=
    hregrows.refills hnodup hwritable
  refine ⟨closeFields contents, ?_, hread⟩
  have hdocument : Document (t.write .single).toList (plain ++ statements) := by
    rw [toList_write]
    exact (Blocks.cons hlines hblocks).filter.document
  have hstatements := hdocument.statements (Nat.lt_succ_self _)
  obtain ⟨current, hgrown⟩ := hfills id .root []
  simp only [List.append_nil, id_eq, ofStatements] at hgrown
  have hmark : ∀ rest, (t.write .single).toList ≠ '\ufeff' :: rest := by
    intro rest heq
    exact hdocument.head (by rw [heq]; rfl)
  unfold Table.ofText?
  split
  · next rest heq => exact absurd heq (hmark rest)
  · simp [hstatements, hgrown]

end SpokenCountdown.Toml
