import Sidebar.Outline.File
import Sidebar.Proofs.SavedFile
import Sidebar.Proofs.WrittenTables

namespace Sidebar

open Toml (Line Entry Rows Table Value withTables lineValues)

/-- The line of a text that may be left out. -/
def Toml.Line.optional (key : String) (text : Option String) : List Line :=
  (text.map fun s => ⟨key, .text s⟩).toList

namespace DocumentedMember

def lines (m : DocumentedMember) : List Line :=
  ⟨"name", .text m.name⟩ :: ⟨"kind", .text m.kind.name⟩ :: Line.optional "description" m.description

def entry (m : DocumentedMember) : Entry := ⟨["class"], "member", m.lines⟩

end DocumentedMember

namespace DocumentedClass

/-- The lines of a class without the one that says that it has no members. -/
def ownLines (c : DocumentedClass) : List Line :=
  ⟨"name", .text c.name⟩ :: Line.optional "description" c.description

def lines (c : DocumentedClass) : List Line :=
  c.ownLines ++ if c.members.isEmpty then [Line.mk "member" .noItems] else []

def entry (c : DocumentedClass) : Entry := ⟨[], "class", c.lines⟩

def entries (c : DocumentedClass) : List Entry := c.entry :: c.members.map DocumentedMember.entry

end DocumentedClass

namespace Outline

def lines (o : Outline) : List Line :=
  Line.optional "title" o.title ++ if o.classes.isEmpty then [Line.mk "class" .noItems] else []

def entries (o : Outline) : List Entry := o.classes.flatMap DocumentedClass.entries

end Outline

theorem write_line (key text : String) : Outline.line key text = Line.write ⟨key, .text text⟩ := by
  simp only [Outline.line, Line.write, Toml.Content.write, String.reduceToList, List.append_assoc,
    List.cons_append, List.nil_append]

theorem write_optionalLine (key : String) (text : Option String) :
    Outline.optionalLine key text = (Line.optional key text).flatMap Line.write := by
  cases text with
  | none => rfl
  | some text =>
    rw [Outline.optionalLine, write_line]
    exact (List.append_nil _).symm

theorem write_noItems {key text : String} (h : key.toList ++ " = []\n".toList = text.toList)
    (b : Bool) :
    (if b then text.toList else []) =
      (if b then [Line.mk key .noItems] else []).flatMap Line.write := by
  have hwrite : (Line.mk key .noItems).write = text.toList := by
    rw [← h]
    simp only [Line.write, Toml.Content.write, String.reduceToList, List.cons_append,
      List.nil_append]
  cases b with
  | false => rfl
  | true => exact hwrite.symm.trans (List.append_nil _).symm

theorem DocumentedMember.write_eq (m : DocumentedMember) : m.write = m.entry.write := by
  have hheader : m.entry.writeHeader = "[[class.member]]\n".toList := by
    simp only [entry, Entry.writeHeader, Toml.writePath, List.flatMap_cons, List.flatMap_nil,
      String.reduceToList, List.cons_append, List.nil_append]
  have hlines : m.entry.lines = m.lines := rfl
  delta DocumentedMember.write
  rw [Entry.write, hheader, hlines, lines, write_line, write_line, write_optionalLine,
    List.flatMap_cons, List.flatMap_cons]
  simp only [List.append_assoc]

theorem DocumentedClass.writeHead_eq (c : DocumentedClass) : c.writeHead = c.entry.write := by
  have hheader : c.entry.writeHeader = "[[class]]\n".toList := by
    simp only [entry, Entry.writeHeader, Toml.writePath, List.flatMap_nil,
      String.reduceToList, List.cons_append, List.nil_append]
  have hlines : c.entry.lines = c.lines := rfl
  have hempty : (if c.members.isEmpty then "member = []\n".toList else []) =
      (if c.members.isEmpty then [Line.mk "member" .noItems] else []).flatMap Line.write :=
    write_noItems (by decide) c.members.isEmpty
  delta DocumentedClass.writeHead
  rw [Entry.write, hheader, hlines, lines, ownLines, write_line, write_optionalLine, hempty,
    List.cons_append, List.flatMap_cons, List.flatMap_append]
  simp only [List.append_assoc]

theorem Outline.writeHead_eq (o : Outline) : o.writeHead = o.lines.flatMap Line.write := by
  have hempty : (if o.classes.isEmpty then "class = []\n".toList else []) =
      (if o.classes.isEmpty then [Line.mk "class" .noItems] else []).flatMap Line.write :=
    write_noItems (by decide) o.classes.isEmpty
  delta Outline.writeHead
  rw [lines, write_optionalLine, hempty, List.flatMap_append]

theorem Outline.toList_write (o : Outline) :
    o.write.toList = Toml.writeDocument o.lines o.entries := by
  have htables : o.tables = o.entries.map Entry.write := by
    rw [tables, entries, List.map_flatMap]
    refine List.flatMap_congr fun c _ => ?_
    rw [DocumentedClass.entries, List.map_cons, List.map_map, DocumentedClass.writeHead_eq]
    exact congrArg _ (List.map_congr_left fun m _ => m.write_eq)
  have hempty : o.writeHead.isEmpty = o.lines.isEmpty := by
    rw [o.writeHead_eq, Toml.isEmpty_flatMap_write]
  rw [write, String.toList_ofList, hempty, htables, o.writeHead_eq, Toml.writeDocument]

theorem keys_optional (key : String) (text : Option String) :
    ((Line.optional key text).map Line.key).Sublist [key] := by
  cases text with
  | none => exact List.nil_sublist _
  | some text => exact List.Sublist.refl _

theorem keys_noItems (key : String) (b : Bool) :
    ((if b then [Line.mk key .noItems] else []).map Line.key).Sublist [key] := by
  cases b with
  | false => exact List.nil_sublist _
  | true => exact List.Sublist.refl _

theorem DocumentedMember.keys_lines (m : DocumentedMember) :
    (m.lines.map Line.key).Sublist ["name", "kind", "description"] :=
  ((keys_optional "description" m.description).cons_cons "kind").cons_cons "name"

theorem DocumentedClass.keys_ownLines (c : DocumentedClass) :
    (c.ownLines.map Line.key).Sublist ["name", "description"] :=
  (keys_optional "description" c.description).cons_cons "name"

theorem DocumentedClass.member_notMem_ownLines (c : DocumentedClass) :
    "member" ∉ c.ownLines.map Line.key :=
  fun h => absurd (c.keys_ownLines.subset h) (by decide)

theorem DocumentedClass.keys_lines (c : DocumentedClass) :
    (c.lines.map Line.key).Sublist ["name", "description", "member"] := by
  rw [lines, List.map_append]
  exact c.keys_ownLines.append (keys_noItems "member" _)

theorem Outline.class_notMem_title (o : Outline) :
    "class" ∉ (Line.optional "title" o.title).map Line.key :=
  fun h => absurd ((keys_optional "title" o.title).subset h) (by decide)

theorem Outline.keys_lines (o : Outline) : (o.lines.map Line.key).Sublist ["title", "class"] := by
  rw [lines, List.map_append]
  exact (keys_optional "title" o.title).append (keys_noItems "class" _)

/-- The keys that lines of outlines have. -/
theorem isBareKey_of_sublist {lines : List Line} {keys : List String}
    (h : (lines.map Line.key).Sublist keys) (hkeys : ∀ key ∈ keys, Toml.IsBareKey key.toList) :
    ∀ l ∈ lines, Toml.IsBareKey l.key.toList :=
  fun l hl => hkeys l.key (h.subset (List.mem_map_of_mem hl))

theorem DocumentedMember.isWritable_entry (m : DocumentedMember) : m.entry.IsWritable where
  path := List.forall_mem_singleton.2 (show Toml.IsBareKey "class".toList by decide)
  key := show Toml.IsBareKey "member".toList by decide
  depth := show 1 < Toml.limit by decide
  lines := isBareKey_of_sublist m.keys_lines (by decide)

theorem DocumentedClass.isWritable_entry (c : DocumentedClass) : c.entry.IsWritable where
  path := List.forall_mem_nil _
  key := show Toml.IsBareKey "class".toList by decide
  depth := show 0 < Toml.limit by decide
  lines := isBareKey_of_sublist c.keys_lines (by decide)

theorem Outline.isWritable_of_mem_entries {o : Outline} {e : Entry} (h : e ∈ o.entries) :
    e.IsWritable := by
  obtain ⟨c, -, h⟩ := List.mem_flatMap.1 h
  rcases List.mem_cons.1 h with rfl | h
  · exact c.isWritable_entry
  · obtain ⟨m, -, rfl⟩ := List.mem_map.1 h
    exact m.isWritable_entry

def DocumentedMember.rows (m : DocumentedMember) : Rows := m.lines.map Line.row

def DocumentedClass.rows (c : DocumentedClass) : Rows :=
  withTables (c.lines.map Line.row) "member" (c.members.map DocumentedMember.rows)

def Outline.rows (o : Outline) : Rows :=
  withTables (o.lines.map Line.row) "class" (o.classes.map DocumentedClass.rows)

theorem lookup_lines_eq_none {α : Type} {lines : List Line} {key : String} (f : Line → α)
    (h : key ∉ lines.map Line.key) : (lines.map fun l => (l.key, f l)).lookup key = none := by
  rw [List.lookup_eq_none_iff]
  intro row hrow
  obtain ⟨l, hl, rfl⟩ := List.mem_map.1 hrow
  have hmem : l.key ∈ lines.map Line.key := List.mem_map_of_mem hl
  exact bne_iff_ne.2 fun heq : key = l.key => h (heq ▸ hmem)

/-- Among the lines there is one for the items only if there are none. -/
theorem lookup_lines_of_items {lines : List Line} {key : String} (h : key ∉ lines.map Line.key)
    {α : Type} (items : List α) :
    items = [] ∨
      ((lines ++ if items.isEmpty then [Line.mk key .noItems] else []).map Line.row).lookup key =
        none := by
  cases items with
  | nil => exact .inl rfl
  | cons item items =>
    refine .inr (lookup_lines_eq_none _ ?_)
    rwa [List.isEmpty_cons, if_neg Bool.false_ne_true, List.append_nil]

theorem foldlM_members {rows head : Rows} {elements inner : List Rows} {ms : List DocumentedMember}
    (hclass : rows.lookup "class" = none) (hmember : ms = [] ∨ head.lookup "member" = none) :
    (ms.map DocumentedMember.entry).foldlM Toml.placeEntry
        (withTables rows "class" (elements ++ [withTables head "member" inner])) =
      some (withTables rows "class"
        (elements ++ [withTables head "member" (inner ++ ms.map DocumentedMember.rows)])) := by
  induction ms generalizing inner with
  | nil => rw [List.map_nil, List.map_nil, List.append_nil, List.foldlM_nil]; rfl
  | cons m ms ih =>
    have hhead : head.lookup "member" = none := hmember.resolve_left (List.cons_ne_nil m ms)
    have hplace : Toml.placeEntry
        (withTables rows "class" (elements ++ [withTables head "member" inner])) m.entry =
        some (withTables rows "class"
          (elements ++ [withTables head "member" (inner ++ [m.rows])])) :=
      Toml.placeEntry_inner rfl hclass hhead (m.keys_lines.nodup (by decide))
    rw [List.map_cons, List.foldlM_cons, hplace, List.map_cons]
    refine (ih (.inr hhead)).trans ?_
    rw [List.append_assoc, List.singleton_append]

theorem foldlM_entries {rows : Rows} {elements : List Rows} (c : DocumentedClass)
    (hclass : rows.lookup "class" = none) :
    c.entries.foldlM Toml.placeEntry (withTables rows "class" elements) =
      some (withTables rows "class" (elements ++ [c.rows])) := by
  have hplace : Toml.placeEntry (withTables rows "class" elements) c.entry =
      some (withTables rows "class" (elements ++ [c.lines.map Line.row])) :=
    Toml.placeEntry_top rfl hclass (c.keys_lines.nodup (by decide))
  have hmember : c.members = [] ∨ (c.lines.map Line.row).lookup "member" = none :=
    lookup_lines_of_items c.member_notMem_ownLines c.members
  have hmembers : (c.members.map DocumentedMember.entry).foldlM Toml.placeEntry
      (withTables rows "class" (elements ++ [withTables (c.lines.map Line.row) "member" []])) =
      some (withTables rows "class" (elements ++ [c.rows])) := foldlM_members hclass hmember
  rw [DocumentedClass.entries, List.foldlM_cons, hplace]
  exact hmembers

theorem foldlM_classes {rows : Rows} (elements : List Rows) (cs : List DocumentedClass)
    (hclass : cs = [] ∨ rows.lookup "class" = none) :
    (cs.flatMap DocumentedClass.entries).foldlM Toml.placeEntry (withTables rows "class" elements) =
      some (withTables rows "class" (elements ++ cs.map DocumentedClass.rows)) := by
  induction cs generalizing elements with
  | nil => rw [List.flatMap_nil, List.map_nil, List.append_nil, List.foldlM_nil]; rfl
  | cons c cs ih =>
    have hrows := hclass.resolve_left (List.cons_ne_nil c cs)
    rw [List.flatMap_cons, List.foldlM_append, foldlM_entries c hrows, List.map_cons]
    refine (ih _ (.inr hrows)).trans ?_
    rw [List.append_assoc, List.singleton_append]

namespace Outline

theorem table?_write (o : Outline) : Toml.read? o.write = some (Toml.rowValues o.rows) := by
  have hlines := isBareKey_of_sublist o.keys_lines (by decide)
  have hsource : Toml.Source.read? (Toml.dropByteOrderMark o.write.toList) =
      some ⟨o.lines.map Line.pair, o.entries.map Entry.toSection⟩ := by
    rw [o.toList_write, Toml.dropByteOrderMark_writeDocument hlines]
    exact Toml.Source.read?_writeDocument hlines fun e he => isWritable_of_mem_entries he
  have hclass : o.classes = [] ∨ (o.lines.map Line.row).lookup "class" = none :=
    lookup_lines_of_items o.class_notMem_title o.classes
  have hentries : o.entries.foldlM Toml.placeEntry (o.lines.map Line.row) = some o.rows :=
    foldlM_classes [] o.classes hclass
  rw [Toml.read?, hsource]
  change Toml.Source.table? _ = _
  rw [Toml.table?_eq (o.keys_lines.nodup (by decide)), hentries]
  rfl

end Outline

def DocumentedMember.table (m : DocumentedMember) : Table := lineValues m.lines

def DocumentedClass.table (c : DocumentedClass) : Table :=
  lineValues c.ownLines ++ [("member", .array (c.members.map fun m => .table m.table))]

def Outline.table (o : Outline) : Table :=
  lineValues (Line.optional "title" o.title) ++
    [("class", .array (o.classes.map fun c => .table c.table))]

theorem DocumentedMember.rowValues_rows (m : DocumentedMember) : Toml.rowValues m.rows = m.table :=
  Toml.rowValues_lines m.lines

theorem DocumentedClass.rowValues_rows (c : DocumentedClass) : Toml.rowValues c.rows = c.table := by
  have h := Toml.rowValues_withTables c.ownLines "member" (c.members.map DocumentedMember.rows)
  rw [List.isEmpty_map, List.map_map] at h
  exact h.trans (by simp only [table, Function.comp_def, DocumentedMember.rowValues_rows])

theorem Outline.rowValues_rows (o : Outline) : Toml.rowValues o.rows = o.table := by
  have h := Toml.rowValues_withTables (Line.optional "title" o.title) "class"
    (o.classes.map DocumentedClass.rows)
  rw [List.isEmpty_map, List.map_map] at h
  exact h.trans (by simp only [table, Function.comp_def, DocumentedClass.rowValues_rows])

theorem othersFit_of_sublist {known : List String} {rows : Table}
    (h : (rows.map Prod.fst).Sublist known) : Outline.othersFit known rows = true := by
  have hnone : rows.filter (fun row => !known.contains row.1) = [] := by
    rw [List.filter_eq_nil_iff]
    intro row hrow
    simp [h.subset (List.mem_map_of_mem hrow)]
  exact congrArg Toml.rowsAreRepresentable hnone

theorem map_fst_lineValues (lines : List Line) :
    (lineValues lines).map Prod.fst = lines.map Line.key := by
  rw [lineValues, List.map_map]
  rfl

theorem lookup_lineValues_optional (key : String) (text : Option String) :
    (lineValues (Line.optional key text)).lookup key = text.map Value.string := by
  cases text with
  | none => rfl
  | some text => exact List.lookup_cons_self

theorem lookup_concat_self {lines : List Line} {key : String} (h : key ∉ lines.map Line.key)
    (v : Value) : (lineValues lines ++ [(key, v)]).lookup key = some v := by
  have hlines : (lineValues lines).lookup key = none := lookup_lines_eq_none _ h
  rw [List.lookup_append, hlines, List.lookup_cons_self]
  rfl

theorem lookup_concat_ne {rows : Table} {key other : String} (h : other ≠ key) (v : Value) :
    (rows ++ [(key, v)]).lookup other = rows.lookup other := by
  rw [List.lookup_append, List.lookup_cons, beq_false_of_ne h]
  exact Option.or_none

theorem optionalText?_eq {rows : Table} {key : String} {text : Option String}
    (h : rows.lookup key = text.map Value.string) : Outline.optionalText? rows key = some text := by
  rw [Outline.optionalText?, h]
  cases text <;> rfl

theorem listAt?_eq {α : Type} {read? : Value → Option α} {write : α → Value} {rows : Table}
    {key : String} {xs : List α} (h : rows.lookup key = some (.array (xs.map write)))
    (hread : ∀ x, read? (write x) = some x) : Outline.listAt? read? rows key = some xs := by
  rw [Outline.listAt?, h]
  dsimp only
  clear h
  induction xs with
  | nil => rfl
  | cons x xs ih =>
    rw [List.map_cons, List.mapM_cons, hread, ih]
    rfl

theorem MemberKind.ofValue?_name (k : MemberKind) : ofValue? (.string k.name) = some k := by
  cases k <;> rfl

theorem DocumentedMember.ofValue?_table (m : DocumentedMember) :
    ofValue? (.table m.table) = some m := by
  have hfit : Outline.othersFit ["name", "kind", "description"] m.table = true :=
    othersFit_of_sublist ((map_fst_lineValues _).symm ▸ m.keys_lines)
  have hname : m.table.lookup "name" = some (.string m.name) := List.lookup_cons_self
  have hkind : m.table.lookup "kind" = some (.string m.kind.name) := rfl
  have hdescription : Outline.optionalText? m.table "description" = some m.description :=
    optionalText?_eq (lookup_lineValues_optional "description" m.description)
  rw [ofValue?, hfit, hname, hkind, hdescription]
  dsimp only
  rw [MemberKind.ofValue?_name]
  rfl

theorem DocumentedClass.ofValue?_table (c : DocumentedClass) :
    ofValue? (.table c.table) = some c := by
  have hfit : Outline.othersFit ["name", "description", "member"] c.table = true := by
    refine othersFit_of_sublist ?_
    rw [table, List.map_append, map_fst_lineValues]
    exact c.keys_ownLines.append (List.Sublist.refl _)
  have hname : c.table.lookup "name" = some (.string c.name) := List.lookup_cons_self
  have hdescription : Outline.optionalText? c.table "description" = some c.description := by
    refine optionalText?_eq ((lookup_concat_ne (by decide) _).trans ?_)
    exact lookup_lineValues_optional "description" c.description
  have hmembers : Outline.listAt? DocumentedMember.ofValue? c.table "member" = some c.members :=
    listAt?_eq (lookup_concat_self c.member_notMem_ownLines _) DocumentedMember.ofValue?_table
  rw [ofValue?, hfit, hname, hdescription, hmembers]
  rfl

namespace Outline

theorem ofTable?_table (o : Outline) : ofTable? o.table = some o := by
  have hfit : othersFit ["title", "class"] o.table = true := by
    refine othersFit_of_sublist ?_
    rw [table, List.map_append, map_fst_lineValues]
    exact (keys_optional "title" o.title).append (List.Sublist.refl _)
  have htitle : optionalText? o.table "title" = some o.title := by
    refine optionalText?_eq ((lookup_concat_ne (by decide) _).trans ?_)
    exact lookup_lineValues_optional "title" o.title
  have hclasses : listAt? DocumentedClass.ofValue? o.table "class" = some o.classes :=
    listAt?_eq (lookup_concat_self o.class_notMem_title _) DocumentedClass.ofValue?_table
  rw [ofTable?, hfit, htitle, hclasses]
  rfl

theorem read?_write (o : Outline) : read? o.write = some o := by
  rw [read?, o.table?_write, o.rowValues_rows]
  exact o.ofTable?_table

open Files (Node)

theorem load_write (o : Outline) : load (.ok o.write) = .ok o := by
  rw [load, o.read?_write]

/-- Saving and loading an outline is lossless. The text of an outline is always accepted, and
wherever a file can be written at all, the outline is found again under the path it was saved to. -/
theorem saved_outline_loads (o : Outline) :
    load (.ok o.write) = .ok o ∧
      ∀ (root : Node) (path : String), root.writeFault? path = none →
        ∃ root', o.save root path = .ok root' ∧
          (root'.find path).bind Node.text = .ok o.write ∧
          load ((root'.find path).bind Node.text) = .ok o := by
  refine ⟨o.load_write, fun root path h => ?_⟩
  let root' := Node.put (.file (.ok o.write.toUTF8)) (Files.names path) root
  have hwrite : root.write path o.write = .ok root' := by rw [Node.write, h]
  have hsave : o.save root path = .ok root' := by rw [save, hwrite, Except.mapError]
  have htext : (root'.find path).bind Node.text = .ok o.write := by
    rw [Node.find_write hwrite]
    exact Node.text_file_toUTF8 o.write
  exact ⟨root', hsave, htext, htext ▸ o.load_write⟩

/-- A path that goes back and forth, and texts that look like what they are written into. -/
theorem saved_outline_loads_markupInTexts :
    let root := Node.folder [("notes", .folder []), ("old", .file (.ok "".toUTF8))]
    let path := "./notes//../notes/docnav.toml"
    let o : Outline := {
      title := some ""
      classes := [
        { name := "\"\n[[class]]\nname = 'A'", description := some "\r\n\t\\u0041\x00" },
        { name := "B", members := [
          { name := "\u00e9''' #", kind := .constructor },
          { name := "", kind := .method, description := some "\"\"\"" }] }] }
    root.writeFault? path = none ∧
      ∃ root', o.save root path = .ok root' ∧
        load ((root'.find path).bind Node.text) = .ok o := by
  intro root path o
  have h : root.writeFault? path = none := by decide
  obtain ⟨root', hsave, -, hload⟩ := o.saved_outline_loads.2 root path h
  exact ⟨h, root', hsave, hload⟩

end Outline

end Sidebar
