import Sidebar.Proofs.WrittenSource

namespace Sidebar.Toml

variable {key : String} {rows : Rows}

theorem set_append (h : rows.lookup key = none) (item : Item) (more : Rows) :
    Rows.set key item (rows ++ more) = rows ++ Rows.set key item more := by
  induction rows with
  | nil => rfl
  | cons row rows ih =>
    obtain ⟨k, old⟩ := row
    rw [List.lookup_cons] at h
    split at h
    next => cases h
    next hne =>
      have hk : k ≠ key := (beq_eq_false_iff_ne.1 hne).symm
      rw [List.cons_append, Rows.set, if_neg hk, ih h, List.cons_append]

def Line.row (l : Line) : String × Item := (l.key, .value l.content.value)

theorem insertAll_lines {lines : List Line} (hnew : ∀ l ∈ lines, rows.lookup l.key = none)
    (hnodup : (lines.map Line.key).Nodup) :
    rows.insertAll (lines.map Line.pair) = some (rows ++ lines.map Line.row) := by
  induction lines generalizing rows with
  | nil => exact congrArg some (List.append_nil rows).symm
  | cons l lines ih =>
    obtain ⟨hl, hlines⟩ := List.forall_mem_cons.1 hnew
    obtain ⟨hne, hnodup⟩ := List.nodup_cons.1 hnodup
    have hinsert : rows.insert [] l.key l.content.value = some (rows ++ [l.row]) := by
      change rows.add l.key l.content.value = _
      rw [Rows.add, hl]
      rfl
    have hrest : Rows.insertAll (rows ++ [l.row]) (lines.map Line.pair) =
        some (rows ++ [l.row] ++ lines.map Line.row) := by
      refine ih (fun l' hl' => ?_) hnodup
      have hkey : l'.key ≠ l.key := fun heq => hne (heq ▸ List.mem_map_of_mem hl')
      rw [List.lookup_append, hlines l' hl', Line.row, List.lookup_cons, beq_false_of_ne hkey]
      rfl
    rw [List.map_cons, Rows.insertAll, List.foldlM_cons]
    change (rows.insert [] l.key l.content.value).bind _ = _
    rw [hinsert]
    change Rows.insertAll (rows ++ [l.row]) (lines.map Line.pair) = _
    rw [hrest, List.map_cons, List.append_assoc, List.singleton_append]

/-- Rows with an array of tables after them, if that has any elements. -/
def withTables (rows : Rows) (key : String) : List Rows → Rows
  | [] => rows
  | element :: elements => rows ++ [(key, .tables (element :: elements))]

variable {e : Entry} {elements : List Rows}

theorem lookup_withTables (hkey : rows.lookup key = none) :
    (withTables rows key elements).lookup key =
      if elements = [] then none else some (.tables elements) := by
  cases elements with
  | nil => exact hkey
  | cons element elements =>
    rw [withTables, List.lookup_append, hkey, List.lookup_cons_self]
    rfl

theorem set_withTables (hkey : rows.lookup key = none) (elements : List Rows)
    {elements' : List Rows} (hne : elements' ≠ []) :
    (withTables rows key elements).set key (.tables elements') =
      withTables rows key elements' := by
  have hset (more : Rows)
      (hmore : Rows.set key (.tables elements') more = [(key, .tables elements')]) :
      Rows.set key (.tables elements') (rows ++ more) = withTables rows key elements' := by
    rw [set_append hkey, hmore]
    cases elements' with
    | nil => exact absurd rfl hne
    | cons element' elements' => rfl
  cases elements with
  | nil =>
    have h := hset [] rfl
    rwa [List.append_nil] at h
  | cons element elements => exact hset _ (if_pos rfl)

theorem place_withTables (hkey : rows.lookup e.key = none) (hnodup : (e.lines.map Line.key).Nodup) :
    e.toSection.place (withTables rows e.key elements) =
      some (withTables rows e.key (elements ++ [e.lines.map Line.row])) := by
  have hlines : Rows.insertAll [] (e.lines.map Line.pair) = some (e.lines.map Line.row) :=
    insertAll_lines (fun _ _ => rfl) hnodup
  have hset := set_withTables hkey elements
    (List.concat_ne_nil (e.lines.map Line.row) elements)
  rw [Section.place, Entry.toSection, lookup_withTables hkey]
  cases elements with
  | nil =>
    rw [if_pos rfl]
    change (Rows.insertAll [] (e.lines.map Line.pair)).bind _ = _
    rw [hlines]
    exact congrArg some hset
  | cons element elements =>
    rw [if_neg (List.cons_ne_nil _ _)]
    change (Rows.insertAll [] (e.lines.map Line.pair)).bind _ = _
    rw [hlines]
    exact congrArg some hset

def placeEntry (rows : Rows) (e : Entry) : Option Rows :=
  Rows.change .passage (fun _ => e.toSection.place) e.path .header rows

theorem placeEntry_top (hpath : e.path = []) (hkey : rows.lookup e.key = none)
    (hnodup : (e.lines.map Line.key).Nodup) :
    placeEntry (withTables rows e.key elements) e =
      some (withTables rows e.key (elements ++ [e.lines.map Line.row])) := by
  rw [placeEntry, hpath]
  exact place_withTables hkey hnodup

/-- An entry below a key is added to the element that was added last at this key. -/
theorem placeEntry_inner {head : Rows} {inner : List Rows} (hpath : e.path = [key])
    (hkey : rows.lookup key = none) (hinner : head.lookup e.key = none)
    (hnodup : (e.lines.map Line.key).Nodup) :
    placeEntry (withTables rows key (elements ++ [withTables head e.key inner])) e =
      some (withTables rows key
        (elements ++ [withTables head e.key (inner ++ [e.lines.map Line.row])])) := by
  have hset := set_withTables hkey (elements ++ [withTables head e.key inner])
    (List.concat_ne_nil (withTables head e.key (inner ++ [e.lines.map Line.row])) elements)
  rw [placeEntry, hpath, Rows.change, lookup_withTables hkey, if_neg (by simp)]
  dsimp only
  rw [List.getLast?_concat, List.dropLast_concat]
  change (e.toSection.place (withTables head e.key inner)).bind _ = _
  rw [place_withTables hinner hnodup]
  exact congrArg some hset

/-- The tables of a document are those of its lines with its entries added one by one. -/
theorem table?_eq {lines : List Line} (hnodup : (lines.map Line.key).Nodup) (es : List Entry) :
    Source.table? ⟨lines.map Line.pair, es.map Entry.toSection⟩ =
      (es.foldlM placeEntry (lines.map Line.row)).map rowValues := by
  have hlines : Rows.insertAll [] (lines.map Line.pair) = some (lines.map Line.row) :=
    insertAll_lines (fun _ _ => rfl) hnodup
  rw [Source.table?]
  dsimp only
  rw [hlines]
  change ((es.map Entry.toSection).foldlM (fun rows s =>
    Rows.change .passage (fun _ => s.place) s.path .header rows) (lines.map Line.row)).bind _ = _
  rw [List.foldlM_map]
  change (es.foldlM placeEntry (lines.map Line.row)).bind _ = _
  cases es.foldlM placeEntry (lines.map Line.row) <;> rfl

theorem rowValues_eq_map (rows : Rows) :
    rowValues rows = rows.map fun row => (row.1, row.2.toValue) := by
  induction rows with
  | nil => rfl
  | cons row rows ih => rw [rowValues, ih, List.map_cons]

theorem elementValues_eq_map (elements : List Rows) :
    elementValues elements = elements.map fun rows => .table (rowValues rows) := by
  induction elements with
  | nil => rfl
  | cons rows elements ih => rw [elementValues, ih, List.map_cons]

def lineValues (lines : List Line) : Table := lines.map fun l => (l.key, l.content.value)

theorem rowValues_lines (lines : List Line) :
    rowValues (lines.map Line.row) = lineValues lines := by
  rw [rowValues_eq_map, List.map_map]
  rfl

theorem rowValues_withTables (lines : List Line) (key : String) (elements : List Rows) :
    rowValues (withTables
        ((lines ++ if elements.isEmpty then [Line.mk key .noItems] else []).map Line.row) key
        elements) =
      lineValues lines ++
        [(key, .array (elements.map fun rows => .table (rowValues rows)))] := by
  cases elements with
  | nil =>
    rw [List.isEmpty_nil, if_pos rfl, withTables, rowValues_lines, lineValues, List.map_append]
    rfl
  | cons element elements =>
    rw [List.isEmpty_cons, if_neg Bool.false_ne_true, List.append_nil, withTables, rowValues_eq_map,
      List.map_append, ← rowValues_eq_map, rowValues_lines, ← elementValues_eq_map]
    rfl

end Sidebar.Toml
