import Mathlib.Data.List.Basic
import Sidebar.Files
import Sidebar.Proofs.AddressText

namespace Sidebar.Files.Node

variable {root node : Node}

def child? : Node → String → Option Node
  | folder entries, name => entries.lookup name
  | file _, _ | special _, _ => none

def at? (root : Node) (names : List String) : Option Node := names.foldlM child? root

theorem at?_cons (root : Node) (name : String) (names : List String) :
    root.at? (name :: names) = (root.child? name).bind fun node => node.at? names :=
  List.foldlM_cons

theorem at?_concat (root : Node) (names : List String) (name : String) :
    root.at? (names ++ [name]) = (root.at? names).bind fun node => node.child? name := by
  simp only [at?, List.foldlM_append, List.foldlM_cons, List.foldlM_nil, bind_pure]
  rfl

theorem lookup_filter_ne (entries : List (String × Node)) {name other : String} :
    (entries.filter fun entry => entry.1 ≠ name).lookup other =
      if other = name then none else entries.lookup other := by
  induction entries with
  | nil => exact (ite_self _).symm
  | cons entry entries ih =>
    by_cases hentry : entry.1 = name
    · rw [List.filter_cons_of_neg (by simp [hentry]), ih]
      split
      next => rfl
      next hother => rw [List.lookup_cons, hentry, beq_false_of_ne hother]
    · rw [List.filter_cons_of_pos (by simp [hentry]), List.lookup_cons, List.lookup_cons, ih]
      split
      next hbeq =>
        rw [beq_iff_eq] at hbeq
        rw [if_neg (hbeq ▸ hentry)]
      next => rfl

theorem child?_put (leaf : Node) (name : String) (names : List String) (here : Node)
    (other : String) :
    (put leaf (name :: names) here).child? other =
      if other = name then some (put leaf names ((here.child? name).getD (.folder [])))
      else here.child? other := by
  have hput (entries : List (String × Node)) (inner : Node) :
      ((entries.filter fun entry => entry.1 ≠ name) ++ [(name, inner)]).lookup other =
        if other = name then some inner else entries.lookup other := by
    rw [List.lookup_append, lookup_filter_ne, List.lookup_cons]
    split
    next hother => rw [hother, beq_self_eq_true, Option.none_or]
    next hother => rw [beq_false_of_ne hother]; exact Option.or_none
  cases here with
  | file content | special content => exact hput [] _
  | folder entries => exact hput entries _

theorem at?_put (leaf : Node) (names : List String) (root : Node) :
    (put leaf names root).at? names = some leaf := by
  induction names generalizing root with
  | nil => rfl
  | cons name names ih => rw [at?_cons, child?_put, if_pos rfl, Option.bind_some, ih]

/-- Folders stay folders, unless a file is put in the place of one. -/
theorem exists_folder_at?_put {names place : List String} {entries : List (String × Node)}
    (h : root.at? place = some (.folder entries))
    (htarget : ∀ entries, root.at? names ≠ some (.folder entries)) (leaf : Node) :
    ∃ entries', (put leaf names root).at? place = some (.folder entries') := by
  induction names generalizing root place with
  | nil =>
    cases root with
    | folder rootEntries => exact absurd rfl (htarget rootEntries)
    | file content | special content =>
      cases place with
      | nil => cases h
      | cons name place => cases h
  | cons name names ih =>
    cases place with
    | nil => exact ⟨_, rfl⟩
    | cons other place =>
      rw [at?_cons] at h ⊢
      obtain ⟨inner, hinner, h⟩ := Option.bind_eq_some_iff.1 h
      by_cases hname : other = name
      · subst hname
        rw [child?_put, if_pos rfl, hinner, Option.bind_some, Option.getD_some]
        refine ih h fun entries hentries => htarget entries ?_
        rw [at?_cons, hinner, Option.bind_some, hentries]
      · rw [child?_put, if_neg hname, hinner, Option.bind_some]
        exact ⟨entries, h⟩

/-- The node at a place and the folders passed on the way to it, up to the root. -/
def passed? (root : Node) : List String → Option (List Node)
  | [] => some [root]
  | name :: place => do
    let nodes ← passed? root place
    let node ← (← nodes.head?).child? name
    return node :: nodes

theorem head?_of_passed? {place : List String} {nodes : List Node}
    (h : root.passed? place = some nodes) : nodes.head? = root.at? place.reverse := by
  induction place generalizing nodes with
  | nil =>
    cases h
    rfl
  | cons name place ih =>
    simp only [passed?, Option.bind_eq_bind, Option.bind_eq_some_iff, Option.pure_def,
      Option.some.injEq] at h
    obtain ⟨above, habove, here, hhere, node, hnode, rfl⟩ := h
    rw [List.reverse_cons, at?_concat, ← ih habove, hhere, Option.bind_some, hnode]
    rfl

theorem passed?_of_at? {place : List String} (h : root.at? place.reverse = some node) :
    ∃ nodes, root.passed? place = some (node :: nodes) := by
  induction place generalizing node with
  | nil =>
    cases h
    exact ⟨[], rfl⟩
  | cons name place ih =>
    rw [List.reverse_cons, at?_concat] at h
    obtain ⟨here, hhere, hnode⟩ := Option.bind_eq_some_iff.1 h
    obtain ⟨nodes, hnodes⟩ := ih hhere
    refine ⟨here :: nodes, ?_⟩
    rw [passed?, hnodes]
    change (here.child? name).bind _ = _
    rw [hnode]
    rfl

theorem exists_passed?_of_cons {place : List String} {name : String} {nodes : List Node}
    (h : root.passed? (name :: place) = some (node :: nodes)) :
    ∃ entries above, nodes = .folder entries :: above ∧ root.passed? place = some nodes := by
  simp only [passed?, Option.bind_eq_bind, Option.bind_eq_some_iff, Option.pure_def,
    Option.some.injEq, List.cons.injEq] at h
  obtain ⟨above, habove, here, hhere, child, hchild, rfl, rfl⟩ := h
  cases here with
  | file content | special content => cases hchild
  | folder entries => exact ⟨entries, above.tail, List.eq_cons_of_mem_head? hhere, habove⟩

theorem descend_cons {place : List String} {entries : List (String × Node)} {nodes : List Node}
    {c : String} (h : root.passed? place = some (.folder entries :: nodes))
    (hc : c = "" ∨ c = "." ∨ c = ".." ∨ c.utf8ByteSize ≤ 255) (cs : List String) :
    descend (.folder entries :: nodes) (c :: cs) =
      (root.passed? (follow place c)).elim (.error .notFound) fun nodes => descend nodes cs := by
  rw [descend, follow]
  by_cases hstay : c = "" ∨ c = "."
  · rw [if_pos hstay, if_pos hstay, h]
    rfl
  · rw [if_neg hstay, if_neg hstay]
    by_cases hup : c = ".."
    · rw [if_pos hup, if_pos hup]
      cases place with
      | nil =>
        cases h
        rfl
      | cons name place =>
        obtain ⟨entries', above, rfl, habove⟩ := exists_passed?_of_cons h
        rw [List.tail_cons, habove]
        rfl
    · have hsize : ¬ 255 < c.utf8ByteSize := by
        rcases hc with hc | hc | hc | hc
        · exact absurd (.inl hc) hstay
        · exact absurd (.inr hc) hstay
        · exact absurd hc hup
        · exact Nat.not_lt.2 hc
      have hpassed : root.passed? (c :: place) =
          (entries.lookup c).map fun inner => inner :: .folder entries :: nodes := by
        rw [passed?, h]
        change (entries.lookup c).bind _ = _
        cases entries.lookup c <;> rfl
      rw [if_neg hup, if_neg hsize, if_neg hup, hpassed]
      cases entries.lookup c <;> rfl

theorem descend_cons_of_long {entries : List (String × Node)} {nodes : List Node} {c : String}
    (hc : ¬ (c = "" ∨ c = "." ∨ c = ".." ∨ c.utf8ByteSize ≤ 255)) (cs : List String) :
    descend (.folder entries :: nodes) (c :: cs) = .error .nameTooLong := by
  obtain ⟨hempty, hdot, hup, hsize⟩ : c ≠ "" ∧ c ≠ "." ∧ c ≠ ".." ∧ 255 < c.utf8ByteSize := by
    simpa only [not_or, Nat.not_le] using hc
  rw [descend, if_neg (not_or.2 ⟨hempty, hdot⟩), if_neg hup, if_pos hsize]

theorem exists_folder_of_descend {nodes : List Node} {cs : List String}
    {entries : List (String × Node)} (h : descend nodes cs = .ok (.folder entries)) :
    ∃ entries' rest, nodes = .folder entries' :: rest := by
  cases nodes with
  | nil => cases cs <;> cases h
  | cons here rest =>
    cases here with
    | folder entries' => exact ⟨entries', rest, rfl⟩
    | file content | special content =>
      cases cs with
      | nil => cases h
      | cons c cs => cases h

/-- A path that leads to a folder leads to the same place in any tree that has folders wherever this
one has them, and goes on from there. -/
theorem descend_append {root root' : Node} {cs place : List String} {nodes nodes' : List Node}
    {entries : List (String × Node)}
    (hfolders : ∀ place entries, root.at? place = some (.folder entries) →
      ∃ entries', root'.at? place = some (.folder entries'))
    (hnodes : root.passed? place = some nodes) (hnodes' : root'.passed? place = some nodes')
    (h : descend nodes cs = .ok (.folder entries)) :
    root.at? (cs.foldl follow place).reverse = some (.folder entries) ∧
      ∃ after, root'.passed? (cs.foldl follow place) = some after ∧
        ∀ more, descend nodes' (cs ++ more) = descend after more := by
  obtain ⟨here, rest, rfl⟩ := exists_folder_of_descend h
  have hat : root.at? place.reverse = some (.folder here) := (head?_of_passed? hnodes).symm
  induction cs generalizing place nodes' here rest with
  | nil =>
    cases h
    exact ⟨hat, nodes', hnodes', fun _ => rfl⟩
  | cons c cs ih =>
    obtain ⟨here', hhere'⟩ := hfolders _ _ hat
    obtain ⟨rest', hrest'⟩ := passed?_of_at? hhere'
    cases hnodes'.symm.trans hrest'
    have hsize : c = "" ∨ c = "." ∨ c = ".." ∨ c.utf8ByteSize ≤ 255 := by
      by_contra hlong
      rw [descend_cons_of_long hlong] at h
      cases h
    rw [descend_cons hnodes hsize] at h
    cases hnext : root.passed? (follow place c) with
    | none =>
      rw [hnext] at h
      cases h
    | some next =>
      rw [hnext, Option.elim_some] at h
      obtain ⟨inner, above, rfl⟩ := exists_folder_of_descend h
      have hinner : root.at? (follow place c).reverse = some (.folder inner) :=
        (head?_of_passed? hnext).symm
      obtain ⟨inner', hinner'⟩ := hfolders _ _ hinner
      obtain ⟨above', habove'⟩ := passed?_of_at? hinner'
      obtain ⟨hend, after, hafter, hmore⟩ := ih habove' inner above hnext h hinner
      refine ⟨hend, after, hafter, fun more => ?_⟩
      rw [List.cons_append, descend_cons hnodes' hsize, habove', Option.elim_some, hmore]

theorem find_of_pathFault? {root : Node} {path : String} (h : pathFault? path = none) :
    root.find path = descend [root] (components path) := by
  rw [find, h]

theorem getLast?_fields {sep : Char} {cs : List Char} (h : (fields sep cs).getLast? = some []) :
    cs = [] ∨ cs.getLast? = some sep := by
  induction cs with
  | nil => exact .inl rfl
  | cons c cs ih =>
    right
    obtain ⟨field, rest, hfields⟩ := List.exists_cons_of_ne_nil (fields_ne_nil sep cs)
    rw [fields, hfields] at h
    rw [hfields] at ih
    split at h
    next hc =>
      rw [List.getLast?_cons_cons] at h
      rcases ih h with rfl | hlast
      · rw [hc]
        rfl
      · rw [List.getLast?_cons, hlast]
        rfl
    next =>
      cases rest with
      | nil => cases h
      | cons next rest =>
        rw [List.getLast?_cons_cons] at h ih
        rcases ih h with rfl | hlast
        · cases hfields
        · rw [List.getLast?_cons, hlast]
          rfl

theorem components_concat {path : String} (hpath : path ≠ "")
    (hslash : path.toList.getLast? ≠ some '/') :
    ∃ above c, components path = above ++ [c] ∧ c ≠ "" := by
  obtain ⟨above, field, hfields⟩ :=
    (List.eq_nil_or_concat' _).resolve_left (fields_ne_nil '/' path.toList)
  refine ⟨above.map String.ofList, String.ofList field, ?_, fun hempty => ?_⟩
  · rw [components, hfields, List.map_append]
    rfl
  · have hlast : (fields '/' path.toList).getLast? = some [] := by
      rw [hfields, List.getLast?_concat, String.ofList_eq_empty_iff.1 hempty]
    rcases getLast?_fields hlast with hnil | hslash'
    · exact hpath (String.toList_eq_nil_iff.1 hnil)
    · exact hslash hslash'

/-- What is there before a file is written: the folder that it goes into, and in its place nothing
or a file. -/
theorem writeFault?_eq_none {root : Node} {path : String} (h : root.writeFault? path = none) :
    pathFault? path = none ∧ ∃ above c entries, components path = above ++ [c] ∧ c ≠ "" ∧
      descend [root] above = .ok (.folder entries) ∧
      ((∃ content, descend [root] (above ++ [c]) = .ok (.file content)) ∨
        descend [root] (above ++ [c]) = .error .notFound) := by
  rw [writeFault?] at h
  split at h
  next => cases h
  next => cases h
  next => cases h
  next => cases h
  next hpath hparent =>
    split at h
    next => cases h
    next hslash =>
      have hempty : path ≠ "" := by
        rintro rfl
        cases hpath
      obtain ⟨above, c, hcomponents, hc⟩ := components_concat hempty hslash
      have hdrop : ((components path).reverse.dropWhile (· = "")).reverse.dropLast = above := by
        rw [hcomponents, List.reverse_concat, List.dropWhile_cons_of_neg (by simpa using hc),
          List.reverse_cons, List.reverse_reverse, List.dropLast_concat]
      rw [hdrop] at hparent
      rw [find_of_pathFault? hpath, hcomponents] at h
      refine ⟨hpath, above, c, _, hcomponents, hc, hparent, ?_⟩
      split at h
      next => cases h
      next => cases h
      next content hfile => exact .inl ⟨content, hfile⟩
      next hnone => exact .inr hnone
      next => cases h

theorem isName_of_free {place : List String} {entries : List (String × Node)} {nodes : List Node}
    {c : String} (hnodes : root.passed? place = some (.folder entries :: nodes)) (hc : c ≠ "")
    (hfree : (∃ content, descend (.folder entries :: nodes) [c] = .ok (.file content)) ∨
      descend (.folder entries :: nodes) [c] = .error .notFound) :
    follow place c = c :: place ∧ c.utf8ByteSize ≤ 255 ∧
      ∀ entries', root.at? (c :: place).reverse ≠ some (.folder entries') := by
  have hfolder (entries' : List (String × Node)) :
      descend (.folder entries :: nodes) [c] ≠ .ok (.folder entries') := by
    rintro h
    rcases hfree with ⟨content, hfile⟩ | hnone
    · cases h.symm.trans hfile
    · cases h.symm.trans hnone
  have hsize : c = "" ∨ c = "." ∨ c = ".." ∨ c.utf8ByteSize ≤ 255 := by
    by_contra hlong
    rw [descend_cons_of_long hlong] at hfree
    rcases hfree with ⟨content, hfile⟩ | hnone
    · cases hfile
    · cases hnone
  have hfollow {entries' above} :
      root.passed? (follow place c) ≠ some (.folder entries' :: above) := by
    intro h
    refine hfolder entries' ?_
    rw [descend_cons hnodes hsize, h]
    rfl
  have hdot : c ≠ "." := by
    rintro rfl
    exact hfollow hnodes
  have hup : c ≠ ".." := by
    rintro rfl
    cases place with
    | nil => exact hfollow hnodes
    | cons name place =>
      obtain ⟨entries', above, rfl, habove⟩ := exists_passed?_of_cons hnodes
      exact hfollow habove
  have hname : follow place c = c :: place := by
    rw [follow, if_neg (not_or.2 ⟨hc, hdot⟩), if_neg hup]
  refine ⟨hname, by simpa [hc, hdot, hup] using hsize, fun entries' hat => ?_⟩
  obtain ⟨above, habove⟩ := passed?_of_at? hat
  exact hfollow (hname ▸ habove)

/-- A file is found where it was written, with what was written. -/
theorem find_write {root root' : Node} {path text : String}
    (h : root.write path text = .ok root') : root'.find path = .ok (.file (.ok text.toUTF8)) := by
  rw [write] at h
  cases hfault : root.writeFault? path with
  | some fault =>
    rw [hfault] at h
    cases h
  | none =>
    rw [hfault] at h
    cases h
    obtain ⟨hpath, above, c, entries, hcomponents, hc, hparent, hfree⟩ := writeFault?_eq_none hfault
    have hroot : root.passed? [] = some [root] := rfl
    obtain ⟨hfolder, nodes, hnodes, hmore⟩ := descend_append (fun _ entries h => ⟨entries, h⟩) hroot
      hroot hparent
    obtain ⟨rest, hrest⟩ := passed?_of_at? hfolder
    cases hnodes.symm.trans hrest
    rw [hmore] at hfree
    obtain ⟨hname, hsize, hnoFolder⟩ := isName_of_free hnodes hc hfree
    have hnames : names path = (c :: above.foldl follow []).reverse := by
      rw [names, hcomponents, List.foldl_append, ← hname]
      rfl
    let leaf : Node := .file (.ok text.toUTF8)
    have hput : ∀ place entries, root.at? place = some (.folder entries) →
        ∃ entries', (put leaf (names path) root).at? place = some (.folder entries') :=
      fun _ _ h => exists_folder_at?_put h (hnames ▸ hnoFolder) leaf
    have hroot' : (put leaf (names path) root).passed? [] = some [put leaf (names path) root] := rfl
    obtain ⟨-, after, hafter, hmore'⟩ := descend_append hput hroot hroot' hparent
    obtain ⟨entries', hfolder'⟩ := hput _ _ hfolder
    obtain ⟨rest', hrest'⟩ := passed?_of_at? hfolder'
    cases hafter.symm.trans hrest'
    have hleaf :
        (put leaf (names path) root).at? (c :: above.foldl follow []).reverse = some leaf :=
      hnames ▸ at?_put leaf (names path) root
    obtain ⟨rest'', hrest''⟩ := passed?_of_at? hleaf
    rw [find_of_pathFault? hpath, hcomponents, hmore',
      descend_cons hafter (.inr (.inr (.inr hsize))), hname, hrest'']
    rfl

end Sidebar.Files.Node
