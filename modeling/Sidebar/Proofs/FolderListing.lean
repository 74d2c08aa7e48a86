import Mathlib.Data.List.Lex
import Mathlib.Data.List.Sort
import Mathlib.Data.String.Basic
import Sidebar.Files
import Sidebar.Proofs.AddressText

namespace Sidebar.Files

theorem comesFirst_iff {as bs : List String} : comesFirst as bs = true ↔ as < bs ∨ as = bs := by
  induction as generalizing bs with
  | nil =>
    cases bs with
    | nil => exact iff_of_true rfl (.inr rfl)
    | cons b bs => exact iff_of_true rfl (.inl (List.nil_lt_cons b bs))
  | cons a as ih =>
    cases bs with
    | nil => exact iff_of_false Bool.false_ne_true (by simp)
    | cons b bs =>
      rw [comesFirst, List.cons_lt_cons_iff]
      by_cases h : a = b
      · subst h
        simp [ih]
      · simp [h]

theorem comesFirst_trans {as bs cs : List String} (h : comesFirst as bs = true)
    (h' : comesFirst bs cs = true) : comesFirst as cs = true := by
  rw [comesFirst_iff] at h h' ⊢
  rcases h with h | rfl
  · rcases h' with h' | rfl
    · exact .inl (lt_trans h h')
    · exact .inl h
  · exact h'

theorem comesFirst_total (as bs : List String) :
    (comesFirst as bs || comesFirst bs as) = true := by
  rw [Bool.or_eq_true, comesFirst_iff, comesFirst_iff]
  rcases lt_trichotomy as bs with h | h | h
  · exact .inl (.inl h)
  · exact .inl (.inr h)
  · exact .inr (.inl h)

/-- Whether the last name has the extension `html` or `htm` and something in front of it. -/
def IsPagePath (names : List String) : Prop :=
  ∃ folders stem, stem ≠ "" ∧
    (names = folders ++ [stem ++ ".html"] ∨ names = folders ++ [stem ++ ".htm"])

theorem fields_eq_nil_singleton_iff {sep : Char} {cs : List Char} :
    fields sep cs = [[]] ↔ cs = [] := by
  constructor
  · intro h
    rw [← intercalate_fields sep cs, h]
    rfl
  · rintro rfl
    rfl

theorem nameExtension?_of_notMem {cs : List Char} (h : '.' ∉ cs) :
    nameExtension? (String.ofList cs) = none := by
  rw [nameExtension?, String.toList_ofList, fields_of_notMem h]
  rfl

theorem nameExtension?_append (stem : List Char) {extension : List Char} (h : '.' ∉ extension) :
    nameExtension? (String.ofList (stem ++ '.' :: extension)) =
      if stem = [] then none else some (String.ofList extension) := by
  have hlength : ¬ (fields '.' stem ++ [extension]).length < 2 := by
    have := List.length_pos_iff.2 (fields_ne_nil '.' stem)
    rw [List.length_append, List.length_singleton]
    omega
  simp only [nameExtension?, String.toList_ofList, fields_append_sep, fields_of_notMem h, hlength,
    false_or, List.dropLast_concat, fields_eq_nil_singleton_iff, List.getLast?_concat,
    Option.map_some]

theorem exists_eq_append_dot {cs : List Char} (h : '.' ∈ cs) :
    ∃ stem extension, cs = stem ++ '.' :: extension ∧ '.' ∉ extension := by
  obtain ⟨after, before, hcs, hafter⟩ := List.eq_append_cons_of_mem (List.mem_reverse.2 h)
  refine ⟨before.reverse, after.reverse, ?_, mt List.mem_reverse.1 hafter⟩
  rw [← List.reverse_reverse cs, hcs]
  simp

theorem nameExtension?_eq_some_iff {name extension : String} :
    nameExtension? name = some extension ↔
      ∃ stem, stem ≠ "" ∧ '.' ∉ extension.toList ∧ name = stem ++ "." ++ extension := by
  constructor
  · intro h
    by_cases hdot : '.' ∈ name.toList
    · obtain ⟨stem, after, hchars, hafter⟩ := exists_eq_append_dot hdot
      have hname : name = String.ofList (stem ++ '.' :: after) := by
        rw [← hchars, String.ofList_toList]
      rw [hname, nameExtension?_append _ hafter] at h
      split at h
      · cases h
      next hstem =>
        cases h
        refine ⟨String.ofList stem, ?_, by rwa [String.toList_ofList], ?_⟩
        · exact fun hempty => hstem (String.ofList_eq_empty_iff.1 hempty)
        · rw [hname]
          apply String.toList_injective
          simp
    · rw [← String.ofList_toList (s := name), nameExtension?_of_notMem hdot] at h
      cases h
  · rintro ⟨stem, hstem, hdot, rfl⟩
    have hname : stem ++ "." ++ extension =
        String.ofList (stem.toList ++ '.' :: extension.toList) := by
      apply String.toList_injective
      simp
    rw [hname, nameExtension?_append _ hdot, if_neg, String.ofList_toList]
    exact fun hnil => hstem (String.toList_eq_nil_iff.1 hnil)

theorem isPageName_iff {names : List String} : isPageName names = true ↔ IsPagePath names := by
  rcases List.eq_nil_or_concat names with rfl | ⟨folders, name, rfl⟩
  · simp [isPageName, IsPagePath]
  · have hextension : isPageName (folders ++ [name]) = true ↔
        nameExtension? name = some "html" ∨ nameExtension? name = some "htm" := by
      rw [isPageName, List.getLast?_concat, Option.bind_some]
      cases nameExtension? name with
      | none => simp
      | some extension => simp
    have hhtml (stem : String) : stem ++ "." ++ "html" = stem ++ ".html" := String.append_assoc
    have hhtm (stem : String) : stem ++ "." ++ "htm" = stem ++ ".htm" := String.append_assoc
    rw [List.concat_eq_append, hextension, nameExtension?_eq_some_iff, nameExtension?_eq_some_iff]
    constructor
    · rintro (⟨stem, hstem, -, rfl⟩ | ⟨stem, hstem, -, rfl⟩)
      · exact ⟨folders, stem, hstem, .inl (by rw [hhtml])⟩
      · exact ⟨folders, stem, hstem, .inr (by rw [hhtm])⟩
    · rintro ⟨folders', stem, hstem, h | h⟩
      · have hname : name = stem ++ ".html" := List.singleton_inj.1 (List.append_inj' h rfl).2
        exact .inl ⟨stem, hstem, by decide, hname.trans (hhtml stem).symm⟩
      · have hname : name = stem ++ ".htm" := List.singleton_inj.1 (List.append_inj' h rfl).2
        exact .inr ⟨stem, hstem, by decide, hname.trans (hhtm stem).symm⟩

namespace Node

/-- Whether the names lead down from a node to a file with this content. -/
inductive Holds : Node → List String → Except Fault ByteArray → Prop
  | here (content) : Holds (.file content) [] content
  | inside {entries name node names content} (hentry : (name, node) ∈ entries)
    (h : Holds node names content) : Holds (.folder entries) (name :: names) content

/-- Whether no folder has two entries of one name. -/
inductive IsTree : Node → Prop
  | file (content) : IsTree (.file content)
  | special (content) : IsTree (.special content)
  | folder {entries} (hnames : (entries.map Prod.fst).Nodup)
    (hentries : ∀ entry ∈ entries, IsTree entry.2) : IsTree (.folder entries)

variable {node : Node} {names : List String} {content : Except Fault ByteArray}

theorem files_folder (entries : List (String × Node)) :
    files (.folder entries) = entries.flatMap fun entry =>
      (files entry.2).map fun found => (entry.1 :: found.1, found.2) := by
  rw [files]
  induction entries with
  | nil => rfl
  | cons entry entries ih => rw [files.below, ih, List.flatMap_cons]

theorem mem_files_folder {entries : List (String × Node)} :
    (names, content) ∈ files (.folder entries) ↔
      ∃ name node rest, names = name :: rest ∧ (name, node) ∈ entries ∧
        (rest, content) ∈ files node := by
  rw [files_folder, List.mem_flatMap]
  constructor
  · rintro ⟨⟨name, node⟩, hentry, hfound⟩
    obtain ⟨⟨rest, content⟩, hrest, hpair⟩ := List.mem_map.1 hfound
    cases hpair
    exact ⟨name, node, rest, rfl, hentry, hrest⟩
  · rintro ⟨name, node, rest, rfl, hentry, hrest⟩
    exact ⟨(name, node), hentry, List.mem_map.2 ⟨(rest, content), hrest, rfl⟩⟩

theorem holds_of_mem_files (h : (names, content) ∈ files node) : node.Holds names content := by
  induction names generalizing node with
  | nil =>
    cases node with
    | file content' =>
      cases List.mem_singleton.1 h
      exact .here content
    | folder entries =>
      obtain ⟨name, node, rest, hnames, -⟩ := mem_files_folder.1 h
      cases hnames
    | special content' => cases h
  | cons name names ih =>
    cases node with
    | file content' => cases List.mem_singleton.1 h
    | folder entries =>
      obtain ⟨name, node, rest, hnames, hentry, hrest⟩ := mem_files_folder.1 h
      cases hnames
      exact .inside hentry (ih hrest)
    | special content' => cases h

theorem mem_files : (names, content) ∈ files node ↔ node.Holds names content := by
  constructor
  · exact holds_of_mem_files
  · intro h
    induction h with
    | here content => exact List.mem_singleton_self _
    | inside hentry h ih => exact mem_files_folder.2 ⟨_, _, _, rfl, hentry, ih⟩

theorem pairwise_files (h : node.IsTree) : (files node).Pairwise fun a b => a.1 ≠ b.1 := by
  induction h with
  | file content => exact List.pairwise_singleton _ _
  | special content => exact .nil
  | @folder entries hnames hentries ih =>
    rw [files_folder, List.pairwise_flatMap]
    constructor
    · intro entry hentry
      rw [List.pairwise_map]
      exact (ih entry hentry).imp fun hne he => hne (List.cons_inj_right _ |>.1 he)
    · refine (List.pairwise_map.1 hnames).imp fun hne a ha b hb he => ?_
      obtain ⟨a', -, rfl⟩ := List.mem_map.1 ha
      obtain ⟨b', -, rfl⟩ := List.mem_map.1 hb
      exact hne (List.cons.inj he).1

/-- Whether a list has the pages below a node, each once, in the order of their paths. -/
structure IsListing (node : Node) (pages : List (List String × Except Fault ByteArray)) : Prop where
  ascending : pages.Pairwise fun a b => a.1 < b.1
  mem_iff : ∀ names content,
    (names, content) ∈ pages ↔ node.Holds names content ∧ IsPagePath names

theorem IsListing.unique {node' : Node} {pages pages' : List (List String × Except Fault ByteArray)}
    (h : node.IsListing pages) (h' : node'.IsListing pages')
    (hsame : ∀ names content, node.Holds names content ↔ node'.Holds names content) :
    pages = pages' := by
  have hmem (page : List String × Except Fault ByteArray) : page ∈ pages ↔ page ∈ pages' := by
    rw [h.mem_iff, h'.mem_iff, hsame]
  have : Std.Irrefl fun a b : List String × Except Fault ByteArray => a.1 < b.1 :=
    ⟨fun a => lt_irrefl a.1⟩
  have : Std.Antisymm fun a b : List String × Except Fault ByteArray => a.1 < b.1 :=
    ⟨fun a b hab hba => absurd hab (lt_asymm hba)⟩
  exact List.Subset.antisymm_of_pairwise h.ascending h'.ascending (fun p => (hmem p).1)
    fun p => (hmem p).2

def pagesBelow (node : Node) : List (List String × Except Fault ByteArray) :=
  (node.files.filter fun (names, _) => isPageName names).mergeSort fun a b => comesFirst a.1 b.1

theorem isListing_pagesBelow (h : node.IsTree) : node.IsListing node.pagesBelow where
  ascending := by
    have hperm := List.mergeSort_perm (node.files.filter fun (names, _) => isPageName names)
      fun a b => comesFirst a.1 b.1
    have hne : node.pagesBelow.Pairwise fun a b => a.1 ≠ b.1 :=
      hperm.symm.pairwise ((pairwise_files h).filter _) Ne.symm
    have htrans (a b c : List String × Except Fault ByteArray) (hab : comesFirst a.1 b.1 = true)
        (hbc : comesFirst b.1 c.1 = true) : comesFirst a.1 c.1 = true := comesFirst_trans hab hbc
    have htotal (a b : List String × Except Fault ByteArray) :
        (comesFirst a.1 b.1 || comesFirst b.1 a.1) = true := comesFirst_total a.1 b.1
    have hle : node.pagesBelow.Pairwise fun a b => comesFirst a.1 b.1 = true :=
      List.pairwise_mergeSort htrans htotal _
    refine (hle.and hne).imp fun ⟨hab, hne⟩ => ?_
    exact (comesFirst_iff.1 hab).resolve_right hne
  mem_iff names content := by
    rw [pagesBelow, List.mem_mergeSort, List.mem_filter, mem_files, isPageName_iff]

end Node

/-- The path by which a page below a folder is opened. -/
def pagePath (path : String) (names : List String) : String := names.foldl join path

theorem pagesAt_folder {entries : List (String × Node)}
    {pages : List (List String × Except Fault ByteArray)} (path : String)
    (h : (Node.folder entries).IsTree) (hpages : (Node.folder entries).IsListing pages) :
    pagesAt path (.ok (.folder entries)) =
      pages.map fun page => (pagePath path page.1, .file page.2) := by
  rw [hpages.unique (Node.isListing_pagesBelow h) fun _ _ => .rfl]
  rfl

end Sidebar.Files
