import Sidebar.Command.Run
import Sidebar.Document.Scan
import Sidebar.Proofs.FolderListing
import Sidebar.Proofs.OutlineCheck
import Sidebar.Proofs.RenderedPage

namespace Sidebar

open Files (Fault Node pagePath)

namespace Page

/-- Whether a file is a text that has navigation and keeps the contract. -/
def Passes (content : Except Fault ByteArray) : Prop :=
  ∃ html : String, content = .ok html.toUTF8 ∧ elements html ≠ [] ∧ (read html).check = []

theorem size_read_eq_zero_iff {html : String} : (read html).size = 0 ↔ elements html = [] := by
  rw [Document.size, ← Array.length_toList, read, Document.toList_ofElements,
    List.length_eq_zero_iff]

theorem passes_toUTF8_iff {html : String} :
    Passes (.ok html.toUTF8) ↔ elements html ≠ [] ∧ (read html).check = [] := by
  constructor
  · rintro ⟨html', hcontent, h⟩
    rw [String.toByteArray_inj.1 (Except.ok.inj hcontent)]
    exact h
  · intro h
    exact ⟨html, rfl, h⟩

end Page

namespace Command

variable {verbose : Bool} {path : String} {pages : List (List String × Except Fault ByteArray)}

/-- What is said of the page at a path by what the file there has in it. -/
inductive Judges (verbose : Bool) (path : String) : Except Fault ByteArray → String → Prop
  | unreadable (fault : Fault) :
    Judges verbose path (.error fault) s!"✗ {path}: Failed to read page {path}: {fault.message}\n"
  | notText {bytes} (h : ∀ html : String, bytes ≠ html.toUTF8) :
    Judges verbose path (.ok bytes)
      s!"✗ {path}: Failed to read page {path}: {Fault.notText.message}\n"
  | noNavigation {html : String} (h : Page.elements html = []) :
    Judges verbose path (.ok html.toUTF8) s!"✗ {path}: Page {path} has no navigation elements\n"
  | clean {html : String} (h : Page.elements html ≠ []) (hcheck : (Page.read html).check = []) :
    Judges verbose path (.ok html.toUTF8)
      (let d := Page.read html
      s!"✓ {path} ({d.classIds.length} classes, {d.members.length} members)\n")
  | broken {html : String} (h : Page.elements html ≠ []) (hcheck : (Page.read html).check ≠ []) :
    Judges verbose path (.ok html.toUTF8)
      (let issues := (Page.read html).check
      s!"✗ {path} ({issues.length} issues)\n" ++
        if verbose then "".intercalate (issues.map fun i => s!"    - {i.message}\n") else "")

theorem reportLines_unreadable (verbose : Bool) (path : String) (fault : Fault) :
    reportLines verbose path (.error (.unreadable path fault)) =
      s!"✗ {path}: Failed to read page {path}: {fault.message}\n" := by
  have hline : reportLines verbose path (.error (.unreadable path fault)) =
      "✗ " ++ path ++ ": " ++ ("Failed to read page " ++ path ++ ": " ++ fault.message) ++ "\n" :=
    rfl
  have hwords : ": Failed to read page " = ": " ++ "Failed to read page " := rfl
  rw [hline, hwords]
  simp only [toString, String.append_assoc]

theorem reportLines_noNavigation (verbose : Bool) (path : String) :
    reportLines verbose path (.error (.noNavigation path)) =
      s!"✗ {path}: Page {path} has no navigation elements\n" := by
  have hline : reportLines verbose path (.error (.noNavigation path)) =
      "✗ " ++ path ++ ": " ++ ("Page " ++ path ++ " has no navigation elements") ++ "\n" := rfl
  have hwords : ": Page " = ": " ++ "Page " := rfl
  have hend : " has no navigation elements\n" = " has no navigation elements" ++ "\n" := rfl
  rw [hline, hwords, hend]
  simp only [toString, String.append_assoc]

theorem ofFile_toUTF8 (path html : String) :
    Report.ofFile path (.file (.ok html.toUTF8)) =
      if Page.elements html = [] then .error (.noNavigation path)
      else .ok (.ofDocument path (Page.read html)) := by
  rw [Report.ofFile, Node.text_file_toUTF8, Page.load]
  by_cases h : Page.elements html = []
  · rw [if_pos h, if_pos (Page.size_read_eq_zero_iff.2 h)]
    rfl
  · rw [if_neg h, if_neg (mt Page.size_read_eq_zero_iff.1 h)]
    rfl

theorem ofFile_of_ne {bytes : ByteArray} (path : String)
    (h : ∀ html : String, bytes ≠ html.toUTF8) :
    Report.ofFile path (.file (.ok bytes)) = .error (.unreadable path .notText) := by
  rw [Report.ofFile, Node.text_file_of_ne h]
  rfl

theorem judges_reportLines (verbose : Bool) (path : String) (content : Except Fault ByteArray) :
    Judges verbose path content
      (reportLines verbose path (Report.ofFile path (.file content))) := by
  cases content with
  | error fault =>
    change Judges verbose path _ (reportLines verbose path (.error (.unreadable path fault)))
    rw [reportLines_unreadable]
    exact .unreadable fault
  | ok bytes =>
    by_cases htext : ∃ html : String, bytes = html.toUTF8
    · obtain ⟨html, rfl⟩ := htext
      rw [ofFile_toUTF8]
      by_cases h : Page.elements html = []
      · rw [if_pos h, reportLines_noNavigation]
        exact .noNavigation h
      · rw [if_neg h]
        change Judges verbose path _ (if (Page.read html).check.isEmpty then _ else _)
        by_cases hcheck : (Page.read html).check = []
        · rw [if_pos (List.isEmpty_iff.2 hcheck)]
          exact .clean h hcheck
        · rw [if_neg (mt List.isEmpty_iff.1 hcheck)]
          exact .broken h hcheck
    · have hbytes : ∀ html : String, bytes ≠ html.toUTF8 := not_exists.1 htext
      rw [ofFile_of_ne path hbytes, reportLines_unreadable]
      exact .notText hbytes

theorem isCleanReport_ofFile_iff (path : String) (content : Except Fault ByteArray) :
    isCleanReport (Report.ofFile path (.file content)) = true ↔ Page.Passes content := by
  cases content with
  | error fault =>
    refine iff_of_false Bool.false_ne_true ?_
    rintro ⟨html, hcontent, -⟩
    cases hcontent
  | ok bytes =>
    by_cases htext : ∃ html : String, bytes = html.toUTF8
    · obtain ⟨html, rfl⟩ := htext
      rw [ofFile_toUTF8, Page.passes_toUTF8_iff]
      by_cases h : Page.elements html = []
      · rw [if_pos h]
        exact iff_of_false Bool.false_ne_true fun hpasses => hpasses.1 h
      · rw [if_neg h, and_iff_right h]
        exact List.isEmpty_iff
    · rw [ofFile_of_ne path (not_exists.1 htext)]
      refine iff_of_false Bool.false_ne_true ?_
      rintro ⟨html, hcontent, -⟩
      exact htext ⟨html, Except.ok.inj hcontent⟩

/-- What a check prints of a page below the folder at `path`. -/
def result (verbose : Bool) (path : String)
    (page : List String × Except Fault ByteArray) : String :=
  let path := pagePath path page.1
  reportLines verbose path (Report.ofFile path (.file page.2))

section Folder

variable {entries : List (String × Node)} (htree : (Node.folder entries).IsTree)
  (hpages : (Node.folder entries).IsListing pages)

include htree hpages

theorem output_runCheck :
    (runCheck path verbose (.ok (.folder entries))).output =
      if pages = [] then ""
      else s!"Checking {pages.length} pages...\n" ++
        "".intercalate (pages.map (result verbose path)) := by
  delta runCheck
  rw [Files.pagesAt_folder path htree hpages]
  cases pages with
  | nil => rfl
  | cons first rest =>
    rw [if_neg (List.cons_ne_nil first rest)]
    simp only [List.map_cons, List.map_map, List.length_cons, List.length_map]
    rfl

theorem status_runCheck_eq_zero_iff :
    (runCheck path verbose (.ok (.folder entries))).status = 0 ↔
      pages ≠ [] ∧ ∀ page ∈ pages, Page.Passes page.2 := by
  delta runCheck
  rw [Files.pagesAt_folder path htree hpages]
  cases pages with
  | nil =>
    have hone : ¬ (1 : UInt8) = 0 := by decide
    exact iff_of_false hone fun h => h.1 rfl
  | cons first rest =>
    have hall : ((first :: rest).all fun page =>
        isCleanReport (Report.ofFile (pagePath path page.1) (.file page.2))) = true ↔
          ∀ page ∈ first :: rest, Page.Passes page.2 := by
      rw [List.all_eq_true]
      exact forall₂_congr fun page _ => isCleanReport_ofFile_iff (pagePath path page.1) page.2
    rw [and_iff_right (List.cons_ne_nil first rest), ← hall]
    simp only [List.map_cons, List.map_map, List.all_cons, List.all_map]
    split
    next hpass => exact iff_of_true rfl hpass
    next hpass => exact iff_of_false (by decide) hpass

end Folder

def cleanOutline : Outline where
  classes := [{ name := "Point", members := [{ name := "norm & length" }] }]

def cleanPage : String := Page.render cleanOutline.elements

theorem passes_cleanPage : Page.Passes (.ok cleanPage.toUTF8) := by
  have helements : Page.elements cleanPage = cleanOutline.elements := by
    have hlabels : cleanOutline.elements.map Element.asRead = cleanOutline.elements := by decide
    have hrenderable : ∀ e ∈ cleanOutline.elements, e.IsRenderable := by decide
    rw [cleanPage, Page.elements_render hrenderable, hlabels]
  have hread : Page.read cleanPage = cleanOutline.document := by
    rw [Page.read, helements, Outline.document]
  have hnumberable : cleanOutline.Numberable := ⟨by decide, by decide⟩
  rw [Page.passes_toUTF8_iff, helements, hread, hnumberable.check_document]
  decide

/-- A clean page, another node in a folder beside it, and an empty folder named like a page. -/
def sampleSite (other : Node) : List (String × Node) := [
  ("old.html", .folder []),
  ("a", .folder [("index.htm", other)]),
  ("b.html", .file (.ok cleanPage.toUTF8))]

theorem isTree_sampleSite {other : Node} (h : other.IsTree) :
    (Node.folder (sampleSite other)).IsTree := by
  have hempty : (Node.folder []).IsTree := .folder List.nodup_nil (List.forall_mem_nil _)
  have hinner : (Node.folder [("index.htm", other)]).IsTree :=
    .folder (List.nodup_singleton _) (List.forall_mem_singleton.2 h)
  have hnames : ["old.html", "a", "b.html"].Nodup := by decide
  refine .folder hnames (List.forall_mem_cons.2 ⟨hempty, ?_⟩)
  exact List.forall_mem_cons.2 ⟨hinner, List.forall_mem_singleton.2 (.file _)⟩

theorem holds_sampleSite {other : Node} {names : List String} {content : Except Fault ByteArray} :
    (Node.folder (sampleSite other)).Holds names content ↔
      (∃ rest, names = "a" :: "index.htm" :: rest ∧ other.Holds rest content) ∨
        (names = ["b.html"] ∧ content = .ok cleanPage.toUTF8) := by
  constructor
  · intro h
    cases h with
    | inside hentry h =>
      simp only [sampleSite, List.mem_cons, List.not_mem_nil, or_false, Prod.mk.injEq] at hentry
      obtain ⟨rfl, rfl⟩ | ⟨rfl, rfl⟩ | ⟨rfl, rfl⟩ := hentry
      · cases h with
        | inside hentry => cases hentry
      · cases h with
        | inside hentry h =>
          cases List.mem_singleton.1 hentry
          exact .inl ⟨_, rfl, h⟩
      · cases h
        exact .inr ⟨rfl, rfl⟩
  · rintro (⟨rest, rfl, h⟩ | ⟨rfl, rfl⟩)
    · exact .inside (.tail _ (.head _)) (.inside (.head _) h)
    · exact .inside (.tail _ (.tail _ (.head _))) (.here _)

end Command

end Sidebar
