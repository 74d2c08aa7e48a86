import Sidebar.Proofs.Contract
import Sidebar.Proofs.OutlinePage

namespace Sidebar

theorem flatMap_ite {α β : Type} (p : α → Bool) (f : α → β) (xs : List α) :
    (xs.flatMap fun x => if p x then [f x] else []) = (xs.filter p).map f := by
  induction xs with
  | nil => rfl
  | cons x xs ih => by_cases h : p x <;> simp [h, ih]

namespace Document

theorem check_eq (d : Document) :
    d.check =
      d.idIssues ++ numberingIssues d.classIds ++
      (d.classIds.flatMap fun c => d.classIssues c (d.indicesOf c)) ++
      (d.membersByClass.flatMap fun (c, indices) => d.memberIssues d.classIds c indices) ++
      d.constructorIssues :=
  rfl

theorem numberingIssues_upTo (n : UInt32) : numberingIssues (upTo n) = [] := by
  rw [numberingIssues_eq_nil_iff (pairwise_upTo n)]
  refine (em (upTo n = [])).imp_right ?_
  intro hne
  exact ⟨n, upTo_ne_nil_iff.1 hne, List.erase_of_not_mem (by simp)⟩

end Document

theorem MemberKind.category_eq_constructorEntry_iff {k : MemberKind} :
    k.category = .constructorEntry ↔ k = .constructor := by
  cases k <;> decide

namespace DocumentedClass

theorem filter_panels (c : DocumentedClass) (n : UInt32) :
    ((c.panels n).filter fun e => e.category = .constructorEntry) = [] := by
  simp only [panels, List.filter_eq_nil_iff, List.mem_cons, List.mem_map]
  rintro e (rfl | ⟨p, -, rfl⟩) <;> simp

theorem constructors_sidebar (c : DocumentedClass) (n : UInt32) :
    ((c.sidebar n).filter fun e => e.category = .constructorEntry).filterMap
        Document.entryMember? =
      ((numbered c.members).filter fun (_, m) => m.kind = .constructor).map fun (i, _) =>
        ⟨n, i⟩ := by
  have hmember (i : UInt32) (k : Category) (label : Option String) :
      Document.entryMember? ⟨(NavId.memberId ⟨n, i⟩).nav.text, k, label, {}⟩ = some ⟨n, i⟩ :=
    Document.entryMember?_eq_some_iff.2 rfl
  simp [sidebar, List.filter_map, List.filterMap_map, Function.comp_def,
    MemberKind.category_eq_constructorEntry_iff, hmember]

end DocumentedClass

namespace Outline

/-- The classes that have no members, by their numbers. -/
def emptyClasses (o : Outline) : List UInt32 :=
  ((numbered o.classes).filter fun (_, c) => c.members.isEmpty).map Prod.fst

/-- The constructors that are not the first member of their class, in page order. -/
def lateMembers (o : Outline) : List MemberId :=
  (numbered o.classes).flatMap fun (n, c) =>
    ((numbered c.members).filter fun (i, m) => m.kind = .constructor ∧ i ≠ 1).map fun (i, _) =>
      ⟨n, i⟩

/-- The page lists the constructors class by class. -/
theorem filter_constructorEntry (o : Outline) :
    (o.document.byCategory .constructorEntry).filterMap Document.entryMember? =
      (numbered o.classes).flatMap fun (n, c) =>
        ((numbered c.members).filter fun (_, m) => m.kind = .constructor).map fun (i, _) =>
          ⟨n, i⟩ := by
  rw [Document.byCategory_eq_filter, toList_elements_document, elements, List.filter_append,
    List.filter_flatMap, List.filter_flatMap, List.filterMap_append, List.filterMap_flatMap]
  simp only [DocumentedClass.filter_panels, DocumentedClass.constructors_sidebar]
  simp

theorem constructorIssues_document (o : Outline) :
    o.document.constructorIssues = o.lateMembers.map .misplacedConstructor := by
  rw [Document.constructorIssues, filter_constructorEntry, lateMembers, List.filter_flatMap]
  simp [List.filter_map, List.filter_filter, Function.comp_def, Bool.and_comm]

namespace Numberable

variable {o : Outline} {n : UInt32} {c : DocumentedClass}

theorem classIssues_document (h : o.Numberable) (hc : (n, c) ∈ numbered o.classes) :
    o.document.classIssues n (o.document.indicesOf n) =
      if c.members.isEmpty then [.emptyClass n] else [] := by
  have hpanels : o.document.panelIssues (.classId n)
      [⟨.list, .classId n⟩, ⟨.description, .classId n⟩] = [] := by
    rw [Document.panelIssues_eq_nil_iff]
    simp [contains_document (.memberList hc), contains_document (.classPanel hc)]
  have hgaps : gaps ((numbered c.members).map Prod.fst) = [] := by
    rw [map_fst_numbered (h.length_members_lt hc), gaps_eq_nil_iff (pairwise_upTo _)]
    exact ⟨_, List.erase_of_not_mem (by simp)⟩
  rw [Document.classIssues, hpanels, h.indicesOf_document hc, hgaps]
  simp [numbered]

theorem memberIssues_document (h : o.Numberable) :
    (o.document.membersByClass.flatMap fun (c, indices) =>
      o.document.memberIssues o.document.classIds c indices) = [] := by
  rw [Document.flatMap_memberIssues_eq_nil_iff]
  intro m hm
  obtain ⟨c, x, hc, hx⟩ := mem_members_document.1 hm
  refine ⟨?_, contains_document (.memberPanel hc hx)⟩
  rw [h.classIds_document]
  exact List.mem_map.2 ⟨_, hc, rfl⟩

theorem flatMap_classIssues_document (h : o.Numberable) :
    (o.document.classIds.flatMap fun c =>
      o.document.classIssues c (o.document.indicesOf c)) = o.emptyClasses.map .emptyClass := by
  have hrow : ∀ p ∈ numbered o.classes,
      o.document.classIssues p.1 (o.document.indicesOf p.1) =
        if p.2.members.isEmpty then [.emptyClass p.1] else [] := by
    rintro ⟨n, c⟩ hc
    exact h.classIssues_document hc
  rw [h.classIds_document, List.flatMap_map, List.flatMap_congr hrow, emptyClasses, List.map_map]
  exact flatMap_ite (fun p : UInt32 × DocumentedClass => p.2.members.isEmpty)
    (fun p => Issue.emptyClass p.1) _

theorem check_document (h : o.Numberable) :
    o.document.check =
      o.emptyClasses.map .emptyClass ++ o.lateMembers.map .misplacedConstructor := by
  rw [Document.check_eq, Document.idIssues_eq_nil_iff.2 ⟨h.distinctIds, wellNamed_document o⟩,
    h.flatMap_classIssues_document, h.memberIssues_document, constructorIssues_document,
    h.classIds_document, map_fst_numbered h.length_classes_lt, Document.numberingIssues_upTo,
    List.append_nil]
  rfl

theorem lateMembers_eq_nil_iff (h : o.Numberable) :
    o.lateMembers = [] ↔ ∀ c ∈ o.classes, c.lateConstructors = [] := by
  rw [lateMembers, List.flatMap_eq_nil_iff]
  refine (forall₂_congr ?_).trans forall_mem_numbered
  rintro ⟨n, c⟩ hc
  simp only [List.map_eq_nil_iff, DocumentedClass.lateConstructors, List.filter_eq_nil_iff,
    decide_eq_true_eq, mem_tail_iff (h.length_members_lt hc)]
  constructor
  · rintro hnone m ⟨i, hm, hi⟩ hkind
    exact hnone (i, m) hm ⟨hkind, hi⟩
  · rintro hnone ⟨i, m⟩ hm ⟨hkind, hi⟩
    exact hnone m ⟨i, hm, hi⟩ hkind

end Numberable

theorem emptyClasses_eq_nil_iff {o : Outline} :
    o.emptyClasses = [] ↔ ∀ c ∈ o.classes, c.members ≠ [] := by
  rw [emptyClasses, List.map_eq_nil_iff, List.filter_eq_nil_iff]
  refine (forall₂_congr ?_).trans forall_mem_numbered
  rintro ⟨n, c⟩ _
  exact List.isEmpty_iff.not

/-- The check of the page of an outline lists the classes without members and the constructors that
are not in the first place, and nothing else. -/
theorem check_lists_faults (o : Outline) (h : o.Numberable) :
    o.document.check =
        o.emptyClasses.map .emptyClass ++ o.lateMembers.map .misplacedConstructor ∧
      (o.document.check = [] ↔
        ∀ c ∈ o.classes, c.members ≠ [] ∧ c.lateConstructors = []) := by
  refine ⟨h.check_document, ?_⟩
  rw [h.check_document, List.append_eq_nil_iff, List.map_eq_nil_iff, List.map_eq_nil_iff,
    emptyClasses_eq_nil_iff, h.lateMembers_eq_nil_iff, ← forall₂_and]

/-- Two classes, the first with its constructor in the second place and the other without members.
-/
def sampleOutline : Outline where
  classes := [
    { name := "Storage", members := [{ name := "open" }, { name := "new", kind := .constructor }] },
    { name := "Storage" }]

theorem check_lists_faults_sampleOutline :
    sampleOutline.Numberable ∧
      sampleOutline.document.check = [.emptyClass 2, .misplacedConstructor ⟨1, 2⟩] := by
  have h : sampleOutline.Numberable := by
    constructor
    · decide
    · decide
  exact ⟨h, (check_lists_faults sampleOutline h).1⟩

end Outline

end Sidebar
