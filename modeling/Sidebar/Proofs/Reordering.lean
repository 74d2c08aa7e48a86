import Sidebar.Page
import Sidebar.Proofs.OutlinePage
import Sidebar.Proofs.Panels

namespace Sidebar

def Element.mark (e : Element) : String × Category := (e.id, e.category)

namespace Document

variable {d d' : Document} {k : Category}

def marks (d : Document) : List (String × Category) := d.elements.toList.map Element.mark

/-- Whether the pages have each id under each category equally often. -/
def Reordered (d d' : Document) : Prop := d.marks.Perm d'.marks

theorem has_iff_mem_marks {id : String} : d.Has k id ↔ (id, k) ∈ d.marks := by
  simp only [marks, List.mem_map, Array.mem_toList_iff, Element.mark, Prod.mk.injEq]
  constructor
  · rintro ⟨e, he, hk, hid⟩
    exact ⟨e, he, hid, hk⟩
  · rintro ⟨e, he, hid, hk⟩
    exact ⟨e, he, hk, hid⟩

theorem reordered_ofElements {es es' : List Element}
    (h : (es.map Element.mark).Perm (es'.map Element.mark)) :
    (ofElements es).Reordered (ofElements es') := by
  rw [Reordered, marks, marks, toList_ofElements, toList_ofElements]
  exact h

theorem Reordered.sameEntries (h : d.Reordered d') : d.SameEntries d' := by
  intro k id
  rw [has_iff_mem_marks, has_iff_mem_marks]
  exact h.mem_iff

/-- The ids of a category that are the text of an address, one for each element. -/
def idsAt (d : Document) (k : Category) (a? : Option Address) : List String :=
  (d.marks.filter fun (id, k') => k' = k && a?.any fun a => id = a.text).map Prod.fst

theorem Reordered.idsAt_eq (h : d.Reordered d') (k : Category) (a? : Option Address) :
    d.idsAt k a? = d'.idsAt k a? := by
  have hperm : (d.idsAt k a?).Perm (d'.idsAt k a?) := (List.Perm.filter _ h).map _
  cases a? with
  | none => simp [idsAt]
  | some a =>
    have hall (d : Document) : ∀ id ∈ d.idsAt k (some a), id = a.text := by
      simp [idsAt]
    rw [List.eq_replicate_of_mem (hall d), List.eq_replicate_of_mem (hall d'), hperm.length_eq]

theorem outIds_eq_filter (d : Document) (k : Category) :
    d.outIds k =
      (d.elements.toList.filter fun e => e.category = k && k.isOut e.style).map Element.id := by
  rw [outIds, byCategory_eq_filter, List.filter_filter]
  simp only [Bool.and_comm]

theorem LooksAs.outIds_eq (h : d.LooksAs d' k) : d.outIds k = d'.outIds k := by
  have hlook (d : Document) : d.outIds k =
      (((d.byCategory k).map fun e => (e.id, k.isOut e.style)).filter Prod.snd).map Prod.fst := by
    rw [outIds, List.filter_map, List.map_map]
    rfl
  rw [hlook, hlook, h]

theorem BringsOut.outIds_eq {a? : Option Address} (h : d.BringsOut k a?) :
    d.outIds k = d.idsAt k a? := by
  rw [outIds_eq_filter, idsAt, marks, List.filter_map, List.map_map]
  change _ = List.map Element.id _
  congr 1
  apply List.filter_congr
  intro e he
  by_cases hk : e.category = k
  · have hout := h e (Array.mem_toList_iff.1 he) hk
    have hany : k.isOut e.style = a?.any fun a => e.id = a.text := by
      rw [Bool.eq_iff_iff, hout]
      simp [Option.any_eq_true]
    simp [hk, hany, Element.mark]
  · simp [hk, Element.mark]

theorem Unstyled.outIds_eq (h : d.Unstyled) (k : Category) : d.outIds k = [] := by
  rw [outIds, List.map_eq_nil_iff, List.filter_eq_nil_iff]
  intro e he
  rw [h.isOut_eq (mem_byCategory.1 he).1]
  exact Bool.false_ne_true

end Document

namespace Page

theorem style_of_finding? {t : Markup.Tag} {e : Element} (h : finding? t = some (.element e)) :
    e.style = {} := by
  simp only [finding?, Option.bind_eq_bind, Option.bind_eq_some_iff] at h
  obtain ⟨k, -, h⟩ := h
  split at h
  · cases h
  · cases h
  · cases h
    rfl

theorem unstyled_read (html : String) : (read html).Unstyled := by
  apply Document.unstyled_ofElements
  intro e he
  obtain ⟨f, hf, he⟩ := List.mem_filterMap.1 he
  cases f with
  | withoutId k => cases he
  | element e' =>
    cases he
    obtain ⟨t, -, ht⟩ := List.mem_filterMap.1 hf
    exact style_of_finding? ht

end Page

theorem Outline.unstyled_document (o : Outline) : o.document.Unstyled := by
  apply Document.unstyled_ofElements
  intro e he
  obtain ⟨k, a, label, -, rfl⟩ := mem_elements.1 he
  rfl

namespace Session

open Selection

variable {s s' : Session} {k : Category} {actions : List Action}

/-- Whether two sessions differ in nothing but the look and the order of their pages. -/
structure Parallel (s s' : Session) : Prop where
  entries : s.page.SameEntries s'.page
  classSelection : s.classSelection = s'.classSelection
  memberSelection : s.memberSelection = s'.memberSelection
  lastIndex : s.lastIndex = s'.lastIndex

namespace Parallel

theorem navigate (h : s.Parallel s') (id : NavId) (offset : Int) :
    s.navigate id offset = s'.navigate id offset := by
  rw [Session.navigate, Session.navigate, h.lastIndex]
  exact h.entries.walk _ _ _ _

theorem target (h : s.Parallel s') (way : Direction) : s.target way = s'.target way := by
  rw [Session.target, Session.target, h.lastIndex, h.memberSelection, h.entries.memberBeside?]

theorem select (h : s.Parallel s') (x : Selection) : (s.select x).Parallel (s'.select x) where
  entries := ((s.sameEntries_select x).trans h.entries).trans (s'.sameEntries_select x).symm
  classSelection := by
    cases x with
    | ofClass c => rfl
    | ofMember m => exact h.classSelection
  memberSelection := by
    cases x with
    | ofClass c => exact h.memberSelection
    | ofMember m => rfl
  lastIndex := by cases x <;> exact h.lastIndex

theorem indexMembers (h : s.Parallel s') : s.indexMembers.Parallel s'.indexMembers where
  entries := h.entries
  classSelection := h.classSelection
  memberSelection := h.memberSelection
  lastIndex := LastIndex.ofDocument_congr h.entries

theorem selections (h : s.Parallel s') (a : Action) : s.selections a = s'.selections a := by
  cases a with
  | press key =>
    rw [Session.selections, Session.selections]
    cases key.direction? with
    | none => rfl
    | some way => simp only [h.target]
  | load | indexMembers | selectClass c | selectMember m | openClass c => rfl

theorem act (h : s.Parallel s') (a : Action) : (s.act a).Parallel (s'.act a) := by
  have htwo (x y : Selection) := (h.select x).select y
  cases a with
  | load => exact (htwo (.ofClass 1) (.ofMember (.firstOf 1))).indexMembers
  | indexMembers => exact h.indexMembers
  | selectClass c => exact h.select (.ofClass c)
  | selectMember m => exact h.select (.ofMember m)
  | openClass c => exact htwo (.ofClass c) (.ofMember (.firstOf c))
  | press key =>
    rw [Session.act, Session.act, press, press]
    cases key.direction? with
    | none => exact h
    | some way =>
      simp only [h.target]
      exact htwo (.ofClass _) (.ofMember _)

theorem run (h : s.Parallel s') (actions : List Action) :
    (s.run actions).Parallel (s'.run actions) := by
  induction actions generalizing s s' with
  | nil => exact h
  | cons a actions ih => exact ih (h.act a)

theorem trace (h : s.Parallel s') (actions : List Action) :
    s.trace actions = s'.trace actions := by
  induction actions generalizing s s' with
  | nil => rfl
  | cons a actions ih => rw [Session.trace, Session.trace, h.selections, ih (h.act a)]

end Parallel

theorem marks_run (s : Session) (actions : List Action) :
    (s.run actions).page.marks = s.page.marks := by
  rw [Document.marks, Document.marks, elements_run, List.map_map]
  apply List.map_congr_left
  intro e _
  rw [Function.comp_apply, Element.mark, id_applyAll, category_applyAll, Element.mark]

/-- A category that no selection decided shows what it showed, any other one what the last selection
that decided it brought out. -/
theorem outIds_run (s : Session) (actions : List Action) (k : Category) :
    (s.run actions).page.outIds k =
      (last? (outcome? k) (s.trace actions)).elim (s.page.outIds k) (s.page.idsAt k) := by
  have h := s.shows_run actions k
  cases hlast : last? (outcome? k) (s.trace actions) with
  | none =>
    rw [hlast] at h
    exact Document.LooksAs.outIds_eq h
  | some a? =>
    rw [hlast] at h
    rw [Document.BringsOut.outIds_eq h, Document.idsAt, marks_run]
    rfl

section Reordered

variable (h : s.page.Reordered s'.page) (hp : s.Parallel s')
include h hp

theorem outIds_run_congr
    (hk : (last? (outcome? k) (s.trace actions)).isSome ∨ s.page.outIds k = s'.page.outIds k) :
    (s.run actions).page.outIds k = (s'.run actions).page.outIds k := by
  rw [outIds_run, outIds_run, ← hp.trace]
  cases hlast : last? (outcome? k) (s.trace actions) with
  | some a? => exact h.idsAt_eq k a?
  | none =>
    rw [hlast] at hk
    exact hk.resolve_left Bool.false_ne_true

theorem outIds_run_congr_of_map {f : Selection → Option α} {g : α → Option Address}
    (hf : ∀ x, outcome? k x = (f x).map g)
    (hk : (last? f (s.trace actions)).isSome ∨ s.page.outIds k = s'.page.outIds k) :
    (s.run actions).page.outIds k = (s'.run actions).page.outIds k := by
  refine outIds_run_congr h hp (hk.imp_left ?_)
  rw [last?_map hf, Option.isSome_map]
  exact id

theorem memberIds_run_congr
    (hm : (lastMember? (s.trace actions)).isSome ∨
      s.page.outIds .constructorEntry ++ s.page.outIds .methodEntry =
        s'.page.outIds .constructorEntry ++ s'.page.outIds .methodEntry) :
    (s.run actions).page.outIds .constructorEntry ++ (s.run actions).page.outIds .methodEntry =
      (s'.run actions).page.outIds .constructorEntry ++
        (s'.run actions).page.outIds .methodEntry := by
  by_cases hlast : (lastMember? (s.trace actions)).isSome
  · have hconstructor := outIds_run_congr_of_map (k := .constructorEntry) h hp (fun _ => rfl)
      (.inl hlast)
    have hmethod := outIds_run_congr_of_map (k := .methodEntry) h hp (fun _ => rfl) (.inl hlast)
    rw [hconstructor, hmethod]
  · have hundecided {k : Category} {g : MemberId → Option Address}
        (hk : ∀ x, outcome? k x = x.member?.map g) :
        last? (outcome? k) (s.trace actions) = none := by
      rw [last?_map hk, ← lastMember?, Option.not_isSome_iff_eq_none.1 hlast, Option.map_none]
    have hconstructor := hundecided (k := .constructorEntry) fun _ => rfl
    have hmethod := hundecided (k := .methodEntry) fun _ => rfl
    rw [outIds_run, outIds_run, outIds_run, outIds_run, ← hp.trace, hconstructor, hmethod]
    exact hm.resolve_left hlast

theorem view_run_congr
    (hview : s.view = s'.view ∨
      (lastClass? (s.trace actions)).isSome ∧ (lastMember? (s.trace actions)).isSome) :
    (s.run actions).view = (s'.run actions).view := by
  have hrun := hp.run actions
  have hclass := hview.symm.imp_left And.left
  have hpanel : (last? some (s.trace actions)).isSome ∨ s.view = s'.view := by
    refine hclass.imp_left ?_
    rw [last?_some, List.getLast?_isSome]
    intro hlast hnil
    rw [hnil] at hlast
    exact absurd hlast Bool.false_ne_true
  rw [view_eq_outIds, view_eq_outIds, View.mk.injEq]
  exact ⟨hrun.classSelection, hrun.memberSelection,
    outIds_run_congr_of_map h hp (fun _ => rfl) (hclass.imp_right (congrArg View.activeClasses)),
    memberIds_run_congr h hp (hview.symm.imp And.right (congrArg View.activeMembers)),
    outIds_run_congr_of_map h hp (fun _ => rfl) (hclass.imp_right (congrArg View.memberLists)),
    outIds_run_congr_of_map h hp (fun _ => rfl) (hclass.imp_right (congrArg View.classPanels)),
    outIds_run_congr_of_map h hp (fun _ => rfl) (hpanel.imp_right (congrArg View.memberPanels))⟩

end Reordered

theorem view_eq_of_unstyled (h : s.page.Unstyled) (h' : s'.page.Unstyled) (hp : s.Parallel s') :
    s.view = s'.view := by
  simp only [view_eq_outIds, h.outIds_eq, h'.outIds_eq, hp.classSelection, hp.memberSelection]

/-- Sessions on pages that differ in the order and the labels of their elements answer alike after
the same actions. They show the same too, if the pages came unstyled, as those do that are read or
made from an outline, or if they showed the same to begin with, or once a class and a member were
selected. -/
theorem reordered_pages_answer_alike {d d' : Document} (h : d.Reordered d')
    (actions : List Action) :
    let s : Session := { page := d }
    let s' : Session := { page := d' }
    let t := s.run actions
    let t' := s'.run actions
    (d.Unstyled ∧ d'.Unstyled ∨ s.view = s'.view ∨
        (lastClass? (s.trace actions)).isSome ∧ (lastMember? (s.trace actions)).isSome →
      t.view = t'.view) ∧
      (∀ key, (t.keyDown key).1 = (t'.keyDown key).1) ∧
      t.lastIndex = t'.lastIndex ∧
      t.page.members = t'.page.members ∧
      ∀ id offset, t.navigate id offset = t'.navigate id offset := by
  intro s s' t t'
  have hp : s.Parallel s' := ⟨h.sameEntries, rfl, rfl, rfl⟩
  have ht : t.Parallel t' := hp.run actions
  refine ⟨?_, fun _ => rfl, ht.lastIndex, ht.entries.members, ht.navigate⟩
  rintro (⟨hd, hd'⟩ | hview)
  · exact view_run_congr h hp (.inl (view_eq_of_unstyled hd hd' hp))
  · exact view_run_congr h hp hview

theorem reordered_pages_answer_alike_duplicates :
    let d : Document := .ofElements [
      ⟨"nav_1", .classEntry, some "Storage", {}⟩,
      ⟨"nav_1", .methodEntry, none, {}⟩,
      ⟨"nav_1_2", .methodEntry, some "open", {}⟩,
      ⟨"nav_1", .classEntry, none, {}⟩,
      ⟨"nav_1_1", .constructorEntry, none, {}⟩]
    let d' : Document := .ofElements [
      ⟨"nav_1_1", .constructorEntry, some "new", {}⟩,
      ⟨"nav_1", .classEntry, none, {}⟩,
      ⟨"nav_1_2", .methodEntry, none, {}⟩,
      ⟨"nav_1", .methodEntry, some "other", {}⟩,
      ⟨"nav_1", .classEntry, none, {}⟩]
    let actions : List Action := [.indexMembers, .press .pageDown, .selectMember ⟨1, 2⟩]
    d.Reordered d' ∧ (d.Unstyled ∧ d'.Unstyled) ∧
      (Session.run { page := d } actions).view = (Session.run { page := d' } actions).view := by
  intro d d' actions
  have h : d.Reordered d' := Document.reordered_ofElements (by decide)
  have hunstyled : d.Unstyled ∧ d'.Unstyled :=
    ⟨Document.unstyled_ofElements (by decide), Document.unstyled_ofElements (by decide)⟩
  exact ⟨h, hunstyled, (reordered_pages_answer_alike h actions).1 (.inl hunstyled)⟩

/-- An element that came in bold tells two such pages apart, as long as no class is selected. -/
theorem views_differ_prestyled :
    let d : Document := .ofElements [⟨"nav_1", .classEntry, none, Style.activate {}⟩]
    let d' : Document := .ofElements [⟨"nav_1", .classEntry, none, {}⟩]
    let actions : List Action := [.selectMember ⟨1, 1⟩]
    d.Reordered d' ∧
      (Session.run { page := d } actions).view ≠ (Session.run { page := d' } actions).view := by
  intro d d' actions
  have h : d.Reordered d' := Document.reordered_ofElements (by decide)
  refine ⟨h, fun hview => ?_⟩
  have hout : d.outIds .classEntry = d'.outIds .classEntry :=
    calc d.outIds .classEntry
      _ = (Session.run { page := d } actions).page.outIds .classEntry :=
        (outIds_run { page := d } actions .classEntry).symm
      _ = (Session.run { page := d' } actions).page.outIds .classEntry :=
        congrArg View.activeClasses hview
      _ = d'.outIds .classEntry := outIds_run { page := d' } actions .classEntry
  rw [Document.outIds_eq_filter, Document.outIds_eq_filter, Document.toList_ofElements,
    Document.toList_ofElements] at hout
  exact absurd hout (by decide)

end Session

end Sidebar
