import Sidebar.Proofs.OnPage

namespace Sidebar

def Element.bare (e : Element) : Element := { e with style := {} }

namespace Document

variable {d d' d'' : Document} {k : Category}

def bareElements (d : Document) : List Element := d.elements.toList.map Element.bare

structure Restyled (d d' : Document) : Prop where
  elements : d.bareElements = d'.bareElements
  firstPlace : d.firstPlace = d'.firstPlace
  places : d.places = d'.places

/-- Whether the pages answer alike whatever is looked up, apart from the styles of what is found. -/
structure LooksUpAlike (d d' : Document) : Prop where
  size : d.size = d'.size
  contains : ∀ id, d.contains id = d'.contains id
  get? : ∀ id, (d.get? id).map Element.bare = (d'.get? id).map Element.bare
  byCategory : ∀ k, (d.byCategory k).map Element.bare = (d'.byCategory k).map Element.bare
  count : ∀ k, d.count k = d'.count k
  hasEntry : ∀ id, d.hasEntry id = d'.hasEntry id
  classIds : d.classIds = d'.classIds
  membersByClass : d.membersByClass = d'.membersByClass

theorem length_bareElements (d : Document) : d.bareElements.length = d.size := by
  rw [bareElements, List.length_map, Array.length_toList, size]

theorem map_bare_get? (d : Document) (id : String) :
    (d.get? id).map Element.bare = d.bareElements.find? fun e => e.id = id := by
  rw [get?_eq_find?, bareElements, List.find?_map]
  rfl

theorem map_bare_byCategory (d : Document) (k : Category) :
    (d.byCategory k).map Element.bare = d.bareElements.filter fun e => e.category = k := by
  rw [byCategory_eq_filter, bareElements, List.filter_map]
  rfl

theorem has_iff_mem_bareElements {id : String} :
    d.Has k id ↔ ∃ e ∈ d.bareElements, e.category = k ∧ e.id = id := by
  simp [Has, bareElements, Element.bare]

theorem sameEntries_of_bareElements (h : d.bareElements = d'.bareElements) : d.SameEntries d' := by
  intro k id
  rw [has_iff_mem_bareElements, has_iff_mem_bareElements, h]

namespace Restyled

theorem trans (h : d.Restyled d') (h' : d'.Restyled d'') : d.Restyled d'' :=
  ⟨h.elements.trans h'.elements, h.firstPlace.trans h'.firstPlace, h.places.trans h'.places⟩

theorem sameEntries (h : d.Restyled d') : d.SameEntries d' :=
  sameEntries_of_bareElements h.elements

theorem looksUpAlike (h : d.Restyled d') : d.LooksUpAlike d' where
  size := by rw [← length_bareElements, ← length_bareElements, h.elements]
  contains id := by rw [contains, contains, h.firstPlace]
  get? id := by rw [map_bare_get?, map_bare_get?, h.elements]
  byCategory k := by rw [map_bare_byCategory, map_bare_byCategory, h.elements]
  count k := by rw [count, count, h.places]
  hasEntry := h.sameEntries.hasEntry
  classIds := h.sameEntries.classIds
  membersByClass := by rw [membersByClass, membersByClass, h.sameEntries.members]

end Restyled

end Document

namespace Session

theorem restyled_select (s : Session) (x : Selection) : (s.select x).page.Restyled s.page where
  elements := by
    rw [Document.bareElements, elements_select, List.map_map]
    rfl
  firstPlace := by cases x <;> rfl
  places := by cases x <;> rfl

theorem restyled_run (s : Session) (actions : List Action) :
    (s.run actions).page.Restyled s.page := by
  apply run_preserves (P := fun t _ => t.page.Restyled s.page)
  · intro t _ x h
    exact (t.restyled_select x).trans h
  · intro t _ h
    exact h
  · exact ⟨rfl, rfl, rfl⟩

/-- From the loading of a page on, what is done changes the styles of its elements and nothing else.
The table of last members stays the one of the page that was loaded, navigation answers as it did
then, and a key leads to the same member from wherever that member was come to, on this page or on
one that was loaded with other styles. -/
theorem selecting_keeps_navigation (s : Session) (actions : List Action) :
    let t := s.load.run actions
    t.page.Restyled s.page ∧
      t.page.LooksUpAlike s.page ∧
      t.lastIndex = s.indexMembers.lastIndex ∧
      (∀ id offset, t.navigate id offset = s.load.navigate id offset) ∧
      t.page.members = s.load.page.members ∧
      ∀ (s' : Session) (actions' : List Action), s'.page.bareElements = s.page.bareElements →
        let t' := s'.load.run actions'
        t'.memberSelection = t.memberSelection →
          ∀ key, (t'.press key).memberSelection = (t.press key).memberSelection := by
  intro t
  have hpage : t.page.Restyled s.page := s.restyled_run (.load :: actions)
  have hload : s.load.page.SameEntries s.page := s.sameEntries_load_run []
  have hindexed : t.Indexed := s.indexed_load_run actions
  refine ⟨hpage, hpage.looksUpAlike, hindexed.lastIndex_eq hpage.sameEntries, ?_, ?_, ?_⟩
  · intro id offset
    rw [navigate_eq hpage.sameEntries hindexed, navigate_eq hload (s.indexed_load_run [])]
  · exact hpage.sameEntries.members.trans hload.members.symm
  · intro s' actions' hs' t' hmember key
    have hbare := (s'.restyled_run (.load :: actions')).elements.trans hs'
    have hpage' : t'.page.SameEntries s.page := Document.sameEntries_of_bareElements hbare
    rw [memberSelection_press hpage' (s'.indexed_load_run actions'),
      memberSelection_press hpage.sameEntries hindexed, hmember]

/-- The second member of the first class, come to in two ways, the second time on a page that was
left with its second class open. -/
theorem selecting_keeps_navigation_samplePage :
    let s : Session := { page := Document.samplePage }
    let s' : Session := { page := (s.selectClass 2).page }
    let t := s.load.run [.selectMember ⟨1, 2⟩]
    let t' := s'.load.run [.press .pageDown, .openClass 2, .indexMembers, .selectMember ⟨1, 2⟩]
    (s'.page.bareElements = s.page.bareElements ∧ t'.memberSelection = t.memberSelection) ∧
      (t'.press .pageDown).memberSelection = (t.press .pageDown).memberSelection := by
  intro s s' t t'
  have hpage : s'.page.bareElements = s.page.bareElements :=
    (s.restyled_select (.ofClass 2)).elements
  have hmember : t.memberSelection = ⟨1, 2⟩ := rfl
  have hmember' : t'.memberSelection = ⟨1, 2⟩ := rfl
  have hsame := hmember'.trans hmember.symm
  obtain ⟨-, -, -, -, -, hkey⟩ := selecting_keeps_navigation s [.selectMember ⟨1, 2⟩]
  exact ⟨⟨hpage, hsame⟩, hkey s' _ hpage hsame .pageDown⟩

end Session

end Sidebar
