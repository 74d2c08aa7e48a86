import Mathlib.Algebra.BigOperators.Group.List.Basic
import Mathlib.Algebra.GroupWithZero.Nat
import Sidebar.Document.Scan

namespace Sidebar

/-- A change to a page: an element is added, or those of a category are visited and given styles. -/
inductive Edit : Type 1 where
  | push (id : String) (category : Category) (label : Option String)
  | visit {σ : Type} (category : Category) (visitor : σ → Element → σ × Style) (state : σ)

namespace Document

variable {σ : Type} {d : Document} {c : Category} {place : Nat}

def carried (visitor : σ → Element → σ × Style) (state : σ) (es : List Element) : σ :=
  es.foldl (fun state e => (visitor state e).1) state

/-- The elements after a visit. The style of each one of the category is what the visitor answers
after those of the category that stand before it. -/
def visited (c : Category) (visitor : σ → Element → σ × Style) (state : σ) (es : List Element) :
    List Element :=
  es.mapIdx fun place e =>
    let before := (es.take place).filter fun e => e.category = c
    if e.category = c then { e with style := (visitor (carried visitor state before) e).2 } else e

theorem pass_fst (c : Category) (visitor : σ → Element → σ × Style) (state : σ)
    (es : List Element) :
    (pass c visitor state es).1 = carried visitor state (es.filter fun e => e.category = c) := by
  induction es generalizing state with
  | nil => rfl
  | cons e es ih => by_cases h : e.category = c <;> simp [pass, carried, h, ih]

theorem pass_snd (c : Category) (visitor : σ → Element → σ × Style) (state : σ)
    (es : List Element) : (pass c visitor state es).2 = visited c visitor state es := by
  induction es generalizing state with
  | nil => rfl
  | cons e es ih =>
    by_cases h : e.category = c <;> simp [pass, visited, carried, h, ih, List.mapIdx_cons]

def edit (d : Document) : Edit → Document
  | .push id category label => d.push { id, category, label }
  | .visit category visitor state => (d.visit category visitor state).2

def ofEdits (edits : List Edit) : Document := edits.foldl edit empty

def editList (es : List Element) : Edit → List Element
  | .push id category label => es ++ [{ id, category, label }]
  | .visit category visitor state => visited category visitor state es

theorem elements_edit (d : Document) (x : Edit) :
    (d.edit x).elements.toList = editList d.elements.toList x := by
  cases x with
  | push id category label => exact d.toList_push _
  | visit category visitor state =>
    exact (d.elements_visit category visitor state).trans (pass_snd ..)

theorem elements_ofEdits (edits : List Edit) :
    (ofEdits edits).elements.toList = edits.foldl editList [] := by
  have hrun (d : Document) :
      (edits.foldl edit d).elements.toList = edits.foldl editList d.elements.toList := by
    induction edits generalizing d with
    | nil => rfl
    | cons x edits ih => rw [List.foldl_cons, List.foldl_cons, ih, elements_edit]
  exact hrun empty

theorem lt_size_of_firstPlace {id : String} (h : d.firstPlace[id]? = some place) :
    place < d.size := by
  rw [d.firstPlace_eq] at h
  obtain ⟨hlt, -⟩ := List.idxOf?_eq_some_iff.1 h
  simpa [size] using hlt

theorem lt_size_of_places (h : place ∈ d.places.getD c #[]) : place < d.size := by
  rw [← Array.mem_toList_iff, d.places_eq, placesOf] at h
  obtain ⟨⟨k, place⟩, hk, rfl⟩ := List.mem_map.1 h
  have hlt := List.snd_lt_of_mem_zipIdx (List.mem_of_mem_filter hk)
  simpa [size] using hlt

theorem sum_count (d : Document) : (Category.all.map d.count).sum = d.size := by
  have hone (k : Category) : (Category.all.map fun c => if k = c then 1 else 0).sum = 1 := by
    cases k <;> rfl
  have hscan (es : List Element) :
      (Category.all.map fun c => (es.filter fun e => e.category = c).length).sum = es.length := by
    induction es with
    | nil => rfl
    | cons e es ih =>
      have hcons (c : Category) : ((e :: es).filter fun e => e.category = c).length =
          (es.filter fun e => e.category = c).length + if e.category = c then 1 else 0 := by
        by_cases h : e.category = c <;> simp [h]
      simp only [hcons]
      rw [List.sum_map_add, ih, hone, List.length_cons]
  rw [funext d.count_eq, hscan, size, Array.length_toList]

/-- After any changes, looking an element up finds what a scan of the page finds, no stored place
leads off the page, and a visit is given the elements of its category one by one and restyles no
other element. -/
theorem indexes_agree_with_scan (edits : List Edit) :
    let d := ofEdits edits
    let es := edits.foldl editList []
    d.elements.toList = es ∧
      (∀ id, (d.contains id = true ↔ ∃ e ∈ es, e.id = id) ∧
        d.get? id = es.find? fun e => e.id = id) ∧
      (∀ c, d.byCategory c = (es.filter fun e => e.category = c) ∧
        d.count c = (es.filter fun e => e.category = c).length) ∧
      (Category.all.map d.count).sum = d.size ∧
      (∀ (id : String) (place : Nat), d.firstPlace[id]? = some place → place < d.size) ∧
      (∀ c, ∀ place ∈ d.places.getD c #[], place < d.size) ∧
      ∀ (σ : Type) (c : Category) (visitor : σ → Element → σ × Style) (state : σ),
        let seen := d.visit c visitor state
        seen.1 = carried visitor state (es.filter fun e => e.category = c) ∧
          seen.2.elements.toList = visited c visitor state es ∧
          seen.2.firstPlace = d.firstPlace ∧ seen.2.places = d.places := by
  intro d es
  have hes : d.elements.toList = es := elements_ofEdits edits
  refine ⟨hes, ?_, ?_, d.sum_count, fun _ _ => lt_size_of_firstPlace,
    fun _ _ => lt_size_of_places, ?_⟩
  · intro id
    rw [contains_iff, get?_eq_find?, ← hes]
    simp
  · intro c
    rw [byCategory_eq_filter, count_eq, hes]
    exact ⟨rfl, rfl⟩
  · intro σ c visitor state seen
    refine ⟨?_, ?_, rfl, rfl⟩
    · rw [← hes, ← pass_fst]
      exact d.visit_fst c visitor state
    · rw [← hes]
      exact d.elements_edit (.visit c visitor state)

end Document

end Sidebar
