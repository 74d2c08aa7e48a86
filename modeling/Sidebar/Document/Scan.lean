import Sidebar.Document

namespace Sidebar.Document

/-- The places at which a category stands in what follows `offset` other elements. -/
def placesAfter (offset : Nat) (c : Category) (es : List Element) : List Nat :=
  (((es.map Element.category).zipIdx offset).filter fun (x, _) => x = c).map (·.2)

theorem placesAfter_cons (offset : Nat) (c : Category) (e : Element) (es : List Element) :
    placesAfter offset c (e :: es) =
      if e.category = c then offset :: placesAfter (offset + 1) c es
      else placesAfter (offset + 1) c es := by
  by_cases h : e.category = c <;> simp [placesAfter, List.zipIdx_cons, h]

theorem toList_places (d : Document) (c : Category) :
    (d.places.getD c #[]).toList = placesAfter 0 c d.elements.toList := by
  rw [d.places_eq]
  rfl

theorem filterMap_placesAfter (c : Category) (before es : List Element) :
    (placesAfter before.length c es).filterMap (fun i => (before ++ es)[i]?) =
      es.filter fun e => e.category = c := by
  induction es generalizing before with
  | nil => rfl
  | cons e es ih =>
    have hrest := ih (before ++ [e])
    simp only [List.length_append, List.length_singleton, List.append_assoc,
      List.singleton_append] at hrest
    rw [placesAfter_cons]
    by_cases h : e.category = c
    · simp [h, hrest]
    · simp [h, hrest]

theorem byCategory_eq_filter (d : Document) (c : Category) :
    d.byCategory c = d.elements.toList.filter fun e => e.category = c := by
  have h := filterMap_placesAfter c [] d.elements.toList
  simp only [List.length_nil, List.nil_append, Array.getElem?_toList] at h
  rw [byCategory, toList_places, h]

theorem count_eq (d : Document) (c : Category) :
    d.count c = (d.elements.toList.filter fun e => e.category = c).length := by
  have hlength (offset : Nat) (es : List Element) :
      (placesAfter offset c es).length = (es.filter fun e => e.category = c).length := by
    induction es generalizing offset with
    | nil => rfl
    | cons e es ih =>
      rw [placesAfter_cons]
      by_cases h : e.category = c <;> simp [h, ih]
  rw [count, ← Array.length_toList, toList_places, hlength]

theorem contains_iff (d : Document) (id : String) :
    d.contains id = true ↔ ∃ e ∈ d.elements, e.id = id := by
  rw [contains, Std.HashMap.contains_eq_isSome_getElem?, d.firstPlace_eq, List.isSome_idxOf?]
  simp

theorem get?_eq_find? (d : Document) (id : String) :
    d.get? id = d.elements.toList.find? fun e => e.id = id := by
  have hscan (es : List Element) :
      ((es.map Element.id).idxOf? id).bind (fun i => es[i]?) = es.find? fun e => e.id = id := by
    induction es with
    | nil => rfl
    | cons e es ih =>
      by_cases h : e.id = id
      · simp [List.idxOf?_cons, h]
      · rw [List.map_cons, List.idxOf?_cons, List.find?_cons_of_neg (by simpa using h), ← ih]
        cases hi : (es.map Element.id).idxOf? id <;> simp [h]
  rw [get?, d.firstPlace_eq, ← hscan]
  simp

theorem toList_push (d : Document) (e : Element) :
    (d.push e).elements.toList = d.elements.toList ++ [e] := by
  simp [push]

theorem toList_ofElements (es : List Element) : (ofElements es).elements.toList = es := by
  have hfold (d : Document) : (es.foldl push d).elements.toList = d.elements.toList ++ es := by
    induction es generalizing d with
    | nil => simp
    | cons e es ih =>
      rw [List.foldl_cons, ih, toList_push]
      simp
  rw [ofElements, hfold]
  rfl

/-- One pass over elements: the visitor is given those of the category in the order of the list. -/
def pass (c : Category) (visitor : σ → Element → σ × Style) : σ → List Element → σ × List Element
  | state, [] => (state, [])
  | state, e :: es =>
    if e.category = c then
      let (state, style) := visitor state e
      let (state, rest) := pass c visitor state es
      (state, { e with style } :: rest)
    else
      let (state, rest) := pass c visitor state es
      (state, e :: rest)

theorem visitAt_placesAfter (c : Category) (visitor : σ → Element → σ × Style) (state : σ)
    (before es : List Element) :
    visitAt visitor (placesAfter before.length c es) state (before ++ es).toArray =
      ((pass c visitor state es).1, (before ++ (pass c visitor state es).2).toArray) := by
  induction es generalizing before state with
  | nil => rfl
  | cons e es ih =>
    have hrest (state : σ) (e : Element) := ih state (before ++ [e])
    simp only [List.length_append, List.length_singleton, List.append_assoc,
      List.singleton_append] at hrest
    rw [placesAfter_cons, pass]
    by_cases h : e.category = c
    · simp [h, visitAt, hrest]
    · simp [h, hrest]

theorem visit_fst (d : Document) (c : Category) (visitor : σ → Element → σ × Style) (state : σ) :
    (d.visit c visitor state).1 = (pass c visitor state d.elements.toList).1 := by
  have h := visitAt_placesAfter c visitor state [] d.elements.toList
  simp only [List.length_nil, List.nil_append, Array.toArray_toList] at h
  change (visitAt visitor (d.places.getD c #[]).toList state d.elements).1 = _
  rw [toList_places, h]

theorem elements_visit (d : Document) (c : Category) (visitor : σ → Element → σ × Style)
    (state : σ) :
    (d.visit c visitor state).2.elements.toList = (pass c visitor state d.elements.toList).2 := by
  have h := visitAt_placesAfter c visitor state [] d.elements.toList
  simp only [List.length_nil, List.nil_append, Array.toArray_toList] at h
  change (visitAt visitor (d.places.getD c #[]).toList state d.elements).2.toList = _
  rw [toList_places, h]

theorem elements_restyle (d : Document) (c : Category) (style : Element → Style) :
    (d.restyle c style).elements.toList =
      d.elements.toList.map fun e => if e.category = c then { e with style := style e } else e := by
  have hpass (es : List Element) :
      (pass c (fun (_ : Unit) e => ((), style e)) () es).2 =
        es.map fun e => if e.category = c then { e with style := style e } else e := by
    induction es with
    | nil => rfl
    | cons e es ih => by_cases h : e.category = c <;> simp [pass, h, ih]
  rw [restyle, elements_visit, hpass]

end Sidebar.Document
