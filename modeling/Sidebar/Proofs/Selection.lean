import Sidebar.Session
import Sidebar.Proofs.LastPlace

namespace Sidebar

inductive Selection where
  | ofClass (number : UInt32)
  | ofMember (id : MemberId)
deriving DecidableEq, Repr

namespace Selection

def style : Selection → Element → Style
  | ofClass c, e =>
    let address role : String := Address.text ⟨role, .classId c⟩
    match e.category with
    | .classEntry => if e.id = address .nav then e.style.activate else e.style.deactivate
    | .memberList =>
      if e.id = address .list then (e.style.paint .active).reveal else (e.style.paint .neutral).hide
    | .listTitle => if e.id = address .title then e.style.reveal else e.style.hide
    | .classPanel => if e.id = address .description then e.style.reveal else e.style.hide
    | .memberPanel => e.style.hide
    | .constructorEntry | .methodEntry => e.style.paint .neutral
  | ofMember m, e =>
    match e.category with
    | .constructorEntry | .methodEntry =>
      if e.id = (NavId.memberId m).nav.text then e.style.activate else e.style.deactivate
    | .memberPanel =>
      if e.id = (NavId.memberId m).description.text then e.style.reveal else e.style.hide
    | _ => e.style

def apply (e : Element) (x : Selection) : Element := { e with style := x.style e }

def applyAll (xs : List Selection) (e : Element) : Element := xs.foldl apply e

theorem applyAll_append (xs ys : List Selection) (e : Element) :
    applyAll (xs ++ ys) e = applyAll ys (applyAll xs e) :=
  List.foldl_append

theorem applyAll_concat (xs : List Selection) (x : Selection) (e : Element) :
    applyAll (xs ++ [x]) e = apply (applyAll xs e) x :=
  applyAll_append xs [x] e

@[simp] theorem id_applyAll (xs : List Selection) (e : Element) : (applyAll xs e).id = e.id := by
  induction xs generalizing e with
  | nil => rfl
  | cons x xs ih => exact ih (apply e x)

@[simp] theorem category_applyAll (xs : List Selection) (e : Element) :
    (applyAll xs e).category = e.category := by
  induction xs generalizing e with
  | nil => rfl
  | cons x xs ih => exact ih (apply e x)

end Selection

theorem Document.sameEntries_of_map {d d' : Document} {f : Element → Element}
    (hid : ∀ e, (f e).id = e.id) (hcategory : ∀ e, (f e).category = e.category)
    (h : d'.elements.toList = d.elements.toList.map f) : d'.SameEntries d := by
  intro k id
  simp only [Has, ← Array.mem_toList_iff, h, List.mem_map]
  constructor
  · rintro ⟨e, ⟨e, he, rfl⟩, hk, hi⟩
    exact ⟨e, he, (hcategory e).symm.trans hk, (hid e).symm.trans hi⟩
  · rintro ⟨e, he, hk, hi⟩
    exact ⟨f e, ⟨e, he, rfl⟩, (hcategory e).trans hk, (hid e).trans hi⟩

namespace Session

open Selection

variable {s : Session}

def select (s : Session) : Selection → Session
  | .ofClass c => s.selectClass c
  | .ofMember m => s.selectMember m

/-- What an action selects, in order. A paging key selects what it leads to and its class. -/
def selections (s : Session) : Action → List Selection
  | .load => [.ofClass 1, .ofMember (.firstOf 1)]
  | .indexMembers => []
  | .selectClass c => [.ofClass c]
  | .selectMember m => [.ofMember m]
  | .openClass c => [.ofClass c, .ofMember (.firstOf c)]
  | .press key =>
    match key.direction? with
    | none => []
    | some way => [.ofClass (s.target way).owner, .ofMember (s.target way)]

def trace (s : Session) : List Action → List Selection
  | [] => []
  | a :: actions => s.selections a ++ trace (s.act a) actions

theorem elements_selectClass (s : Session) (c : UInt32) :
    (s.selectClass c).page.elements.toList =
      s.page.elements.toList.map fun e => apply e (.ofClass c) := by
  simp only [selectClass, Document.elements_restyle, List.map_map]
  apply List.map_congr_left
  rintro ⟨id, category, label, style⟩ -
  cases category <;> rfl

theorem elements_selectMember (s : Session) (m : MemberId) :
    (s.selectMember m).page.elements.toList =
      s.page.elements.toList.map fun e => apply e (.ofMember m) := by
  simp only [selectMember, Document.elements_restyle, List.map_map]
  apply List.map_congr_left
  rintro ⟨id, category, label, style⟩ -
  cases category <;> rfl

theorem elements_select (s : Session) (x : Selection) :
    (s.select x).page.elements.toList = s.page.elements.toList.map fun e => apply e x := by
  cases x with
  | ofClass c => exact s.elements_selectClass c
  | ofMember m => exact s.elements_selectMember m

/-- What holds of a session and of what was selected so far still holds after a further action, if
each selection and the filling of the table keep it. -/
theorem act_preserves {P : Session → List Selection → Prop}
    (hselect : ∀ s xs x, P s xs → P (s.select x) (xs ++ [x]))
    (hindex : ∀ s xs, P s xs → P s.indexMembers xs) {xs : List Selection} (h : P s xs)
    (a : Action) : P (s.act a) (xs ++ s.selections a) := by
  have htwo (x y : Selection) : P ((s.select x).select y) (xs ++ [x, y]) := by
    have hxy := hselect _ _ y (hselect s xs x h)
    rwa [List.append_assoc] at hxy
  cases a with
  | load => exact hindex _ _ (htwo (.ofClass 1) (.ofMember (.firstOf 1)))
  | indexMembers =>
    rw [selections, List.append_nil]
    exact hindex s xs h
  | selectClass c => exact hselect s xs (.ofClass c) h
  | selectMember m => exact hselect s xs (.ofMember m) h
  | openClass c => exact htwo (.ofClass c) (.ofMember (.firstOf c))
  | press key =>
    rw [act, press, selections]
    cases key.direction? with
    | none =>
      rw [List.append_nil]
      exact h
    | some way => exact htwo (.ofClass _) (.ofMember _)

theorem run_preserves {P : Session → List Selection → Prop}
    (hselect : ∀ s xs x, P s xs → P (s.select x) (xs ++ [x]))
    (hindex : ∀ s xs, P s xs → P s.indexMembers xs) (h : P s []) (actions : List Action) :
    P (s.run actions) (s.trace actions) := by
  have hrun (t : Session) (xs : List Selection) (ht : P t xs) :
      P (t.run actions) (xs ++ t.trace actions) := by
    induction actions generalizing t xs with
    | nil =>
      rw [trace, List.append_nil]
      exact ht
    | cons a actions ih =>
      rw [trace, ← List.append_assoc]
      exact ih _ _ (act_preserves hselect hindex ht a)
  exact hrun s [] h

/-- After a run every element has the style that all selections together give it. -/
theorem elements_run (s : Session) (actions : List Action) :
    (s.run actions).page.elements.toList =
      s.page.elements.toList.map (applyAll (s.trace actions)) := by
  refine run_preserves
    (P := fun t xs => t.page.elements.toList = s.page.elements.toList.map (applyAll xs))
    ?_ ?_ (List.map_id _).symm actions
  · intro t xs x h
    rw [elements_select, h, List.map_map]
    apply List.map_congr_left
    intro e _
    exact (applyAll_concat xs x e).symm
  · intro t xs h
    exact h

theorem sameEntries_run (s : Session) (actions : List Action) :
    (s.run actions).page.SameEntries s.page := by
  apply Document.sameEntries_of_map (f := applyAll (s.trace actions))
  · exact id_applyAll _
  · exact category_applyAll _
  · exact s.elements_run actions

theorem sameEntries_select (s : Session) (x : Selection) :
    (s.select x).page.SameEntries s.page := by
  apply Document.sameEntries_of_map (f := (apply · x))
  · intro e
    rfl
  · intro e
    rfl
  · exact s.elements_select x

def Indexed (s : Session) : Prop := s.lastIndex = .ofDocument s.page

theorem indexed_indexMembers (s : Session) : s.indexMembers.Indexed := rfl

theorem Indexed.select (h : s.Indexed) (x : Selection) : (s.select x).Indexed := by
  have htable : (s.select x).lastIndex = s.lastIndex := by cases x <;> rfl
  rw [Indexed, htable, h]
  exact LastIndex.ofDocument_congr (s.sameEntries_select x).symm

/-- A table that was filled once is never out of date. -/
theorem Indexed.run (h : s.Indexed) (actions : List Action) : (s.run actions).Indexed := by
  apply run_preserves (P := fun t _ => t.Indexed) ?_ ?_ h actions
  · intro t _ x ht
    exact ht.select x
  · intro t _ _
    exact t.indexed_indexMembers

end Session

end Sidebar
