import Sidebar.Proofs.Selection

namespace Sidebar

namespace Selection

def class? : Selection → Option UInt32
  | ofClass c => some c
  | ofMember _ => none

def member? : Selection → Option MemberId
  | ofClass _ => none
  | ofMember m => some m

/-- The last answer that selections give. -/
def last? (f : Selection → Option α) (xs : List Selection) : Option α := (xs.filterMap f).getLast?

def lastClass? : List Selection → Option UInt32 := last? class?

def lastMember? : List Selection → Option MemberId := last? member?

/-- The member selected last, unless a class was selected after it. -/
def openMember? (xs : List Selection) : Option MemberId := xs.getLast?.bind member?

theorem last?_concat (f : Selection → Option α) (xs : List Selection) (x : Selection) :
    last? f (xs ++ [x]) = (f x).or (last? f xs) := by
  rw [last?, List.filterMap_append]
  cases h : f x with
  | some a =>
    rw [List.filterMap_cons_some h, List.filterMap_nil, List.getLast?_concat, Option.some_or]
  | none =>
    rw [List.filterMap_cons_none h, List.filterMap_nil, List.append_nil, Option.none_or, last?]

theorem last?_map {f : Selection → Option α} {g : Selection → Option β} {h : α → β}
    (hg : ∀ x, g x = (f x).map h) (xs : List Selection) : last? g xs = (last? f xs).map h := by
  rw [last?, last?, ← List.getLast?_map, List.map_filterMap, funext hg]

theorem last?_some (xs : List Selection) : last? some xs = xs.getLast? := by
  rw [last?, List.filterMap_some]

def display? (k : Category) (id : String) : Selection → Option Display
  | ofClass c =>
    match k with
    | .classEntry => if id = (NavId.classId c).nav.text then some .block else none
    | .memberList => some (if id = Address.text ⟨.list, .classId c⟩ then .block else .hidden)
    | .listTitle => some (if id = Address.text ⟨.title, .classId c⟩ then .block else .hidden)
    | .classPanel => some (if id = (NavId.classId c).description.text then .block else .hidden)
    | .memberPanel => some .hidden
    | .constructorEntry | .methodEntry => none
  | ofMember m =>
    match k with
    | .constructorEntry | .methodEntry =>
      if id = (NavId.memberId m).nav.text then some .block else none
    | .memberPanel => some (if id = (NavId.memberId m).description.text then .block else .hidden)
    | _ => none

def background? (k : Category) (id : String) : Selection → Option Background
  | ofClass c =>
    match k with
    | .classEntry => some (if id = (NavId.classId c).nav.text then .active else .neutral)
    | .memberList => some (if id = Address.text ⟨.list, .classId c⟩ then .active else .neutral)
    | .constructorEntry | .methodEntry => some .neutral
    | .listTitle | .classPanel | .memberPanel => none
  | ofMember m =>
    match k with
    | .constructorEntry | .methodEntry =>
      some (if id = (NavId.memberId m).nav.text then .active else .neutral)
    | _ => none

def weight? (k : Category) (id : String) : Selection → Option Weight
  | ofClass c =>
    match k with
    | .classEntry => some (if id = (NavId.classId c).nav.text then .bold else .normal)
    | _ => none
  | ofMember m =>
    match k with
    | .constructorEntry | .methodEntry =>
      some (if id = (NavId.memberId m).nav.text then .bold else .normal)
    | _ => none

theorem style_eq (x : Selection) (e : Element) :
    x.style e = {
      display := (x.display? e.category e.id).or e.style.display
      background := (x.background? e.category e.id).or e.style.background
      weight := (x.weight? e.category e.id).or e.style.weight } := by
  obtain ⟨id, category, label, style⟩ := e
  have hentry (p : Prop) [Decidable p] :
      (if p then style.activate else style.deactivate) = {
        display := (if p then some .block else none).or style.display
        background := some (if p then .active else .neutral)
        weight := some (if p then .bold else .normal) } := by
    split <;> rfl
  have hlist (p : Prop) [Decidable p] :
      (if p then (style.paint .active).reveal else (style.paint .neutral).hide) = {
        display := some (if p then .block else .hidden)
        background := some (if p then .active else .neutral)
        weight := style.weight } := by
    split <;> rfl
  have hpanel (p : Prop) [Decidable p] :
      (if p then style.reveal else style.hide) =
        { style with display := some (if p then .block else .hidden) } := by
    split <;> rfl
  cases x with
  | ofClass c =>
    cases category with
    | classEntry => exact hentry _
    | memberList => exact hlist _
    | listTitle | classPanel => exact hpanel _
    | constructorEntry | methodEntry | memberPanel => rfl
  | ofMember m =>
    cases category with
    | constructorEntry | methodEntry => exact hentry _
    | memberPanel => exact hpanel _
    | classEntry | memberList | listTitle | classPanel => rfl

end Selection

open Selection

/-- The style of an element after selections. Each property is the one written last, or the one that
the element came with. -/
def Element.styleAfter (e : Element) (xs : List Selection) : Style where
  display := (last? (display? e.category e.id) xs).or e.style.display
  background := (last? (background? e.category e.id) xs).or e.style.background
  weight := (last? (weight? e.category e.id) xs).or e.style.weight

theorem Selection.applyAll_eq (xs : List Selection) (e : Element) :
    applyAll xs e = { e with style := e.styleAfter xs } := by
  induction xs using List.reverseRecOn with
  | nil => rfl
  | append_singleton xs x ih =>
    rw [applyAll_concat, apply, ih, style_eq]
    simp only [Element.styleAfter, last?_concat, Option.or_assoc]

end Sidebar
