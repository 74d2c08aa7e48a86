import Sidebar.Proofs.Latest

namespace Sidebar

variable {xs : List Selection} {e : Element} {α : Type}

open Selection

/-- What the style of an element tells of the selections, where these alone gave it its style. -/
structure Element.TellsHistory (e : Element) (xs : List Selection) : Prop where
  entry_display : e.category = .classEntry ∨ e.category.isMemberEntry = true →
    e.style.display = none ∨ e.style.display = some .block
  class_display : e.category = .classEntry →
    (e.style.display = some .block ↔ ∃ c, .ofClass c ∈ xs ∧ e.id = (NavId.classId c).nav.text)
  member_display : e.category.isMemberEntry = true →
    (e.style.display = some .block ↔ ∃ m, .ofMember m ∈ xs ∧ e.id = (NavId.memberId m).nav.text)
  class_background : e.category = .classEntry →
    (e.style.background = some .active ↔ ∃ c ∈ lastClass? xs, e.id = (NavId.classId c).nav.text)
  list_background : e.category = .memberList →
    (e.style.background = some .active ↔
      ∃ c ∈ lastClass? xs, e.id = Address.text ⟨.list, .classId c⟩)
  member_background : e.category.isMemberEntry = true →
    (e.style.background = some .active ↔ ∃ m ∈ openMember? xs, e.id = (NavId.memberId m).nav.text)
  member_weight : e.category.isMemberEntry = true →
    (e.style.weight = some .bold ↔ ∃ m ∈ lastMember? xs, e.id = (NavId.memberId m).nav.text)
  panel : e.category = .listTitle ∨ e.category = .classPanel ∨ e.category = .memberPanel →
    e.style.background = none ∧ e.style.weight = none

namespace Selection

variable {f : Selection → Option α} {a : α} {x : Selection} {k : Category} {id : String}

theorem last?_eq_none (hf : ∀ x, f x = none) : last? f xs = none := by
  rw [last?, List.filterMap_eq_nil_iff.2 fun x _ => hf x, List.getLast?_nil]

theorem exists_mem_of_last? (h : last? f xs = some a) : ∃ x ∈ xs, f x = some a :=
  List.mem_filterMap.1 (List.mem_of_getLast? h)

theorem last?_eq_some_iff (hf : ∀ x b, f x = some b → b = a) :
    last? f xs = some a ↔ ∃ x ∈ xs, f x = some a := by
  constructor
  · exact exists_mem_of_last?
  · rintro ⟨x, hx, hfx⟩
    cases hlast : last? f xs with
    | none =>
      have hnil := List.getLast?_eq_none_iff.1 hlast
      exact absurd (List.mem_filterMap.2 ⟨x, hx, hfx⟩) (hnil ▸ List.not_mem_nil)
    | some b =>
      obtain ⟨y, -, hy⟩ := exists_mem_of_last? hlast
      rw [hf y b hy]

section Named

variable {β : Type} {g : Selection → Option β} {p : β → Prop} [DecidablePred p]
  (hf : ∀ x, f x = (g x).bind fun b => if p b then some a else none)
include hf

theorem eq_some_iff_of_named {v : α} : f x = some v ↔ v = a ∧ ∃ b, g x = some b ∧ p b := by
  rw [hf x]
  cases g x with
  | none => simp
  | some b => simp [and_comm, eq_comm]

/-- What is written by name alone, and never taken back, is there once it was named. -/
theorem last?_eq_some_iff_of_named :
    last? f xs = some a ↔ ∃ b, (∃ x ∈ xs, g x = some b) ∧ p b := by
  rw [last?_eq_some_iff fun x v h => ((eq_some_iff_of_named hf).1 h).1]
  constructor
  · rintro ⟨x, hx, hwrites⟩
    obtain ⟨-, b, hb, hp⟩ := (eq_some_iff_of_named hf).1 hwrites
    exact ⟨b, ⟨x, hx, hb⟩, hp⟩
  · rintro ⟨b, ⟨x, hx, hb⟩, hp⟩
    exact ⟨x, hx, (eq_some_iff_of_named hf).2 ⟨rfl, b, hb, hp⟩⟩

end Named

theorem exists_class?_iff {c : UInt32} : (∃ x ∈ xs, x.class? = some c) ↔ .ofClass c ∈ xs := by
  constructor
  · rintro ⟨x, hx, hc⟩
    cases x <;> cases hc
    exact hx
  · intro h
    exact ⟨_, h, rfl⟩

theorem exists_member?_iff {m : MemberId} : (∃ x ∈ xs, x.member? = some m) ↔ .ofMember m ∈ xs := by
  constructor
  · rintro ⟨x, hx, hm⟩
    cases x <;> cases hm
    exact hx
  · intro h
    exact ⟨_, h, rfl⟩

theorem display?_classEntry (id : String) (x : Selection) :
    display? .classEntry id x = x.class?.bind fun c =>
      if id = (NavId.classId c).nav.text then some .block else none := by
  cases x <;> rfl

theorem display?_methodEntry (id : String) (x : Selection) :
    display? .methodEntry id x = x.member?.bind fun m =>
      if id = (NavId.memberId m).nav.text then some .block else none := by
  cases x <;> rfl

theorem map_ite_eq_some_iff {β : Type} {o : Option β} {p : β → Prop} [DecidablePred p] {a b : α}
    (hne : b ≠ a) : (o.map fun x => if p x then a else b) = some a ↔ ∃ x ∈ o, p x := by
  simp [Option.map_eq_some_iff, hne]

theorem last?_background?_classEntry (id : String) (xs : List Selection) :
    last? (background? .classEntry id) xs = (lastClass? xs).map fun c =>
      if id = (NavId.classId c).nav.text then .active else .neutral := by
  apply last?_map
  intro x
  cases x <;> rfl

theorem last?_background?_memberList (id : String) (xs : List Selection) :
    last? (background? .memberList id) xs = (lastClass? xs).map fun c =>
      if id = Address.text ⟨.list, .classId c⟩ then .active else .neutral := by
  apply last?_map
  intro x
  cases x <;> rfl

theorem last?_background?_methodEntry (id : String) (xs : List Selection) :
    last? (background? .methodEntry id) xs = some .active ↔
      ∃ m ∈ openMember? xs, id = (NavId.memberId m).nav.text := by
  have hlast : last? (background? .methodEntry id) xs = xs.getLast?.map fun x =>
      if ∃ m ∈ x.member?, id = (NavId.memberId m).nav.text then .active else .neutral := by
    rw [← last?_some]
    apply last?_map
    intro x
    cases x with
    | ofClass c => simp [background?, member?]
    | ofMember m => simp [background?, member?]
  rw [hlast, map_ite_eq_some_iff Background.noConfusion, openMember?]
  cases xs.getLast? <;> simp

theorem last?_weight?_methodEntry (id : String) (xs : List Selection) :
    last? (weight? .methodEntry id) xs = (lastMember? xs).map fun m =>
      if id = (NavId.memberId m).nav.text then .bold else .normal := by
  apply last?_map
  intro x
  cases x <;> rfl

theorem writes_memberEntry (hk : k.isMemberEntry = true) :
    display? k = display? .methodEntry ∧ background? k = background? .methodEntry ∧
      weight? k = weight? .methodEntry := by
  cases k with
  | constructorEntry => refine ⟨?_, ?_, ?_⟩ <;> (funext id x; cases x <;> rfl)
  | methodEntry => exact ⟨rfl, rfl, rfl⟩
  | classEntry | memberList | listTitle | classPanel | memberPanel => cases hk

theorem display?_entry (hk : k = .classEntry ∨ k.isMemberEntry = true) {v : Display}
    (h : display? k id x = some v) : v = .block := by
  obtain rfl | hk := hk
  · exact ((eq_some_iff_of_named (display?_classEntry id)).1 h).1
  · rw [(writes_memberEntry hk).1] at h
    exact ((eq_some_iff_of_named (display?_methodEntry id)).1 h).1

theorem writes_panel (hk : k = .listTitle ∨ k = .classPanel ∨ k = .memberPanel)
    (x : Selection) : background? k id x = none ∧ weight? k id x = none := by
  obtain rfl | rfl | rfl := hk <;> cases x <;> exact ⟨rfl, rfl⟩

end Selection

theorem Element.tellsHistory (h : e.style = {}) :
    ({ e with style := e.styleAfter xs } : Element).TellsHistory xs where
  entry_display hk := by
    simp only [styleAfter, h, Option.or_none]
    cases hlast : last? (display? e.category e.id) xs with
    | none => exact .inl rfl
    | some v =>
      obtain ⟨x, -, hx⟩ := exists_mem_of_last? hlast
      rw [display?_entry hk hx]
      exact .inr rfl
  class_display hk := by
    simp only at hk
    simp only [styleAfter, h, hk, Option.or_none,
      last?_eq_some_iff_of_named (display?_classEntry e.id), exists_class?_iff]
  member_display hk := by
    simp only at hk
    simp only [styleAfter, h, Option.or_none, (writes_memberEntry hk).1,
      last?_eq_some_iff_of_named (display?_methodEntry e.id), exists_member?_iff]
  class_background hk := by
    simp only at hk
    simp only [styleAfter, h, hk, Option.or_none, last?_background?_classEntry]
    exact map_ite_eq_some_iff Background.noConfusion
  list_background hk := by
    simp only at hk
    simp only [styleAfter, h, hk, Option.or_none, last?_background?_memberList]
    exact map_ite_eq_some_iff Background.noConfusion
  member_background hk := by
    simp only at hk
    simp only [styleAfter, h, Option.or_none, (writes_memberEntry hk).2.1]
    exact last?_background?_methodEntry e.id xs
  member_weight hk := by
    simp only at hk
    simp only [styleAfter, h, Option.or_none, (writes_memberEntry hk).2.2,
      last?_weight?_methodEntry]
    exact map_ite_eq_some_iff Weight.noConfusion
  panel hk := by
    simp only at hk
    simp only [styleAfter, h, Option.or_none]
    have hwrites (x : Selection) :
        background? e.category e.id x = none ∧ weight? e.category e.id x = none :=
      writes_panel hk x
    exact ⟨last?_eq_none fun x => (hwrites x).1, last?_eq_none fun x => (hwrites x).2⟩

namespace Session

theorem mem_elements_run {s : Session} {actions : List Action} :
    e ∈ (s.run actions).page.elements ↔
      ∃ e' ∈ s.page.elements, { e' with style := e'.styleAfter (s.trace actions) } = e := by
  rw [← Array.mem_toList_iff, elements_run, List.mem_map]
  simp only [applyAll_eq, Array.mem_toList_iff]

/-- The style of every element is what a run wrote last, so on a page that came unstyled it tells
what was selected. A class that is selected without a member takes the background from the entry of
the selected member and leaves it bold, if any member was selected before. -/
theorem styles_tell_history (d : Document) (actions : List Action) :
    let s : Session := { page := d }
    let t := s.run actions
    let xs := s.trace actions
    t.page.elements.toList =
        d.elements.toList.map (fun e => { e with style := e.styleAfter xs }) ∧
      (d.Unstyled → ∀ e ∈ t.page.elements, e.TellsHistory xs) ∧
      ((lastMember? xs).isSome → ∀ c, ∀ e ∈ (t.selectClass c).page.elements,
        e.category.isMemberEntry = true → e.id = (NavId.memberId t.memberSelection).nav.text →
          e.style.weight = some .bold ∧ e.style.background = some .neutral) := by
  intro s t xs
  refine ⟨?_, ?_, ?_⟩
  · rw [elements_run]
    apply List.map_congr_left
    intro e _
    exact applyAll_eq xs e
  · intro hd e he
    obtain ⟨came, hcame, rfl⟩ := mem_elements_run.1 he
    exact Element.tellsHistory (hd came hcame)
  · intro hsome c e he hk hid
    obtain ⟨m, hm⟩ := Option.isSome_iff_exists.1 hsome
    have hselection : t.memberSelection = m := by
      rw [memberSelection_run, hm]
      rfl
    rw [← Array.mem_toList_iff, elements_selectClass, List.mem_map] at he
    obtain ⟨e, he, rfl⟩ := he
    obtain ⟨came, -, rfl⟩ := mem_elements_run.1 (Array.mem_toList_iff.1 he)
    simp only [apply] at hk hid ⊢
    rw [hselection] at hid
    rw [style_eq]
    simp only [Element.styleAfter, writes_memberEntry hk]
    have hbold : last? (weight? .methodEntry came.id) xs = some .bold := by
      rw [last?_weight?_methodEntry, hm, Option.map_some, if_pos hid]
    rw [hbold]
    exact ⟨rfl, rfl⟩

theorem styles_tell_history_bareSelect :
    let d : Document := .ofElements [
      ⟨"nav_1", .classEntry, none, {}⟩,
      ⟨"list_1", .memberList, none, {}⟩,
      ⟨"nav_1_1", .constructorEntry, none, {}⟩,
      ⟨"nav_1_2", .methodEntry, none, {}⟩,
      ⟨"nav_2", .classEntry, none, {}⟩]
    let s : Session := { page := d }
    let actions : List Action := [.load, .selectMember ⟨1, 2⟩]
    let t := s.run actions
    d.Unstyled ∧ (lastMember? (s.trace actions)).isSome ∧
      (∀ e ∈ t.page.elements, e.TellsHistory (s.trace actions)) ∧
      ∃ e ∈ (t.selectClass 2).page.elements,
        e.id = "nav_1_2" ∧ e.style.weight = some .bold ∧ e.style.background = some .neutral := by
  intro d s actions t
  have hunstyled : d.Unstyled := Document.unstyled_ofElements (by decide)
  have hmem : ⟨"nav_1_2", .methodEntry, none, ⟨some .block, some .neutral, some .bold⟩⟩ ∈
      (s.run (actions ++ [.selectClass 2])).page.elements :=
    mem_elements_run.2 ⟨⟨"nav_1_2", .methodEntry, none, {}⟩, by decide +kernel, by decide +kernel⟩
  obtain ⟨-, htells, hbare⟩ := styles_tell_history d actions
  exact ⟨hunstyled, rfl, htells hunstyled, _, hmem, rfl,
    hbare rfl 2 _ hmem rfl (by decide +kernel)⟩

/-- A session starts on a member that it has not selected yet, so its entry is not bold when a class
is selected first. A page that came with an entry hidden is taken as it is. -/
theorem styles_before_selection :
    let d : Document := .ofElements [
      ⟨"nav_1", .classEntry, none, {}⟩,
      ⟨"nav_1_1", .methodEntry, none, {}⟩]
    let d' : Document := .ofElements [⟨"nav_1", .classEntry, none, { display := some .hidden }⟩]
    let t := Session.run { page := d } [.selectClass 1]
    let t' := Session.run { page := d' } []
    ¬ (∀ e ∈ t.page.elements, e.category.isMemberEntry = true →
        e.id = (NavId.memberId t.memberSelection).nav.text → e.style.weight = some .bold) ∧
      ¬ ∀ e ∈ t'.page.elements, e.category = .classEntry → e.style.display ≠ some .hidden := by
  intro d d' t t'
  constructor
  · intro h
    have hmem : ⟨"nav_1_1", .methodEntry, none, { background := some .neutral }⟩ ∈
        t.page.elements :=
      mem_elements_run.2 ⟨⟨"nav_1_1", .methodEntry, none, {}⟩, by decide +kernel, by decide +kernel⟩
    exact absurd (h _ hmem rfl (by decide +kernel)) (by decide)
  · intro h
    have hmem : ⟨"nav_1", .classEntry, none, { display := some .hidden }⟩ ∈ t'.page.elements :=
      mem_elements_run.2
        ⟨⟨"nav_1", .classEntry, none, { display := some .hidden }⟩, by decide +kernel, rfl⟩
    exact h _ hmem rfl rfl

end Session

end Sidebar
