import Sidebar.Proofs.Styling

namespace Sidebar

variable {d came : Document} {k : Category}

/-- Whether a style brings out an element of a category: an entry by emphasis, anything else by
displaying it. -/
def Category.isOut : Category → Style → Bool
  | .classEntry | .constructorEntry | .methodEntry => Style.isActive
  | .memberList | .listTitle | .classPanel | .memberPanel => Style.isShown

namespace Document

def BringsOut (d : Document) (k : Category) (a? : Option Address) : Prop :=
  ∀ e ∈ d.elements, e.category = k → (k.isOut e.style = true ↔ ∃ a ∈ a?, e.id = a.text)

/-- Whether the same elements of a category are brought out as on the page as it came. -/
def LooksAs (d came : Document) (k : Category) : Prop :=
  (d.byCategory k).map (fun e => (e.id, k.isOut e.style)) =
    (came.byCategory k).map fun e => (e.id, k.isOut e.style)

/-- Whether a category brings out what was decided for it, or what it came with if nothing was. -/
def Shows (d came : Document) (k : Category) (decided : Option (Option Address)) : Prop :=
  decided.elim (d.LooksAs came k) (d.BringsOut k)

structure ShowsClass (d came : Document) (c? : Option UInt32) : Prop where
  entry : d.Shows came .classEntry (c?.map fun c => some ⟨.nav, .classId c⟩)
  list : d.Shows came .memberList (c?.map fun c => some ⟨.list, .classId c⟩)
  title : d.Shows came .listTitle (c?.map fun c => some ⟨.title, .classId c⟩)
  panel : d.Shows came .classPanel (c?.map fun c => some ⟨.description, .classId c⟩)

structure ShowsMember (d came : Document) (m? : Option MemberId) : Prop where
  constructor : d.Shows came .constructorEntry (m?.map fun m => some ⟨.nav, .memberId m⟩)
  method : d.Shows came .methodEntry (m?.map fun m => some ⟨.nav, .memberId m⟩)

def ShowsPanel (d came : Document) (opened : Option (Option MemberId)) : Prop :=
  d.Shows came .memberPanel (opened.map fun m? => m?.map fun m => ⟨.description, .memberId m⟩)

def Unstyled (d : Document) : Prop := ∀ e ∈ d.elements, e.style = {}

theorem unstyled_ofElements {es : List Element} (h : ∀ e ∈ es, e.style = {}) :
    (ofElements es).Unstyled := by
  intro e he
  rw [← Array.mem_toList_iff, toList_ofElements] at he
  exact h e he

theorem Unstyled.isOut_eq (h : d.Unstyled) {e : Element} (he : e ∈ d.elements) :
    k.isOut e.style = false := by
  rw [h e he]
  cases k <;> rfl

theorem LooksAs.bringsOut_none (h : d.LooksAs came k) (hcame : came.Unstyled) :
    d.BringsOut k none := by
  intro e he hk
  have hmem : (e.id, k.isOut e.style) ∈ (came.byCategory k).map fun e => (e.id, k.isOut e.style) :=
    h ▸ List.mem_map_of_mem (mem_byCategory.2 ⟨he, hk⟩)
  obtain ⟨e', he', heq⟩ := List.mem_map.1 hmem
  rw [← (Prod.mk.inj heq).2, hcame.isOut_eq (mem_byCategory.1 he').1]
  simp

end Document

namespace Selection

/-- What a selection brings out in a category. Where it has no answer, all stays as it was. -/
def outcome? : Category → Selection → Option (Option Address)
  | .classEntry, x => x.class?.map fun c => some ⟨.nav, .classId c⟩
  | .memberList, x => x.class?.map fun c => some ⟨.list, .classId c⟩
  | .listTitle, x => x.class?.map fun c => some ⟨.title, .classId c⟩
  | .classPanel, x => x.class?.map fun c => some ⟨.description, .classId c⟩
  | .constructorEntry, x | .methodEntry, x => x.member?.map fun m => some ⟨.nav, .memberId m⟩
  | .memberPanel, x => some (x.member?.map fun m => ⟨.description, .memberId m⟩)

theorem last?_or_eq_some [DecidableEq α] {f : Selection → Option α} {id : String} {on off : α}
    (hne : off ≠ on)
    (hf : ∀ x, f x = (outcome? k x).map fun a? =>
      a?.elim off fun a => if id = a.text then on else off)
    (xs : List Selection) (came : Option α) :
    decide ((last? f xs).or came = some on) =
      (last? (outcome? k) xs).elim (decide (came = some on)) fun a? =>
        a?.any fun a => id = a.text := by
  rw [last?_map hf]
  cases last? (outcome? k) xs with
  | none => rfl
  | some a? =>
    cases a? with
    | none => simp [hne]
    | some a => by_cases h : id = a.text <;> simp [h, hne]

theorem isOut_applyAll (xs : List Selection) (e : Element) :
    e.category.isOut (applyAll xs e).style =
      (last? (outcome? e.category) xs).elim (e.category.isOut e.style) fun a? =>
        a?.any fun a => e.id = a.text := by
  rw [applyAll_eq]
  have hweight : Weight.normal ≠ .bold := by decide
  have hdisplay : Display.hidden ≠ .block := by decide
  obtain ⟨id, category, label, style⟩ := e
  cases category with
  | classEntry | constructorEntry | methodEntry =>
    apply last?_or_eq_some hweight
    intro x
    cases x <;> rfl
  | memberList | listTitle | classPanel | memberPanel =>
    apply last?_or_eq_some hdisplay
    intro x
    cases x <;> rfl

end Selection

namespace Session

open Selection

variable {s : Session}

theorem classSelection_run (s : Session) (actions : List Action) :
    (s.run actions).classSelection = (lastClass? (s.trace actions)).getD s.classSelection := by
  apply run_preserves (P := fun t xs => t.classSelection = (lastClass? xs).getD s.classSelection)
  · intro t xs x h
    rw [lastClass?, last?_concat]
    cases x with
    | ofClass c => rfl
    | ofMember m => exact h
  · intro t xs h
    exact h
  · rfl

theorem memberSelection_run (s : Session) (actions : List Action) :
    (s.run actions).memberSelection = (lastMember? (s.trace actions)).getD s.memberSelection := by
  apply run_preserves (P := fun t xs => t.memberSelection = (lastMember? xs).getD s.memberSelection)
  · intro t xs x h
    rw [lastMember?, last?_concat]
    cases x with
    | ofClass c => exact h
    | ofMember m => rfl
  · intro t xs h
    exact h
  · rfl

theorem byCategory_run (s : Session) (actions : List Action) (k : Category) :
    (s.run actions).page.byCategory k =
      (s.page.byCategory k).map (applyAll (s.trace actions)) := by
  rw [Document.byCategory_eq_filter, Document.byCategory_eq_filter, elements_run, List.filter_map]
  simp only [Function.comp_def, category_applyAll]

theorem shows_run (s : Session) (actions : List Action) (k : Category) :
    (s.run actions).page.Shows s.page k (last? (outcome? k) (s.trace actions)) := by
  have hout {e : Element} (he : e ∈ s.page.byCategory k) :
      k.isOut (applyAll (s.trace actions) e).style =
        (last? (outcome? k) (s.trace actions)).elim (k.isOut e.style) fun a? =>
          a?.any fun a => e.id = a.text := by
    rw [← (Document.mem_byCategory.1 he).2]
    exact isOut_applyAll _ e
  rw [Document.Shows]
  cases hlast : last? (outcome? k) (s.trace actions) with
  | none =>
    rw [Option.elim_none, Document.LooksAs, byCategory_run, List.map_map]
    apply List.map_congr_left
    intro e he
    rw [Function.comp_apply, id_applyAll, hout he, hlast, Option.elim_none]
  | some a? =>
    rw [Option.elim_some]
    intro e he hk
    have hmem : e ∈ (s.run actions).page.byCategory k := Document.mem_byCategory.2 ⟨he, hk⟩
    rw [byCategory_run, List.mem_map] at hmem
    obtain ⟨came, hcame, rfl⟩ := hmem
    rw [id_applyAll, hout hcame, hlast, Option.elim_some]
    cases a? <;> simp

theorem shows_run_map {f : Selection → Option α} {g : α → Option Address}
    (hk : ∀ x, outcome? k x = (f x).map g) (actions : List Action) :
    (s.run actions).page.Shows s.page k ((last? f (s.trace actions)).map g) := by
  rw [← last?_map hk]
  exact s.shows_run actions k

theorem showsClass_run (s : Session) (actions : List Action) :
    (s.run actions).page.ShowsClass s.page (lastClass? (s.trace actions)) where
  entry := shows_run_map (fun _ => rfl) actions
  list := shows_run_map (fun _ => rfl) actions
  title := shows_run_map (fun _ => rfl) actions
  panel := shows_run_map (fun _ => rfl) actions

theorem showsMember_run (s : Session) (actions : List Action) :
    (s.run actions).page.ShowsMember s.page (lastMember? (s.trace actions)) where
  constructor := shows_run_map (fun _ => rfl) actions
  method := shows_run_map (fun _ => rfl) actions

theorem showsPanel_run (s : Session) (actions : List Action) :
    (s.run actions).page.ShowsPanel s.page ((s.trace actions).getLast?.map member?) := by
  rw [Document.ShowsPanel, Option.map_map, ← last?_some]
  exact shows_run_map (fun _ => rfl) actions

/-- What a page shows depends on the latest selections alone. A category in which nothing was
selected yet looks as it came, so it shows nothing if the page came unstyled. -/
theorem shows_latest (d : Document) (actions : List Action) :
    let s : Session := { page := d }
    let t := s.run actions
    let xs := s.trace actions
    t.page.ShowsClass d (lastClass? xs) ∧ t.page.ShowsMember d (lastMember? xs) ∧
      t.page.ShowsPanel d (xs.getLast?.map member?) ∧
      (d.Unstyled → ∀ k, t.page.LooksAs d k → t.page.BringsOut k none) ∧
      t.classSelection = (lastClass? xs).getD 1 ∧
      t.memberSelection = (lastMember? xs).getD (.firstOf 1) := by
  intro s t xs
  exact ⟨s.showsClass_run actions, s.showsMember_run actions, s.showsPanel_run actions,
    fun hd _ h => h.bringsOut_none hd, s.classSelection_run actions, s.memberSelection_run actions⟩

theorem shows_latest_unstyled :
    let d : Document := .ofElements [
      ⟨"nav_2", .classEntry, none, {}⟩,
      ⟨"nav_2", .classEntry, none, {}⟩,
      ⟨"nav_4_7", .methodEntry, none, {}⟩,
      ⟨"nav_2", .memberPanel, none, {}⟩]
    let s : Session := { page := d }
    let t := s.run [.indexMembers, .selectMember ⟨4, 7⟩]
    d.Unstyled ∧ t.page.BringsOut .classEntry none ∧
      t.page.BringsOut .methodEntry (some ⟨.nav, .memberId ⟨4, 7⟩⟩) ∧
      t.page.BringsOut .memberPanel (some ⟨.description, .memberId ⟨4, 7⟩⟩) := by
  intro d s t
  have hd : d.Unstyled := Document.unstyled_ofElements (by decide)
  obtain ⟨hclass, hmember, hpanel, hunstyled, -⟩ :=
    shows_latest d [.indexMembers, .selectMember ⟨4, 7⟩]
  exact ⟨hd, hunstyled hd _ hclass.entry, hmember.method, hpanel⟩

/-- A page that came with an entry in bold shows it in bold until a class is selected. -/
theorem bold_before_selection :
    let d : Document := .ofElements [⟨"nav_1", .classEntry, none, Style.activate {}⟩]
    let s : Session := { page := d }
    let actions : List Action := [.indexMembers, .selectMember ⟨1, 1⟩]
    lastClass? (s.trace actions) = none ∧
      ¬ ∀ e ∈ (s.run actions).page.elements,
        e.category = .classEntry → e.style.isActive = false := by
  intro d s actions
  refine ⟨rfl, fun h => ?_⟩
  have hmem : ⟨"nav_1", .classEntry, none, Style.activate {}⟩ ∈ (s.run actions).page.elements := by
    rw [← Array.mem_toList_iff, elements_run, Document.toList_ofElements]
    exact List.mem_singleton.2 rfl
  exact Bool.false_ne_true (h _ hmem rfl).symm

end Session

end Sidebar
