import Sidebar.Proofs.Latest
import Sidebar.Proofs.Paging

namespace Sidebar

variable {d came : Document} {k : Category} {a : Address} {n : UInt32} {count : UInt32 → UInt32}

/-- What a reader does on a page of `n` classes: press keys, open its classes, load it again. -/
def Action.Browses (n : UInt32) : Action → Prop
  | .load | .press _ => True
  | .openClass c => c ∈ upTo n
  | .indexMembers | .selectClass _ | .selectMember _ => False

/-- The view in which everything shown belongs to one member and its class. -/
def View.ofMember (m : MemberId) : View where
  classSelection := m.owner
  memberSelection := m
  activeClasses := [Address.text ⟨.nav, .classId m.owner⟩]
  activeMembers := [Address.text ⟨.nav, .memberId m⟩]
  memberLists := [Address.text ⟨.list, .classId m.owner⟩]
  classPanels := [Address.text ⟨.description, .classId m.owner⟩]
  memberPanels := [Address.text ⟨.description, .memberId m⟩]

namespace Document

def outIds (d : Document) (k : Category) : List String :=
  ((d.byCategory k).filter fun e => k.isOut e.style).map Element.id

theorem mem_outIds (h : d.BringsOut k (some a)) {id : String} :
    id ∈ d.outIds k ↔ id = a.text ∧ d.Has k id := by
  simp only [outIds, List.mem_map, List.mem_filter, mem_byCategory]
  constructor
  · rintro ⟨e, ⟨⟨he, hk⟩, hout⟩, rfl⟩
    obtain ⟨a', ha', hid⟩ := (h e he hk).1 hout
    cases ha'
    exact ⟨hid, e, he, hk, rfl⟩
  · rintro ⟨rfl, e, he, hk, hid⟩
    exact ⟨e, ⟨⟨he, hk⟩, (h e he hk).2 ⟨a, rfl, hid⟩⟩, hid⟩

theorem nodup_outIds (h : d.DistinctIds) (k : Category) : (d.outIds k).Nodup := by
  rw [outIds, byCategory_eq_filter]
  exact h.sublist ((List.filter_sublist.trans List.filter_sublist).map Element.id)

theorem outIds_eq_singleton (hd : d.DistinctIds) (h : d.BringsOut k (some a))
    (ha : d.Has k a.text) : d.outIds k = [a.text] := by
  apply List.perm_singleton.1
  refine (List.perm_ext_iff_of_nodup (nodup_outIds hd k) (List.nodup_singleton _)).2 ?_
  intro id
  rw [mem_outIds h, List.mem_singleton]
  constructor
  · intro hid
    exact hid.1
  · rintro rfl
    exact ⟨rfl, ha⟩

theorem outIds_eq_nil (h : d.BringsOut k (some a)) (ha : ¬ d.Has k a.text) : d.outIds k = [] := by
  rw [List.eq_nil_iff_forall_not_mem]
  intro id hid
  obtain ⟨rfl, hid⟩ := (mem_outIds h).1 hid
  exact ha hid

theorem outIds_members (hd : d.DistinctIds) {m : MemberId} (h : d.ShowsMember came (some m))
    (hm : m ∈ d.members) :
    d.outIds .constructorEntry ++ d.outIds .methodEntry = [Address.text ⟨.nav, .memberId m⟩] := by
  rcases mem_members.1 hm with hhas | hhas
  · have hnone : ¬ d.Has .methodEntry (NavId.memberId m).nav.text := by
      intro hhas'
      cases hd.category_unique hhas hhas'
    rw [outIds_eq_singleton hd h.constructor hhas, outIds_eq_nil h.method hnone, List.append_nil]
  · have hnone : ¬ d.Has .constructorEntry (NavId.memberId m).nav.text := by
      intro hhas'
      cases hd.category_unique hhas hhas'
    rw [outIds_eq_singleton hd h.method hhas, outIds_eq_nil h.constructor hnone, List.nil_append]

theorem distinctIds_samplePage : samplePage.DistinctIds := by
  rw [DistinctIds, samplePage, toList_ofElements]
  decide +kernel

theorem hasPanels_samplePage : samplePage.HasPanels := by
  constructor
  all_goals
    simp only [classIds_samplePage, members_samplePage, List.mem_cons, List.not_mem_nil, or_false,
      forall_eq_or_imp, forall_eq, contains_iff]
    decide +kernel

end Document

namespace Selection

variable {c : UInt32} {m : MemberId}

theorem lastClass?_opened (xs : List Selection) :
    lastClass? (xs ++ [.ofClass c, .ofMember m]) = some c := by
  rw [List.append_cons, lastClass?, last?_concat, last?_concat]
  rfl

theorem lastMember?_opened (xs : List Selection) :
    lastMember? (xs ++ [.ofClass c, .ofMember m]) = some m := by
  rw [List.append_cons, lastMember?, last?_concat]
  rfl

theorem getLast?_opened (xs : List Selection) :
    (xs ++ [ofClass c, ofMember m]).getLast? = some (ofMember m) := by
  rw [List.append_cons, List.getLast?_concat]

end Selection

namespace Session

open Selection

variable {s t : Session} {xs : List Selection}

/-- Whether a session on a page has just selected one of its members after the member's class. -/
structure Settled (d : Document) (t : Session) (xs : List Selection) : Prop where
  entries : t.page.SameEntries d
  indexed : t.Indexed
  mem : t.memberSelection ∈ d.members
  last : ∃ ys, xs = ys ++ [.ofClass t.memberSelection.owner, .ofMember t.memberSelection]

theorem target_mem (h : d.WellNumbered n count) (ht : t.Settled d xs) (way : Direction) :
    t.target way ∈ d.members := by
  rw [target_eq ht.entries ht.indexed]
  cases hb : d.memberBeside? (.ofDocument d) way t.memberSelection with
  | none => exact ht.mem
  | some b => exact (h.nearest_of_memberBeside? ht.mem hb).mem

theorem Settled.act (h : d.WellNumbered n count) (ht : t.Settled d xs) {a : Action}
    (ha : a.Browses n) : (t.act a).Settled d (xs ++ t.selections a) := by
  have hentries := (t.sameEntries_run [a]).trans ht.entries
  have hindexed := ht.indexed.run [a]
  cases a with
  | load => exact ⟨hentries, hindexed, h.firstOf_mem h.one_mem, xs, rfl⟩
  | openClass c => exact ⟨hentries, hindexed, h.firstOf_mem (h.mem_classIds_iff.2 ha), xs, rfl⟩
  | press key =>
    cases key with
    | pageDown => exact ⟨hentries, hindexed, target_mem h ht .forward, xs, rfl⟩
    | pageUp => exact ⟨hentries, hindexed, target_mem h ht .back, xs, rfl⟩
    | other code =>
      obtain ⟨ys, hys⟩ := ht.last
      exact ⟨hentries, hindexed, ht.mem, ys, (List.append_nil xs).trans hys⟩
  | indexMembers | selectClass c | selectMember m => cases ha

theorem Settled.run (h : d.WellNumbered n count) (ht : t.Settled d xs) (actions : List Action)
    (hactions : ∀ a ∈ actions, a.Browses n) :
    (t.run actions).Settled d (xs ++ t.trace actions) := by
  induction actions generalizing t xs with
  | nil =>
    rw [trace, List.append_nil]
    exact ht
  | cons a actions ih =>
    obtain ⟨ha, hrest⟩ := List.forall_mem_cons.1 hactions
    rw [trace, ← List.append_assoc]
    exact ih (ht.act h ha) hrest

theorem settled_load (h : s.page.WellNumbered n count) :
    s.load.Settled s.page (s.selections .load) where
  entries := s.sameEntries_run [.load]
  indexed := indexed_indexMembers _
  mem := h.firstOf_mem h.one_mem
  last := ⟨[], rfl⟩

theorem distinctIds_run (h : s.page.DistinctIds) (actions : List Action) :
    (s.run actions).page.DistinctIds := by
  rw [Document.DistinctIds, elements_run, List.map_map]
  have hid : Element.id ∘ applyAll (s.trace actions) = Element.id := funext (id_applyAll _)
  rw [hid]
  exact h

theorem view_eq_outIds (s : Session) :
    s.view =
      { classSelection := s.classSelection
        memberSelection := s.memberSelection
        activeClasses := s.page.outIds .classEntry
        activeMembers := s.page.outIds .constructorEntry ++ s.page.outIds .methodEntry
        memberLists := s.page.outIds .memberList
        classPanels := s.page.outIds .classPanel
        memberPanels := s.page.outIds .memberPanel } :=
  rfl

theorem Settled.shows {actions : List Action}
    (ht : (s.run actions).Settled d (s.trace actions)) :
    let t := s.run actions
    let m := t.memberSelection
    t.classSelection = m.owner ∧ t.page.ShowsClass s.page (some m.owner) ∧
      t.page.ShowsMember s.page (some m) ∧ t.page.ShowsPanel s.page (some (some m)) := by
  intro t m
  obtain ⟨ys, hys⟩ := ht.last
  have hclass : lastClass? (s.trace actions) = some m.owner := by
    rw [hys]
    exact lastClass?_opened ys
  have hmember : lastMember? (s.trace actions) = some m := by
    rw [hys]
    exact lastMember?_opened ys
  have hopened : (s.trace actions).getLast?.map member? = some (some m) := by
    rw [hys, getLast?_opened ys]
    rfl
  refine ⟨?_, hclass ▸ s.showsClass_run actions, hmember ▸ s.showsMember_run actions,
    hopened ▸ s.showsPanel_run actions⟩
  rw [s.classSelection_run actions, hclass]
  rfl

theorem Settled.view_eq {actions : List Action} (h : s.page.WellNumbered n count)
    (hd : s.page.DistinctIds) (hp : s.page.HasPanels)
    (ht : (s.run actions).Settled s.page (s.trace actions)) :
    (s.run actions).view = .ofMember (s.run actions).memberSelection := by
  obtain ⟨hselection, hclass, hmember, hpanel⟩ := ht.shows
  have hdistinct := distinctIds_run hd actions
  have howner := h.mem_classIds_iff.2 (h.mem_members_iff.1 ht.mem).1
  have hlisted : (s.run actions).memberSelection ∈ (s.run actions).page.members := by
    rw [ht.entries.members]
    exact ht.mem
  have hhas {k : Category} {a : Address} (hk : k.admits a = true)
      (hentry : k.isMemberEntry = false) (ha : s.page.contains a.text = true) :
      (s.run actions).page.Has k a.text :=
    (ht.entries k a.text).2 (h.wellNamed.has_of_contains hk hentry ha)
  rw [view_eq_outIds, hselection, Document.outIds_members hdistinct hmember hlisted,
    Document.outIds_eq_singleton hdistinct hclass.entry
      (hhas rfl rfl (Document.hasEntry_of_mem_classIds howner)),
    Document.outIds_eq_singleton hdistinct hclass.list (hhas rfl rfl (hp.list _ howner)),
    Document.outIds_eq_singleton hdistinct hclass.panel (hhas rfl rfl (hp.classPanel _ howner)),
    Document.outIds_eq_singleton hdistinct hpanel (hhas rfl rfl (hp.memberPanel _ ht.mem))]
  rfl

/-- From the loading of such a page on, a reader who presses keys, opens classes and loads it again
sees one class and one of its members, each with what belongs to it and with nothing else. -/
theorem view_of_browsing (h : s.page.WellNumbered n count) (hd : s.page.DistinctIds)
    (hp : s.page.HasPanels) (actions : List Action) (hactions : ∀ a ∈ actions, a.Browses n) :
    let t := s.load.run actions
    t.view = .ofMember t.memberSelection ∧
      t.page.hasEntry (.memberId t.memberSelection) = true := by
  have ht : (s.run (.load :: actions)).Settled s.page (s.trace (.load :: actions)) :=
    (settled_load h).run h actions hactions
  intro t
  refine ⟨Settled.view_eq (s := s) h hd hp ht, ?_⟩
  have hentry := Document.hasEntry_of_mem_members ht.mem
  rw [← ht.entries.hasEntry] at hentry
  exact hentry

theorem view_of_browsing_samplePage :
    let s : Session := { page := Document.samplePage }
    let actions : List Action := [.press .pageDown, .load, .press .pageUp, .openClass 2]
    (s.page.WellNumbered 2 (fun c => if c = 1 then 2 else 1) ∧ s.page.DistinctIds ∧
      s.page.HasPanels ∧ ∀ a ∈ actions, a.Browses 2) ∧
      (s.load.run actions).view = .ofMember ⟨2, 1⟩ := by
  intro s actions
  have hwell : s.page.WellNumbered 2 _ := Document.wellNumbered_samplePage
  have hdistinct : s.page.DistinctIds := Document.distinctIds_samplePage
  have hpanels : s.page.HasPanels := Document.hasPanels_samplePage
  have hactions : ∀ a ∈ actions, a.Browses 2 := by simp [actions, Action.Browses]
  exact ⟨⟨hwell, hdistinct, hpanels, hactions⟩,
    (view_of_browsing hwell hdistinct hpanels actions hactions).1⟩

end Session

end Sidebar
