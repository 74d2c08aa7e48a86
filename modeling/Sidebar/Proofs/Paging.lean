import Sidebar.Proofs.Selection
import Sidebar.Proofs.WellNumbered

namespace Sidebar

def Direction.Ahead (way : Direction) (a b : MemberId) : Prop :=
  way.Before a.owner b.owner ∨ a.owner = b.owner ∧ way.Before a.index b.index

theorem Direction.ahead_forward {a b : MemberId} : forward.Ahead a b ↔ a < b := by
  simp only [Ahead, Before, MemberId.lt_iff, UInt32.lt_iff_toNat_lt]

theorem Direction.ahead_back {a b : MemberId} : back.Ahead a b ↔ b < a := by
  simp only [Ahead, Before, MemberId.lt_iff, UInt32.lt_iff_toNat_lt, eq_comm]

/-- The place a number of steps away in a list, or the end of the list on this way. -/
def Direction.move (length place : Nat) : Direction → Nat → Nat
  | .forward, steps => min (place + steps) (length - 1)
  | .back, steps => place - steps

theorem Direction.move_zero (way : Direction) {length place : Nat} (h : place < length) :
    way.move length place 0 = place := by
  cases way with
  | forward =>
    rw [move]
    omega
  | back => rfl

theorem Direction.move_succ (way : Direction) (length place steps : Nat) :
    way.move length place (steps + 1) = way.move length (way.move length place 1) steps := by
  cases way <;> simp only [move] <;> omega

namespace Document

variable {d d' : Document} {n c : UInt32} {m b : MemberId} {count : UInt32 → UInt32}
  {table : LastIndex} {way : Direction}

theorem SameEntries.classBeside? (h : d.SameEntries d') (way : Direction) (c : UInt32) :
    d.classBeside? way c = d'.classBeside? way c := by
  simp only [Document.classBeside?, h.hasEntry]

theorem SameEntries.memberBeside? (h : d.SameEntries d') (table : LastIndex) (way : Direction)
    (m : MemberId) : d.memberBeside? table way m = d'.memberBeside? table way m := by
  simp only [Document.memberBeside?, h.hasEntry, h.classBeside?]

theorem SameEntries.walk (h : d.SameEntries d') (table : LastIndex) (way : Direction) (steps : Nat)
    (id : NavId) : d.walk table way steps id = d'.walk table way steps id := by
  have hbeside (id : NavId) : d.beside? table way id = d'.beside? table way id := by
    cases id <;> simp only [beside?, h.classBeside?, h.memberBeside?]
  induction steps generalizing id with
  | zero => rfl
  | succ steps ih => simp only [Document.walk, hbeside, ih]

theorem walk_succ (d : Document) (table : LastIndex) (way : Direction) (steps : Nat) (id : NavId) :
    d.walk table way (steps + 1) id =
      d.walk table way steps ((d.beside? table way id).getD id) := by
  cases hb : d.beside? table way id with
  | some next => simp only [walk, hb, Option.getD_some]
  | none =>
    cases steps with
    | zero => simp only [walk, hb, Option.getD_none]
    | succ steps => simp only [walk, hb, Option.getD_none]

structure Nearest (d : Document) (way : Direction) (m b : MemberId) : Prop where
  mem : b ∈ d.members
  ahead : way.Ahead m b
  nearest : ∀ x ∈ d.members, way.Ahead m x → ¬ way.Ahead x b

/-- The member at which a class is entered this way. -/
def entered? (table : LastIndex) : Direction → UInt32 → Option MemberId
  | .forward, c => some (.firstOf c)
  | .back, c => (table.lookup c).map (MemberId.mk c)

/-- A step stays in the class if it can, and otherwise enters the class beside it, if any. -/
theorem memberBeside?_cases (d : Document) (table : LastIndex) (way : Direction) (m : MemberId) :
    (∃ i, way.next? m.index = some i ∧ d.hasEntry (.memberId ⟨m.owner, i⟩) = true ∧
      d.memberBeside? table way m = some ⟨m.owner, i⟩) ∨
    (∀ i, way.next? m.index = some i → d.hasEntry (.memberId ⟨m.owner, i⟩) = false) ∧
      d.memberBeside? table way m = (d.classBeside? way m.owner).bind (entered? table way) := by
  rw [memberBeside?]
  split
  next i hi =>
    obtain ⟨hnext, hentry⟩ := Option.filter_eq_some_iff.1 hi
    exact .inl ⟨i, hnext, hentry, rfl⟩
  next hnone =>
    refine .inr ⟨?_, ?_⟩
    · intro i hi
      rw [hi] at hnone
      simpa using hnone
    · cases way with
      | forward => rfl
      | back =>
        apply Option.bind_congr
        intro c _
        cases hl : table.lookup c <;> simp [entered?, hl]

theorem classBeside?_eq_some_iff {k : UInt32} :
    d.classBeside? way k = some c ↔ way.next? k = some c ∧ d.hasEntry (.classId c) = true := by
  rw [classBeside?, Option.filter_eq_some_iff]

namespace WellNumbered

theorem nearest_inside (h : d.WellNumbered n count) {i : UInt32}
    (hi : way.next? m.index = some i) (hentry : d.hasEntry (.memberId ⟨m.owner, i⟩) = true) :
    d.Nearest way m ⟨m.owner, i⟩ := by
  refine ⟨h.wellNamed.hasEntry_memberId.1 hentry, .inr ⟨rfl, way.before_of_next? hi⟩, ?_⟩
  intro x _ hmx hxb
  rcases hmx with hmx | ⟨howner, hmx⟩
  · rcases hxb with hxb | ⟨howner, -⟩
    · exact hmx.asymm hxb
    · rw [howner] at hmx
      exact way.not_before_self _ hmx
  · rcases hxb with hxb | ⟨-, hxb⟩
    · rw [← howner] at hxb
      exact way.not_before_self _ hxb
    · exact way.not_between_of_next? hi hmx hxb

/-- Where a step has to leave the class, the members ahead are those of other classes. -/
theorem before_of_leaving (h : d.WellNumbered n count) (hm : m ∈ d.members)
    (hleave : ∀ i, way.next? m.index = some i → d.hasEntry (.memberId ⟨m.owner, i⟩) = false)
    {x : MemberId} (hx : x ∈ d.members) (hmx : way.Ahead m x) : way.Before m.owner x.owner := by
  rcases hmx with hmx | ⟨howner, hmx⟩
  · exact hmx
  · -- A member ahead in the same class would make the next index one of the class too.
    obtain ⟨i, hnext, hi⟩ := hmx.exists_next?
    obtain ⟨hclass, hindex⟩ := h.mem_members_iff.1 hm
    have hindex' := (h.mem_members_iff.1 hx).2
    rw [← howner] at hindex'
    have hbetween := way.mem_upTo_of_between hindex hindex' (way.before_of_next? hnext) hi
    have hmem : (⟨m.owner, i⟩ : MemberId) ∈ d.members := h.mem_members_iff.2 ⟨hclass, hbetween⟩
    exact Bool.noConfusion ((hasEntry_of_mem_members hmem).symm.trans (hleave i hnext))

theorem entered?_eq (h : d.WellNumbered n count) (hc : c ∈ d.classIds) (way : Direction) :
    ∃ b, entered? (.ofDocument d) way c = some b ∧ b ∈ d.members ∧ b.owner = c ∧
      ∀ x ∈ d.members, x.owner = c → ¬ way.Before x.index b.index := by
  cases way with
  | forward =>
    refine ⟨.firstOf c, rfl, h.firstOf_mem hc, rfl, ?_⟩
    intro x hx _
    exact Nat.not_lt_of_le (mem_upTo.1 (h.mem_members_iff.1 hx).2).1
  | back =>
    obtain ⟨hmem, hlast⟩ := h.isLast hc
    refine ⟨⟨c, count c⟩, ?_, hmem, rfl, ?_⟩
    · rw [entered?, h.lookup_ofDocument hc]
      rfl
    · intro x hx howner
      subst howner
      exact Nat.not_lt_of_le (UInt32.le_iff_toNat_le.1 (hlast x.index hx))

theorem nearest_of_memberBeside? (h : d.WellNumbered n count) (hm : m ∈ d.members)
    (hb : d.memberBeside? (.ofDocument d) way m = some b) : d.Nearest way m b := by
  rcases d.memberBeside?_cases (.ofDocument d) way m with ⟨i, hi, hentry, he⟩ | ⟨hleave, he⟩
  · rw [hb] at he
    cases he
    exact h.nearest_inside hi hentry
  · rw [hb] at he
    obtain ⟨c, hbeside, hentered⟩ := Option.bind_eq_some_iff.1 he.symm
    obtain ⟨hnext, hentry⟩ := classBeside?_eq_some_iff.1 hbeside
    obtain ⟨b', he', hmem, rfl, hfirst⟩ :=
      h.entered?_eq (h.wellNamed.hasEntry_classId.1 hentry) way
    rw [hentered] at he'
    cases he'
    refine ⟨hmem, .inl (way.before_of_next? hnext), ?_⟩
    intro x hx hmx hxb
    have howner := h.before_of_leaving hm hleave hx hmx
    rcases hxb with hxb | ⟨hsame, hxb⟩
    · exact way.not_between_of_next? hnext howner hxb
    · exact hfirst x hx hsame hxb

theorem not_ahead_of_memberBeside? (h : d.WellNumbered n count) (hm : m ∈ d.members)
    (hnone : d.memberBeside? (.ofDocument d) way m = none) {x : MemberId} (hx : x ∈ d.members) :
    ¬ way.Ahead m x := by
  rcases d.memberBeside?_cases (.ofDocument d) way m with ⟨i, -, -, he⟩ | ⟨hleave, he⟩
  · rw [hnone] at he
    cases he
  · intro hmx
    obtain ⟨c, hnext, hc⟩ := (h.before_of_leaving hm hleave hx hmx).exists_next?
    have hbetween := way.mem_upTo_of_between (h.mem_members_iff.1 hm).1 (h.mem_members_iff.1 hx).1
      (way.before_of_next? hnext) hc
    have hmem := h.mem_classIds_iff.2 hbetween
    obtain ⟨b, hb, -⟩ := h.entered?_eq hmem way
    rw [hnone, classBeside?_eq_some_iff.2 ⟨hnext, hasEntry_of_mem_classIds hmem⟩,
      Option.bind_some, hb] at he
    cases he

/-- A step moves one place in the list of members, or none at its end. -/
theorem getElem?_move_one (h : d.WellNumbered n count) {i : Nat} (hi : d.members[i]? = some m)
    (way : Direction) :
    d.members[way.move d.members.length i 1]? =
      some ((d.memberBeside? (.ofDocument d) way m).getD m) := by
  have hm := List.mem_of_getElem? hi
  obtain ⟨hlt, -⟩ := List.getElem?_eq_some_iff.1 hi
  cases hb : d.memberBeside? (.ofDocument d) way m with
  | some b =>
    obtain ⟨hmem, hahead, hnearest⟩ := h.nearest_of_memberBeside? hm hb
    cases way with
    | forward =>
      simp only [Direction.ahead_forward] at hahead hnearest
      have hnext := Ascending.getElem?_next d.pairwise_members hi hmem hahead hnearest
      obtain ⟨hlt', -⟩ := List.getElem?_eq_some_iff.1 hnext
      have hmove : Direction.forward.move d.members.length i 1 = i + 1 := by
        rw [Direction.move]
        omega
      rw [hmove]
      exact hnext
    | back =>
      simp only [Direction.ahead_back] at hahead hnearest
      obtain ⟨j, rfl, hj⟩ := Ascending.getElem?_previous d.pairwise_members hi hmem hahead hnearest
      exact hj
  | none =>
    have hlast (x : MemberId) (hx : x ∈ d.members) : ¬ way.Ahead m x :=
      h.not_ahead_of_memberBeside? hm hb hx
    have hmove : way.move d.members.length i 1 = i := by
      cases way with
      | forward =>
        simp only [Direction.ahead_forward] at hlast
        have hlength := Ascending.length_of_last d.pairwise_members hi hlast
        rw [Direction.move]
        omega
      | back =>
        simp only [Direction.ahead_back] at hlast
        rw [Direction.move, Ascending.index_of_first d.pairwise_members hi hlast]
    rw [hmove]
    exact hi

theorem getElem?_move (h : d.WellNumbered n count) {i : Nat} (hi : d.members[i]? = some m)
    (way : Direction) (steps : Nat) :
    (d.members[way.move d.members.length i steps]?).map .memberId =
      some (d.walk (.ofDocument d) way steps (.memberId m)) := by
  induction steps generalizing i m with
  | zero =>
    obtain ⟨hlt, -⟩ := List.getElem?_eq_some_iff.1 hi
    rw [way.move_zero hlt, hi]
    rfl
  | succ steps ih =>
    have hone := ih (h.getElem?_move_one hi way)
    rw [way.move_succ, hone, walk_succ, beside?]
    cases d.memberBeside? (.ofDocument d) way m <;> rfl

theorem getElem?_zero (h : d.WellNumbered n count) : d.members[0]? = some (.firstOf 1) := by
  obtain ⟨i, hi⟩ := List.mem_iff_getElem?.1 (h.firstOf_mem h.one_mem)
  have hfirst (x : MemberId) (hx : x ∈ d.members) : ¬ x < .firstOf 1 := by
    obtain ⟨howner, hindex⟩ := h.mem_members_iff.1 hx
    rw [mem_upTo] at howner hindex
    rw [MemberId.lt_iff, UInt32.lt_iff_toNat_lt, UInt32.lt_iff_toNat_lt, MemberId.firstOf]
    simp only [UInt32.reduceToNat]
    omega
  rw [← Ascending.index_of_first d.pairwise_members hi hfirst]
  exact hi

end WellNumbered

end Document

def Key.turn (length place : Nat) : Key → Nat
  | .pageDown => min (place + 1) (length - 1)
  | .pageUp => place - 1
  | .other _ => place

/-- The place an offset away in a list, held between its ends. -/
def heldPlace (length place : Nat) (offset : Int) : Nat :=
  (max 0 (min (place + offset) (length - 1))).toNat

theorem move_natAbs {length place : Nat} (h : place < length) (offset : Int) :
    (if offset < 0 then Direction.back else .forward).move length place offset.natAbs =
      heldPlace length place offset := by
  rw [heldPlace]
  split
  · rw [Direction.move]
    omega
  · rw [Direction.move]
    omega

namespace Session

variable {s : Session} {d : Document} {n : UInt32} {count : UInt32 → UInt32} {place : Nat}

/-- Whether a session on a page is at a place in its list of members, with the class of the member
selected. -/
structure At (s : Session) (d : Document) (place : Nat) : Prop where
  entries : s.page.SameEntries d
  indexed : s.Indexed
  member : d.members[place]? = some s.memberSelection
  owner : s.classSelection = s.memberSelection.owner

theorem Indexed.lastIndex_eq (h : s.Indexed) (hd : s.page.SameEntries d) :
    s.lastIndex = .ofDocument d :=
  h.trans (LastIndex.ofDocument_congr hd)

theorem target_eq (hd : s.page.SameEntries d) (hs : s.Indexed) (way : Direction) :
    s.target way =
      (d.memberBeside? (.ofDocument d) way s.memberSelection).getD s.memberSelection := by
  rw [target, hs.lastIndex_eq hd, hd.memberBeside?]

theorem navigate_eq (hd : s.page.SameEntries d) (hs : s.Indexed) (id : NavId) (offset : Int) :
    s.navigate id offset = d.navigate (.ofDocument d) id offset := by
  rw [navigate, hs.lastIndex_eq hd]
  exact hd.walk _ _ _ id

/-- Where a key leads is told by the entries of the page and the selected member. -/
theorem memberSelection_press (hd : s.page.SameEntries d) (hs : s.Indexed) (key : Key) :
    (s.press key).memberSelection =
      key.direction?.elim s.memberSelection fun way =>
        (d.memberBeside? (.ofDocument d) way s.memberSelection).getD s.memberSelection := by
  rw [press]
  cases key.direction? with
  | none => rfl
  | some way => exact target_eq hd hs way

theorem at_load (h : s.page.WellNumbered n count) : s.load.At s.page 0 where
  entries := s.sameEntries_run [.load]
  indexed := indexed_indexMembers _
  member := h.getElem?_zero
  owner := rfl

theorem At.press (h : d.WellNumbered n count) (hs : s.At d place) (key : Key) :
    (s.press key).At d (key.turn d.members.length place) := by
  have hpage := (s.sameEntries_run [.press key]).trans hs.entries
  have hindexed := hs.indexed.run [.press key]
  have htarget (way : Direction) :
      d.members[way.move d.members.length place 1]? = some (s.target way) := by
    rw [target_eq hs.entries hs.indexed]
    exact h.getElem?_move_one hs.member way
  cases key with
  | pageDown => exact ⟨hpage, hindexed, htarget .forward, rfl⟩
  | pageUp => exact ⟨hpage, hindexed, htarget .back, rfl⟩
  | other code => exact hs

theorem At.run_press (h : d.WellNumbered n count) (hs : s.At d place) (keys : List Key) :
    (s.run (keys.map .press)).At d (keys.foldl (Key.turn d.members.length) place) := by
  induction keys generalizing s place with
  | nil => exact hs
  | cons key keys ih => exact ih (hs.press h key)

theorem navigate_run_eq_heldPlace (h : s.page.WellNumbered n count) (actions : List Action)
    {m : MemberId} (hm : s.page.members[place]? = some m) (offset : Int) :
    (s.page.members[heldPlace s.page.members.length place offset]?).map .memberId =
      some ((s.indexMembers.run actions).navigate (.memberId m) offset) := by
  have hpage : (s.indexMembers.run actions).page.SameEntries s.page :=
    s.indexMembers.sameEntries_run actions
  have hindexed := s.indexed_indexMembers.run actions
  obtain ⟨hlt, -⟩ := List.getElem?_eq_some_iff.1 hm
  rw [navigate_eq hpage hindexed, Document.navigate, ← move_natAbs hlt]
  exact h.getElem?_move hm _ _

/-- On a well-numbered page with a filled table an offset from a member leads as many places along
the list of members, held at its ends, whatever is done meanwhile. From the loading of the page on,
the paging keys turn through that list from its first place, and every other key does nothing. -/
theorem paging_walks_members (h : s.page.WellNumbered n count) :
    (∀ (actions : List Action) (place : Nat) (m : MemberId) (offset : Int),
      s.page.members[place]? = some m →
      (s.page.members[heldPlace s.page.members.length place offset]?).map .memberId =
        some ((s.indexMembers.run actions).navigate (.memberId m) offset)) ∧
    ∀ keys : List Key,
      let t := s.load.run (keys.map .press)
      s.page.members[keys.foldl (Key.turn s.page.members.length) 0]? = some t.memberSelection ∧
        t.classSelection = t.memberSelection.owner := by
  constructor
  · intro actions place m offset hm
    exact navigate_run_eq_heldPlace h actions hm offset
  · intro keys
    have hat := (at_load h).run_press h keys
    exact ⟨hat.member, hat.owner⟩

theorem paging_walks_members_samplePage :
    let s : Session := { page := Document.samplePage }
    s.page.WellNumbered 2 (fun c => if c = 1 then 2 else 1) ∧
      (s.indexMembers.run [.openClass 1]).navigate (.memberId ⟨2, 1⟩) (-1) = .memberId ⟨1, 2⟩ ∧
      (s.load.run ([.pageDown, .other 13, .pageDown, .pageDown].map .press)).memberSelection =
        ⟨2, 1⟩ := by
  intro s
  have hwell : s.page.WellNumbered 2 _ := Document.wellNumbered_samplePage
  have hmembers : s.page.members = _ := Document.members_samplePage
  obtain ⟨hnavigate, hturn⟩ := paging_walks_members hwell
  refine ⟨hwell, ?_, ?_⟩
  · have hback := hnavigate [.openClass 1] 2 ⟨2, 1⟩ (-1) (by rw [hmembers]; rfl)
    rw [hmembers] at hback
    exact (Option.some.inj hback).symm
  · have hdown := (hturn [.pageDown, .other 13, .pageDown, .pageDown]).1
    rw [hmembers] at hdown
    exact (Option.some.inj hdown).symm

end Session

end Sidebar
