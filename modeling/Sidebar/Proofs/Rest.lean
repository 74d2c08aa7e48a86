import Mathlib.Logic.Function.Iterate
import Sidebar.Proofs.OnPage

namespace Sidebar

namespace Direction

variable {way : Direction} {a b c n k : UInt32} {id next target : NavId}

def offset : Direction → Int
  | forward => 1
  | back => -1

/-- The next number is the neighbour among all integers, if that is a number of 32 bits. -/
theorem next?_eq_some_iff : way.next? n = some k ↔ (k.toNat : Int) = n.toNat + way.offset := by
  cases way with
  | forward =>
    rw [next?_forward, offset]
    omega
  | back =>
    rw [next?_back, offset]
    omega

/-- Whether a class or member lies ahead of an id this way. From a member that includes the classes
after its own. -/
def Faces (way : Direction) : NavId → NavId → Prop
  | .classId c, .classId c' => way.Before c c'
  | .memberId m, .memberId m' => way.Ahead m m'
  | .memberId m, .classId c => way.Before m.owner c
  | .classId _, .memberId _ => False

instance : (way : Direction) → (a b : UInt32) → Decidable (way.Before a b)
  | forward, a, b => inferInstanceAs (Decidable (a.toNat < b.toNat))
  | back, a, b => inferInstanceAs (Decidable (b.toNat < a.toNat))

instance (way : Direction) (a b : MemberId) : Decidable (way.Ahead a b) :=
  inferInstanceAs (Decidable (_ ∨ _ ∧ _))

instance (way : Direction) : (id target : NavId) → Decidable (way.Faces id target)
  | .classId c, .classId c' => inferInstanceAs (Decidable (way.Before c c'))
  | .memberId m, .memberId m' => inferInstanceAs (Decidable (way.Ahead m m'))
  | .memberId m, .classId c => inferInstanceAs (Decidable (way.Before m.owner c))
  | .classId _, .memberId _ => inferInstanceAs (Decidable False)

theorem Before.trans (h : way.Before a b) (h' : way.Before b c) : way.Before a c := by
  cases way with
  | forward => exact Nat.lt_trans h h'
  | back => exact Nat.lt_trans h' h

theorem Ahead.before_trans {m m' : MemberId} (h : way.Ahead m m') (h' : way.Before m'.owner c) :
    way.Before m.owner c := by
  rcases h with h | ⟨h, -⟩
  · exact h.trans h'
  · rw [h]
    exact h'

theorem Ahead.trans {m m' m'' : MemberId} (h : way.Ahead m m') (h' : way.Ahead m' m'') :
    way.Ahead m m'' := by
  rcases h' with h' | ⟨howner', hindex'⟩
  · exact .inl (h.before_trans h')
  · rcases h with h | ⟨howner, hindex⟩
    · rw [howner'] at h
      exact .inl h
    · exact .inr ⟨howner.trans howner', hindex.trans hindex'⟩

theorem not_faces_self (way : Direction) (id : NavId) : ¬ way.Faces id id := by
  cases id with
  | classId c => exact way.not_before_self c
  | memberId m =>
    rintro (h | ⟨-, h⟩)
    · exact way.not_before_self _ h
    · exact way.not_before_self _ h

theorem Faces.trans (h : way.Faces id next) (h' : way.Faces next target) :
    way.Faces id target := by
  cases id with
  | classId c =>
    cases next with
    | memberId m => exact h.elim
    | classId c' =>
      cases target with
      | classId c'' => exact Before.trans h h'
      | memberId m => exact h'
  | memberId m =>
    cases next with
    | classId c =>
      cases target with
      | classId c' => exact Before.trans h h'
      | memberId m' => exact h'.elim
    | memberId m' =>
      cases target with
      | classId c => exact Ahead.before_trans h h'
      | memberId m'' => exact Ahead.trans h h'

end Direction

namespace NavId

variable {id next : NavId}

def isMember : NavId → Bool
  | classId _ => false
  | memberId _ => true

theorem lt_of_faces_forward (h : Direction.forward.Faces id next)
    (hkind : next.isMember = id.isMember) : id < next := by
  cases id with
  | classId c =>
    cases next with
    | classId c' => exact UInt32.lt_iff_toNat_lt.2 h
    | memberId m => cases hkind
  | memberId m =>
    cases next with
    | classId c => cases hkind
    | memberId m' => exact Direction.ahead_forward.1 h

theorem lt_of_faces_back (h : Direction.back.Faces id next)
    (hkind : next.isMember = id.isMember) : next < id := by
  cases id with
  | classId c =>
    cases next with
    | classId c' => exact UInt32.lt_iff_toNat_lt.2 h
    | memberId m => cases hkind
  | memberId m =>
    cases next with
    | classId c => cases hkind
    | memberId m' => exact Direction.ahead_back.1 h

end NavId

namespace Document

variable {d : Document} {table : LastIndex} {way : Direction} {id next : NavId} {m b : MemberId}
  {c : UInt32}

/-- A step with numbers counted among all integers: to the class beside, to the member beside in the
class, or else into the class beside. -/
inductive Moves (d : Document) (table : LastIndex) (way : Direction) : NavId → NavId → Prop
  | besideClass {c c' : UInt32} (hnext : (c'.toNat : Int) = c.toNat + way.offset)
    (hentry : d.hasEntry (.classId c') = true) : Moves d table way (.classId c) (.classId c')
  | insideClass {m : MemberId} {i : UInt32} (hnext : (i.toNat : Int) = m.index.toNat + way.offset)
    (hentry : d.hasEntry (.memberId ⟨m.owner, i⟩) = true) :
    Moves d table way (.memberId m) (.memberId ⟨m.owner, i⟩)
  | intoClass {m b : MemberId} {c : UInt32}
    (hleave : ∀ i : UInt32, (i.toNat : Int) = m.index.toNat + way.offset →
      d.hasEntry (.memberId ⟨m.owner, i⟩) = false)
    (hnext : (c.toNat : Int) = m.owner.toNat + way.offset) (hentry : d.hasEntry (.classId c) = true)
    (hentered : entered? table way c = some b) : Moves d table way (.memberId m) (.memberId b)

theorem Moves.of_beside? (h : d.beside? table way id = some next) :
    d.Moves table way id next := by
  cases id with
  | classId c =>
    obtain ⟨c', hc', rfl⟩ := Option.map_eq_some_iff.1 h
    obtain ⟨hnext, hentry⟩ := classBeside?_eq_some_iff.1 hc'
    exact .besideClass (Direction.next?_eq_some_iff.1 hnext) hentry
  | memberId m =>
    obtain ⟨b, hb, rfl⟩ := Option.map_eq_some_iff.1 h
    rcases d.memberBeside?_cases table way m with ⟨i, hi, hentry, he⟩ | ⟨hleave, he⟩
    · rw [hb] at he
      cases he
      exact .insideClass (Direction.next?_eq_some_iff.1 hi) hentry
    · rw [hb] at he
      obtain ⟨c, hc, hentered⟩ := Option.bind_eq_some_iff.1 he.symm
      obtain ⟨hnext, hentry⟩ := classBeside?_eq_some_iff.1 hc
      refine .intoClass ?_ (Direction.next?_eq_some_iff.1 hnext) hentry hentered
      intro i hi
      exact hleave i (Direction.next?_eq_some_iff.2 hi)

theorem Moves.beside? (h : d.Moves table way id next) : d.beside? table way id = some next := by
  cases h with
  | besideClass hnext hentry =>
    rw [Document.beside?,
      classBeside?_eq_some_iff.2 ⟨Direction.next?_eq_some_iff.2 hnext, hentry⟩]
    rfl
  | @insideClass m i hnext hentry =>
    rcases d.memberBeside?_cases table way m with ⟨i', hi', -, he⟩ | ⟨hleave, -⟩
    · rw [Direction.next?_eq_some_iff.2 hnext] at hi'
      cases hi'
      rw [Document.beside?, he]
      rfl
    · have hnone := hleave i (Direction.next?_eq_some_iff.2 hnext)
      exact Bool.noConfusion (hentry.symm.trans hnone)
  | @intoClass m b c hleave hnext hentry hentered =>
    rcases d.memberBeside?_cases table way m with ⟨i, hi, hentry', -⟩ | ⟨-, he⟩
    · have hnone := hleave i (Direction.next?_eq_some_iff.1 hi)
      exact Bool.noConfusion (hentry'.symm.trans hnone)
    · rw [classBeside?_eq_some_iff.2 ⟨Direction.next?_eq_some_iff.2 hnext, hentry⟩,
        Option.bind_some, hentered] at he
      rw [Document.beside?, he]
      rfl

theorem beside?_eq_some_iff : d.beside? table way id = some next ↔ d.Moves table way id next :=
  ⟨.of_beside?, Moves.beside?⟩

theorem owner_of_entered? (h : entered? table way c = some b) : b.owner = c := by
  cases way with
  | forward =>
    cases h
    rfl
  | back =>
    obtain ⟨last, -, rfl⟩ := Option.map_eq_some_iff.1 h
    rfl

namespace Moves

theorem isMember_eq (h : d.Moves table way id next) : next.isMember = id.isMember := by
  cases h <;> rfl

theorem before_of_offset {a b : UInt32} (h : (b.toNat : Int) = a.toNat + way.offset) :
    way.Before a b :=
  Direction.before_of_next? (Direction.next?_eq_some_iff.2 h)

theorem exists_passed (h : d.Moves table way id next) :
    way.Faces id next ∧
      ∃ target, d.hasEntry target = true ∧ way.Faces id target ∧ ¬ way.Faces next target := by
  cases h with
  | besideClass hnext hentry =>
    have hahead := before_of_offset hnext
    exact ⟨hahead, _, hentry, hahead, way.not_faces_self _⟩
  | @insideClass m i hnext hentry =>
    have hahead : way.Ahead m ⟨m.owner, i⟩ := .inr ⟨rfl, before_of_offset hnext⟩
    exact ⟨hahead, _, hentry, hahead, way.not_faces_self _⟩
  | @intoClass m b c hleave hnext hentry hentered =>
    have howner := owner_of_entered? hentered
    have hahead : way.Before m.owner c := before_of_offset hnext
    refine ⟨.inl (howner ▸ hahead), .classId c, hentry, hahead, ?_⟩
    rw [Direction.Faces, howner]
    exact way.not_before_self c

theorem hasEntry_of_back (h : d.Moves (.ofDocument d) .back id next) :
    d.hasEntry next = true := by
  cases h with
  | besideClass hnext hentry => exact hentry
  | insideClass hnext hentry => exact hentry
  | intoClass hleave hnext hentry hentered =>
    obtain ⟨last, hlast, rfl⟩ := Option.map_eq_some_iff.1 hentered
    exact hasEntry_of_lookup hlast

end Moves

theorem walk_preserves {P : NavId → Prop}
    (hstep : ∀ id next, P id → d.Moves table way id next → P next) (steps : Nat) (h : P id) :
    P (d.walk table way steps id) := by
  induction steps generalizing id with
  | zero => exact h
  | succ steps ih =>
    rw [walk]
    split
    next next hb => exact ih (hstep _ _ h (.of_beside? hb))
    next => exact h

theorem walk_faces (d : Document) (table : LastIndex) (way : Direction) (steps : Nat) (id : NavId) :
    (d.walk table way steps id).isMember = id.isMember ∧
      (d.walk table way steps id = id ∨ way.Faces id (d.walk table way steps id)) := by
  apply walk_preserves (P := fun x => x.isMember = id.isMember ∧ (x = id ∨ way.Faces id x))
  · rintro x next ⟨hkind, hahead⟩ hmoves
    refine ⟨hmoves.isMember_eq.trans hkind, .inr ?_⟩
    rcases hahead with rfl | hahead
    · exact hmoves.exists_passed.1
    · exact hahead.trans hmoves.exists_passed.1
  · exact ⟨rfl, .inl rfl⟩

theorem walk_back_hasEntry (d : Document) (steps : Nat) (id : NavId) :
    d.walk (.ofDocument d) .back steps id = id ∨
      d.hasEntry (d.walk (.ofDocument d) .back steps id) = true := by
  apply walk_preserves (P := fun x => x = id ∨ d.hasEntry x = true)
  · intro x next _ hmoves
    exact .inr hmoves.hasEntry_of_back
  · exact .inl rfl

/-- If a function lowers a measure whenever it changes a value, repeating it changes the value so
many times at most, and then no more. -/
theorem exists_rest {α : Type} {f : α → α} {measure : α → Nat}
    (hf : ∀ x, f x ≠ x → measure (f x) < measure x) (x : α) :
    ∃ moves ≤ measure x, ∀ j, f^[j + 1] x = f^[j] x ↔ moves ≤ j := by
  induction hn : measure x using Nat.strong_induction_on generalizing x with
  | h n ih =>
    subst hn
    by_cases hx : f x = x
    · refine ⟨0, Nat.zero_le _, ?_⟩
      intro j
      rw [Function.iterate_fixed hx, Function.iterate_fixed hx]
      exact iff_of_true rfl (Nat.zero_le j)
    · obtain ⟨moves, hle, hmoves⟩ := ih _ (hf x hx) (f x) rfl
      refine ⟨moves + 1, Nat.lt_of_le_of_lt hle (hf x hx), ?_⟩
      intro j
      cases j with
      | zero => exact iff_of_false hx (Nat.not_succ_le_zero _)
      | succ j => exact (hmoves j).trans Nat.succ_le_succ_iff.symm

end Document

def Element.navId? (e : Element) : Option NavId :=
  match e.address? with
  | some ⟨.nav, id⟩ => some id
  | _ => none

theorem Element.navId?_of_id {e : Element} {id : NavId} (h : e.id = id.nav.text) :
    e.navId? = some id := by
  rw [navId?, Element.address?_eq_some_iff.2 h]
  rfl

namespace Document

variable {d : Document} {table : LastIndex} {way : Direction} {id next : NavId}

/-- The number of elements whose entries lie ahead of an id. -/
def countAhead (d : Document) (way : Direction) (id : NavId) : Nat :=
  d.elements.toList.countP fun e => e.navId?.any fun target => way.Faces id target

theorem countAhead_le (d : Document) (way : Direction) (id : NavId) :
    d.countAhead way id ≤ d.size := by
  rw [size, ← Array.length_toList]
  exact List.countP_le_length

theorem countP_lt {α : Type} {p q : α → Bool} {xs : List α} {x : α} (hx : x ∈ xs)
    (hpq : ∀ y, p y = true → q y = true) (hp : p x = false) (hq : q x = true) :
    xs.countP p < xs.countP q := by
  obtain ⟨before, after, rfl⟩ := List.append_of_mem hx
  have hbefore : before.countP p ≤ before.countP q := List.countP_mono_left fun y _ => hpq y
  have hafter : after.countP p ≤ after.countP q := List.countP_mono_left fun y _ => hpq y
  simp only [List.countP_append, List.countP_cons, hp, hq, Bool.false_eq_true, if_false, if_true]
  omega

theorem Moves.countAhead_lt (h : d.Moves table way id next) :
    d.countAhead way next < d.countAhead way id := by
  obtain ⟨hahead, target, hentry, hfaces, hpassed⟩ := h.exists_passed
  obtain ⟨e, he, hid⟩ := (d.contains_iff _).1 hentry
  have hnav := Element.navId?_of_id hid
  apply countP_lt (Array.mem_toList_iff.2 he)
  · intro e' he'
    obtain ⟨t, ht, hnext⟩ := (Option.any_eq_true _ _).1 he'
    have hfaces := hahead.trans (of_decide_eq_true hnext)
    exact (Option.any_eq_true _ _).2 ⟨t, ht, decide_eq_true hfaces⟩
  · rw [hnav, Option.any_some, decide_eq_false hpassed]
  · rw [hnav, Option.any_some, decide_eq_true hfaces]

theorem navigate_of_neg {offset : Int} (h : offset < 0) (id : NavId) :
    d.navigate table id offset = d.walk table .back offset.natAbs id := by
  rw [navigate, if_pos h]

theorem navigate_of_nonneg {offset : Int} (h : 0 ≤ offset) (id : NavId) :
    d.navigate table id offset = d.walk table .forward offset.natAbs id := by
  rw [navigate, if_neg (Int.not_lt.2 h)]

theorem navigate_offset (d : Document) (table : LastIndex) (way : Direction) (id : NavId) :
    d.navigate table id way.offset = (d.beside? table way id).getD id := by
  cases way <;> exact d.walk_succ table _ 0 id

theorem isMember_navigate (d : Document) (table : LastIndex) (id : NavId) (offset : Int) :
    (d.navigate table id offset).isMember = id.isMember :=
  (d.walk_faces _ _ _ id).1

theorem navigate_forward {offset : Int} (h : 0 ≤ offset) (id : NavId) :
    d.navigate table id offset = id ∨ id < d.navigate table id offset := by
  rw [navigate_of_nonneg h]
  obtain ⟨hkind, hahead⟩ := d.walk_faces table .forward offset.natAbs id
  exact hahead.imp_right fun hfaces => NavId.lt_of_faces_forward hfaces hkind

theorem navigate_back {offset : Int} (h : offset ≤ 0) (id : NavId) :
    d.navigate table id offset = id ∨ d.navigate table id offset < id := by
  rcases Int.lt_or_eq_of_le h with hneg | rfl
  · rw [navigate_of_neg hneg]
    obtain ⟨hkind, hahead⟩ := d.walk_faces table .back offset.natAbs id
    exact hahead.imp_right fun hfaces => NavId.lt_of_faces_back hfaces hkind
  · exact .inl rfl

theorem hasEntry_navigate {offset : Int} (h : offset < 0) (id : NavId) :
    d.navigate (.ofDocument d) id offset = id ∨
      d.hasEntry (d.navigate (.ofDocument d) id offset) = true := by
  rw [navigate_of_neg h]
  exact d.walk_back_hasEntry offset.natAbs id

theorem Moves.ne (h : d.Moves table way id next) : next ≠ id := by
  rintro rfl
  exact way.not_faces_self _ h.exists_passed.1

theorem moves_iff_navigate :
    d.Moves table way id next ↔ d.navigate table id way.offset = next ∧ next ≠ id := by
  rw [navigate_offset, ← beside?_eq_some_iff]
  constructor
  · intro h
    rw [h]
    exact ⟨rfl, (beside?_eq_some_iff.1 h).ne⟩
  · rintro ⟨rfl, hne⟩
    cases hb : d.beside? table way id with
    | none =>
      rw [hb] at hne
      exact absurd rfl hne
    | some next => rfl

theorem exists_moves (d : Document) (table : LastIndex) (way : Direction) (id : NavId) :
    ∃ moves ≤ d.size, ∀ j,
      (d.navigate table · way.offset)^[j + 1] id = (d.navigate table · way.offset)^[j] id ↔
        moves ≤ j := by
  have hstep (x : NavId) (hx : d.navigate table x way.offset ≠ x) :
      d.countAhead way (d.navigate table x way.offset) < d.countAhead way x :=
    (moves_iff_navigate.2 ⟨rfl, hx⟩).countAhead_lt
  obtain ⟨moves, hle, hmoves⟩ := exists_rest hstep id
  exact ⟨moves, hle.trans (d.countAhead_le way id), hmoves⟩

/-- Navigation on any page keeps the kind of id, does not turn round, and steps as it would with
numbers that have no bound. Back it leads to entries only, and single steps one way come to rest
after at most as many moves as the page has elements. -/
theorem navigation_comes_to_rest (d : Document) :
    let navigate (id : NavId) (offset : Int) : NavId := d.navigate (.ofDocument d) id offset
    (∀ id offset,
      (navigate id offset).isMember = id.isMember ∧
        (0 ≤ offset → navigate id offset = id ∨ id < navigate id offset) ∧
        (offset ≤ 0 → navigate id offset = id ∨ navigate id offset < id) ∧
        (offset < 0 → navigate id offset = id ∨ d.hasEntry (navigate id offset) = true)) ∧
      (∀ way id next, d.Moves (.ofDocument d) way id next ↔
        navigate id way.offset = next ∧ next ≠ id) ∧
      ∀ (way : Direction) id, ∃ moves ≤ d.size, ∀ j,
        (navigate · way.offset)^[j + 1] id = (navigate · way.offset)^[j] id ↔ moves ≤ j := by
  refine ⟨?_, fun way id next => moves_iff_navigate, d.exists_moves _⟩
  intro id offset
  exact ⟨d.isMember_navigate _ id offset, fun h => navigate_forward h id,
    fun h => navigate_back h id, fun h => hasEntry_navigate h id⟩

def gappedPage : Document :=
  .ofElements [
    ⟨"nav_0", .classEntry, none, {}⟩,
    ⟨"nav_0", .methodEntry, none, {}⟩,
    ⟨"nav_0_4294967295", .constructorEntry, none, {}⟩,
    ⟨"nav_1", .classEntry, none, {}⟩,
    ⟨"nav_4294967294", .methodEntry, none, {}⟩,
    ⟨"nav_4294967294_7", .classEntry, none, {}⟩,
    ⟨"nav_4294967295", .classEntry, none, {}⟩]

theorem navigation_comes_to_rest_gappedPage :
    let navigate (id : NavId) (offset : Int) : NavId :=
      gappedPage.navigate (.ofDocument gappedPage) id offset
    let first : NavId := .memberId ⟨0, 4294967295⟩
    let last : NavId := .memberId ⟨4294967295, 4294967295⟩
    ((0 : Int) ≤ 2147483647 ∧
      (navigate first 2147483647 = first ∨ first < navigate first 2147483647)) ∧
      (-2147483648 ≤ (0 : Int) ∧
        (navigate last (-2147483648) = last ∨ navigate last (-2147483648) < last)) ∧
      (-2147483648 < (0 : Int) ∧
        (navigate last (-2147483648) = last ∨
          gappedPage.hasEntry (navigate last (-2147483648)) = true)) := by
  intro navigate first last
  obtain ⟨-, hforward, -, -⟩ := (navigation_comes_to_rest gappedPage).1 first 2147483647
  obtain ⟨-, -, hback, hentry⟩ := (navigation_comes_to_rest gappedPage).1 last (-2147483648)
  have hneg : -2147483648 < (0 : Int) := by decide
  exact ⟨⟨by decide, hforward (by decide)⟩, ⟨by decide, hback (by decide)⟩, hneg, hentry hneg⟩

end Document

end Sidebar
