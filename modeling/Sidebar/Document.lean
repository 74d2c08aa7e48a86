import Std.Data.HashMap
import Sidebar.Address
import Sidebar.Ascending
import Sidebar.Category
import Sidebar.Notice
import Sidebar.Style

namespace Sidebar

structure Element where
  id : String
  category : Category
  label : Option String := none
  style : Style := {}
deriving DecidableEq, Repr

def Element.address? (e : Element) : Option Address := Address.parse? e.id

def placesOf [DecidableEq α] (a : α) (xs : List α) : List Nat :=
  (xs.zipIdx.filter fun (x, _) => x = a).map (·.2)

theorem placesOf_append_singleton [DecidableEq α] (a x : α) (xs : List α) :
    placesOf a (xs ++ [x]) = placesOf a xs ++ if x = a then [xs.length] else [] := by
  by_cases h : x = a <;> simp [placesOf, List.zipIdx_append, h]

theorem idxOf?_append_singleton [DecidableEq α] (a x : α) (xs : List α) :
    (xs ++ [x]).idxOf? a = (xs.idxOf? a).or (if x = a then some xs.length else none) := by
  induction xs with
  | nil => simp [List.idxOf?_cons]
  | cons y ys ih =>
    simp only [List.cons_append, List.idxOf?_cons, ih, List.length_cons]
    by_cases h : y = a
    · simp [h]
    · by_cases h' : x = a <;> cases ys.idxOf? a <;> simp [h, h']

structure Document where
  elements : Array Element
  firstPlace : Std.HashMap String Nat
  places : Std.HashMap Category (Array Nat)
  firstPlace_eq : ∀ id, firstPlace[id]? = (elements.toList.map Element.id).idxOf? id
  places_eq : ∀ c, (places.getD c #[]).toList = placesOf c (elements.toList.map Element.category)

namespace Document

def empty : Document where
  elements := #[]
  firstPlace := ∅
  places := ∅
  firstPlace_eq := by simp
  places_eq := by simp [placesOf]

/-- Adds an element at the end of the page. An id that is taken keeps meaning its first element. -/
def push (d : Document) (e : Element) : Document where
  elements := d.elements.push e
  firstPlace := d.firstPlace.insertIfNew e.id d.elements.size
  places := d.places.alter e.category fun here => some ((here.getD #[]).push d.elements.size)
  firstPlace_eq id := by
    have h := d.firstPlace_eq id
    rw [Std.HashMap.getElem?_insertIfNew, Array.toList_push, List.map_append, List.map_singleton,
      idxOf?_append_singleton, ← h]
    by_cases he : e.id = id
    · subst he
      cases hf : d.firstPlace[e.id]? with
      | none =>
        have hn : ¬ e.id ∈ d.firstPlace := by simpa using hf
        simp [hn]
      | some i =>
        have hm : e.id ∈ d.firstPlace := by simp [Std.HashMap.mem_iff_isSome_getElem?, hf]
        simp [hm]
    · simp [he]
  places_eq c := by
    have h := d.places_eq c
    rw [Std.HashMap.getD_alter, Array.toList_push, List.map_append, List.map_singleton,
      placesOf_append_singleton, ← h]
    by_cases hc : e.category = c
    · subst hc
      simp [Std.HashMap.getD_eq_getD_getElem?]
    · simp [hc]

def ofElements (es : List Element) : Document := es.foldl push empty

def size (d : Document) : Nat := d.elements.size

def contains (d : Document) (id : String) : Bool := d.firstPlace.contains id

def get? (d : Document) (id : String) : Option Element := do
  let place ← d.firstPlace[id]?
  d.elements[place]?

def byCategory (d : Document) (c : Category) : List Element :=
  (d.places.getD c #[]).toList.filterMap fun place => d.elements[place]?

def count (d : Document) (c : Category) : Nat := (d.places.getD c #[]).size

/-- Gives the elements at the given places a new style, one after the other. The visitor answers
each element with its style, and carries a value from one element to the next. -/
def visitAt (visitor : σ → Element → σ × Style) :
    List Nat → σ → Array Element → σ × Array Element
  | [], state, es => (state, es)
  | place :: places, state, es =>
    if h : place < es.size then
      let (state, style) := visitor state es[place]
      visitAt visitor places state (es.set place { es[place] with style })
    else visitAt visitor places state es

theorem visitAt_map (visitor : σ → Element → σ × Style) (key : Element → β)
    (hkey : ∀ e style, key { e with style } = key e) (places : List Nat) (state : σ)
    (es : Array Element) :
    (visitAt visitor places state es).2.toList.map key = es.toList.map key := by
  induction places generalizing state es with
  | nil => rfl
  | cons place places ih =>
    simp only [visitAt]
    split
    next h =>
      rw [ih]
      apply List.ext_getElem
      · simp
      · intro i h₁ h₂
        simp only [Array.toList_set, List.getElem_map, List.getElem_set, Array.getElem_toList]
        split
        next hi =>
          subst hi
          exact hkey ..
        · rfl
    · exact ih ..

def visit (d : Document) (c : Category) (visitor : σ → Element → σ × Style) (state : σ) :
    σ × Document :=
  let seen := visitAt visitor (d.places.getD c #[]).toList state d.elements
  (seen.1,
    { d with
      elements := seen.2
      firstPlace_eq := fun id => by
        rw [visitAt_map visitor Element.id (fun _ _ => rfl)]
        exact d.firstPlace_eq id
      places_eq := fun c' => by
        rw [visitAt_map visitor Element.category (fun _ _ => rfl)]
        exact d.places_eq c' })

def restyle (d : Document) (c : Category) (style : Element → Style) : Document :=
  (d.visit c (fun _ e => ((), style e)) ()).2

def hasEntry (d : Document) (id : NavId) : Bool := d.contains id.nav.text

def classIds (d : Document) : List UInt32 :=
  Ascending.ofList <| (d.byCategory .classEntry).filterMap fun e =>
    match e.address? with
    | some ⟨.nav, .classId c⟩ => some c
    | _ => none

/-- The member that an element is the sidebar entry of, as its id has it. -/
def entryMember? (e : Element) : Option MemberId :=
  match e.address? with
  | some ⟨.nav, .memberId m⟩ => some m
  | _ => none

/-- The members with a sidebar entry, in the order in which they are paged through. -/
def members (d : Document) : List MemberId :=
  Ascending.ofList <|
    (d.byCategory .constructorEntry ++ d.byCategory .methodEntry).filterMap entryMember?

/-- The places that the members of one class have among the given members. -/
def indicesIn (members : List MemberId) (c : UInt32) : List UInt32 :=
  (members.filter fun m => m.owner = c).map MemberId.index

def indicesOf (d : Document) (c : UInt32) : List UInt32 := indicesIn d.members c

def membersByClass (d : Document) : List (UInt32 × List UInt32) :=
  let members := d.members
  (Ascending.ofList (members.map MemberId.owner)).map fun c => (c, indicesIn members c)

def pushNotices (d : Document) (e : Element) : List Notice :=
  if d.contains e.id then [.duplicateId e.id e.category] else []

end Document

end Sidebar
