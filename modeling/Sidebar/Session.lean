import Sidebar.Navigation

namespace Sidebar

structure Session where
  page : Document
  classSelection : UInt32 := 1
  memberSelection : MemberId := .firstOf 1
  /-- Empty until the page is loaded. -/
  lastIndex : LastIndex := []

inductive Action where
  | load
  | indexMembers
  | selectClass (number : UInt32)
  | selectMember (id : MemberId)
  | openClass (number : UInt32)
  | press (key : Key)
deriving DecidableEq, Repr

/-- What the page shows. Elements are given by their ids. -/
structure View where
  classSelection : UInt32
  memberSelection : MemberId
  activeClasses : List String
  activeMembers : List String
  memberLists : List String
  classPanels : List String
  memberPanels : List String
deriving DecidableEq, Repr

namespace Session

/-- Selects a class: its entry, list, title and panel are brought out and those of the others put
away. Panels of members are hidden, and entries of members lose their background. -/
def selectClass (s : Session) (c : UInt32) : Session :=
  let address role : String := Address.text ⟨role, .classId c⟩
  let page := s.page.restyle .classEntry fun e =>
    if e.id = address .nav then e.style.activate else e.style.deactivate
  let page := page.restyle .memberList fun e =>
    if e.id = address .list then (e.style.paint .active).reveal else (e.style.paint .neutral).hide
  let page := page.restyle .listTitle fun e =>
    if e.id = address .title then e.style.reveal else e.style.hide
  let page := page.restyle .classPanel fun e =>
    if e.id = address .description then e.style.reveal else e.style.hide
  let page := page.restyle .memberPanel fun e => e.style.hide
  let page := page.restyle .constructorEntry fun e => e.style.paint .neutral
  let page := page.restyle .methodEntry fun e => e.style.paint .neutral
  { s with page, classSelection := c }

/-- Selects a member: its entry and panel are brought out and those of the others put away. -/
def selectMember (s : Session) (m : MemberId) : Session :=
  let emphasize (e : Element) : Style :=
    if e.id = (NavId.memberId m).nav.text then e.style.activate else e.style.deactivate
  let page := s.page.restyle .constructorEntry emphasize
  let page := page.restyle .methodEntry emphasize
  let page := page.restyle .memberPanel fun e =>
    if e.id = (NavId.memberId m).description.text then e.style.reveal else e.style.hide
  { s with page, memberSelection := m }

def openClass (s : Session) (c : UInt32) : Session := (s.selectClass c).selectMember (.firstOf c)

def indexMembers (s : Session) : Session := { s with lastIndex := .ofDocument s.page }

def load (s : Session) : Session := (s.openClass 1).indexMembers

def navigate (s : Session) (id : NavId) (offset : Int) : NavId :=
  s.page.navigate s.lastIndex id offset

def target (s : Session) (way : Direction) : MemberId :=
  (s.page.memberBeside? s.lastIndex way s.memberSelection).getD s.memberSelection

def press (s : Session) (key : Key) : Session :=
  match key.direction? with
  | none => s
  | some way =>
    let m := s.target way
    (s.selectClass m.owner).selectMember m

/-- Presses a key and tells whether it was handled. One that does not page is left to the host. -/
def keyDown (s : Session) (key : Key) : Bool × Session := (key.direction?.isSome, s.press key)

def act (s : Session) : Action → Session
  | .load => s.load
  | .indexMembers => s.indexMembers
  | .selectClass c => s.selectClass c
  | .selectMember m => s.selectMember m
  | .openClass c => s.openClass c
  | .press key => s.press key

def run (s : Session) (actions : List Action) : Session := actions.foldl act s

def view (s : Session) : View :=
  let ids (c : Category) (pick : Style → Bool) : List String :=
    ((s.page.byCategory c).filter fun e => pick e.style).map Element.id
  { classSelection := s.classSelection
    memberSelection := s.memberSelection
    activeClasses := ids .classEntry Style.isActive
    activeMembers := ids .constructorEntry Style.isActive ++ ids .methodEntry Style.isActive
    memberLists := ids .memberList Style.isShown
    classPanels := ids .classPanel Style.isShown
    memberPanels := ids .memberPanel Style.isShown }

def selectClassNotices (s : Session) (c : UInt32) : List Notice :=
  if s.page.hasEntry (.classId c) then [] else [.noClassEntry c]

def selectMemberNotices (s : Session) (m : MemberId) : List Notice :=
  if s.page.hasEntry (.memberId m) then [] else [.noMemberEntry m]

def openClassNotices (s : Session) (c : UInt32) : List Notice :=
  s.selectClassNotices c ++ s.selectMemberNotices (.firstOf c)

def indexNotices (s : Session) : List Notice :=
  [.membersIndexed (LastIndex.ofDocument s.page).length]

def notices (s : Session) : Action → List Notice
  | .load => .pageLoaded s.page.size :: s.openClassNotices 1 ++ s.indexNotices
  | .indexMembers => s.indexNotices
  | .selectClass c => s.selectClassNotices c
  | .selectMember m => s.selectMemberNotices m
  | .openClass c => s.openClassNotices c
  | .press key =>
    match key.direction? with
    | none => []
    | some way =>
      let m := s.target way
      s.page.walkNotices s.lastIndex way 1 (.memberId s.memberSelection) ++
        .keyPressed key s.memberSelection m :: s.selectClassNotices m.owner ++
        s.selectMemberNotices m

end Session

end Sidebar
