import Sidebar.Document

namespace Sidebar

abbrev LastIndex := List (UInt32 × UInt32)

namespace LastIndex

def record (m : MemberId) : LastIndex → LastIndex
  | [] => [(m.owner, m.index)]
  | (c, last) :: rest =>
    if m.owner = c then (c, max last m.index) :: rest
    else if m.owner < c then (m.owner, m.index) :: (c, last) :: rest
    else (c, last) :: record m rest

def ofMembers (ms : List MemberId) : LastIndex := ms.foldl (fun table m => record m table) []

/-- The table of a page. Entries of classes count too when their id is that of a member. -/
def ofDocument (d : Document) : LastIndex :=
  ofMembers <|
    (d.byCategory .constructorEntry ++ d.byCategory .methodEntry ++
      d.byCategory .classEntry).filterMap Document.entryMember?

end LastIndex

end Sidebar
