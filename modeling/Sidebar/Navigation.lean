import Sidebar.Document
import Sidebar.LastIndex

namespace Sidebar

namespace Direction

def next? : Direction → UInt32 → Option UInt32
  | back, n => if n = 0 then none else some (n - 1)
  | forward, n => if n = 0xFFFFFFFF then none else some (n + 1)

end Direction

namespace Document

def classBeside? (d : Document) (way : Direction) (c : UInt32) : Option UInt32 :=
  (way.next? c).filter fun c => d.hasEntry (.classId c)

/-- The neighbouring member: the one beside it in its class, or else the first member of the next
class or the last one of the class before. -/
def memberBeside? (d : Document) (table : LastIndex) (way : Direction) (m : MemberId) :
    Option MemberId :=
  match (way.next? m.index).filter fun i => d.hasEntry (.memberId ⟨m.owner, i⟩) with
  | some i => some ⟨m.owner, i⟩
  | none => do
    let c ← d.classBeside? way m.owner
    match way with
    | .forward => return .firstOf c
    | .back => return ⟨c, ← table.lookup c⟩

def beside? (d : Document) (table : LastIndex) (way : Direction) : NavId → Option NavId
  | .classId c => (d.classBeside? way c).map .classId
  | .memberId m => (d.memberBeside? table way m).map .memberId

/-- The id reached by a number of steps, or the one from which no further step leads. -/
def walk (d : Document) (table : LastIndex) (way : Direction) : Nat → NavId → NavId
  | 0, id => id
  | steps + 1, id =>
    match d.beside? table way id with
    | some next => walk d table way steps next
    | none => id

/-- The id `offset` steps away, forward for a positive offset and back for a negative one. -/
def navigate (d : Document) (table : LastIndex) (id : NavId) (offset : Int) : NavId :=
  d.walk table (if offset < 0 then .back else .forward) offset.natAbs id

def restNotice (way : Direction) : NavId → List Notice
  | .classId _ => []
  | .memberId m =>
    match way with
    | .forward => [.atLastMember m]
    | .back => [.atFirstMember m]

def walkNotices (d : Document) (table : LastIndex) (way : Direction) : Nat → NavId → List Notice
  | 0, _ => []
  | steps + 1, id =>
    match d.beside? table way id with
    | some next => walkNotices d table way steps next
    | none => restNotice way id

def navigateNotices (d : Document) (table : LastIndex) (id : NavId) (offset : Int) : List Notice :=
  d.walkNotices table (if offset < 0 then .back else .forward) offset.natAbs id

end Document

end Sidebar
