namespace Sidebar

/-- Replaces the occurrences of `first :: more` from left to right; what was put in is not
searched. -/
def replaceAll (first : Char) (more new : List Char) : List Char → List Char
  | [] => []
  | c :: cs =>
    if c = first ∧ more.isPrefixOf cs then
      new ++ replaceAll first more new (cs.drop more.length)
    else c :: replaceAll first more new cs
termination_by cs => cs.length
decreasing_by
  · simp only [List.length_drop, List.length_cons]
    omega
  · simp

namespace Entity

/-- The name between `&` and the semicolon, with the semicolon, and the character it stands for. The
ampersand comes last, so that no reference is decoded twice. -/
def references : List (List Char × Char) :=
  [("lt;".toList, '<'), ("gt;".toList, '>'), ("quot;".toList, '"'), ("#39;".toList, '\''),
    ("nbsp;".toList, ' '), ("amp;".toList, '&')]

def decode (cs : List Char) : List Char :=
  references.foldl (fun text (name, c) => replaceAll '&' name [c] text) cs

def encode (cs : List Char) : List Char :=
  cs.flatMap fun c =>
    if c = '&' then "&amp;".toList
    else if c = '<' then "&lt;".toList
    else if c = '>' then "&gt;".toList
    else [c]

end Entity

end Sidebar
