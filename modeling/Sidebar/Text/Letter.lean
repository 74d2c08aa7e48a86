namespace Sidebar

/-- Simple case folding as far as it ends in ASCII. -/
def foldCase (c : Char) : Char :=
  if c = '\u017f' then 's' else if c = '\u212a' then 'k' else c.toLower

def dropWord? : (word : List Char) → List Char → Option (List Char)
  | [], cs => some cs
  | _ :: _, [] => none
  | w :: word, c :: cs => if foldCase c = w then dropWord? word cs else none

theorem length_of_dropWord? {word cs rest : List Char} (h : dropWord? word cs = some rest) :
    cs.length = word.length + rest.length := by
  induction word generalizing cs with
  | nil =>
    cases h
    simp
  | cons w word ih =>
    cases cs with
    | nil => cases h
    | cons c cs =>
      simp only [dropWord?] at h
      split at h
      · simp only [List.length_cons, ih h]
        omega
      · cases h

end Sidebar
