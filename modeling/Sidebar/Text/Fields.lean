namespace Sidebar

/-- The fields between the separators, empty ones included. -/
def fields (sep : Char) : List Char → List (List Char)
  | [] => [[]]
  | c :: cs =>
    if c = sep then [] :: fields sep cs
    else
      match fields sep cs with
      | [] => [[c]]
      | field :: rest => (c :: field) :: rest

def cut? (sep : Char) : List Char → Option (List Char × List Char)
  | [] => none
  | c :: cs => if c = sep then some ([], cs) else (cut? sep cs).map fun (a, b) => (c :: a, b)

theorem fields_ne_nil (sep : Char) (cs : List Char) : fields sep cs ≠ [] := by
  cases cs with
  | nil => simp [fields]
  | cons c cs =>
    simp only [fields]
    split
    · simp
    · split <;> simp

theorem intercalate_fields (sep : Char) (cs : List Char) :
    [sep].intercalate (fields sep cs) = cs := by
  induction cs with
  | nil => rfl
  | cons c cs ih =>
    simp only [fields]
    split
    next h =>
      subst h
      cases hf : fields c cs with
      | nil => exact absurd hf (fields_ne_nil c cs)
      | cons field rest =>
        rw [hf] at ih
        simp only [List.intercalate, List.intersperse_cons_cons, List.flatten_cons] at ih ⊢
        simp [ih]
    next h =>
      cases hf : fields sep cs with
      | nil => exact absurd hf (fields_ne_nil sep cs)
      | cons field rest =>
        rw [hf] at ih
        cases rest with
        | nil => simpa [List.intercalate] using ih
        | cons second rest =>
          simp only [List.intercalate, List.intersperse_cons_cons, List.flatten_cons,
            List.cons_append] at ih ⊢
          rw [ih]

end Sidebar
