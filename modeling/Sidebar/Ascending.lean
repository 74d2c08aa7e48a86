namespace Sidebar.Ascending

variable {α : Type} [LT α] [DecidableLT α] [DecidableEq α]

def insert (x : α) : List α → List α
  | [] => [x]
  | y :: ys => if x = y then y :: ys else if x < y then x :: y :: ys else y :: insert x ys

/-- The elements of a list in ascending order, each once. -/
def ofList : List α → List α
  | [] => []
  | x :: xs => insert x (ofList xs)

@[simp] theorem mem_insert {x y : α} {ys : List α} : x ∈ insert y ys ↔ x = y ∨ x ∈ ys := by
  induction ys with
  | nil => simp [insert]
  | cons z zs ih =>
    simp only [insert]
    split
    next h => simp [h]
    · split <;> simp [ih, or_left_comm]

@[simp] theorem mem_ofList {x : α} {xs : List α} : x ∈ ofList xs ↔ x ∈ xs := by
  induction xs with
  | nil => simp [ofList]
  | cons y ys ih => simp [ofList, ih]

end Sidebar.Ascending
