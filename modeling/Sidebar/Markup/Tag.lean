import Sidebar.Text.Blank
import Sidebar.Text.Fields
import Sidebar.Text.Letter

namespace Sidebar.Markup

/-- A start tag with attributes: their text, and the text between the tag and the next `<`. -/
structure Tag where
  attributes : List Char
  content : List Char
deriving DecidableEq, Repr

def dropFinalSlash (cs : List Char) : List Char :=
  if cs.getLast? = some '/' then cs.dropLast else cs

def Tag.ofPiece? : List Char → Option Tag
  | [] => none
  | c :: cs =>
    if c.isAlpha then
      match cs.dropWhile Char.isAlphanum with
      | [] => none
      | space :: rest =>
        if isBlank space then
          (cut? '>' (space :: rest)).map fun (attributes, content) =>
            ⟨dropFinalSlash attributes, content⟩
        else none
    else none

/-- The start tags with attributes of a text in the order in which they stand. -/
def tags (cs : List Char) : List Tag := (fields '<' cs).tail.filterMap Tag.ofPiece?

inductive AttributeName where
  | id
  | className
deriving DecidableEq, Repr

structure Attribute where
  name : AttributeName
  value : List Char
deriving DecidableEq, Repr

namespace Attribute

def name? (cs : List Char) : Option (AttributeName × List Char) :=
  ((dropWord? "id".toList cs).map fun rest => (.id, rest)) <|>
  ((dropWord? "class".toList cs).map fun rest => (.className, rest))

def isBare (c : Char) : Bool := !(isBlank c || c == '"' || c == '\'' || c == '>')

def value? : List Char → Option (List Char × List Char)
  | [] => none
  | c :: cs =>
    if c = '"' ∨ c = '\'' then cut? c cs
    else if isBare c then some ((c :: cs).takeWhile isBare, (c :: cs).dropWhile isBare)
    else none

def read? (cs : List Char) : Option (Attribute × List Char) := do
  let (name, cs) ← name? cs
  match trimStart cs with
  | '=' :: cs => do
    let (value, cs) ← value? (trimStart cs)
    return (⟨name, value⟩, cs)
  | _ => none

theorem length_of_cut? {sep : Char} {cs before after : List Char}
    (h : cut? sep cs = some (before, after)) : cs.length = before.length + after.length + 1 := by
  induction cs generalizing before with
  | nil => cases h
  | cons c cs ih =>
    simp only [cut?] at h
    split at h
    · cases h
      simp
    · obtain ⟨⟨a, b⟩, hab, he⟩ := Option.map_eq_some_iff.1 h
      cases he
      simp only [List.length_cons, ih hab]
      omega

theorem length_value?_lt {cs value rest : List Char} (h : value? cs = some (value, rest)) :
    rest.length < cs.length := by
  cases cs with
  | nil => cases h
  | cons c cs =>
    simp only [value?] at h
    split at h
    · have := length_of_cut? h
      simp only [List.length_cons]
      omega
    · split at h
      next hb =>
        simp only [Option.some.injEq, Prod.mk.injEq] at h
        rw [← h.2, List.dropWhile_cons_of_pos hb]
        exact Nat.lt_succ_of_le (List.dropWhile_sublist _).length_le
      · cases h

theorem length_read?_lt {cs rest : List Char} {a : Attribute} (h : read? cs = some (a, rest)) :
    rest.length < cs.length := by
  simp only [read?, Option.bind_eq_bind, Option.bind_eq_some_iff] at h
  obtain ⟨⟨name, afterName⟩, hn, h⟩ := h
  have h₁ : afterName.length ≤ cs.length := by
    simp only [name?, Option.orElse_eq_orElse, Option.orElse_eq_or] at hn
    rcases Option.or_eq_some_iff.1 hn with hn | ⟨_, hn⟩ <;>
    · obtain ⟨r, hr, he⟩ := Option.map_eq_some_iff.1 hn
      cases he
      have := length_of_dropWord? hr
      omega
  have h₂ : (trimStart afterName).length ≤ afterName.length :=
    (List.dropWhile_sublist _).length_le
  split at h
  next afterEquals heq =>
    obtain ⟨⟨value, afterValue⟩, hv, he⟩ := Option.bind_eq_some_iff.1 h
    simp only [Option.pure_def, Option.some.injEq, Prod.mk.injEq] at he
    obtain ⟨_, rfl⟩ := he
    have h₃ := length_value?_lt hv
    have h₄ : (trimStart afterEquals).length ≤ afterEquals.length :=
      (List.dropWhile_sublist _).length_le
    rw [heq, List.length_cons] at h₂
    omega
  · cases h

/-- The attributes in a text. Each begins after a white space character and ends where its value
does. -/
def scan : List Char → List Attribute
  | [] => []
  | c :: cs =>
    if isBlank c then
      match _h : read? cs with
      | some (a, rest) => a :: scan rest
      | none => scan cs
    else scan cs
termination_by cs => cs.length
decreasing_by
  · exact Nat.lt_succ_of_lt (length_read?_lt _h)
  · simp
  · simp

end Attribute

def Tag.attribute? (t : Tag) (name : AttributeName) : Option (List Char) :=
  ((Attribute.scan t.attributes).find? fun a => a.name = name).map Attribute.value

end Sidebar.Markup
