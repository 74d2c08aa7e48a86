import Sidebar.Text.Blank
import Sidebar.Text.Letter
import Sidebar.Text.Word

namespace Sidebar.Markup

/-- What follows the first place at which `skip?` succeeds. -/
def afterFirst? (skip? : List Char → Option (List Char)) : List Char → Option (List Char)
  | [] => skip? []
  | c :: cs => skip? (c :: cs) <|> afterFirst? skip? cs

def dropMark? (mark cs : List Char) : Option (List Char) :=
  if mark.isPrefixOf cs then some (cs.drop mark.length) else none

def dropEndTag? (name cs : List Char) : Option (List Char) := do
  let cs ← dropMark? ['<', '/'] cs
  let cs ← dropWord? name cs
  dropMark? ['>'] (trimStart cs)

/-- What follows an element whose content is no markup, with its end tag, at the head of a text. -/
def dropRawElement? (name cs : List Char) : Option (List Char) := do
  let cs ← dropMark? ['<'] cs
  let cs ← dropWord? name cs
  if cs.head?.any isWordChar then none
  else do
    let cs ← afterFirst? (dropMark? ['>']) cs
    afterFirst? (dropEndTag? name) cs

def dropComment? (cs : List Char) : Option (List Char) := do
  let cs ← dropMark? "<!--".toList cs
  afterFirst? (dropMark? "-->".toList) cs

def dropHidden? (cs : List Char) : Option (List Char) :=
  dropComment? cs <|> dropRawElement? "script".toList cs <|> dropRawElement? "style".toList cs

theorem length_dropMark?_le {mark cs rest : List Char} (h : dropMark? mark cs = some rest) :
    rest.length + mark.length = cs.length := by
  simp only [dropMark?, Option.ite_none_right_eq_some, Option.some.injEq] at h
  obtain ⟨hp, rfl⟩ := h
  have := (List.isPrefixOf_iff_prefix.1 hp).length_le
  simp only [List.length_drop]
  omega

theorem length_trimStart_le (cs : List Char) : (trimStart cs).length ≤ cs.length :=
  (List.dropWhile_sublist _).length_le

theorem length_afterFirst?_le {skip? : List Char → Option (List Char)}
    (hskip : ∀ cs rest, skip? cs = some rest → rest.length ≤ cs.length) {cs rest : List Char}
    (h : afterFirst? skip? cs = some rest) : rest.length ≤ cs.length := by
  induction cs with
  | nil => exact hskip _ _ h
  | cons c cs ih =>
    simp only [afterFirst?, Option.orElse_eq_orElse, Option.orElse_eq_or] at h
    rcases Option.or_eq_some_iff.1 h with h | ⟨_, h⟩
    · exact hskip _ _ h
    · exact Nat.le_succ_of_le (ih h)

theorem length_dropEndTag?_le {name cs rest : List Char} (h : dropEndTag? name cs = some rest) :
    rest.length ≤ cs.length := by
  simp only [dropEndTag?, Option.bind_eq_bind, Option.bind_eq_some_iff] at h
  obtain ⟨a, ha, b, hb, hc⟩ := h
  have h₁ := length_dropMark?_le ha
  have h₂ := length_of_dropWord? hb
  have h₃ := length_dropMark?_le hc
  have h₄ := length_trimStart_le b
  omega

theorem length_dropRawElement?_lt {name cs rest : List Char}
    (h : dropRawElement? name cs = some rest) : rest.length < cs.length := by
  simp only [dropRawElement?, Option.bind_eq_bind, Option.bind_eq_some_iff] at h
  obtain ⟨a, ha, b, hb, hc⟩ := h
  have h₁ := length_dropMark?_le ha
  have h₂ := length_of_dropWord? hb
  split at hc
  · cases hc
  · obtain ⟨d, hd, he⟩ := Option.bind_eq_some_iff.1 hc
    have h₃ := length_afterFirst?_le (fun _ _ h => by have := length_dropMark?_le h; omega) hd
    have h₄ := length_afterFirst?_le (fun _ _ h => length_dropEndTag?_le h) he
    simp only [List.length_cons, List.length_nil] at h₁
    omega

theorem length_dropComment?_lt {cs rest : List Char} (h : dropComment? cs = some rest) :
    rest.length < cs.length := by
  simp only [dropComment?, Option.bind_eq_bind, Option.bind_eq_some_iff] at h
  obtain ⟨a, ha, hb⟩ := h
  have h₁ := length_dropMark?_le ha
  have h₂ := length_afterFirst?_le (fun _ _ h => by have := length_dropMark?_le h; omega) hb
  have h₃ : "<!--".toList.length = 4 := rfl
  omega

theorem length_dropHidden?_lt {cs rest : List Char} (h : dropHidden? cs = some rest) :
    rest.length < cs.length := by
  simp only [dropHidden?, Option.orElse_eq_orElse, Option.orElse_eq_or] at h
  rcases Option.or_eq_some_iff.1 h with h | ⟨_, h⟩
  · exact length_dropComment?_lt h
  · rcases Option.or_eq_some_iff.1 h with h | ⟨_, h⟩ <;> exact length_dropRawElement?_lt h

def visible : List Char → List Char
  | [] => []
  | c :: cs =>
    match _h : dropHidden? (c :: cs) with
    | some rest => visible rest
    | none => c :: visible cs
termination_by cs => cs.length
decreasing_by
  · exact length_dropHidden?_lt _h
  · simp

end Sidebar.Markup
