import Sidebar.Proofs.OnePass

namespace Sidebar

namespace Entity

/-- How a character is written when the three that markup gives a meaning are written so. -/
def written (amp lt gt : List Char) (c : Char) : List Char :=
  if c = '&' then amp else if c = '<' then lt else if c = '>' then gt else [c]

def reference : Char → List Char :=
  written ['&', 'a', 'm', 'p', ';'] ['&', 'l', 't', ';'] ['&', 'g', 't', ';']

theorem decode_encode (cs : List Char) : decode (encode cs) = cs := by
  have hcases (c : Char) :
      (∃ name, (name, c) ∈ references ∧ reference c = '&' :: name) ∨
        c ≠ '&' ∧ reference c = [c] := by
    rw [reference, written]
    split_ifs with hamp hlt hgt
    · exact .inl ⟨"amp;".toList, by rw [hamp]; decide, rfl⟩
    · exact .inl ⟨"lt;".toList, by rw [hlt]; decide, rfl⟩
    · exact .inl ⟨"gt;".toList, by rw [hgt]; decide, rfl⟩
    · exact .inr ⟨hamp, rfl⟩
  exact decode_of_decodes (decodes_flatMap hcases cs)

/-- Dropping a class of characters commutes with writing, if these are written as they are and the
others begin with a character outside the class. -/
theorem dropWhile_flatMap {p : Char → Bool} {f : Char → List Char}
    (hkept : ∀ c, p c = true → f c = [c])
    (hother : ∀ c, p c = false → ∃ x xs, f c = x :: xs ∧ p x = false) (cs : List Char) :
    (cs.flatMap f).dropWhile p = (cs.dropWhile p).flatMap f := by
  induction cs with
  | nil => rfl
  | cons c cs ih =>
    rw [List.flatMap_cons]
    cases hc : p c with
    | true =>
      rw [hkept c hc, List.singleton_append, List.dropWhile_cons_of_pos hc,
        List.dropWhile_cons_of_pos hc, ih]
    | false =>
      obtain ⟨x, xs, hx, hp⟩ := hother c hc
      rw [List.dropWhile_cons_of_neg (by simp [hc]), List.flatMap_cons, hx, List.cons_append,
        List.dropWhile_cons_of_neg (by simp [hp])]

theorem reference_cases (c : Char) :
    reference c = [c] ∨ isBlank c = false ∧ ∃ name, reference c = '&' :: name ++ [';'] := by
  rw [reference, written]
  split
  next h => exact .inr ⟨by rw [h]; rfl, ['a', 'm', 'p'], rfl⟩
  next =>
    split
    next h => exact .inr ⟨by rw [h]; rfl, ['l', 't'], rfl⟩
    next =>
      split
      next h => exact .inr ⟨by rw [h]; rfl, ['g', 't'], rfl⟩
      next => exact .inl rfl

theorem lt_notMem_encode (cs : List Char) : '<' ∉ encode cs := by
  intro h
  obtain ⟨c, -, hc⟩ := List.mem_flatMap.1 (show '<' ∈ cs.flatMap reference from h)
  rw [reference, written] at hc
  split at hc
  · revert hc
    decide
  · split at hc
    · revert hc
      decide
    next hlt =>
      split at hc
      · revert hc
        decide
      · exact hlt (List.mem_singleton.1 hc).symm

theorem reference_of_isBlank {c : Char} (h : isBlank c = true) : reference c = [c] := by
  rcases reference_cases c with hc | ⟨hc, -⟩
  · exact hc
  · exact Bool.noConfusion (hc.symm.trans h)

theorem trimStart_encode (cs : List Char) : trimStart (encode cs) = encode (trimStart cs) := by
  refine dropWhile_flatMap (fun _ => reference_of_isBlank) ?_ cs
  intro c hc
  rcases reference_cases c with h | ⟨-, name, h⟩
  · exact ⟨c, [], h, hc⟩
  · exact ⟨'&', _, h, rfl⟩

theorem trimEnd_encode (cs : List Char) : trimEnd (encode cs) = encode (trimEnd cs) := by
  have hreverse (cs : List Char) :
      (encode cs).reverse = cs.reverse.flatMap (List.reverse ∘ reference) :=
    List.reverse_flatMap
  have hdrop := dropWhile_flatMap (p := isBlank) (f := List.reverse ∘ reference) ?_ ?_ cs.reverse
  · rw [trimEnd, trimEnd, hreverse, hdrop, ← List.reverse_reverse (cs.reverse.dropWhile isBlank),
      ← hreverse, List.reverse_reverse, List.reverse_reverse]
  · intro c hc
    rw [Function.comp_apply, reference_of_isBlank hc, List.reverse_singleton]
  · intro c hc
    rcases reference_cases c with h | ⟨-, name, h⟩
    · exact ⟨c, [], by rw [Function.comp_apply, h, List.reverse_singleton], hc⟩
    · exact ⟨';', _, by rw [Function.comp_apply, h, List.reverse_append]; rfl, rfl⟩

theorem trim_encode (cs : List Char) : trim (encode cs) = encode (trim cs) := by
  rw [trim, trimStart_encode, trimEnd_encode, trim]

end Entity

end Sidebar
