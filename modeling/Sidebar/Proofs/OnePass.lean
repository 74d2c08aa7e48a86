import Sidebar.Proofs.LetterCase
import Sidebar.Text.Entity

namespace Sidebar

variable {name old : List Char} {c : Char}

theorem replaceAll_reference (name : List Char) (c : Char) (rest : List Char) :
    replaceAll '&' name [c] ('&' :: (name ++ rest)) = c :: replaceAll '&' name [c] rest := by
  have hprefix : name.isPrefixOf (name ++ rest) = true :=
    List.isPrefixOf_iff_prefix.2 (List.prefix_append name rest)
  rw [replaceAll, if_pos ⟨rfl, hprefix⟩, List.drop_left]
  rfl

theorem replaceAll_copy {x : Char} {cs : List Char} (h : ¬ '&' :: name <+: x :: cs) :
    replaceAll '&' name [c] (x :: cs) = x :: replaceAll '&' name [c] cs := by
  rw [replaceAll, if_neg]
  rintro ⟨rfl, hname⟩
  exact h (List.cons_prefix_cons.2 ⟨rfl, List.isPrefixOf_iff_prefix.1 hname⟩)

theorem replaceAll_append (h : '&' ∉ old) (rest : List Char) :
    replaceAll '&' name [c] (old ++ rest) = old ++ replaceAll '&' name [c] rest := by
  induction old with
  | nil => rfl
  | cons x old ih =>
    obtain ⟨hx, hold⟩ := not_or.1 (List.mem_cons.not.1 h)
    rw [List.cons_append, replaceAll_copy fun hprefix => hx (List.cons_prefix_cons.1 hprefix).1,
      ih hold, List.cons_append]

theorem prefix_of_prefix_replaceAll {word cs : List Char} (hc : c ∉ word)
    (h : word <+: replaceAll '&' name [c] cs) : word <+: cs := by
  induction word generalizing cs with
  | nil => exact List.nil_prefix
  | cons w word ih =>
    obtain ⟨hw, hword⟩ := not_or.1 (List.mem_cons.not.1 hc)
    cases cs with
    | nil => rwa [replaceAll] at h
    | cons x cs =>
      rw [replaceAll] at h
      split at h
      · exact absurd (List.cons_prefix_cons.1 h).1.symm hw
      · obtain ⟨hwx, hrest⟩ := List.cons_prefix_cons.1 h
        exact List.cons_prefix_cons.2 ⟨hwx, ih hword hrest⟩

namespace Entity

/-- Decoding from left to right, with a table of references without their `&`: one that stands at a
place is replaced by its character and passed, and where none stands the character is copied. -/
inductive Decodes (table : List (List Char × Char)) : List Char → List Char → Prop
  | nil : Decodes table [] []
  | reference {name cs decoded : List Char} {c : Char} (h : (name, c) ∈ table)
    (hrest : Decodes table cs decoded) : Decodes table ('&' :: (name ++ cs)) (c :: decoded)
  | copy {c : Char} {cs decoded : List Char} (h : ∀ r ∈ table, ¬ '&' :: r.1 <+: c :: cs)
    (hrest : Decodes table cs decoded) : Decodes table (c :: cs) (c :: decoded)

/-- Whether replacing the reference `r` leaves the reference `r'` as it is and makes no new one. -/
def Spares (r r' : List Char × Char) : Prop :=
  '&' ∉ r'.1 ∧ r.2 ∉ '&' :: r'.1 ∧ ¬ r.1 <+: r'.1 ∧ ¬ r'.1 <+: r.1

instance (r r' : List Char × Char) : Decidable (Spares r r') := inferInstanceAs (Decidable (_ ∧ _))

variable {table : List (List Char × Char)} {cs decoded : List Char}

theorem exists_decodes (table : List (List Char × Char)) (cs : List Char) :
    ∃ decoded, Decodes table cs decoded := by
  induction hn : cs.length using Nat.strong_induction_on generalizing cs with
  | h n ih =>
    subst hn
    cases cs with
    | nil => exact ⟨[], .nil⟩
    | cons c cs =>
      by_cases h : ∃ r ∈ table, '&' :: r.1 <+: c :: cs
      · obtain ⟨r, hr, rest, hrest⟩ := h
        have hlt : rest.length < (c :: cs).length := by
          rw [← hrest, List.length_append, List.length_cons]
          omega
        obtain ⟨decoded, hdecoded⟩ := ih rest.length hlt rest rfl
        rw [← hrest, List.cons_append]
        exact ⟨_, .reference hr hdecoded⟩
      · obtain ⟨decoded, hdecoded⟩ := ih cs.length (Nat.lt_succ_self _) cs rfl
        exact ⟨_, .copy (fun r hr hprefix => h ⟨r, hr, hprefix⟩) hdecoded⟩

theorem Decodes.eq_of_nil (h : Decodes [] cs decoded) : decoded = cs := by
  induction h with
  | nil => rfl
  | reference h => cases h
  | copy _ _ ih => rw [ih]

theorem Decodes.replaceAll (hspares : ∀ r ∈ table, Spares (name, c) r)
    (h : Decodes ((name, c) :: table) cs decoded) :
    Decodes table (replaceAll '&' name [c] cs) decoded := by
  induction h with
  | nil =>
    rw [Sidebar.replaceAll]
    exact .nil
  | @reference name' cs decoded c' hr _ ih =>
    rcases List.mem_cons.1 hr with heq | hr
    · cases heq
      rw [replaceAll_reference]
      refine .copy (fun r hr hstart => ?_) ih
      obtain ⟨-, hchar, -⟩ := hspares r hr
      exact hchar ((List.cons_prefix_cons.1 hstart).1 ▸ List.mem_cons_self)
    · obtain ⟨hmark, -, hprefix, hprefix'⟩ := hspares _ hr
      have hother : ¬ '&' :: name <+: '&' :: (name' ++ cs) := by
        intro hstart
        exact not_prefix_append hprefix hprefix' cs (List.cons_prefix_cons.1 hstart).2
      rw [replaceAll_copy hother, replaceAll_append hmark]
      exact .reference hr ih
  | @copy x cs decoded h _ ih =>
    obtain ⟨hfirst, hothers⟩ := List.forall_mem_cons.1 h
    rw [replaceAll_copy hfirst]
    refine .copy (fun r hr hstart => hothers r hr ?_) ih
    obtain ⟨-, hchar, -⟩ := hspares r hr
    obtain ⟨hx, hrest⟩ := List.cons_prefix_cons.1 hstart
    have hc : c ∉ r.1 := fun hmem => hchar (List.mem_cons_of_mem _ hmem)
    exact List.cons_prefix_cons.2 ⟨hx, prefix_of_prefix_replaceAll hc hrest⟩

theorem Decodes.foldl_replaceAll (htable : table.Pairwise Spares) (h : Decodes table cs decoded) :
    table.foldl (fun text (name, c) => Sidebar.replaceAll '&' name [c] text) cs = decoded := by
  induction table generalizing cs with
  | nil => exact h.eq_of_nil.symm
  | cons r table ih =>
    obtain ⟨hr, htable⟩ := List.pairwise_cons.1 htable
    exact ih htable (h.replaceAll hr)

/-- This is where it matters that the ampersand comes last. -/
theorem pairwise_references : references.Pairwise Spares := by decide

theorem decode_of_decodes (h : Decodes references cs decoded) : decode cs = decoded :=
  h.foldl_replaceAll pairwise_references

theorem decode_eq_iff : decode cs = decoded ↔ Decodes references cs decoded := by
  constructor
  · rintro rfl
    obtain ⟨decoded, h⟩ := exists_decodes references cs
    rwa [decode_of_decodes h]
  · exact decode_of_decodes

theorem decodes_flatMap {write : Char → List Char}
    (h : ∀ c, (∃ name, (name, c) ∈ table ∧ write c = '&' :: name) ∨ c ≠ '&' ∧ write c = [c])
    (cs : List Char) : Decodes table (cs.flatMap write) cs := by
  induction cs with
  | nil => exact .nil
  | cons c cs ih =>
    rw [List.flatMap_cons]
    rcases h c with ⟨name, hname, hwrite⟩ | ⟨hc, hwrite⟩
    · rw [hwrite, List.cons_append]
      exact .reference hname ih
    · rw [hwrite, List.singleton_append]
      exact .copy (fun r _ hstart => hc (List.cons_prefix_cons.1 hstart).1.symm) ih

def escapeChar (c : Char) : List Char :=
  if c = '&' then "&amp;".toList
  else if c = '<' then "&lt;".toList
  else if c = '>' then "&gt;".toList
  else if c = '"' then "&quot;".toList
  else if c = '\'' then "&#39;".toList
  else [c]

def escape (cs : List Char) : List Char := cs.flatMap escapeChar

theorem escapeChar_cases (c : Char) :
    (∃ name, (name, c) ∈ references ∧ escapeChar c = '&' :: name) ∨
      c ≠ '&' ∧ escapeChar c = [c] := by
  rw [escapeChar]
  split_ifs with hamp hlt hgt hquot hapos
  · exact .inl ⟨"amp;".toList, by rw [hamp]; decide, rfl⟩
  · exact .inl ⟨"lt;".toList, by rw [hlt]; decide, rfl⟩
  · exact .inl ⟨"gt;".toList, by rw [hgt]; decide, rfl⟩
  · exact .inl ⟨"quot;".toList, by rw [hquot]; decide, rfl⟩
  · exact .inl ⟨"#39;".toList, by rw [hapos]; decide, rfl⟩
  · exact .inr ⟨hamp, rfl⟩

/-- Decoding is one pass from left to right over references of all kinds, and undoes escaping. -/
theorem decoding_is_one_pass :
    let table : List (List Char × Char) :=
      [("lt;".toList, '<'), ("gt;".toList, '>'), ("quot;".toList, '"'), ("#39;".toList, '\''),
        ("nbsp;".toList, ' '), ("amp;".toList, '&')]
    (∀ cs decoded, decode cs = decoded ↔ Decodes table cs decoded) ∧
      ∀ cs, decode (escape cs) = cs := by
  intro table
  refine ⟨fun cs decoded => decode_eq_iff, fun cs => ?_⟩
  exact decode_of_decodes (decodes_flatMap escapeChar_cases cs)

example : decode "&amp;amp;lt; &am&lt;p; &quot".toList = "&amp;lt; &am<p; &quot".toList := by cbv

end Entity

end Sidebar
