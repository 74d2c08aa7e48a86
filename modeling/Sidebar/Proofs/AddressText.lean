import Mathlib.Logic.Function.Basic
import Sidebar.Address

namespace Sidebar

theorem fields_of_notMem {sep : Char} {cs : List Char} (h : sep ∉ cs) : fields sep cs = [cs] := by
  induction cs with
  | nil => rfl
  | cons c cs ih =>
    obtain ⟨hc, hcs⟩ := not_or.1 (List.mem_cons.not.1 h)
    rw [fields, if_neg (Ne.symm hc), ih hcs]

theorem fields_append_sep (sep : Char) (cs rest : List Char) :
    fields sep (cs ++ sep :: rest) = fields sep cs ++ fields sep rest := by
  induction cs with
  | nil => exact if_pos rfl
  | cons c cs ih =>
    rw [List.cons_append, fields, fields, ih]
    split
    · rfl
    · cases h : fields sep cs with
      | nil => exact absurd h (fields_ne_nil sep cs)
      | cons field more => rfl

theorem fields_append {sep : Char} {cs : List Char} (h : sep ∉ cs) (rest : List Char) :
    fields sep (cs ++ sep :: rest) = cs :: fields sep rest := by
  rw [fields_append_sep, fields_of_notMem h, List.singleton_append]

theorem cut?_append {sep : Char} {cs : List Char} (h : sep ∉ cs) (rest : List Char) :
    cut? sep (cs ++ sep :: rest) = some (cs, rest) := by
  induction cs with
  | nil => rw [List.nil_append, cut?, if_pos rfl]
  | cons c cs ih =>
    obtain ⟨hc, hcs⟩ := not_or.1 (List.mem_cons.not.1 h)
    rw [List.cons_append, cut?, if_neg (Ne.symm hc), ih hcs]
    rfl

theorem eq_append_of_cut? {sep : Char} {cs before rest : List Char}
    (h : cut? sep cs = some (before, rest)) : cs = before ++ sep :: rest := by
  induction cs generalizing before with
  | nil => cases h
  | cons c cs ih =>
    simp only [cut?] at h
    split at h
    next hc =>
      cases h
      rw [hc, List.nil_append]
    next =>
      obtain ⟨⟨before', rest'⟩, hcut, he⟩ := Option.map_eq_some_iff.1 h
      cases he
      rw [ih hcut, List.cons_append]

theorem underscore_notMem_word (n : UInt32) : '_' ∉ (toString n).toList := by
  rw [toList_toString_word]
  intro h
  exact absurd (Nat.isDigit_of_mem_toDigits (by decide) (by decide) h) (by decide)

namespace NavId

theorem toList_text_memberId (m : MemberId) :
    (memberId m).text.toList = (toString m.owner).toList ++ '_' :: (toString m.index).toList := by
  simp [text, MemberId.text]

theorem parsePart_eq_ok_iff {s : String} {part : List Char} {n : UInt32} :
    parsePart s part = .ok n ↔ part = (toString n).toList := by
  rw [← canonical?_eq_some_iff, parsePart]
  cases canonical? part with
  | none => simp
  | some k => simp

theorem parsePart_word (s : String) (n : UInt32) : parsePart s (toString n).toList = .ok n :=
  parsePart_eq_ok_iff.2 rfl

theorem text_ne_empty (id : NavId) : id.text.isEmpty = false := by
  have hword (n : UInt32) : (toString n).toList ≠ [] := by
    rw [toList_toString_word]
    exact Nat.toDigits_ne_nil
  rw [Bool.eq_false_iff, ne_eq, String.isEmpty_iff, ← String.toList_eq_nil_iff]
  cases id with
  | classId c => exact hword c
  | memberId m =>
    rw [toList_text_memberId]
    simp

theorem parse_text (id : NavId) : parse id.text = .ok id := by
  rw [parse, text_ne_empty]
  cases id with
  | classId c =>
    have hfields : fields '_' (classId c).text.toList = [(toString c).toList] :=
      fields_of_notMem (underscore_notMem_word c)
    simp only [Bool.false_eq_true, if_false, hfields, parsePart_word]
    rfl
  | memberId m =>
    have hfields : fields '_' (memberId m).text.toList =
        [(toString m.owner).toList, (toString m.index).toList] := by
      rw [toList_text_memberId, fields_append (underscore_notMem_word _),
        fields_of_notMem (underscore_notMem_word _)]
    simp only [Bool.false_eq_true, if_false, hfields, parsePart_word]
    rfl

theorem text_of_parse {s : String} {id : NavId} (h : parse s = .ok id) : id.text = s := by
  have hs := intercalate_fields '_' s.toList
  rw [parse] at h
  split at h
  · cases h
  · split at h
    next => cases h
    next owner hfields =>
      cases hc : parsePart s owner with
      | error e =>
        rw [hc] at h
        cases h
      | ok c =>
        rw [hc] at h
        cases h
        rw [hfields, parsePart_eq_ok_iff.1 hc] at hs
        apply String.toList_injective
        simpa [text] using hs
    next owner index rest hfields =>
      cases ho : parsePart s owner with
      | error e =>
        rw [ho] at h
        cases h
      | ok o =>
        cases hi : parsePart s index with
        | error e =>
          rw [ho, hi] at h
          cases h
        | ok i =>
          cases rest with
          | cons third rest =>
            rw [ho, hi] at h
            cases h
          | nil =>
            rw [ho, hi] at h
            cases h
            rw [hfields, parsePart_eq_ok_iff.1 ho, parsePart_eq_ok_iff.1 hi] at hs
            apply String.toList_injective
            rw [toList_text_memberId]
            simpa [List.intercalate] using hs

/-- An id is read from its text and from no other. -/
theorem parse_eq_ok_iff {s : String} {id : NavId} : parse s = .ok id ↔ s = id.text := by
  constructor
  · intro h
    exact (text_of_parse h).symm
  · rintro rfl
    exact parse_text id

end NavId

namespace Role

theorem underscore_notMem_name (r : Role) : '_' ∉ r.name.toList := by
  cases r <;> decide

theorem ofName?_eq_some_iff {name : String} {r : Role} : ofName? name = some r ↔ name = r.name := by
  constructor
  · intro h
    have hname := List.find?_some h
    exact (beq_iff_eq.1 hname).symm
  · rintro rfl
    cases r <;> decide

end Role

namespace Address

theorem toList_text (a : Address) :
    a.text.toList = a.role.name.toList ++ '_' :: a.target.text.toList := by
  simp [text]

theorem parse?_eq_some_iff {s : String} {a : Address} : parse? s = some a ↔ s = a.text := by
  constructor
  · intro h
    simp only [parse?, Option.bind_eq_bind, Option.bind_eq_some_iff, Option.some.injEq,
      Prod.exists, pure] at h
    obtain ⟨role, target, hcut, r, hrole, id, hid, rfl⟩ := h
    have hrole := Role.ofName?_eq_some_iff.1 hrole
    have hid : NavId.parse (String.ofList target) = .ok id := by
      cases hp : NavId.parse (String.ofList target) with
      | error e => simp [hp, Except.toOption] at hid
      | ok id' => simpa [hp, Except.toOption] using hid
    apply String.toList_injective
    rw [toList_text, eq_append_of_cut? hcut, ← hrole, ← NavId.parse_eq_ok_iff.1 hid]
    simp
  · rintro rfl
    have hcut := cut?_append (Role.underscore_notMem_name a.role) a.target.text.toList
    simp only [parse?, toList_text, hcut, Option.bind_eq_bind, Option.bind_some,
      String.ofList_toList, Role.ofName?_eq_some_iff.2 rfl, NavId.parse_text]
    rfl

theorem text_injective : Function.Injective text := by
  intro a b h
  have ha := parse?_eq_some_iff.2 (rfl : a.text = a.text)
  have hb := parse?_eq_some_iff.2 h
  exact Option.some.inj (ha.symm.trans hb)

@[simp] theorem text_inj {a b : Address} : a.text = b.text ↔ a = b :=
  text_injective.eq_iff

end Address

end Sidebar
