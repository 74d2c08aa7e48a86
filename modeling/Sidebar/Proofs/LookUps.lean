import Sidebar.Proofs.Entries
import Sidebar.Proofs.IdForm

namespace Sidebar

/-- The form of an address: the name of a role, and one numeral or two after it, with underscores
between them. -/
def IsAddressForm (s : String) : Prop :=
  ∃ (r : Role) (cs : List Char), s.toList = r.name.toList ++ '_' :: cs ∧
    (IsNumeral cs ∨
      ∃ owner index, IsNumeral owner ∧ IsNumeral index ∧ cs = owner ++ '_' :: index)

namespace Address

variable {s : String}

theorem exists_text_iff_isAddressForm : (∃ a : Address, s = a.text) ↔ IsAddressForm s := by
  constructor
  · rintro ⟨a, rfl⟩
    exact ⟨a.role, a.target.text.toList, a.toList_text, NavId.exists_text_iff.1 ⟨a.target, rfl⟩⟩
  · rintro ⟨r, cs, hs, hform⟩
    rw [← String.toList_ofList (l := cs)] at hs hform
    obtain ⟨id, hid⟩ := NavId.exists_text_iff.2 hform
    refine ⟨⟨r, id⟩, String.toList_injective ?_⟩
    rw [hs, hid, toList_text]

theorem exists_parse?_iff : (∃ a, parse? s = some a) ↔ IsAddressForm s := by
  simp only [parse?_eq_some_iff]
  exact exists_text_iff_isAddressForm

end Address

namespace Document

variable {d : Document}

theorem get?_text (d : Document) (a : Address) :
    d.get? a.text = d.elements.toList.find? fun e => e.address? = some a := by
  simp only [get?_eq_find?, Element.address?_eq_some_iff]

theorem contains_text_iff {a : Address} :
    d.contains a.text = true ↔ ∃ e ∈ d.elements, e.address? = some a := by
  simp only [contains_iff, Element.address?_eq_some_iff]

theorem address?_of_get?_text {a : Address} {e : Element} (h : d.get? a.text = some e) :
    e.address? = some a := by
  rw [get?_text] at h
  simpa using List.find?_some h

theorem hasEntry_of_mem_membersByClass {row : UInt32 × List UInt32} {i : UInt32}
    (hrow : row ∈ d.membersByClass) (hi : i ∈ row.2) :
    d.hasEntry (.memberId ⟨row.1, i⟩) = true := by
  obtain ⟨c, indices⟩ := row
  obtain ⟨rfl, -⟩ := mem_membersByClass.1 hrow
  exact hasEntry_of_mem_members (mem_indicesOf.1 hi)

/-- On a page made of any elements, an address is looked up to the first element whose id is read as
that address. So whatever is listed is found, and what is not written as addresses are written is
neither read nor found. -/
theorem look_ups_agree_with_reading (es : List Element) :
    let d := Document.ofElements es
    (∀ a : Address,
      (d.contains a.text = true ↔ ∃ e ∈ es, e.address? = some a) ∧
        d.get? a.text = es.find? fun e => e.address? = some a) ∧
      (∀ c ∈ d.classIds, d.hasEntry (.classId c) = true) ∧
      (∀ row ∈ d.membersByClass, ∀ i ∈ row.2, d.hasEntry (.memberId ⟨row.1, i⟩) = true) ∧
      ∀ e ∈ es, ¬ IsAddressForm e.id →
        e.address? = none ∧ ∀ a : Address, e.id ≠ a.text ∧ d.get? a.text ≠ some e := by
  intro d
  have hes : d.elements.toList = es := toList_ofElements es
  refine ⟨?_, fun c hc => hasEntry_of_mem_classIds hc,
    fun row hrow i hi => hasEntry_of_mem_membersByClass hrow hi, ?_⟩
  · intro a
    rw [contains_text_iff, get?_text, hes, ← hes]
    simp only [Array.mem_toList_iff, and_true]
  · intro e _ hform
    have hnone (a : Address) : e.address? ≠ some a := by
      intro ha
      exact hform (Address.exists_parse?_iff.1 ⟨a, ha⟩)
    refine ⟨Option.eq_none_iff_forall_ne_some.2 hnone, fun a => ⟨?_, ?_⟩⟩
    · intro hid
      exact hform (Address.exists_text_iff_isAddressForm.1 ⟨a, hid⟩)
    · intro hfound
      exact hnone a (address?_of_get?_text hfound)

def looseElements : List Element :=
  [⟨"nav_2_07", .methodEntry, none, {}⟩,
    ⟨"nav_2_7", .memberPanel, none, {}⟩,
    ⟨"nav_+2", .classEntry, none, {}⟩,
    ⟨"nav_2_7", .methodEntry, some "open", {}⟩,
    ⟨"nav_2", .classEntry, none, {}⟩,
    ⟨"list_4294967296", .memberList, none, {}⟩]

theorem look_ups_agree_with_reading_looseElements :
    let d := Document.ofElements looseElements
    let sign : Element := ⟨"nav_+2", .classEntry, none, {}⟩
    (2 ∈ d.classIds ∧ (2, [7]) ∈ d.membersByClass ∧ sign ∈ looseElements ∧
        ¬ IsAddressForm sign.id) ∧
      d.get? (Address.text ⟨.nav, .memberId ⟨2, 7⟩⟩) = some ⟨"nav_2_7", .memberPanel, none, {}⟩ ∧
      d.hasEntry (.classId 2) = true ∧ d.hasEntry (.memberId ⟨2, 7⟩) = true ∧
      sign.address? = none := by
  intro d sign
  have hes : d.elements.toList = looseElements := toList_ofElements _
  have hclass : 2 ∈ d.classIds := by
    rw [classIds, byCategory_eq_filter, hes]
    decide +kernel
  have hmember : (2, [7]) ∈ d.membersByClass := by
    rw [membersByClass, members, byCategory_eq_filter, byCategory_eq_filter, hes]
    decide +kernel
  have hsign : sign ∈ looseElements := by decide +kernel
  have hform : ¬ IsAddressForm sign.id := by
    rw [← Address.exists_parse?_iff]
    have hnone : Address.parse? sign.id = none := by decide +kernel
    simp [hnone]
  obtain ⟨hlook, hlisted, hentries, hread⟩ := look_ups_agree_with_reading looseElements
  refine ⟨⟨hclass, hmember, hsign, hform⟩, ?_, hlisted 2 hclass, ?_, (hread sign hsign hform).1⟩
  · rw [(hlook _).2]
    decide +kernel
  · exact hentries (2, [7]) hmember 7 (List.mem_singleton_self 7)

end Document

end Sidebar
