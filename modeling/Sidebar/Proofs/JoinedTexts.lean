import Sidebar.Proofs.HiddenParts

namespace Sidebar

namespace Markup

variable {opener cs rest : List Char}

theorem visible_of_not_holds (h : ∀ opener ∈ openers, ¬ Holds opener cs) : visible cs = cs := by
  have hnone (c : Char) (tail : List Char) (htail : c :: tail <:+ cs) :
      dropHidden? (c :: (tail ++ [])) = none := by
    apply dropHidden?_eq_none
    intro opener hopener hstart
    rw [List.append_nil] at hstart
    exact h opener hopener (hstart.isInfix.trans (htail.map foldCase).isInfix)
  have hvisible := visible_append_of_none hnone
  rwa [List.append_nil, visible, List.append_nil] at hvisible

theorem lt_notMem_tail (h : opener ∈ openers) : '<' ∉ opener.tail := by
  have hall : ∀ opener ∈ openers, '<' ∉ opener.tail := by decide
  exact hall opener h

theorem not_holds_append (hopener : opener ∈ openers) (h : ¬ Holds opener cs)
    (hrest : ¬ Holds opener ('<' :: rest)) : ¬ Holds opener (cs ++ '<' :: rest) := by
  rw [Holds, List.map_append, List.infix_append_iff]
  rintro (hfirst | hsecond | ⟨before, after, rfl, hbefore, hafter⟩)
  · exact h hfirst
  · exact hrest hsecond
  · -- If it began before the second text and went on, it would have the `<` of that text in it.
    cases before with
    | nil => exact hrest hafter.isInfix
    | cons b before =>
      cases after with
      | nil =>
        rw [List.append_nil] at h
        exact h hbefore.isInfix
      | cons a after =>
        obtain ⟨rfl, -⟩ := List.cons_prefix_cons.1 hafter
        exact lt_notMem_tail hopener (List.mem_append_right before List.mem_cons_self)

theorem tags_append (cs rest : List Char) :
    tags (cs ++ '<' :: rest) = tags cs ++ tags ('<' :: rest) := by
  have hrest : fields '<' ('<' :: rest) = [] :: fields '<' rest := if_pos rfl
  rw [tags, tags, tags, fields_append_sep, hrest, List.tail_append_of_ne_nil (fields_ne_nil _ _),
    List.filterMap_append, List.tail_cons]

theorem tags_visible_append (h : ∀ opener ∈ openers, ¬ Holds opener cs)
    (hrest : ∀ opener ∈ openers, ¬ Holds opener rest) (hstart : ∀ c ∈ rest.head?, c = '<') :
    tags (visible (cs ++ rest)) = tags (visible cs) ++ tags (visible rest) := by
  cases rest with
  | nil =>
    have hnone : tags (visible []) = [] := by
      rw [visible]
      rfl
    rw [List.append_nil, hnone, List.append_nil]
  | cons c rest =>
    obtain rfl : c = '<' := hstart c rfl
    have hjoined (opener : List Char) (hopener : opener ∈ openers) :
        ¬ Holds opener (cs ++ '<' :: rest) :=
      not_holds_append hopener (h opener hopener) (hrest opener hopener)
    rw [visible_of_not_holds hjoined, visible_of_not_holds h, visible_of_not_holds hrest,
      tags_append]

end Markup

namespace Page

open Markup

/-- A page put together from two texts that begin no hidden part has the elements of the one text
and then those of the other, if the second one is empty or begins with a `<`. What is passed over
for want of an id is the same too. -/
theorem joined_texts_read_apart {a b : String}
    (ha : ∀ opener ∈ openers, ¬ Holds opener a.toList)
    (hb : ∀ opener ∈ openers, ¬ Holds opener b.toList)
    (hstart : ∀ c ∈ b.toList.head?, c = '<') :
    findings (a ++ b) = findings a ++ findings b ∧
      (read (a ++ b)).elements.toList = (read a).elements.toList ++ (read b).elements.toList := by
  have hfindings : findings (a ++ b) = findings a ++ findings b := by
    rw [findings, String.toList_append, tags_visible_append ha hb hstart, List.filterMap_append]
    rfl
  refine ⟨hfindings, ?_⟩
  simp only [read, Document.toList_ofElements, elements, hfindings, List.filterMap_append]

theorem joined_texts_read_apart_malformed :
    let a := "</p><<div class=\"navclass\" id='nav_1'>Stor > age<li class=navmethod id=\"nav_2 >"
    let b := "<li id=nav_1_1 class=\"x navconstructor\" / >&lt;new&gt;<div class=navclass id=nav_3"
    ((∀ opener ∈ openers, ¬ Holds opener a.toList) ∧ (∀ opener ∈ openers, ¬ Holds opener b.toList) ∧
      ∀ c ∈ b.toList.head?, c = '<') ∧
      (read (a ++ b)).elements.toList = [
        ⟨"nav_1", .classEntry, some "Stor > age", {}⟩,
        ⟨"nav_1_1", .constructorEntry, some "<new>", {}⟩] := by
  intro a b
  have ha : ∀ opener ∈ openers, ¬ Holds opener a.toList := by decide +kernel
  have hb : ∀ opener ∈ openers, ¬ Holds opener b.toList := by decide +kernel
  have hstart : ∀ c ∈ b.toList.head?, c = '<' := by
    have hhead : b.toList.head? = some '<' := by decide +kernel
    intro c hc
    rw [hhead] at hc
    cases hc
    rfl
  refine ⟨⟨ha, hb, hstart⟩, ?_⟩
  rw [(joined_texts_read_apart ha hb hstart).2]
  simp only [read, Document.toList_ofElements]
  decide +kernel

end Page

end Sidebar
