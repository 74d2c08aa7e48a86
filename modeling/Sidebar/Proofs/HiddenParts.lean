import Sidebar.Proofs.LetterCase
import Sidebar.Proofs.RenderedPage

namespace Sidebar

namespace Markup

theorem dropMark?_eq_dropWord? {mark : List Char} (h : mark.all isMark = true) (cs : List Char) :
    dropMark? mark cs = dropWord? mark cs := by
  induction mark generalizing cs with
  | nil => simp [dropMark?, dropWord?]
  | cons m mark ih =>
    rw [List.all_cons, Bool.and_eq_true_iff] at h
    obtain ⟨hm, hmark⟩ := h
    cases cs with
    | nil => rfl
    | cons c cs =>
      rw [dropWord?]
      split
      next hc =>
        obtain rfl := (foldCase_eq_iff_of_isMark hm).1 hc
        rw [← ih hmark]
        simp [dropMark?]
      next hc =>
        have hne : m ≠ c := fun h => hc ((foldCase_eq_iff_of_isMark hm).2 h.symm)
        exact dropMark?_cons_of_ne hne mark cs

/-- Elements whose content is no markup. -/
inductive RawName where
  | script
  | style

namespace RawName

def word : RawName → List Char
  | script => "script".toList
  | style => "style".toList

def opener (n : RawName) : List Char := '<' :: n.word

def closer (n : RawName) : List Char := '<' :: '/' :: n.word

theorem isUnbordered_closer (n : RawName) : IsUnbordered n.closer := by
  cases n <;> decide

end RawName

/-- What a hidden part begins with. -/
def openers : List (List Char) := ["<!--".toList, RawName.script.opener, RawName.style.opener]

theorem dropRawElement?_eq_none {n : RawName} {cs : List Char}
    (h : ¬ n.opener <+: cs.map foldCase) : dropRawElement? n.word cs = none := by
  have hnone := dropWord?_eq_none_iff.2 h
  rw [RawName.opener, ← List.singleton_append, dropWord?_append] at hnone
  rw [dropRawElement?, dropMark?_eq_dropWord? (by decide), Option.bind_eq_bind,
    ← Option.bind_assoc, hnone, Option.bind_none]

theorem dropComment?_eq_none {cs : List Char} (h : ¬ "<!--".toList <+: cs.map foldCase) :
    dropComment? cs = none := by
  have hmark : "<!--".toList.all isMark := by decide
  rw [dropComment?, dropMark?_eq_dropWord? hmark, dropWord?_eq_none_iff.2 h]
  rfl

theorem dropHidden?_of_not_comment {cs : List Char} (h : ¬ "<!--".toList <+: cs.map foldCase) :
    dropHidden? cs =
      (dropRawElement? RawName.script.word cs <|> dropRawElement? RawName.style.word cs) := by
  rw [dropHidden?, dropComment?_eq_none h]
  rfl

theorem dropHidden?_eq_none {cs : List Char}
    (h : ∀ opener ∈ openers, ¬ opener <+: cs.map foldCase) : dropHidden? cs = none := by
  simp only [openers, List.forall_mem_cons] at h
  obtain ⟨hcomment, hscript, hstyle, -⟩ := h
  rw [dropHidden?_of_not_comment hcomment, dropRawElement?_eq_none hscript,
    dropRawElement?_eq_none hstyle]
  rfl

/-- The end of a tag, or white space. -/
def isBoundary (c : Char) : Bool := c == '>' || isBlank c

theorem foldCase_notMem_opener {c : Char} (hc : isBoundary c = true) {opener : List Char}
    (h : opener ∈ openers) : foldCase c ∉ opener := by
  have hall : ('>' :: blanks).all fun c =>
      openers.all fun opener => !opener.contains (foldCase c) := by decide
  have hmem : c ∈ '>' :: blanks := by
    rw [isBoundary, Bool.or_eq_true, beq_iff_eq] at hc
    exact List.mem_cons.2 (hc.imp_right mem_blanks)
  have hnot := List.all_eq_true.1 (List.all_eq_true.1 hall c hmem) opener h
  simpa using hnot

/-- A text that begins no hidden part, not even together with what follows. -/
structure VisibleText where
  chars : List Char
  ends : chars.getLast?.all isBoundary = true
  not_holds : ∀ opener ∈ openers, ¬ Holds opener chars

structure Comment where
  body : List Char
  not_holds : ¬ Holds "-->".toList body

/-- An element whose content is no markup, its tags in any letter case. -/
structure RawElement where
  name : RawName
  startName : List Char
  attributes : List Char
  content : List Char
  endName : List Char
  fold_startName : startName.map foldCase = name.word
  fold_endName : endName.map foldCase = name.word
  begins : attributes.head?.all isBlank = true
  gt_notMem : '>' ∉ attributes
  not_holds : ¬ Holds name.closer content

inductive Piece where
  | text (t : VisibleText)
  | comment (c : Comment)
  | raw (e : RawElement)

def Comment.chars (c : Comment) : List Char := "<!--".toList ++ (c.body ++ "-->".toList)

def RawElement.chars (e : RawElement) : List Char :=
  '<' :: (e.startName ++ (e.attributes ++ '>' ::
    (e.content ++ '<' :: '/' :: (e.endName ++ ['>']))))

def Piece.chars : Piece → List Char
  | text t => t.chars
  | comment c => c.chars
  | raw e => e.chars

def Piece.isText : Piece → Bool
  | text _ => true
  | comment _ | raw _ => false

theorem VisibleText.visible_append (t : VisibleText) (rest : List Char) :
    visible (t.chars ++ rest) = t.chars ++ visible rest := by
  refine visible_append_of_none fun c tail htail => dropHidden?_eq_none ?_
  intro opener hopener hprefix
  rw [← List.cons_append, List.map_append] at hprefix
  rcases List.prefix_or_prefix_of_prefix hprefix (List.prefix_append _ _) with h | h
  · exact t.not_holds opener hopener (h.isInfix.trans (htail.map foldCase).isInfix)
  · -- An opener that goes on behind the text would have the last character of the text in it.
    obtain ⟨before, hbefore⟩ := htail
    have hne : c :: tail ≠ [] := List.cons_ne_nil c tail
    have hlast : t.chars.getLast? = some ((c :: tail).getLast hne) := by
      rw [← hbefore, List.getLast?_append_of_ne_nil _ hne, List.getLast?_eq_some_getLast hne]
    have hmem : foldCase ((c :: tail).getLast hne) ∈ opener :=
      h.subset (List.mem_map_of_mem (List.getLast_mem hne))
    have hends := t.ends
    rw [hlast, Option.all_some] at hends
    exact foldCase_notMem_opener hends hopener hmem

variable {skip? : List Char → Option (List Char)}

theorem afterFirst?_append {body rest : List Char}
    (h : ∀ c tail, c :: tail <:+ body → skip? (c :: (tail ++ rest)) = none) :
    afterFirst? skip? (body ++ rest) = afterFirst? skip? rest := by
  induction body with
  | nil => rfl
  | cons c body ih =>
    have hbody := ih fun c' tail htail => h c' tail (htail.trans (List.suffix_cons c body))
    rw [List.cons_append, afterFirst?, h c body List.suffix_rfl, hbody]
    rfl

theorem afterFirst?_of_some {cs rest : List Char} (h : skip? cs = some rest) :
    afterFirst? skip? cs = some rest := by
  cases cs with
  | nil => exact h
  | cons c cs =>
    rw [afterFirst?, h]
    rfl

theorem dropMark?_append (mark rest : List Char) : dropMark? mark (mark ++ rest) = some rest := by
  rw [dropMark?, if_pos (List.isPrefixOf_iff_prefix.2 (List.prefix_append _ _)), List.drop_left]

theorem visible_of_dropHidden? {cs rest : List Char} (h : dropHidden? cs = some rest) :
    visible cs = visible rest := by
  cases cs with
  | nil => cases length_dropHidden?_lt h
  | cons c cs =>
    rw [visible]
    split
    next rest' h' => rw [Option.some.inj (h.symm.trans h')]
    next h' => cases h.symm.trans h'

theorem Comment.dropHidden?_append (c : Comment) (rest : List Char) :
    dropHidden? (c.chars ++ rest) = some rest := by
  have hmark : "-->".toList.all isMark := by decide
  have hnone (c' : Char) (tail : List Char) (htail : c' :: tail <:+ c.body) :
      dropMark? "-->".toList (c' :: (tail ++ ("-->".toList ++ rest))) = none := by
    rw [dropMark?_eq_dropWord? hmark, dropWord?_eq_none_iff]
    exact not_prefix_of_isUnbordered (by decide) c.not_holds (by decide) htail rest
  have hcomment : dropComment? (c.chars ++ rest) = some rest := by
    rw [dropComment?, chars, List.append_assoc, List.append_assoc, dropMark?_append]
    change afterFirst? _ _ = _
    rw [afterFirst?_append hnone, afterFirst?_of_some (dropMark?_append _ rest)]
  rw [dropHidden?, hcomment]
  rfl

theorem dropEndTag?_eq_none {n : RawName} {cs : List Char}
    (h : ¬ n.closer <+: cs.map foldCase) : dropEndTag? n.word cs = none := by
  have hmark : ['<', '/'].all isMark := by decide
  have hnone := dropWord?_eq_none_iff.2 h
  have hcloser : n.closer = ['<', '/'] ++ n.word := rfl
  rw [hcloser, dropWord?_append] at hnone
  rw [dropEndTag?, dropMark?_eq_dropWord? hmark, Option.bind_eq_bind, ← Option.bind_assoc, hnone,
    Option.bind_none]

namespace RawElement

variable (e : RawElement) (rest : List Char)

theorem append_eq :
    e.chars ++ rest = '<' :: (e.startName ++ (e.attributes ++ '>' ::
      (e.content ++ (('<' :: '/' :: e.endName) ++ '>' :: rest)))) := by
  simp only [chars, List.cons_append, List.append_assoc, List.nil_append]

theorem dropEndTag?_append :
    dropEndTag? e.name.word (('<' :: '/' :: e.endName) ++ '>' :: rest) = some rest := by
  have hmark : dropMark? ['<', '/'] (('<' :: '/' :: e.endName) ++ '>' :: rest) =
      some (e.endName ++ '>' :: rest) := dropMark?_append ['<', '/'] _
  have hword := dropWord?_of_fold e.fold_endName ('>' :: rest)
  rw [dropEndTag?, hmark, Option.bind_eq_bind, Option.bind_some, hword, Option.bind_some]
  exact dropMark?_append ['>'] rest

theorem afterFirst?_attributes (content : List Char) :
    afterFirst? (dropMark? ['>']) (e.attributes ++ '>' :: content) = some content := by
  have hnone (c : Char) (tail : List Char) (htail : c :: tail <:+ e.attributes) :
      dropMark? ['>'] (c :: (tail ++ '>' :: content)) = none := by
    have hc : '>' ≠ c := by
      rintro rfl
      exact e.gt_notMem (htail.subset List.mem_cons_self)
    exact dropMark?_cons_of_ne hc [] _
  rw [afterFirst?_append hnone]
  exact afterFirst?_of_some (dropMark?_append ['>'] content)

theorem afterFirst?_content :
    afterFirst? (dropEndTag? e.name.word)
      (e.content ++ (('<' :: '/' :: e.endName) ++ '>' :: rest)) = some rest := by
  have hcloser : ('<' :: '/' :: e.endName).map foldCase = e.name.closer :=
    congrArg (List.cons '<' ∘ List.cons '/') e.fold_endName
  have hnone (c : Char) (tail : List Char) (htail : c :: tail <:+ e.content) :
      dropEndTag? e.name.word (c :: (tail ++ (('<' :: '/' :: e.endName) ++ '>' :: rest))) = none :=
    dropEndTag?_eq_none <| not_prefix_of_isUnbordered e.name.isUnbordered_closer e.not_holds
      hcloser htail _
  rw [afterFirst?_append hnone, afterFirst?_of_some (e.dropEndTag?_append rest)]

theorem not_isWordChar_head (content : List Char) :
    (e.attributes ++ '>' :: content).head?.any isWordChar = false := by
  have hgt : isWordChar '>' = false := by decide +kernel
  cases hattributes : e.attributes with
  | nil => rw [List.nil_append, List.head?_cons, Option.any_some, hgt]
  | cons c cs =>
    have hbegins := e.begins
    rw [hattributes] at hbegins
    exact isWordChar_of_isBlank hbegins

theorem dropRawElement?_append : dropRawElement? e.name.word (e.chars ++ rest) = some rest := by
  have hmark (cs : List Char) : dropMark? ['<'] ('<' :: cs) = some cs := dropMark?_append ['<'] cs
  rw [e.append_eq, dropRawElement?, hmark, Option.bind_eq_bind, Option.bind_some,
    dropWord?_of_fold e.fold_startName, Option.bind_some, e.not_isWordChar_head,
    if_neg Bool.false_ne_true, e.afterFirst?_attributes]
  exact e.afterFirst?_content rest

theorem dropHidden?_append : dropHidden? (e.chars ++ rest) = some rest := by
  have hraw := e.dropRawElement?_append rest
  have hfold : ∃ more, (e.chars ++ rest).map foldCase = e.name.opener ++ more := by
    rw [e.append_eq, List.map_cons, List.map_append, e.fold_startName]
    exact ⟨_, rfl⟩
  obtain ⟨more, hmore⟩ := hfold
  have hcomment : ¬ "<!--".toList <+: (e.chars ++ rest).map foldCase := by
    rw [hmore]
    cases e.name <;> exact not_prefix_append (by decide) (by decide) more
  rw [dropHidden?_of_not_comment hcomment]
  cases hname : e.name with
  | script =>
    rw [hname] at hraw
    rw [hraw]
    rfl
  | style =>
    have hscript : ¬ RawName.script.opener <+: (e.chars ++ rest).map foldCase := by
      rw [hmore, hname]
      exact not_prefix_append (by decide) (by decide) more
    rw [hname] at hraw
    rw [dropRawElement?_eq_none hscript, hraw]
    rfl

end RawElement

theorem visible_flatMap_chars (pieces : List Piece) :
    visible (pieces.flatMap Piece.chars) = (pieces.filter Piece.isText).flatMap Piece.chars := by
  induction pieces with
  | nil =>
    rw [List.flatMap_nil, visible]
    rfl
  | cons piece pieces ih =>
    rw [List.flatMap_cons]
    cases piece with
    | text t =>
      rw [Piece.chars, t.visible_append, ih]
      rfl
    | comment c =>
      rw [Piece.chars, visible_of_dropHidden? (c.dropHidden?_append _), ih]
      rfl
    | raw e =>
      rw [Piece.chars, visible_of_dropHidden? (e.dropHidden?_append _), ih]
      rfl

end Markup

namespace Page

open Markup

theorem findings_congr {html html' : String} (h : visible html.toList = visible html'.toList) :
    findings html = findings html' := by
  rw [findings, findings, h]

/-- Comments, and elements whose content is no markup, can be taken off a page unseen. -/
theorem hidden_parts_are_invisible (pieces : List Piece) :
    let html := String.ofList (pieces.flatMap Piece.chars)
    let shown := String.ofList ((pieces.filter Piece.isText).flatMap Piece.chars)
    read html = read shown ∧ notices html = notices shown := by
  intro html shown
  have h : findings html = findings shown := by
    apply findings_congr
    rw [String.toList_ofList, String.toList_ofList, visible_flatMap_chars, visible_flatMap_chars,
      List.filter_filter]
    simp only [Bool.and_self]
  rw [read, read, elements, elements, notices, notices, h]
  exact ⟨rfl, rfl⟩

theorem hidden_parts_are_invisible_nested :
    let pieces : List Piece := [
      .text ⟨"<div class=\"navclass\" id=\"nav_1\">".toList, by decide, by decide⟩,
      .comment ⟨"<script> <div class=\"navclass\" id=\"nav_2\"> --".toList, by decide⟩,
      .raw ⟨.script, "SCRIPT".toList, " id=nav_3".toList, "<!-- <style> </div>".toList,
        "Script".toList, by decide, by decide, by decide, by decide, by decide⟩,
      .text ⟨"Storage\n".toList, by decide, by decide⟩,
      .raw ⟨.style, "style".toList, [], "--> </script>".toList, "style".toList,
        by decide, by decide, by decide, by decide, by decide⟩,
      .text ⟨"</div>".toList, by decide, by decide⟩]
    (read (String.ofList (pieces.flatMap Piece.chars))).elements.toList =
      [⟨"nav_1", .classEntry, some "Storage", {}⟩] := by
  intro pieces
  have hshown : (pieces.filter Piece.isText).flatMap Piece.chars =
      "<div class=\"navclass\" id=\"nav_1\">Storage\n</div>".toList := by decide
  rw [(hidden_parts_are_invisible pieces).1, hshown, String.ofList_toList, read,
    Document.toList_ofElements]
  decide +kernel

end Page

end Sidebar
