import Sidebar.Proofs.EntityText
import Sidebar.Proofs.Reordering

namespace Sidebar

theorem fields_append_of_eq_cons {sep : Char} {cs field : List Char} {rest : List Char}
    {more : List (List Char)} (h : sep ∉ cs) (hrest : fields sep rest = field :: more) :
    fields sep (cs ++ rest) = (cs ++ field) :: more := by
  induction cs with
  | nil => exact hrest
  | cons c cs ih =>
    obtain ⟨hc, hcs⟩ := not_or.1 (List.mem_cons.not.1 h)
    rw [List.cons_append, fields, if_neg (Ne.symm hc), ih hcs]
    rfl

namespace Markup

/-- The text in which a `<` stands in front of each piece and nowhere else. -/
def ofPieces (pieces : List (List Char)) : List Char := pieces.flatMap fun piece => '<' :: piece

/-- Whether a piece begins neither a comment nor an element whose content is no markup. -/
def IsPlainPiece (piece : List Char) : Prop :=
  ∃ c cs, piece = c :: cs ∧ c ≠ '!' ∧ foldCase c ≠ 's'

theorem dropMark?_cons_of_ne {c c' : Char} (h : c ≠ c') (mark cs : List Char) :
    dropMark? (c :: mark) (c' :: cs) = none := by
  rw [dropMark?, List.isPrefixOf_cons_cons, beq_false_of_ne h]
  rfl

theorem dropMark?_lt (mark cs : List Char) :
    dropMark? ('<' :: mark) ('<' :: cs) = dropMark? mark cs := by
  simp [dropMark?]

theorem dropHidden?_of_ne {c : Char} (h : c ≠ '<') (cs : List Char) :
    dropHidden? (c :: cs) = none := by
  have hraw (name : List Char) : dropRawElement? name (c :: cs) = none := by
    rw [dropRawElement?, dropMark?_cons_of_ne h.symm]
    rfl
  have hcomment : dropComment? (c :: cs) = none :=
    congrArg (Option.bind · _) (dropMark?_cons_of_ne h.symm ['!', '-', '-'] cs)
  rw [dropHidden?, hcomment, hraw, hraw]
  rfl

theorem dropHidden?_of_isPlainPiece {piece : List Char} (h : IsPlainPiece piece)
    (rest : List Char) : dropHidden? ('<' :: (piece ++ rest)) = none := by
  obtain ⟨c, cs, rfl, hmark, hfold⟩ := h
  have hraw (name : List Char) :
      dropRawElement? ('s' :: name) ('<' :: (c :: cs ++ rest)) = none := by
    have hword : dropWord? ('s' :: name) (c :: cs ++ rest) = none := if_neg hfold
    rw [dropRawElement?, dropMark?_lt]
    exact congrArg (Option.bind · _) hword
  have hcomment : dropComment? ('<' :: (c :: cs ++ rest)) = none := by
    have hdash : dropMark? ['!', '-', '-'] (c :: cs ++ rest) = none :=
      dropMark?_cons_of_ne hmark.symm _ _
    exact congrArg (Option.bind · _) ((dropMark?_lt _ _).trans hdash)
  have hscript : dropRawElement? "script".toList ('<' :: (c :: cs ++ rest)) = none :=
    hraw ['c', 'r', 'i', 'p', 't']
  have hstyle : dropRawElement? "style".toList ('<' :: (c :: cs ++ rest)) = none :=
    hraw ['t', 'y', 'l', 'e']
  rw [dropHidden?, hcomment, hscript, hstyle]
  rfl

theorem visible_cons {c : Char} {cs : List Char} (h : dropHidden? (c :: cs) = none) :
    visible (c :: cs) = c :: visible cs := by
  rw [visible]
  split
  next rest hrest => cases h.symm.trans hrest
  next => rfl

/-- A text in which no hidden part begins is visible. -/
theorem visible_append_of_none {cs rest : List Char}
    (h : ∀ c tail, c :: tail <:+ cs → dropHidden? (c :: (tail ++ rest)) = none) :
    visible (cs ++ rest) = cs ++ visible rest := by
  induction cs with
  | nil => rfl
  | cons c cs ih =>
    have hcs := ih fun c' tail htail => h c' tail (htail.trans (List.suffix_cons c cs))
    rw [List.cons_append, visible_cons (h c cs List.suffix_rfl), hcs, List.cons_append]

theorem visible_append {cs : List Char} (h : '<' ∉ cs) (rest : List Char) :
    visible (cs ++ rest) = cs ++ visible rest := by
  apply visible_append_of_none
  intro c tail htail
  have hc : c ≠ '<' := by
    rintro rfl
    exact h (htail.subset List.mem_cons_self)
  exact dropHidden?_of_ne hc _

variable {pieces : List (List Char)}

theorem visible_ofPieces (h : ∀ piece ∈ pieces, '<' ∉ piece ∧ IsPlainPiece piece) :
    visible (ofPieces pieces) = ofPieces pieces := by
  induction pieces with
  | nil => rw [ofPieces, List.flatMap_nil, visible]
  | cons piece pieces ih =>
    obtain ⟨⟨hlt, hplain⟩, hpieces⟩ := List.forall_mem_cons.1 h
    rw [ofPieces, List.flatMap_cons, List.cons_append,
      visible_cons (dropHidden?_of_isPlainPiece hplain _), visible_append hlt, ← ofPieces,
      ih hpieces]

theorem fields_ofPieces (h : ∀ piece ∈ pieces, '<' ∉ piece) :
    fields '<' (ofPieces pieces) = [] :: pieces := by
  induction pieces with
  | nil => rfl
  | cons piece pieces ih =>
    obtain ⟨hlt, hpieces⟩ := List.forall_mem_cons.1 h
    rw [ofPieces, List.flatMap_cons, List.cons_append, fields, if_pos rfl, ← ofPieces,
      fields_append_of_eq_cons hlt (ih hpieces), List.append_nil]

theorem tags_ofPieces (h : ∀ piece ∈ pieces, '<' ∉ piece) :
    tags (ofPieces pieces) = pieces.filterMap Tag.ofPiece? := by
  rw [tags, fields_ofPieces h, List.tail_cons]

namespace Attribute

variable {name : AttributeName} {key value : List Char}

theorem scan_cons_of_none {c : Char} {cs : List Char} (h : isBlank c = true → read? cs = none) :
    scan (c :: cs) = scan cs := by
  rw [scan.eq_def]
  dsimp only
  split
  next hc =>
    split
    next a rest hread => cases (h hc).symm.trans hread
    next => rfl
  next => rfl

theorem scan_cons_of_some {c : Char} {cs rest : List Char} {a : Attribute} (hc : isBlank c = true)
    (h : read? cs = some (a, rest)) : scan (c :: cs) = a :: scan rest := by
  rw [scan.eq_def]
  dsimp only
  rw [if_pos hc]
  split
  next a' rest' hread =>
    cases h.symm.trans hread
    rfl
  next hread => cases h.symm.trans hread

/-- An attribute that is looked for and has its value in quotes is found, and the search goes on
behind it. -/
theorem scan_quoted (hname : ∀ cs, name? (key ++ '=' :: cs) = some (name, '=' :: cs))
    (hvalue : '"' ∉ value) (rest : List Char) :
    scan (' ' :: (key ++ '=' :: '"' :: (value ++ '"' :: rest))) = ⟨name, value⟩ :: scan rest := by
  have hcut : value? ('"' :: (value ++ '"' :: rest)) = some (value, rest) := by
    rw [value?, if_pos (.inl rfl)]
    exact cut?_append hvalue rest
  have hread :
      read? (key ++ '=' :: '"' :: (value ++ '"' :: rest)) = some (⟨name, value⟩, rest) := by
    rw [read?, hname]
    change (value? ('"' :: (value ++ '"' :: rest))).bind
      (fun found => some ((⟨name, found.1⟩ : Attribute), found.2)) = _
    rw [hcut, Option.bind_some]
  exact scan_cons_of_some (by decide) hread

end Attribute

end Markup

/-- Whether a text has only letters and digits of ASCII and underscores. -/
def IsName (cs : List Char) : Prop := ∀ c ∈ cs, c.isAlphanum = true ∨ c = '_'

instance (cs : List Char) : Decidable (IsName cs) :=
  List.decidableBAll (fun c : Char => c.isAlphanum = true ∨ c = '_') cs

theorem IsName.notMem {cs : List Char} {c : Char} (h : IsName cs) (hc : c.isAlphanum = false)
    (hne : c ≠ '_') : c ∉ cs := by
  intro hmem
  rcases h c hmem with hc' | hc'
  · exact Bool.noConfusion (hc.symm.trans hc')
  · exact hne hc'

theorem isName_word (n : UInt32) : IsName (toString n).toList := by
  intro c hc
  rw [toList_toString_word] at hc
  have hdigit : c.isDigit = true := Nat.isDigit_of_mem_toDigits (by decide) (by decide) hc
  exact .inl (by rw [Char.isAlphanum, hdigit, Bool.or_true])

theorem NavId.isName_text (id : NavId) : IsName id.text.toList := by
  cases id with
  | classId c => exact isName_word c
  | memberId m =>
    intro c hc
    rw [toList_text_memberId, List.mem_append, List.mem_cons] at hc
    rcases hc with hc | rfl | hc
    · exact isName_word _ c hc
    · exact .inr rfl
    · exact isName_word _ c hc

theorem Role.isName_name (r : Role) : IsName r.name.toList := by
  cases r <;> decide

theorem Address.isName_text (a : Address) : IsName a.text.toList := by
  intro c hc
  rw [toList_text, List.mem_append, List.mem_cons] at hc
  rcases hc with hc | rfl | hc
  · exact a.role.isName_name c hc
  · exact .inr rfl
  · exact a.target.isName_text c hc

theorem Category.isName_name (k : Category) : IsName k.name.toList := by
  cases k <;> decide

namespace Element

/-- Whether the id can stand in an attribute and be found there. -/
structure IsRenderable (e : Element) : Prop where
  id_ne_empty : e.id ≠ ""
  quote_notMem : '"' ∉ e.id.toList
  lt_notMem : '<' ∉ e.id.toList
  gt_notMem : '>' ∉ e.id.toList

instance (e : Element) : Decidable e.IsRenderable :=
  decidable_of_iff (e.id ≠ "" ∧ '"' ∉ e.id.toList ∧ '<' ∉ e.id.toList ∧ '>' ∉ e.id.toList)
    ⟨fun ⟨hid, hquote, hlt, hgt⟩ => ⟨hid, hquote, hlt, hgt⟩,
      fun ⟨hid, hquote, hlt, hgt⟩ => ⟨hid, hquote, hlt, hgt⟩⟩

theorem isRenderable_address {a : Address} {k : Category} {label : Option String} {style : Style} :
    IsRenderable ⟨a.text, k, label, style⟩ where
  id_ne_empty h := by
    have hnil : a.text.toList = [] := congrArg String.toList h
    rw [Address.toList_text] at hnil
    exact List.cons_ne_nil _ _ (List.append_eq_nil_iff.1 hnil).2
  quote_notMem := a.isName_text.notMem (by decide) (by decide)
  lt_notMem := a.isName_text.notMem (by decide) (by decide)
  gt_notMem := a.isName_text.notMem (by decide) (by decide)

/-- The text shown: the label without the white space around it. -/
def shownText (e : Element) : List Char := trim (e.label.getD "").toList

/-- What is read where the element was rendered. -/
def asRead (e : Element) : Element where
  id := e.id
  category := e.category
  label := if e.shownText = [] then none else some (String.ofList e.shownText)

end Element

theorem Outline.isRenderable_of_mem {o : Outline} {e : Element}
    (h : e ∈ o.document.elements.toList) : e.IsRenderable := by
  rw [toList_elements_document, mem_elements] at h
  obtain ⟨k, a, label, -, rfl⟩ := h
  exact Element.isRenderable_address

namespace Page

open Markup

variable {e : Element} {es : List Element}

/-- The attributes that an element is rendered with. -/
def attributes (e : Element) : List Char :=
  ' ' :: (['c', 'l', 'a', 's', 's'] ++ '=' :: '"' :: (e.category.name.toList ++ '"' ::
    ' ' :: (['i', 'd'] ++ '=' :: '"' :: (e.id.toList ++ ['"']))))

def startPiece (e : Element) : List Char :=
  ['d', 'i', 'v'] ++ (attributes e ++ '>' :: Entity.encode (e.label.getD "").toList)

def endPiece : List Char := ['/', 'd', 'i', 'v', '>', '\n']

theorem renderElement_eq (e : Element) : renderElement e = ofPieces [startPiece e, endPiece] := by
  delta renderElement
  simp only [ofPieces, startPiece, attributes, endPiece, String.reduceToList, List.flatMap_cons,
    List.flatMap_nil, List.append_assoc, List.cons_append, List.nil_append, List.append_nil]

theorem flatMap_renderElement (es : List Element) :
    es.flatMap renderElement = ofPieces (es.flatMap fun e => [startPiece e, endPiece]) := by
  rw [ofPieces, List.flatMap_assoc]
  exact List.flatMap_congr fun e _ => renderElement_eq e

theorem notMem_attributes {c : Char} (hname : c.isAlphanum = false) (hne : c ≠ '_')
    (hc : c ∉ [' ', 'c', 'l', 'a', 's', 's', '=', '"', 'i', 'd']) (hid : c ∉ e.id.toList) :
    c ∉ attributes e := by
  have hname : c ∉ e.category.name.toList := e.category.isName_name.notMem hname hne
  simp only [List.mem_cons, not_or] at hc
  simp only [attributes, List.mem_append, List.mem_cons, hname, hid, hc, or_self,
    not_false_eq_true]

theorem gt_notMem_attributes (h : e.IsRenderable) : '>' ∉ attributes e :=
  notMem_attributes (by decide) (by decide) (by decide) h.gt_notMem

theorem lt_notMem_startPiece (h : e.IsRenderable) : '<' ∉ startPiece e := by
  have hattributes : '<' ∉ attributes e :=
    notMem_attributes (by decide) (by decide) (by decide) h.lt_notMem
  have hlabel : '<' ∉ Entity.encode (e.label.getD "").toList := Entity.lt_notMem_encode _
  simp only [startPiece, List.mem_append, List.mem_cons, hattributes, hlabel]
  decide

theorem isPlainPiece_startPiece (e : Element) : IsPlainPiece (startPiece e) :=
  ⟨'d', _, rfl, by decide, by decide⟩

theorem isPlainPiece_endPiece : IsPlainPiece endPiece := ⟨'/', _, rfl, by decide, by decide⟩

theorem ofPiece?_endPiece : Tag.ofPiece? endPiece = none := rfl

theorem ofPiece?_startPiece (h : e.IsRenderable) :
    Tag.ofPiece? (startPiece e) =
      some ⟨attributes e, Entity.encode (e.label.getD "").toList⟩ := by
  have hlast : (attributes e).getLast? = some '"' := by
    simp [attributes, List.getLast?_cons, List.getLast?_append]
  have hslash : dropFinalSlash (attributes e) = attributes e := by
    rw [dropFinalSlash, hlast]
    rfl
  change (cut? '>' (attributes e ++ '>' :: Entity.encode (e.label.getD "").toList)).map
    (fun found => (⟨dropFinalSlash found.1, found.2⟩ : Tag)) = _
  rw [cut?_append (gt_notMem_attributes h), Option.map_some, hslash]

theorem scan_attributes (h : e.IsRenderable) :
    Attribute.scan (attributes e) = [⟨.className, e.category.name.toList⟩, ⟨.id, e.id.toList⟩] := by
  have hclass (cs : List Char) :
      Attribute.name? (['c', 'l', 'a', 's', 's'] ++ '=' :: cs) = some (.className, '=' :: cs) := rfl
  have hid (cs : List Char) :
      Attribute.name? (['i', 'd'] ++ '=' :: cs) = some (.id, '=' :: cs) := rfl
  have hquote : '"' ∉ e.category.name.toList :=
    e.category.isName_name.notMem (by decide) (by decide)
  rw [attributes, Attribute.scan_quoted hclass hquote, Attribute.scan_quoted hid h.quote_notMem,
    Attribute.scan.eq_def]

theorem attribute?_startPiece (h : e.IsRenderable) (content : List Char) :
    Tag.attribute? ⟨attributes e, content⟩ .className = some e.category.name.toList ∧
      Tag.attribute? ⟨attributes e, content⟩ .id = some e.id.toList := by
  rw [Tag.attribute?, Tag.attribute?, scan_attributes h]
  exact ⟨rfl, rfl⟩

theorem category?_name (k : Category) : category? k.name.toList = some k := by
  cases k <;> decide

theorem label?_encode (e : Element) :
    label? (Entity.encode (e.label.getD "").toList) = e.asRead.label := by
  rw [label?, Entity.trim_encode, Entity.decode_encode, Element.asRead, Element.shownText]
  simp only [List.isEmpty_iff]

theorem finding?_startPiece (h : e.IsRenderable) :
    finding? ⟨attributes e, Entity.encode (e.label.getD "").toList⟩ = some (.element e.asRead) := by
  obtain ⟨hclass, hid⟩ := attribute?_startPiece h (Entity.encode (e.label.getD "").toList)
  have hne : e.id.toList ≠ [] := fun hnil => h.id_ne_empty (String.toList_eq_nil_iff.1 hnil)
  rw [finding?, hclass, Option.bind_some, category?_name, hid]
  cases hchars : e.id.toList with
  | nil => exact absurd hchars hne
  | cons c cs =>
    change some (Finding.element ⟨String.ofList (c :: cs), e.category,
      label? (Entity.encode (e.label.getD "").toList), {}⟩) = _
    rw [← hchars, String.ofList_toList, label?_encode]
    rfl

theorem isPlainPiece_of_mem (h : ∀ e ∈ es, e.IsRenderable) {piece : List Char}
    (hpiece : piece ∈ es.flatMap fun e => [startPiece e, endPiece]) :
    '<' ∉ piece ∧ IsPlainPiece piece := by
  obtain ⟨e, he, hpiece⟩ := List.mem_flatMap.1 hpiece
  rcases List.mem_pair.1 hpiece with rfl | rfl
  · exact ⟨lt_notMem_startPiece (h e he), isPlainPiece_startPiece e⟩
  · exact ⟨by decide, isPlainPiece_endPiece⟩

theorem elements_render (h : ∀ e ∈ es, e.IsRenderable) :
    elements (render es) = es.map Element.asRead := by
  have hplain (piece : List Char) (hpiece : piece ∈ es.flatMap fun e => [startPiece e, endPiece]) :=
    isPlainPiece_of_mem h hpiece
  rw [elements, findings, render, String.toList_ofList, flatMap_renderElement,
    visible_ofPieces hplain, tags_ofPieces fun piece hpiece => (hplain piece hpiece).1]
  clear hplain
  induction es with
  | nil => rfl
  | cons e es ih =>
    obtain ⟨he, hes⟩ := List.forall_mem_cons.1 h
    have hone : ([startPiece e, endPiece].filterMap Tag.ofPiece?).filterMap finding? =
        [.element e.asRead] := by
      rw [List.filterMap_cons_some (ofPiece?_startPiece he),
        List.filterMap_cons_none ofPiece?_endPiece, List.filterMap_nil,
        List.filterMap_cons_some (finding?_startPiece he), List.filterMap_nil]
    rw [List.flatMap_cons, List.filterMap_append, List.filterMap_append, List.filterMap_append,
      hone, ih hes]
    rfl

theorem toList_elements_read_render (h : ∀ e ∈ es, e.IsRenderable) :
    (read (render es)).elements.toList = es.map Element.asRead := by
  rw [read, Document.toList_ofElements, elements_render h]

theorem marks_read_render (h : ∀ e ∈ es, e.IsRenderable) :
    (read (render es)).marks = es.map Element.mark := by
  rw [Document.marks, toList_elements_read_render h, List.map_map]
  rfl

/-- Reading a rendered page gives back the elements that it was rendered from, each with its label
trimmed, so sessions on the page of an outline and on the text of that page answer alike. -/
theorem rendered_page_reads_back :
    (∀ es : List Element, (∀ e ∈ es, e.IsRenderable) →
      (read (render es)).elements.toList = es.map Element.asRead) ∧
    ∀ (o : Outline) (actions : List Action),
      let t := Session.run { page := o.document } actions
      let t' := Session.run { page := read (render o.document.elements.toList) } actions
      t.view = t'.view ∧
        (∀ key, (t.keyDown key).1 = (t'.keyDown key).1) ∧
        t.lastIndex = t'.lastIndex ∧
        t.page.members = t'.page.members ∧
        ∀ id offset, t.navigate id offset = t'.navigate id offset := by
  refine ⟨fun es h => toList_elements_read_render h, fun o actions => ?_⟩
  have hmarks : o.document.marks = (read (render o.document.elements.toList)).marks :=
    (marks_read_render fun e he => o.isRenderable_of_mem he).symm
  have h : o.document.Reordered (read (render o.document.elements.toList)) :=
    .of_eq hmarks
  have hp : Session.Parallel { page := o.document }
      { page := read (render o.document.elements.toList) } := ⟨h.sameEntries, rfl, rfl, rfl⟩
  have ht := hp.run actions
  have hview := Session.view_eq_of_unstyled o.unstyled_document (unstyled_read _) hp
  exact ⟨Session.view_run_congr h hp (.inl hview), fun _ => rfl, ht.lastIndex,
    ht.entries.members, ht.navigate⟩

theorem rendered_page_reads_back_markupInLabels :
    let es : List Element := [
      ⟨"nav_1", .classEntry, some " a < b &amp; \"c\"\n", {}⟩,
      ⟨"it's id=nav_2", .methodEntry, some "<!-- </div><script>", {}⟩,
      ⟨"nav_1", .memberPanel, some "\u00a0", {}⟩,
      ⟨"list_1", .memberList, none, {}⟩]
    (∀ e ∈ es, e.IsRenderable) ∧
      (read (render es)).elements.toList = [
        ⟨"nav_1", .classEntry, some "a < b &amp; \"c\"", {}⟩,
        ⟨"it's id=nav_2", .methodEntry, some "<!-- </div><script>", {}⟩,
        ⟨"nav_1", .memberPanel, none, {}⟩,
        ⟨"list_1", .memberList, none, {}⟩] := by
  intro es
  have h : ∀ e ∈ es, e.IsRenderable := by decide
  refine ⟨h, (rendered_page_reads_back.1 es h).trans ?_⟩
  decide

end Page

end Sidebar
