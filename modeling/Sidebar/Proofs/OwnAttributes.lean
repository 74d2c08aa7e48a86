import Sidebar.Proofs.LetterCase
import Sidebar.Proofs.RenderedPage

namespace Sidebar

namespace Markup

def isQuotedChar (c : Char) : Bool := !(c == '"' || c == '<' || c == '>')

def isNameChar (c : Char) : Bool := isQuotedChar c && !(isBlank c || c == '=')

structure WrittenAttribute where
  name : List Char
  value : List Char
  name_ok : name.all isNameChar = true
  value_ok : value.all isQuotedChar = true

namespace AttributeName

def word : AttributeName → List Char
  | id => "id".toList
  | className => "class".toList

end AttributeName

namespace WrittenAttribute

def chars (a : WrittenAttribute) : List Char :=
  ' ' :: (a.name ++ '=' :: '"' :: (a.value ++ ['"']))

/-- Whether an attribute has the given name in any letter case of ASCII. -/
def IsNamed (a : WrittenAttribute) (n : AttributeName) : Prop := a.name.map Char.toLower = n.word

instance (a : WrittenAttribute) (n : AttributeName) : Decidable (a.IsNamed n) :=
  inferInstanceAs (Decidable (_ = _))

def IsOther (a : WrittenAttribute) : Prop := ∀ n, ¬ a.IsNamed n

end WrittenAttribute

def own? (attrs : List WrittenAttribute) (n : AttributeName) : Option (List Char) :=
  (attrs.find? fun a => a.IsNamed n).map WrittenAttribute.value

def divPiece (attrs : List WrittenAttribute) : List Char :=
  ['d', 'i', 'v'] ++ (attrs.flatMap WrittenAttribute.chars ++ ['>'])

def startTag (attrs : List WrittenAttribute) : String := String.ofList (ofPieces [divPiece attrs])

namespace Attribute

def beginning? (cs : List Char) : Option (AttributeName × List Char) := do
  let (name, rest) ← name? cs
  match trimStart rest with
  | '=' :: rest => some (name, rest)
  | _ => none

/-- Whether the search takes a place in a text for the beginning of an attribute. -/
def tempts : List Char → Bool
  | [] => false
  | c :: cs => isBlank c && (beginning? cs).isSome || tempts cs

theorem read?_eq (cs : List Char) :
    read? cs = (beginning? cs).bind fun (name, rest) =>
      (value? (trimStart rest)).map fun (value, after) => (⟨name, value⟩, after) := by
  rw [read?, beginning?]
  cases name? cs with
  | none => rfl
  | some found =>
    obtain ⟨name, rest⟩ := found
    simp only [Option.bind_eq_bind, Option.bind_some]
    cases trimStart rest with
    | nil => rfl
    | cons c cs =>
      by_cases hc : c = '='
      · subst hc
        exact Option.map_eq_bind.symm
      · simp [hc]

theorem name?_append_quote (cs rest : List Char) :
    name? (cs ++ '"' :: rest) =
      (name? cs).map fun (name, after) => (name, after ++ '"' :: rest) := by
  rw [name?, name?, dropWord?_append_cons (by decide), dropWord?_append_cons (by decide)]
  cases dropWord? "id".toList cs <;> cases dropWord? "class".toList cs <;> rfl

theorem beginning?_append_quote (cs rest : List Char) :
    beginning? (cs ++ '"' :: rest) =
      (beginning? cs).map fun (name, after) => (name, after ++ '"' :: rest) := by
  rw [beginning?, beginning?, name?_append_quote]
  cases name? cs with
  | none => rfl
  | some found =>
    obtain ⟨name, after⟩ := found
    simp only [Option.bind_eq_bind, Option.map_some, Option.bind_some]
    rw [trimStart_append_cons (by decide)]
    cases trimStart after with
    | nil => rfl
    | cons c cs =>
      by_cases hc : c = '='
      · subst hc
        rfl
      · simp [hc]

theorem read?_append_quote_eq_none {cs : List Char} (h : (beginning? cs).isSome = false)
    (rest : List Char) : read? (cs ++ '"' :: rest) = none := by
  have hnone : beginning? cs = none := Option.isNone_iff_eq_none.1 (Option.isSome_eq_false_iff.1 h)
  rw [read?_eq, beginning?_append_quote, hnone]
  rfl

theorem scan_append_of_not_tempts {cs : List Char} (h : tempts cs = false) (rest : List Char) :
    scan (cs ++ '"' :: rest) = scan rest := by
  induction cs with
  | nil =>
    apply scan_cons_of_none
    intro hblank
    exact absurd hblank (by decide)
  | cons c cs ih =>
    obtain ⟨hfirst, hcs⟩ := Bool.or_eq_false_iff.1 h
    have hnone (hblank : isBlank c = true) : read? (cs ++ '"' :: rest) = none := by
      rw [hblank, Bool.true_and] at hfirst
      exact read?_append_quote_eq_none hfirst rest
    rw [List.cons_append, scan_cons_of_none hnone, ih hcs]

theorem tempts_of_no_blank {cs : List Char} (h : ∀ c ∈ cs, isBlank c = false) :
    tempts cs = false := by
  induction cs with
  | nil => rfl
  | cons c cs ih =>
    obtain ⟨hc, hcs⟩ := List.forall_mem_cons.1 h
    rw [tempts, hc, ih hcs, Bool.false_and, Bool.false_or]

theorem suffix_of_beginning? {cs rest : List Char} {n : AttributeName}
    (h : beginning? cs = some (n, rest)) : '=' :: rest <:+ cs := by
  simp only [beginning?, Option.bind_eq_bind, Option.bind_eq_some_iff] at h
  obtain ⟨⟨name, after⟩, hname, h⟩ := h
  have hafter : after <:+ cs := by
    simp only [name?, Option.orElse_eq_orElse, Option.orElse_eq_or] at hname
    rcases Option.or_eq_some_iff.1 hname with hname | ⟨_, hname⟩ <;>
    · obtain ⟨r, hr, he⟩ := Option.map_eq_some_iff.1 hname
      cases he
      exact suffix_of_dropWord? hr
  split at h
  next rest' heq =>
    cases h
    rw [← heq]
    exact (List.dropWhile_suffix _).trans hafter
  next => cases h

theorem read?_of_beginning? {cs rest : List Char} {n : AttributeName}
    (h : beginning? cs = some (n, rest)) (more : List Char) :
    read? (cs ++ '"' :: more) =
      (value? (trimStart (rest ++ '"' :: more))).map fun (value, after) => (⟨n, value⟩, after) := by
  rw [read?_eq, beginning?_append_quote, h]
  rfl

/-- What an attribute begins with that holds an id with an apostrophe in front. -/
def idOpening : List Char := " id=\"'".toList

theorem takeWhile_append_quote (cs rest : List Char) :
    (cs ++ '"' :: rest).takeWhile isBare = cs.takeWhile isBare := by
  induction cs with
  | nil => rfl
  | cons c cs ih => rw [List.cons_append, List.takeWhile_cons, List.takeWhile_cons, ih]

theorem exists_cut?_apostrophe (cs : List Char) :
    ∃ value, '\'' ∉ value ∧ ∀ more, ∃ after,
      cut? '\'' (cs ++ '"' :: (idOpening ++ more)) = some (value, after) := by
  by_cases hcs : '\'' ∈ cs
  · obtain ⟨value, after, rfl, hvalue⟩ := List.eq_append_cons_of_mem hcs
    refine ⟨value, hvalue, fun more => ⟨after ++ '"' :: (idOpening ++ more), ?_⟩⟩
    rw [List.append_assoc, List.cons_append, cut?_append hvalue]
  · have hvalue : '\'' ∉ cs ++ "\" id=\"".toList := by simp [hcs]
    refine ⟨_, hvalue, fun more => ⟨more, ?_⟩⟩
    rw [← cut?_append hvalue more, List.append_assoc]
    rfl

/-- The value that is read behind a text with an equals sign does not depend on what comes after the
apostrophe of the id that follows. -/
theorem exists_value {cs : List Char} (hquote : '"' ∉ cs) (hgt : '>' ∉ cs) :
    ∃ value, '\'' ∉ value ∧ ∀ more, ∃ after,
      value? (trimStart (cs ++ '"' :: (idOpening ++ more))) = some (value, after) := by
  have htrim (more : List Char) : trimStart (cs ++ '"' :: more) = trimStart cs ++ '"' :: more :=
    trimStart_append_cons (by decide) cs more
  simp only [htrim]
  cases hcs : trimStart cs with
  | nil =>
    refine ⟨" id=".toList, by decide, fun more => ⟨'\'' :: more, ?_⟩⟩
    rfl
  | cons c rest =>
    have hmem : c ∈ cs := (List.dropWhile_sublist _).subset (hcs ▸ List.mem_cons_self)
    have hblank : isBlank c = false := by
      have hhead := List.head?_dropWhile_not isBlank cs
      rw [← trimStart, hcs] at hhead
      simpa using hhead
    by_cases hc : c = '\''
    · subst hc
      obtain ⟨value, hvalue, hcut⟩ := exists_cut?_apostrophe rest
      refine ⟨value, hvalue, fun more => ?_⟩
      obtain ⟨after, hafter⟩ := hcut more
      exact ⟨after, hafter⟩
    · have hq : c ≠ '"' := fun h => hquote (h ▸ hmem)
      have hbare : isBare c = true := by
        have hgt : c ≠ '>' := fun h => hgt (h ▸ hmem)
        simp [isBare, hblank, hc, hq, hgt]
      have hvalue : '\'' ∉ (c :: rest).takeWhile isBare := by
        intro h
        exact absurd (List.all_eq_true.1 List.all_takeWhile _ h) (by decide)
      refine ⟨_, hvalue, fun more => ?_⟩
      rw [← takeWhile_append_quote (c :: rest) (idOpening ++ more), List.cons_append, value?,
        if_neg (by simp [hc, hq]), if_pos hbare]
      exact ⟨_, rfl⟩

/-- A text that tempts the search yields an attribute, whatever comes after the id behind it. -/
theorem exists_scan_of_tempts {cs : List Char} (hquote : '"' ∉ cs) (hgt : '>' ∉ cs)
    (h : tempts cs = true) :
    ∃ n value, '\'' ∉ value ∧ ∀ more, ∃ found,
      scan (cs ++ '"' :: (idOpening ++ more)) = ⟨n, value⟩ :: found := by
  induction cs with
  | nil => cases h
  | cons c cs ih =>
    obtain ⟨-, hquote⟩ := not_or.1 (List.mem_cons.not.1 hquote)
    obtain ⟨-, hgt⟩ := not_or.1 (List.mem_cons.not.1 hgt)
    cases hfirst : isBlank c && (beginning? cs).isSome with
    | true =>
      obtain ⟨hblank, hsome⟩ := Bool.and_eq_true_iff.1 hfirst
      obtain ⟨⟨n, rest⟩, hbeginning⟩ := Option.isSome_iff_exists.1 hsome
      have hsuffix := suffix_of_beginning? hbeginning
      have hrest : rest ⊆ cs := fun _ h => hsuffix.subset (List.mem_cons_of_mem _ h)
      obtain ⟨value, hvalue, hread⟩ :=
        exists_value (fun h => hquote (hrest h)) (fun h => hgt (hrest h))
      refine ⟨n, value, hvalue, fun more => ?_⟩
      obtain ⟨after, hafter⟩ := hread more
      have hread : read? (cs ++ '"' :: (idOpening ++ more)) = some (⟨n, value⟩, after) := by
        rw [read?_of_beginning? hbeginning, hafter, Option.map_some]
      exact ⟨_, scan_cons_of_some hblank hread⟩
    | false =>
      rw [tempts, hfirst, Bool.false_or] at h
      obtain ⟨n, value, hvalue, hscan⟩ := ih hquote hgt h
      refine ⟨n, value, hvalue, fun more => ?_⟩
      have hnone (hblank : isBlank c = true) :
          read? (cs ++ '"' :: (idOpening ++ more)) = none := by
        rw [hblank, Bool.true_and] at hfirst
        exact read?_append_quote_eq_none hfirst _
      rw [List.cons_append, scan_cons_of_none hnone]
      exact hscan more

end Attribute

namespace WrittenAttribute

open Attribute

variable {a : WrittenAttribute} {n : AttributeName}

/-- Whether the search takes a place within an attribute for the beginning of one. -/
def Misleads (a : WrittenAttribute) : Prop :=
  tempts (' ' :: (a.name ++ ['='])) = true ∨ tempts a.value = true

instance (a : WrittenAttribute) : Decidable a.Misleads := inferInstanceAs (Decidable (_ ∨ _))

/-- Which of the attributes that are looked for an attribute is. -/
def kind? (a : WrittenAttribute) : Option AttributeName :=
  if a.IsNamed .id then some .id else if a.IsNamed .className then some .className else none

theorem kind?_eq_some_iff : a.kind? = some n ↔ a.IsNamed n := by
  rw [kind?]
  by_cases hid : a.IsNamed .id
  · have hclass : ¬ a.IsNamed .className := fun h => absurd (hid.symm.trans h) (by decide)
    cases n <;> simp [hid, hclass]
  · by_cases hclass : a.IsNamed .className <;> cases n <;> simp [hid, hclass]

theorem kind?_eq_none_iff : a.kind? = none ↔ a.IsOther := by
  simp only [Option.eq_none_iff_forall_ne_some, IsOther, ne_eq, kind?_eq_some_iff]

theorem IsNamed.fold_name (h : a.IsNamed n) : a.name.map foldCase = n.word := by
  have hletters : n.word.all Char.isAlpha := by cases n <;> decide
  rw [← h] at hletters ⊢
  apply List.map_congr_left
  intro c hc
  exact foldCase_of_toLower (List.all_eq_true.1 hletters _ (List.mem_map_of_mem hc)) rfl

theorem IsNamed.name? (h : a.IsNamed n) (cs : List Char) :
    Attribute.name? (a.name ++ '=' :: cs) = some (n, '=' :: cs) := by
  have hword := dropWord?_of_fold h.fold_name ('=' :: cs)
  rw [Attribute.name?]
  cases n with
  | id =>
    change (Option.map _ (dropWord? AttributeName.id.word _) <|> _) = _
    rw [hword]
    rfl
  | className =>
    have hid : dropWord? "id".toList (a.name ++ '=' :: cs) = none := by
      rw [dropWord?_eq_none_iff, List.map_append, h.fold_name]
      exact not_prefix_append (by decide) (by decide) _
    rw [hid]
    change (none <|> Option.map _ (dropWord? AttributeName.className.word _)) = _
    rw [hword]
    rfl

theorem notMem_value {c : Char} (hc : isQuotedChar c = false) : c ∉ a.value :=
  fun h => Bool.eq_false_iff.1 hc (List.all_eq_true.1 a.value_ok c h)

theorem notMem_name {c : Char} (hc : isNameChar c = false) : c ∉ a.name :=
  fun h => Bool.eq_false_iff.1 hc (List.all_eq_true.1 a.name_ok c h)

theorem quote_notMem (a : WrittenAttribute) : '"' ∉ a.value := notMem_value rfl

theorem scan_of_isNamed (h : a.IsNamed n) (rest : List Char) :
    scan (a.chars ++ rest) = ⟨n, a.value⟩ :: scan rest := by
  have hchars : a.chars ++ rest =
      ' ' :: (a.name ++ '=' :: '"' :: (a.value ++ '"' :: rest)) := by
    simp only [chars, List.cons_append, List.append_assoc, List.nil_append]
  rw [hchars, scan_quoted h.name? a.quote_notMem]

theorem chars_append (a : WrittenAttribute) (rest : List Char) :
    a.chars ++ rest = (' ' :: (a.name ++ ['='])) ++ '"' :: (a.value ++ '"' :: rest) := by
  simp only [chars, List.cons_append, List.append_assoc, List.nil_append]

theorem scan_of_not_misleads (h : ¬ a.Misleads) (rest : List Char) :
    scan (a.chars ++ rest) = scan rest := by
  obtain ⟨hname, hvalue⟩ := not_or.1 h
  rw [chars_append, scan_append_of_not_tempts (Bool.eq_false_of_not_eq_true hname),
    scan_append_of_not_tempts (Bool.eq_false_of_not_eq_true hvalue)]

variable {attrs : List WrittenAttribute}

theorem scan_flatMap_chars (h : ∀ a ∈ attrs, a.IsOther → ¬ a.Misleads) :
    scan (attrs.flatMap chars) =
      attrs.filterMap fun a => a.kind?.map fun n => ⟨n, a.value⟩ := by
  induction attrs with
  | nil => rw [List.flatMap_nil, scan.eq_def, List.filterMap_nil]
  | cons a attrs ih =>
    obtain ⟨ha, hattrs⟩ := List.forall_mem_cons.1 h
    rw [List.flatMap_cons, List.filterMap_cons]
    cases hkind : a.kind? with
    | none =>
      rw [scan_of_not_misleads (ha (kind?_eq_none_iff.1 hkind)), ih hattrs]
      rfl
    | some n =>
      rw [scan_of_isNamed (kind?_eq_some_iff.1 hkind), ih hattrs]
      rfl

theorem own?_cons (a : WrittenAttribute) (attrs : List WrittenAttribute) (n : AttributeName) :
    own? (a :: attrs) n = if a.kind? = some n then some a.value else own? attrs n := by
  rw [own?, own?, List.find?_cons]
  simp only [kind?_eq_some_iff]
  by_cases h : a.IsNamed n <;> simp [h]

theorem find?_filterMap_kind? (attrs : List WrittenAttribute) (n : AttributeName) :
    ((attrs.filterMap fun a => a.kind?.map fun n => (⟨n, a.value⟩ : Attribute)).find?
      fun a => a.name = n).map Attribute.value = own? attrs n := by
  induction attrs with
  | nil => rfl
  | cons a attrs ih =>
    rw [List.filterMap_cons, own?_cons]
    cases a.kind? with
    | none => simpa using ih
    | some m =>
      by_cases hm : m = n
      · simp [hm]
      · simpa [hm] using ih

theorem notMem_chars {c : Char} (hc : c = '<' ∨ c = '>') : c ∉ a.chars := by
  have hname : c ∉ a.name := by
    rcases hc with rfl | rfl <;> exact notMem_name rfl
  have hvalue : c ∉ a.value := by
    rcases hc with rfl | rfl <;> exact notMem_value rfl
  rcases hc with rfl | rfl <;> simp [chars, hname, hvalue]

theorem notMem_flatMap_chars {c : Char} (hc : c = '<' ∨ c = '>') : c ∉ attrs.flatMap chars := by
  intro hmem
  obtain ⟨a, -, ha⟩ := List.mem_flatMap.1 hmem
  exact notMem_chars hc ha

theorem getLast?_flatMap_chars (a : WrittenAttribute) (attrs : List WrittenAttribute) :
    ((a :: attrs).flatMap chars).getLast? = some '"' := by
  induction attrs generalizing a with
  | nil => simp [chars, List.getLast?_cons, List.getLast?_append]
  | cons a' attrs ih => rw [List.flatMap_cons, List.getLast?_append, ih, Option.some_or]

theorem exists_scan_of_tempts_name (h : tempts (' ' :: (a.name ++ ['='])) = true) :
    ∃ n, ∀ rest, scan (a.chars ++ rest) = ⟨n, a.value⟩ :: scan rest := by
  have hblank : ∀ c ∈ a.name ++ ['='], isBlank c = false := by
    rw [List.forall_mem_append, List.forall_mem_singleton]
    refine ⟨fun c hc => ?_, by decide⟩
    have hname := List.all_eq_true.1 a.name_ok c hc
    simp only [isNameChar, Bool.and_eq_true, Bool.not_eq_true', Bool.or_eq_false_iff] at hname
    exact hname.2.1
  rw [tempts, tempts_of_no_blank hblank, Bool.or_false, Bool.and_eq_true_iff] at h
  obtain ⟨⟨n, after⟩, hbeginning⟩ := Option.isSome_iff_exists.1 h.2
  have hafter : after = [] := by
    obtain ⟨before, hbefore⟩ := suffix_of_beginning? hbeginning
    rcases List.eq_nil_or_concat after with hnil | ⟨after, c, rfl⟩
    · exact hnil
    · rw [List.concat_eq_append, ← List.cons_append, ← List.append_assoc] at hbefore
      have hname := (List.append_inj' hbefore rfl).1
      have hmem : '=' ∈ a.name := by simp [← hname]
      exact absurd hmem (notMem_name rfl)
  subst hafter
  refine ⟨n, fun rest => ?_⟩
  have hvalue : value? ('"' :: (a.value ++ '"' :: rest)) = some (a.value, rest) :=
    cut?_append a.quote_notMem rest
  have hread : read? (a.name ++ ['='] ++ '"' :: (a.value ++ '"' :: rest)) =
      some (⟨n, a.value⟩, rest) := by
    rw [read?_of_beginning? hbeginning]
    exact congrArg (Option.map _) hvalue
  rw [chars_append]
  exact scan_cons_of_some (by decide) hread

def foreignId (a : WrittenAttribute) : WrittenAttribute where
  name := "id".toList
  value := '\'' :: a.value
  name_ok := by decide
  value_ok := a.value_ok

def ofCategory (k : Category) : WrittenAttribute where
  name := "class".toList
  value := k.name.toList
  name_ok := by decide
  value_ok := by cases k <;> decide

theorem foreignId_chars_append (a : WrittenAttribute) (rest : List Char) :
    a.foreignId.chars ++ rest = idOpening ++ (a.value ++ '"' :: rest) := by
  rw [chars_append]
  rfl

theorem kind?_foreignId (a : WrittenAttribute) : a.foreignId.kind? = some .id := rfl

theorem kind?_ofCategory (k : Category) : (ofCategory k).kind? = some .className := rfl

theorem exists_scan_of_misleads (h : a.Misleads) :
    ∃ n value, value ≠ a.foreignId.value ∧ ∀ rest, ∃ found,
      scan (a.chars ++ (a.foreignId.chars ++ rest)) = ⟨n, value⟩ :: found := by
  cases hname : tempts (' ' :: (a.name ++ ['='])) with
  | true =>
    obtain ⟨n, hscan⟩ := exists_scan_of_tempts_name hname
    exact ⟨n, a.value, (List.cons_ne_self _ _).symm, fun rest => ⟨_, hscan _⟩⟩
  | false =>
    have hgt : '>' ∉ a.value := notMem_value rfl
    obtain ⟨n, value, hvalue, hscan⟩ :=
      exists_scan_of_tempts a.quote_notMem hgt (h.resolve_left (by simp [hname]))
    refine ⟨n, value, ?_, fun rest => ?_⟩
    · rintro rfl
      exact hvalue List.mem_cons_self
    · rw [chars_append, scan_append_of_not_tempts hname]
      rw [foreignId_chars_append]
      exact hscan _

end WrittenAttribute

end Markup

namespace Page

open Markup

/-- The element of a tag without content, from the values of its attributes. -/
def elementOf? (classes id : Option (List Char)) : Option Element := do
  let category ← classes.bind category?
  let id ← id
  if id = [] then none else some { id := String.ofList id, category }

/-- The element that a tag's own attributes call for. -/
def owned? (attrs : List WrittenAttribute) : Option Element :=
  elementOf? (own? attrs .className) (own? attrs .id)

theorem element?_finding? (t : Tag) (h : t.content = []) :
    (finding? t).bind Finding.element? =
      elementOf? (t.attribute? .className) (t.attribute? .id) := by
  have hlabel : label? t.content = none := by
    rw [h]
    decide +kernel
  rw [finding?, elementOf?]
  cases (t.attribute? .className).bind category? with
  | none => rfl
  | some k =>
    simp only [Option.bind_eq_bind, Option.bind_some, hlabel]
    rcases t.attribute? .id with _ | _ | ⟨c, cs⟩
    · rfl
    · rfl
    · rfl

theorem ofPiece?_divPiece_cons (a : WrittenAttribute) (attrs : List WrittenAttribute) :
    Tag.ofPiece? (divPiece (a :: attrs)) =
      some ⟨(a :: attrs).flatMap WrittenAttribute.chars, []⟩ := by
  have hgt : '>' ∉ (a :: attrs).flatMap WrittenAttribute.chars :=
    WrittenAttribute.notMem_flatMap_chars (.inr rfl)
  have hslash : dropFinalSlash ((a :: attrs).flatMap WrittenAttribute.chars) =
      (a :: attrs).flatMap WrittenAttribute.chars := by
    rw [dropFinalSlash, WrittenAttribute.getLast?_flatMap_chars]
    rfl
  change (cut? '>' ((a :: attrs).flatMap WrittenAttribute.chars ++ ['>'])).map
    (fun found => (⟨dropFinalSlash found.1, found.2⟩ : Tag)) = _
  rw [cut?_append hgt, Option.map_some, hslash]

theorem elements_startTag (attrs : List WrittenAttribute) :
    (read (startTag attrs)).elements.toList =
      (elementOf? (Tag.attribute? ⟨attrs.flatMap WrittenAttribute.chars, []⟩ .className)
        (Tag.attribute? ⟨attrs.flatMap WrittenAttribute.chars, []⟩ .id)).toList := by
  have hlt : '<' ∉ attrs.flatMap WrittenAttribute.chars :=
    WrittenAttribute.notMem_flatMap_chars (.inl rfl)
  have hpiece : '<' ∉ divPiece attrs := by simp [divPiece, hlt]
  have hplain : IsPlainPiece (divPiece attrs) := ⟨'d', _, rfl, by decide, by decide⟩
  rw [read, Document.toList_ofElements, elements, findings, startTag, String.toList_ofList,
    visible_ofPieces (List.forall_mem_singleton.2 ⟨hpiece, hplain⟩),
    tags_ofPieces (List.forall_mem_singleton.2 hpiece)]
  cases attrs with
  | nil =>
    have hnone : Tag.attribute? ⟨[], []⟩ .className = none := by
      rw [Tag.attribute?, Attribute.scan.eq_def]
      rfl
    rw [List.flatMap_nil, hnone]
    rfl
  | cons a attrs =>
    rw [← element?_finding? _ rfl, List.filterMap_cons_some (ofPiece?_divPiece_cons a attrs),
      List.filterMap_nil, List.filterMap_cons]
    cases finding? ⟨(a :: attrs).flatMap WrittenAttribute.chars, []⟩ with
    | none => rfl
    | some f => cases f <;> rfl

theorem elementOf?_eq_some {classes id : Option (List Char)} {e : Element}
    (h : elementOf? classes id = some e) :
    classes.bind category? = some e.category ∧ id = some e.id.toList := by
  simp only [elementOf?, Option.bind_eq_bind, Option.bind_eq_some_iff,
    Option.ite_none_left_eq_some, Option.some.injEq] at h
  obtain ⟨k, hk, cs, rfl, -, rfl⟩ := h
  exact ⟨Option.bind_eq_some_iff.2 hk, congrArg some String.toList_ofList.symm⟩

theorem owned?_foreignId {a : WrittenAttribute} (h : a.IsOther) (k : Category) :
    owned? [a, a.foreignId, .ofCategory k] =
      some { id := String.ofList a.foreignId.value, category := k } := by
  have hkind := WrittenAttribute.kind?_eq_none_iff.2 h
  have hclass : own? [a, a.foreignId, .ofCategory k] .className = some k.name.toList := by
    simp only [WrittenAttribute.own?_cons, hkind, WrittenAttribute.kind?_foreignId,
      WrittenAttribute.kind?_ofCategory, Option.some.injEq, reduceCtorEq, if_false, if_true]
    rfl
  have hid : own? [a, a.foreignId, .ofCategory k] .id = some a.foreignId.value := by
    simp only [WrittenAttribute.own?_cons, hkind, WrittenAttribute.kind?_foreignId, reduceCtorEq,
      if_false, if_true]
  rw [owned?, hclass, hid, elementOf?, Option.bind_some, category?_name]
  rfl

theorem exists_misread {a : WrittenAttribute} (hother : a.IsOther) (h : a.Misleads) :
    ∃ k, (read (startTag [a, a.foreignId, .ofCategory k])).elements.toList ≠
      (owned? [a, a.foreignId, .ofCategory k]).toList := by
  obtain ⟨n, value, hvalue, hscan⟩ := a.exists_scan_of_misleads h
  have hcategory : ∃ k, category? value ≠ some k := by
    by_cases hclass : category? value = some .classEntry
    · exact ⟨.methodEntry, by simp [hclass]⟩
    · exact ⟨.classEntry, hclass⟩
  obtain ⟨k, hk⟩ := hcategory
  refine ⟨k, fun heq => ?_⟩
  obtain ⟨found, hfound⟩ := hscan (WrittenAttribute.ofCategory k).chars
  have hscan : Attribute.scan
      ([a, a.foreignId, .ofCategory k].flatMap WrittenAttribute.chars) = ⟨n, value⟩ :: found := by
    rw [← hfound]
    simp only [List.flatMap_cons, List.flatMap_nil, List.append_nil]
  have hfirst : Tag.attribute?
      ⟨[a, a.foreignId, .ofCategory k].flatMap WrittenAttribute.chars, []⟩ n = some value := by
    rw [Tag.attribute?, hscan, List.find?_cons_of_pos (by simp), Option.map_some]
  rw [owned?_foreignId hother, elements_startTag] at heq
  obtain ⟨hclass, hid⟩ := elementOf?_eq_some (Option.toList_eq_singleton_iff.1 heq)
  cases n with
  | id =>
    rw [hfirst] at hid
    exact hvalue ((Option.some.inj hid).trans String.toList_ofList)
  | className =>
    rw [hfirst, Option.bind_some] at hclass
    exact hk hclass

/-- Let `p` tell which attributes may stand in a tag beside `id` and `class`. All such tags are read
from their own `id` and `class` just when no attribute that `p` lets in misleads the search. -/
theorem reads_own_attributes_iff (p : WrittenAttribute → Prop) :
    (∀ attrs : List WrittenAttribute, (∀ a ∈ attrs, a.IsOther → p a) →
      (read (startTag attrs)).elements.toList = (owned? attrs).toList) ↔
      ∀ a : WrittenAttribute, a.IsOther → p a → ¬ a.Misleads := by
  constructor
  · intro h a hother hp hmisleads
    obtain ⟨k, hmisread⟩ := exists_misread hother hmisleads
    refine hmisread (h _ ?_)
    have hnotOther {b : WrittenAttribute} {n : AttributeName} (hb : b.kind? = some n)
        (hother : b.IsOther) : p b :=
      absurd (WrittenAttribute.kind?_eq_some_iff.1 hb) (hother n)
    simp only [List.forall_mem_cons]
    exact ⟨fun _ => hp, hnotOther a.kind?_foreignId,
      hnotOther (WrittenAttribute.kind?_ofCategory k), by simp⟩
  · intro h attrs hattrs
    have hother : ∀ a ∈ attrs, a.IsOther → ¬ a.Misleads :=
      fun a ha hother => h a hother (hattrs a ha hother)
    rw [elements_startTag, owned?, Tag.attribute?, Tag.attribute?,
      WrittenAttribute.scan_flatMap_chars hother, WrittenAttribute.find?_filterMap_kind?,
      WrittenAttribute.find?_filterMap_kind?]

/-- A title that quotes an id is taken for it. -/
theorem reads_own_attributes_titleNamesId :
    let attrs : List WrittenAttribute := [
      ⟨"title".toList, "see id=nav_9".toList, by decide, by decide⟩,
      ⟨"class".toList, "navclass".toList, by decide, by decide⟩,
      ⟨"id".toList, "nav_1".toList, by decide, by decide⟩]
    startTag attrs = "<div title=\"see id=nav_9\" class=\"navclass\" id=\"nav_1\">" ∧
      (owned? attrs).toList = [⟨"nav_1", .classEntry, none, {}⟩] ∧
      (read (startTag attrs)).elements.toList = [⟨"nav_9", .classEntry, none, {}⟩] ∧
      (read (startTag attrs)).elements.toList ≠ (owned? attrs).toList := by
  intro attrs
  have htag : startTag attrs =
      "<div title=\"see id=nav_9\" class=\"navclass\" id=\"nav_1\">" := by
    decide
  have howned : (owned? attrs).toList = [⟨"nav_1", .classEntry, none, {}⟩] := by decide
  have hread : (read (startTag attrs)).elements.toList = [⟨"nav_9", .classEntry, none, {}⟩] := by
    rw [htag, read, Document.toList_ofElements]
    decide +kernel
  refine ⟨htag, howned, hread, ?_⟩
  rw [howned, hread]
  decide

end Page

end Sidebar
