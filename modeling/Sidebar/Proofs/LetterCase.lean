import Mathlib.Data.List.Infix
import Sidebar.Text.Blank
import Sidebar.Text.Letter
import Sidebar.Text.Word

namespace Sidebar

theorem mem_map_ofNat {codes : List Nat} {c : Char} (h : c.toNat ∈ codes) :
    c ∈ codes.map Char.ofNat :=
  List.mem_map.2 ⟨_, h, Char.ofNat_toNat c⟩

/-- Lower case is for letters, and they stay letters. -/
theorem toLower_cases (c : Char) :
    c.isAlpha = true ∧ c.toLower.isAlpha = true ∨ c.toLower = c := by
  by_cases hupper : c.val ≥ 'A'.val ∧ c.val ≤ 'Z'.val
  · have hletters :
        ((List.range' 65 26).map Char.ofNat).all fun c => c.isAlpha && c.toLower.isAlpha := by
      decide
    refine .inl (Bool.and_eq_true_iff.1 (List.all_eq_true.1 hletters c (mem_map_ofNat ?_)))
    rw [List.mem_range'_1]
    exact ⟨hupper.1, Nat.lt_succ_of_le hupper.2⟩
  · exact .inr (dif_neg hupper)

theorem toLower_eq_iff {c m : Char} (hm : m.isAlpha = false) : c.toLower = m ↔ c = m := by
  rcases toLower_cases c with ⟨hletter, hlower⟩ | hself
  · refine iff_of_false ?_ ?_
    · rintro rfl
      exact Bool.noConfusion (hlower.symm.trans hm)
    · rintro rfl
      exact Bool.noConfusion (hletter.symm.trans hm)
  · rw [hself]

theorem isAlpha_foldCase_or (c : Char) : (foldCase c).isAlpha = true ∨ foldCase c = c := by
  rw [foldCase]
  split
  next => exact .inl rfl
  next =>
    split
    next => exact .inl rfl
    next => exact (toLower_cases c).imp_left And.right

/-- Whether a character is matched by itself only. -/
def isMark (m : Char) : Bool := !m.isAlpha && foldCase m == m

theorem foldCase_eq_iff_of_isMark {c m : Char} (hm : isMark m = true) :
    foldCase c = m ↔ c = m := by
  rw [isMark, Bool.and_eq_true_iff, Bool.not_eq_true', beq_iff_eq] at hm
  obtain ⟨halpha, hfold⟩ := hm
  constructor
  · rintro rfl
    exact ((isAlpha_foldCase_or c).resolve_left (Bool.eq_false_iff.1 halpha)).symm
  · rintro rfl
    exact hfold

theorem foldCase_of_toLower {c w : Char} (hw : w.isAlpha = true) (h : c.toLower = w) :
    foldCase c = w := by
  have hlong : c ≠ '\u017f' := by
    rintro rfl
    exact absurd (h ▸ hw) (by decide)
  have hkelvin : c ≠ '\u212a' := by
    rintro rfl
    exact absurd (h ▸ hw) (by decide)
  rw [foldCase, if_neg hlong, if_neg hkelvin, h]

theorem isSome_dropWord?_iff {word cs : List Char} :
    (dropWord? word cs).isSome = true ↔ word <+: cs.map foldCase := by
  induction word generalizing cs with
  | nil => simp [dropWord?]
  | cons w word ih =>
    cases cs with
    | nil => simp [dropWord?]
    | cons c cs =>
      rw [dropWord?, List.map_cons, List.cons_prefix_cons]
      split
      next h => simp [h, ih]
      next h => simp [Ne.symm h]

theorem dropWord?_eq_none_iff {word cs : List Char} :
    dropWord? word cs = none ↔ ¬ word <+: cs.map foldCase := by
  rw [← isSome_dropWord?_iff, Option.not_isSome_iff_eq_none]

theorem dropWord?_of_fold {word cs : List Char} (h : cs.map foldCase = word) (rest : List Char) :
    dropWord? word (cs ++ rest) = some rest := by
  subst h
  induction cs with
  | nil => rfl
  | cons c cs ih =>
    rw [List.map_cons, List.cons_append, dropWord?, if_pos rfl]
    exact ih

theorem dropWord?_append (mark word cs : List Char) :
    dropWord? (mark ++ word) cs = (dropWord? mark cs).bind (dropWord? word) := by
  induction mark generalizing cs with
  | nil => rfl
  | cons m mark ih =>
    cases cs with
    | nil => rfl
    | cons c cs =>
      rw [List.cons_append, dropWord?, dropWord?]
      split
      · exact ih cs
      · rfl

theorem not_prefix_append {word other : List Char} (h : ¬ word <+: other)
    (h' : ¬ other <+: word) (more : List Char) : ¬ word <+: other ++ more :=
  fun hprefix =>
    (List.prefix_or_prefix_of_prefix hprefix (List.prefix_append other more)).elim h h'

theorem dropWord?_append_cons {c : Char} {word : List Char} (h : foldCase c ∉ word)
    (cs rest : List Char) :
    dropWord? word (cs ++ c :: rest) = (dropWord? word cs).map (· ++ c :: rest) := by
  induction word generalizing cs with
  | nil => rfl
  | cons w word ih =>
    obtain ⟨hw, hword⟩ := not_or.1 (List.mem_cons.not.1 h)
    cases cs with
    | nil => exact if_neg hw
    | cons c' cs =>
      rw [List.cons_append, dropWord?, dropWord?]
      split
      · exact ih hword cs
      · rfl

theorem suffix_of_dropWord? {word cs rest : List Char} (h : dropWord? word cs = some rest) :
    rest <:+ cs := by
  induction word generalizing cs with
  | nil =>
    cases h
    exact List.suffix_rfl
  | cons w word ih =>
    cases cs with
    | nil => cases h
    | cons c cs =>
      rw [dropWord?] at h
      split at h
      · exact (ih h).trans (List.suffix_cons c cs)
      · cases h

/-- The white space characters. -/
def blanks : List Char :=
  (List.range' 9 5 ++ [0x20, 0x85, 0xA0, 0x1680] ++ List.range' 0x2000 11 ++
    [0x2028, 0x2029, 0x202F, 0x205F, 0x3000]).map Char.ofNat

theorem mem_blanks {c : Char} (h : isBlank c = true) : c ∈ blanks := by
  apply mem_map_ofNat
  simp only [isBlank, Bool.or_eq_true, Bool.and_eq_true, decide_eq_true_eq, beq_iff_eq] at h
  simp only [List.mem_append, List.mem_range'_1, List.mem_cons, List.not_mem_nil, or_false]
  omega

theorem isWordChar_of_isBlank {c : Char} (h : isBlank c = true) : isWordChar c = false := by
  have hall : blanks.all fun c => !isWordChar c := by decide +kernel
  rw [← Bool.not_eq_true']
  exact List.all_eq_true.1 hall c (mem_blanks h)

theorem isAlpha_of_isBlank {c : Char} (h : isBlank c = true) : c.isAlpha = false := by
  have hall : blanks.all fun c => !c.isAlpha := by decide +kernel
  rw [← Bool.not_eq_true']
  exact List.all_eq_true.1 hall c (mem_blanks h)

theorem trimStart_append_cons {c : Char} (h : isBlank c = false) (cs rest : List Char) :
    trimStart (cs ++ c :: rest) = trimStart cs ++ c :: rest := by
  induction cs with
  | nil => exact List.dropWhile_cons_of_neg (by rw [h]; exact Bool.false_ne_true)
  | cons c' cs ih =>
    rw [trimStart, trimStart, List.cons_append, List.dropWhile_cons, List.dropWhile_cons]
    split
    · exact ih
    · rfl

/-- Whether a text has `word`, a word in lower case, in it in any letter case. -/
def Holds (word cs : List Char) : Prop := word <:+: cs.map foldCase

instance (word cs : List Char) : Decidable (Holds word cs) :=
  inferInstanceAs (Decidable (word <:+: cs.map foldCase))

/-- Whether no word but the empty one and the whole is at both ends of `word`. -/
def IsUnbordered (word : List Char) : Prop :=
  ∀ tail ∈ word.tails, tail <+: word → tail = [] ∨ tail = word

instance (word : List Char) : Decidable (IsUnbordered word) :=
  inferInstanceAs (Decidable (∀ tail ∈ word.tails, tail <+: word → tail = [] ∨ tail = word))

/-- A text that does not hold an unbordered word can be closed by that word: no other place where
the word stands begins before its end. -/
theorem not_prefix_of_isUnbordered {word body tail closer : List Char} {c : Char}
    (hword : IsUnbordered word) (hbody : ¬ Holds word body) (hcloser : closer.map foldCase = word)
    (htail : c :: tail <:+ body) (rest : List Char) :
    ¬ word <+: (c :: (tail ++ (closer ++ rest))).map foldCase := by
  rw [← List.cons_append, List.map_append, List.map_append, hcloser]
  intro hprefix
  have htail' : (c :: tail).map foldCase <:+: body.map foldCase := (htail.map foldCase).isInfix
  rcases List.prefix_or_prefix_of_prefix hprefix (List.prefix_append _ _) with h | ⟨after, hafter⟩
  · exact hbody (h.isInfix.trans htail')
  · have hsuffix : after ∈ word.tails := (List.mem_tails _ _).2 ⟨_, hafter⟩
    have hover : after <+: word ++ rest.map foldCase := by
      rwa [← List.prefix_append_right_inj ((c :: tail).map foldCase), hafter]
    have hle : after.length ≤ word.length := ((List.mem_tails _ _).1 hsuffix).length_le
    have hborder : after <+: word :=
      List.prefix_of_prefix_length_le hover (List.prefix_append _ _) hle
    rcases hword after hsuffix hborder with rfl | rfl
    · rw [List.append_nil] at hafter
      exact hbody (hafter ▸ htail')
    · exact List.cons_ne_nil _ _ (List.append_left_eq_self.1 hafter)

end Sidebar
