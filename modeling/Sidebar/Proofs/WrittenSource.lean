import Sidebar.Proofs.QuotedText
import Sidebar.Toml.Source

namespace Sidebar.Toml

/-- Whether a text can be a key as it is. -/
def IsBareKey (key : List Char) : Prop := key ≠ [] ∧ key.all isBareKeyChar = true

instance (key : List Char) : Decidable (IsBareKey key) :=
  inferInstanceAs (Decidable (key ≠ [] ∧ key.all isBareKeyChar = true))

/-- What a line gives its key. -/
inductive Content where
  | text (s : String)
  | noItems

/-- A line of a table. -/
structure Line where
  key : String
  content : Content

def Content.value : Content → Value
  | text s => .string s
  | noItems => .array []

def Content.write : Content → List Char
  | text s => Quoted.write s.toList
  | noItems => ['[', ']']

namespace Line

def pair (l : Line) : Pair := ⟨[], l.key, l.content.value⟩

def write (l : Line) : List Char :=
  l.key.toList ++ ' ' :: '=' :: ' ' :: (l.content.write ++ ['\n'])

end Line

variable {key rest : List Char} {l : Line} {fuel : Nat}

theorem IsBareKey.exists_cons (h : IsBareKey key) :
    ∃ c cs, key = c :: cs ∧ isBareKeyChar c = true := by
  obtain ⟨hne, hall⟩ := h
  cases key with
  | nil => exact absurd rfl hne
  | cons c cs => exact ⟨c, cs, rfl, List.all_eq_true.1 hall c (.head _)⟩

theorem ne_of_isBareKeyChar {c d : Char} (h : isBareKeyChar c = true)
    (hd : isBareKeyChar d = false) : c ≠ d := by
  rintro rfl
  exact Bool.noConfusion (h.symm.trans hd)

theorem keyPart?_append (h : IsBareKey key) (hrest : (rest.head?.any isBareKeyChar) = false) :
    keyPart? (key ++ rest) = some (String.ofList key, rest) := by
  obtain ⟨c, cs, rfl, hc⟩ := h.exists_cons
  have hline : Quoted.line? (c :: cs ++ rest) = none := by
    unfold Quoted.line?
    split
    next heq =>
      cases heq
      exact absurd hc (by decide)
    next heq =>
      cases heq
      exact absurd hc (by decide)
    next => rfl
  have htake : rest.takeWhile isBareKeyChar = [] := by
    cases rest with
    | nil => rfl
    | cons d rest => exact List.takeWhile_cons_of_neg (by simpa using hrest)
  have hdrop : rest.dropWhile isBareKeyChar = rest := by
    cases rest with
    | nil => rfl
    | cons d rest => exact List.dropWhile_cons_of_neg (by simpa using hrest)
  have htakeAll : (c :: cs ++ rest).takeWhile isBareKeyChar = c :: cs := by
    rw [List.takeWhile_append_of_pos (List.all_eq_true.1 h.2), htake, List.append_nil]
  have hdropAll : (c :: cs ++ rest).dropWhile isBareKeyChar = rest := by
    rw [List.dropWhile_append_of_pos (List.all_eq_true.1 h.2), hdrop]
  rw [keyPart?, hline, htakeAll, hdropAll]
  rfl

theorem isSpace_eq_false {c : Char} (h : isBareKeyChar c = true) : isSpace c = false := by
  rw [isSpace, Bool.or_eq_false_iff, beq_eq_false_iff_ne, beq_eq_false_iff_ne]
  exact ⟨ne_of_isBareKeyChar h rfl, ne_of_isBareKeyChar h rfl⟩

theorem dropSpaces_append (h : IsBareKey key) : dropSpaces (key ++ rest) = key ++ rest := by
  obtain ⟨c, cs, rfl, hc⟩ := h.exists_cons
  exact List.dropWhile_cons_of_neg (by rw [isSpace_eq_false hc]; exact Bool.false_ne_true)

theorem dropGap_append (h : IsBareKey key) : dropGap false (key ++ rest) = key ++ rest := by
  obtain ⟨c, cs, rfl, hc⟩ := h.exists_cons
  have hreturn : c ≠ '\r' := ne_of_isBareKeyChar hc rfl
  rw [List.cons_append, dropGap, if_neg Bool.false_ne_true, if_neg (ne_of_isBareKeyChar hc rfl),
    if_neg (by rw [isSpace_eq_false hc]; exact Bool.false_ne_true)]
  · exact ne_of_isBareKeyChar hc rfl
  · exact fun _ heq => absurd heq hreturn

/-- A key whose parts are written as they are, up to the last part. -/
def writePath (path : List String) : List Char := path.flatMap fun part => part.toList ++ ['.']

theorem dropSpaces_writePath {path : List String} {last : String}
    (hpath : ∀ part ∈ path, IsBareKey part.toList) (hlast : IsBareKey last.toList)
    (rest : List Char) :
    dropSpaces (writePath path ++ (last.toList ++ rest)) =
      writePath path ++ (last.toList ++ rest) := by
  cases path with
  | nil =>
    change dropSpaces (last.toList ++ rest) = last.toList ++ rest
    exact dropSpaces_append hlast
  | cons part path =>
    rw [writePath, List.flatMap_cons, List.append_assoc, List.append_assoc]
    exact dropSpaces_append (hpath part (.head _))

theorem key?_append {key : String} {parts : Nat} (hkey : IsBareKey key.toList)
    (hrest : (rest.head?.any isBareKeyChar) = false) (hdot : (dropSpaces rest).head? ≠ some '.') :
    key? (parts + 1) (key.toList ++ rest) = some (([], key), dropSpaces rest) := by
  rw [key?, keyPart?_append hkey hrest, String.ofList_toList, Option.bind_eq_bind,
    Option.bind_some]
  dsimp only
  split
  next heq =>
    rw [heq] at hdot
    exact absurd rfl hdot
  next => rfl

theorem key?_append_dot {part key : String} {path : List String} {after : List Char} {parts : Nat}
    (hpart : IsBareKey part.toList)
    (hrest : key? parts (dropSpaces rest) = some ((path, key), after)) :
    key? (parts + 1) (part.toList ++ '.' :: rest) = some ((part :: path, key), after) := by
  have hread : keyPart? (part.toList ++ '.' :: rest) =
      some (String.ofList part.toList, '.' :: rest) := keyPart?_append hpart rfl
  rw [key?, hread, String.ofList_toList]
  change (key? parts (dropSpaces rest)).bind
    (fun found => some ((part :: found.1.1, found.1.2), found.2)) = _
  rw [hrest]
  rfl

theorem key?_writePath {path : List String} {last : String} {parts : Nat}
    (hpath : ∀ part ∈ path, IsBareKey part.toList) (hlast : IsBareKey last.toList)
    (hparts : path.length < parts) (hrest : (rest.head?.any isBareKeyChar) = false)
    (hdot : (dropSpaces rest).head? ≠ some '.') :
    key? parts (writePath path ++ (last.toList ++ rest)) =
      some ((path, last), dropSpaces rest) := by
  obtain ⟨parts, rfl⟩ : ∃ n, parts = n + 1 := ⟨parts - 1, by omega⟩
  induction path generalizing parts with
  | nil => exact key?_append hlast hrest hdot
  | cons part path ih =>
    obtain ⟨hpart, hpath⟩ := List.forall_mem_cons.1 hpath
    rw [List.length_cons] at hparts
    obtain ⟨parts, rfl⟩ : ∃ n, parts = n + 1 := ⟨parts - 1, by omega⟩
    have htext : writePath (part :: path) ++ (last.toList ++ rest) =
        part.toList ++ '.' :: (writePath path ++ (last.toList ++ rest)) := by
      simp [writePath]
    rw [htext]
    refine key?_append_dot hpart ?_
    rw [dropSpaces_writePath hpath hlast]
    exact ih hpath parts (by omega)

theorem value?_write (content : Content) (fuel depth : Nat) (rest : List Char) :
    value? (fuel + 2) (depth + 1) (content.write ++ '\n' :: rest) =
      some (content.value, '\n' :: rest) := by
  rw [value?.eq_def]
  dsimp only
  cases content with
  | text s =>
    have hread : Quoted.read? (Quoted.write s.toList ++ '\n' :: rest) =
        some (s.toList, '\n' :: rest) := Quoted.read?_write s.toList (by simp) (by simp)
    rw [Content.write, hread, Content.value, ← String.ofList_toList (s := s)]
    simp
  | noItems => rfl

theorem dropSpaces_write (content : Content) (rest : List Char) :
    dropSpaces (content.write ++ rest) = content.write ++ rest := by
  cases content with
  | text s =>
    rw [Content.write, Quoted.write]
    cases Quoted.Form.of s.toList <;> rfl
  | noItems => rfl

theorem keyAndSign?_write (hkey : IsBareKey l.key.toList) (rest : List Char) :
    keyAndSign? dropSpaces (l.write ++ rest) =
      some (([], l.key), l.content.write ++ '\n' :: rest) := by
  have htext : l.write ++ rest =
      l.key.toList ++ ' ' :: '=' :: ' ' :: (l.content.write ++ '\n' :: rest) := by
    simp [Line.write]
  have hread : key? limit (l.key.toList ++ ' ' :: '=' :: ' ' :: (l.content.write ++ '\n' :: rest)) =
      some (([], l.key), '=' :: ' ' :: (l.content.write ++ '\n' :: rest)) :=
    key?_append hkey rfl fun h => absurd (Option.some.inj h : '=' = '.') (by decide)
  rw [htext, keyAndSign?, hread]
  change some (([], l.key), dropSpaces (l.content.write ++ '\n' :: rest)) = _
  rw [dropSpaces_write]

theorem pair?_write (hkey : IsBareKey l.key.toList) (rest : List Char) :
    pair? (fuel + 2) (l.write ++ rest) = some (l.pair, rest) := by
  rw [pair?, keyAndSign?_write hkey]
  change (value? (fuel + 2) (79 + 1) (l.content.write ++ '\n' :: rest)).bind _ = _
  rw [value?_write]
  rfl

theorem pairs?_write (hkey : IsBareKey l.key.toList) (rest : List Char) :
    pairs? (fuel + 3) (l.write ++ rest) =
      (pairs? (fuel + 2) rest).map fun found => (l.pair :: found.1, found.2) := by
  have hgap : dropGap false (l.write ++ rest) = l.write ++ rest := by
    rw [Line.write, List.append_assoc]
    exact dropGap_append hkey
  obtain ⟨c, cs, hcs, hc⟩ := hkey.exists_cons
  have hhead : l.write ++ rest =
      c :: (cs ++ ' ' :: '=' :: ' ' :: (l.content.write ++ '\n' :: rest)) := by
    simp [Line.write, hcs]
  have hpair : pair? (fuel + 2) (l.write ++ rest) = some (l.pair, rest) := pair?_write hkey rest
  rw [pairs?, hgap]
  split
  next heq => cases hhead.symm.trans heq
  next heq =>
    obtain ⟨rfl, -⟩ := List.cons.inj (hhead.symm.trans heq)
    exact absurd hc (by decide)
  next =>
    rw [hpair]
    change (pairs? (fuel + 2) rest).bind _ = _
    cases pairs? (fuel + 2) rest <;> rfl

theorem pairs?_lines {lines : List Line} {rest : List Char}
    (hkeys : ∀ l ∈ lines, IsBareKey l.key.toList) (hfuel : lines.length + 2 ≤ fuel)
    (hrest : dropGap false rest = [] ∨ ∃ more, dropGap false rest = '[' :: more) :
    pairs? fuel (lines.flatMap Line.write ++ rest) =
      some (lines.map Line.pair, dropGap false rest) := by
  induction lines generalizing fuel with
  | nil =>
    obtain ⟨fuel, rfl⟩ : ∃ n, fuel = n + 1 := ⟨fuel - 1, by omega⟩
    rw [List.flatMap_nil, List.nil_append, pairs?]
    rcases hrest with h | ⟨more, h⟩ <;> rw [h] <;> rfl
  | cons l lines ih =>
    obtain ⟨hkey, hkeys⟩ := List.forall_mem_cons.1 hkeys
    rw [List.length_cons] at hfuel
    obtain ⟨fuel, rfl⟩ : ∃ n, fuel = n + 3 := ⟨fuel - 3, by omega⟩
    rw [List.flatMap_cons, List.append_assoc, pairs?_write hkey, ih hkeys (by omega)]
    rfl

/-- An element of an array of tables as it is written. -/
structure Entry where
  path : List String
  key : String
  lines : List Line

namespace Entry

def toSection (e : Entry) : Section := ⟨true, e.path, e.key, e.lines.map Line.pair⟩

def writeHeader (e : Entry) : List Char :=
  '[' :: '[' :: (writePath e.path ++ (e.key.toList ++ [']', ']', '\n']))

def write (e : Entry) : List Char := e.writeHeader ++ e.lines.flatMap Line.write

/-- Whether the keys can be written as they are, and the tables do not stand too deep in one
another. -/
structure IsWritable (e : Entry) : Prop where
  path : ∀ part ∈ e.path, IsBareKey part.toList
  key : IsBareKey e.key.toList
  depth : e.path.length < limit
  lines : ∀ l ∈ e.lines, IsBareKey l.key.toList

end Entry

variable {e : Entry} {es : List Entry}

theorem header?_writeHeader (h : e.IsWritable) (rest : List Char) :
    header? (e.writeHeader ++ rest) = some ((true, e.path, e.key), rest) := by
  have hkey : key? limit (writePath e.path ++ (e.key.toList ++ ']' :: ']' :: '\n' :: rest)) =
      some ((e.path, e.key), ']' :: ']' :: '\n' :: rest) :=
    key?_writePath h.path h.key h.depth rfl fun hdot =>
      absurd (Option.some.inj hdot : ']' = '.') (by decide)
  have htext : e.writeHeader ++ rest =
      '[' :: '[' :: (writePath e.path ++ (e.key.toList ++ ']' :: ']' :: '\n' :: rest)) := by
    simp [Entry.writeHeader]
  rw [htext, header?, dropSpaces_writePath h.path h.key, hkey]
  rfl

/-- What stands after a part of a document: the entries, with an empty line before each. -/
def writeAfter : List Entry → List Char
  | [] => []
  | e :: es => '\n' :: (e.write ++ writeAfter es)

theorem intercalate_cons_write (part : List Char) (es : List Entry) :
    ['\n'].intercalate (part :: es.map Entry.write) = part ++ writeAfter es := by
  induction es generalizing part with
  | nil => rw [List.map_nil, List.intercalate_singleton, writeAfter, List.append_nil]
  | cons e es ih =>
    rw [List.map_cons, List.intercalate_cons_cons, ih, writeAfter, List.append_assoc]
    rfl

theorem dropGap_writeAfter (es : List Entry) :
    dropGap false (writeAfter es) = ['\n'].intercalate (es.map Entry.write) := by
  cases es with
  | nil => rfl
  | cons e es =>
    rw [List.map_cons, intercalate_cons_write]
    rfl

theorem intercalate_write_cases (es : List Entry) :
    ['\n'].intercalate (es.map Entry.write) = [] ∨
      ∃ more, ['\n'].intercalate (es.map Entry.write) = '[' :: more := by
  cases es with
  | nil => exact .inl rfl
  | cons e es =>
    rw [List.map_cons, intercalate_cons_write]
    exact .inr ⟨_, rfl⟩

theorem length_le_length_flatMap_write (lines : List Line) :
    lines.length ≤ (lines.flatMap Line.write).length := by
  induction lines with
  | nil => exact Nat.le_refl _
  | cons l lines ih =>
    rw [List.flatMap_cons, List.length_append, List.length_cons, Line.write, List.length_append,
      List.length_cons]
    omega

theorem length_intercalate_write_le (es : List Entry) :
    (['\n'].intercalate (es.map Entry.write)).length ≤ (writeAfter es).length := by
  cases es with
  | nil => exact Nat.le_refl _
  | cons e es =>
    rw [List.map_cons, intercalate_cons_write]
    exact Nat.le_succ _

theorem length_write (e : Entry) :
    e.write.length = e.writeHeader.length + (e.lines.flatMap Line.write).length :=
  List.length_append

theorem isEmpty_flatMap_write (lines : List Line) :
    (lines.flatMap Line.write).isEmpty = lines.isEmpty := by
  cases lines with
  | nil => rfl
  | cons l lines =>
    rw [List.isEmpty_cons, List.isEmpty_eq_false_iff_exists_mem]
    exact ⟨'=', List.mem_flatMap.2 ⟨l, .head _, by simp [Line.write]⟩⟩

theorem sections?_write (h : ∀ e ∈ es, e.IsWritable)
    (hfuel : (['\n'].intercalate (es.map Entry.write)).length + 2 ≤ fuel) :
    sections? fuel (['\n'].intercalate (es.map Entry.write)) = some (es.map Entry.toSection) := by
  induction es generalizing fuel with
  | nil =>
    obtain ⟨fuel, rfl⟩ : ∃ n, fuel = n + 1 := ⟨fuel - 1, by omega⟩
    rfl
  | cons e es ih =>
    obtain ⟨he, hes⟩ := List.forall_mem_cons.1 h
    obtain ⟨fuel, rfl⟩ : ∃ n, fuel = n + 1 := ⟨fuel - 1, by omega⟩
    have hheader : 1 ≤ e.writeHeader.length := Nat.le_add_left _ _
    have hlines := length_le_length_flatMap_write e.lines
    have hafter := length_intercalate_write_le es
    rw [List.map_cons, intercalate_cons_write] at hfuel ⊢
    rw [List.length_append, length_write] at hfuel
    have hpairs : pairs? fuel (e.lines.flatMap Line.write ++ writeAfter es) =
        some (e.lines.map Line.pair, ['\n'].intercalate (es.map Entry.write)) := by
      rw [← dropGap_writeAfter]
      refine pairs?_lines he.lines (by omega) ?_
      rw [dropGap_writeAfter]
      exact intercalate_write_cases es
    have hrest : sections? fuel (['\n'].intercalate (es.map Entry.write)) =
        some (es.map Entry.toSection) := ih hes (by omega)
    rw [Entry.write, List.append_assoc]
    change (header? (e.writeHeader ++ (e.lines.flatMap Line.write ++ writeAfter es))).bind _ = _
    rw [header?_writeHeader he]
    change (pairs? fuel (e.lines.flatMap Line.write ++ writeAfter es)).bind _ = _
    rw [hpairs]
    change (sections? fuel (['\n'].intercalate (es.map Entry.write))).bind _ = _
    rw [hrest]
    rfl

/-- The text of a document: its lines before the first header and its entries, with an empty line
between the parts. -/
def writeDocument (lines : List Line) (es : List Entry) : List Char :=
  ['\n'].intercalate
    (if lines.isEmpty then es.map Entry.write else lines.flatMap Line.write :: es.map Entry.write)

/-- Whether or not there are lines, only a gap stands between them and the entries. -/
theorem exists_writeDocument_eq (lines : List Line) (es : List Entry) :
    ∃ rest, writeDocument lines es = lines.flatMap Line.write ++ rest ∧
      dropGap false rest = ['\n'].intercalate (es.map Entry.write) ∧
      (['\n'].intercalate (es.map Entry.write)).length ≤ rest.length := by
  cases lines with
  | nil =>
    refine ⟨_, rfl, ?_, Nat.le_refl _⟩
    change dropGap false (['\n'].intercalate (es.map Entry.write)) = _
    rcases intercalate_write_cases es with h | ⟨more, h⟩ <;> rw [h] <;> rfl
  | cons l lines =>
    exact ⟨writeAfter es, intercalate_cons_write _ es, dropGap_writeAfter es,
      length_intercalate_write_le es⟩

theorem Source.read?_writeDocument {lines : List Line}
    (hlines : ∀ l ∈ lines, IsBareKey l.key.toList) (h : ∀ e ∈ es, e.IsWritable) :
    Source.read? (writeDocument lines es) = some ⟨lines.map Line.pair, es.map Entry.toSection⟩ := by
  obtain ⟨rest, htext, hgap, hlength⟩ := exists_writeDocument_eq lines es
  have hcount := length_le_length_flatMap_write lines
  have hsum : (writeDocument lines es).length =
      (lines.flatMap Line.write).length + rest.length := by
    rw [htext, List.length_append]
  have hpairs : pairs? (2 * (writeDocument lines es).length + 2) (writeDocument lines es) =
      some (lines.map Line.pair, ['\n'].intercalate (es.map Entry.write)) := by
    rw [← hgap]
    conv_lhs =>
      arg 2
      rw [htext]
    refine pairs?_lines hlines (by omega) ?_
    rw [hgap]
    exact intercalate_write_cases es
  have hsections : sections? (2 * (writeDocument lines es).length + 2)
      (['\n'].intercalate (es.map Entry.write)) = some (es.map Entry.toSection) :=
    sections?_write h (by omega)
  change (pairs? (2 * (writeDocument lines es).length + 2) (writeDocument lines es)).bind _ = _
  rw [hpairs]
  change (sections? (2 * (writeDocument lines es).length + 2)
    (['\n'].intercalate (es.map Entry.write))).bind _ = _
  rw [hsections]
  rfl

/-- No key begins with a byte order mark, and neither does a header. -/
theorem dropByteOrderMark_writeDocument {lines : List Line}
    (hlines : ∀ l ∈ lines, IsBareKey l.key.toList) (es : List Entry) :
    dropByteOrderMark (writeDocument lines es) = writeDocument lines es := by
  cases lines with
  | nil =>
    change dropByteOrderMark (['\n'].intercalate (es.map Entry.write)) =
      ['\n'].intercalate (es.map Entry.write)
    rcases intercalate_write_cases es with h | ⟨more, h⟩ <;> rw [h] <;> rfl
  | cons l lines =>
    obtain ⟨c, cs, hkey, hc⟩ := (hlines l (.head _)).exists_cons
    obtain ⟨more, hmore⟩ : ∃ more, writeDocument (l :: lines) es = c :: more :=
      ⟨_, (intercalate_cons_write _ es).trans (by rw [List.flatMap_cons, Line.write, hkey]; rfl)⟩
    rw [hmore]
    unfold dropByteOrderMark
    split
    next heq =>
      cases heq
      exact absurd hc (by decide)
    next => rfl

end Sidebar.Toml
