import ClusterScaler.Exposition
import ClusterScaler.Proofs.Table.Reading
import Mathlib.Data.List.Basic

/-!
# Scraping an exposition

A collector splits an exposition into its lines and reads each as a comment or as a sample: a name, quoted
labels in which three characters are escaped, and a number. The lines of families whose parts are of the
right form are read back as they were meant, whatever the label values are (`scrape_render`).
-/

set_option autoImplicit false

namespace ClusterScaler.Exposition

/-- A sample as it is read. -/
structure Reading where
  metric : String
  labels : List (String × String)
  value : String
  deriving DecidableEq

/-- What a line reads as. -/
inductive Line where
  | comment (text : String)
  | sample (reading : Reading)

/-- The sample of a line, unless it is a comment. -/
def Line.reading? : Line → Option Reading
  | comment _ => none
  | sample reading => some reading

/-- The characters of names. -/
def isNameChar (c : Char) : Bool := c.isAlphanum || c == '_'

/-- Whether a text is the name of a metric or of a label. -/
def isName (cs : List Char) : Bool := cs.all isNameChar && cs.head?.any (!·.isDigit)

/-- Whether a text is digits, which a point and more digits may follow. -/
def isDecimal (cs : List Char) : Bool :=
  !(cs.takeWhile Char.isDigit).isEmpty &&
    match cs.dropWhile Char.isDigit with
    | [] => true
    | '.' :: places => !places.isEmpty && places.all Char.isDigit
    | _ => false

/-- Whether a text is the value of a sample. -/
def isNumber : List Char → Bool
  | '-' :: cs => isDecimal cs || cs == "inf".toList
  | cs => isDecimal cs || cs == "inf".toList || cs == "NaN".toList

/-- A name at the start of a text, and what follows it. -/
def readName (cs : List Char) : Option (String × List Char) :=
  let name := cs.takeWhile isNameChar
  if isName name then some (String.ofList name, cs.dropWhile isNameChar) else none

/-- A label value up to the quote behind it, its escapes decoded, and what follows. -/
def readQuoted : List Char → Option (List Char × List Char)
  | '"' :: rest => some ([], rest)
  | '\\' :: '\\' :: rest => (readQuoted rest).map fun r => ('\\' :: r.1, r.2)
  | '\\' :: '"' :: rest => (readQuoted rest).map fun r => ('"' :: r.1, r.2)
  | '\\' :: 'n' :: rest => (readQuoted rest).map fun r => ('\n' :: r.1, r.2)
  | '\\' :: _ => none
  | c :: rest => (readQuoted rest).map fun r => (c :: r.1, r.2)
  | [] => none

theorem length_readName {cs rest : List Char} {name : String} (h : readName cs = some (name, rest)) :
    rest.length ≤ cs.length := by
  unfold readName at h
  dsimp only at h
  split at h
  · cases h
    exact (List.dropWhile_sublist _).length_le
  · cases h

theorem length_readQuoted {cs rest value : List Char} (h : readQuoted cs = some (value, rest)) :
    rest.length < cs.length := by
  fun_induction readQuoted cs generalizing value with
  | case1 rest' =>
    cases h
    exact Nat.lt_succ_self _
  | case2 _ ih | case3 _ ih | case4 _ ih | case6 _ _ _ _ _ _ _ ih =>
    obtain ⟨r, hr, heq⟩ := Option.map_eq_some_iff.mp h
    cases heq
    have hlt := ih hr
    simp only [List.length_cons]
    omega
  | case5 | case7 => cases h

/-- Labels up to the brace behind them, and what follows. -/
def readLabels (cs : List Char) : Option (List (String × String) × List Char) :=
  match _ : readName cs with
  | some (name, '=' :: '"' :: quoted) =>
    match _ : readQuoted quoted with
    | some (value, ',' :: more) =>
      (readLabels more).map fun r => ((name, String.ofList value) :: r.1, r.2)
    | some (value, '\x7d' :: rest) => some ([(name, String.ofList value)], rest)
    | _ => none
  | _ => none
termination_by cs.length
decreasing_by
  have hlength := length_readName ‹readName cs = _›
  have hshorter := length_readQuoted ‹readQuoted quoted = _›
  simp only [List.length_cons] at hlength hshorter
  omega

/-- A line of an exposition. -/
def readLine : List Char → Option Line
  | '#' :: text => some (.comment (String.ofList text))
  | cs => do
    let (metric, rest) ← readName cs
    match rest with
    | '\x7b' :: rest =>
      match ← readLabels rest with
      | (labels, ' ' :: value) =>
        if isNumber value then some (.sample ⟨metric, labels, String.ofList value⟩) else none
      | _ => none
    | _ => none

/-- The lines of a text. The last one may be ended like the others. -/
def textLines (text : String) : List (List Char) :=
  let pieces := text.toList.splitOn '\n'
  if pieces.getLast? = some [] then pieces.dropLast else pieces

/-- What the lines of a text read as, provided that all of them can be read. -/
def scrape (text : String) : Option (List Line) := (textLines text).mapM readLine

section Lines

variable {name : String} {rest : List Char} {metric : String} {labels : List (String × String)}

theorem isNameChar_of_isName (h : isName name.toList = true) :
    ∀ c ∈ name.toList, isNameChar c = true := by
  unfold isName at h
  rw [Bool.and_eq_true, List.all_eq_true] at h
  exact h.1

/-- A name is read up to the first character that is not of names. -/
theorem readName_append (h : isName name.toList = true)
    (hrest : ∀ c ∈ rest.head?, isNameChar c = false) :
    readName (name.toList ++ rest) = some (name, rest) := by
  have hstop : rest.takeWhile isNameChar = [] ∧ rest.dropWhile isNameChar = rest := by
    cases rest with
    | nil => exact ⟨rfl, rfl⟩
    | cons c rest =>
      have hc : ¬ isNameChar c = true := Bool.not_eq_true _ ▸ hrest c rfl
      exact ⟨List.takeWhile_cons_of_neg hc, List.dropWhile_cons_of_neg hc⟩
  unfold readName
  rw [List.takeWhile_append_of_pos (isNameChar_of_isName h),
    List.dropWhile_append_of_pos (isNameChar_of_isName h), hstop.1, hstop.2, List.append_nil]
  dsimp only
  rw [if_pos h, String.ofList_toList]

/-- An escaped value is read back, whatever follows its quote. -/
theorem readQuoted_escape (value : List Char) :
    readQuoted (value.flatMap escapeChar ++ '"' :: rest) = some (value, rest) := by
  induction value with
  | nil => rfl
  | cons c value ih =>
    rw [List.flatMap_cons, List.append_assoc, escapeChar]
    split
    · next hc =>
      subst hc
      exact congrArg (Option.map _) ih
    · next hslash =>
      split
      · next hc =>
        subst hc
        exact congrArg (Option.map _) ih
      · next hquote =>
        split
        · next hc =>
          subst hc
          exact congrArg (Option.map _) ih
        · rw [List.singleton_append, readQuoted]
          · rw [ih]
            rfl
          all_goals
            intros
            simp_all

/-- The text of a label as characters. -/
def labelChars (l : String × String) : List Char :=
  l.1.toList ++ '=' :: '"' :: (l.2.toList.flatMap escapeChar ++ ['"'])

theorem toList_labelText (l : String × String) : (labelText l).toList = labelChars l := by
  unfold labelText labelChars escape
  simp

/-- How it goes on behind a label. -/
def labelsAfter (l : String × String) : List Char → Option (List (String × String) × List Char)
  | ',' :: more => (readLabels more).map fun r => (l :: r.1, r.2)
  | '\x7d' :: rest => some ([l], rest)
  | _ => none

theorem readLabels_of_read {cs quoted value : List Char}
    (hname : readName cs = some (name, '=' :: '"' :: quoted))
    (hvalue : readQuoted quoted = some (value, rest)) :
    readLabels cs = labelsAfter (name, String.ofList value) rest := by
  rw [readLabels]
  split
  · next heq =>
    cases hname.symm.trans heq
    split
    · next heq => 
      cases hvalue.symm.trans heq
      rfl
    · next heq =>
      cases hvalue.symm.trans heq
      rfl
    · next hcomma hbrace =>
      unfold labelsAfter
      split
      · exact absurd hvalue (hcomma _ _)
      · exact absurd hvalue (hbrace _ _)
      · rfl
  · next hnone => exact absurd hname (hnone _ _)

/-- A label is read back, whatever follows. -/
theorem readLabels_label {l : String × String} (h : isName l.1.toList = true) :
    readLabels (labelChars l ++ rest) = labelsAfter l rest := by
  have hname : readName (labelChars l ++ rest) =
      some (l.1, '=' :: '"' :: (l.2.toList.flatMap escapeChar ++ '"' :: rest)) := by
    unfold labelChars
    rw [List.append_assoc, readName_append h fun c hc => by cases hc; rfl]
    simp
  rw [readLabels_of_read hname (readQuoted_escape l.2.toList), String.ofList_toList]

/-- Labels with commas between them are read back up to the brace behind them. -/
theorem readLabels_labels (hne : labels ≠ []) (h : ∀ l ∈ labels, isName l.1.toList = true) :
    readLabels (List.intercalate [','] (labels.map labelChars) ++ '\x7d' :: rest) =
      some (labels, rest) := by
  induction labels with
  | nil => exact absurd rfl hne
  | cons l labels ih =>
    have hl := h l List.mem_cons_self
    cases labels with
    | nil =>
      rw [List.map_cons, List.map_nil, List.intercalate_singleton, readLabels_label hl, labelsAfter]
    | cons l' labels =>
      have hmore := ih (List.cons_ne_nil _ _) fun l hl => h l (List.mem_cons_of_mem _ hl)
      rw [List.map_cons, List.map_cons, List.intercalate_cons_cons, ← List.map_cons,
        List.append_assoc, List.append_assoc, readLabels_label hl, List.singleton_append,
        labelsAfter, hmore]
      rfl

theorem toList_line (s : Sample) (metric : String) : (s.line metric).toList = metric.toList ++
    '\x7b' :: (List.intercalate [','] (s.labels.map labelChars) ++
      '\x7d' :: ' ' :: s.value.toList) := by
  unfold Sample.line
  simp [String.toList_intercalate, Function.comp_def, toList_labelText]

/-- The line of a sample is read back. -/
theorem readLine_line {s : Sample} (hmetric : isName metric.toList = true) (hne : s.labels ≠ [])
    (hlabels : ∀ l ∈ s.labels, isName l.1.toList = true)
    (hvalue : isNumber s.value.toList = true) :
    readLine (s.line metric).toList = some (.sample ⟨metric, s.labels, s.value⟩) := by
  have hstop : ∀ rest, ∀ c ∈ ('\x7b' :: rest).head?, isNameChar c = false := by
    rintro rest c ⟨⟩
    rfl
  have hname := readName_append hmetric (hstop (List.intercalate [','] (s.labels.map labelChars) ++
    '\x7d' :: ' ' :: s.value.toList))
  rw [toList_line, readLine]
  · rw [hname]
    simp only [Option.bind_eq_bind, Option.bind_some, readLabels_labels hne hlabels, hvalue,
      if_true, String.ofList_toList]
  · intro text hcomment
    rw [hcomment] at hname
    cases hname

theorem readLine_comment (text : String) :
    readLine ("#" ++ text).toList = some (.comment text) := by
  rw [String.toList_append]
  exact congrArg (fun t => some (Line.comment t)) String.ofList_toList

end Lines

section Breaks

theorem newline_notMem_of_isName {cs : List Char} (h : isName cs = true) : '\n' ∉ cs := by
  unfold isName at h
  rw [Bool.and_eq_true, List.all_eq_true] at h
  exact fun hmem => absurd (h.1 '\n' hmem) (by decide)

theorem newline_notMem_escape (cs : List Char) : '\n' ∉ cs.flatMap escapeChar := by
  intro hmem
  obtain ⟨c, -, hc⟩ := List.mem_flatMap.mp hmem
  unfold escapeChar at hc
  split at hc
  · exact absurd hc (by decide)
  · split at hc
    · exact absurd hc (by decide)
    · split at hc
      · exact absurd hc (by decide)
      · next hnewline => exact hnewline (List.mem_singleton.mp hc).symm

theorem newline_notMem_of_isDecimal {cs : List Char} (h : isDecimal cs = true) : '\n' ∉ cs := by
  have hdigit : ∀ ds : List Char, (∀ c ∈ ds, c.isDigit = true) → '\n' ∉ ds :=
    fun ds hds hmem => absurd (hds _ hmem) (by decide)
  have hwhole : '\n' ∉ cs.takeWhile Char.isDigit :=
    hdigit _ (List.all_eq_true.mp List.all_takeWhile)
  unfold isDecimal at h
  rw [Bool.and_eq_true] at h
  rw [← List.takeWhile_append_dropWhile (p := Char.isDigit) (l := cs), List.mem_append, not_or]
  refine ⟨hwhole, ?_⟩
  split at h
  · next hrest =>
    rw [hrest]
    exact List.not_mem_nil
  · next places hrest =>
    rw [Bool.and_eq_true, List.all_eq_true] at h
    rw [hrest, List.mem_cons, not_or]
    exact ⟨by decide, hdigit _ h.2.2⟩
  · exact absurd h.2 Bool.false_ne_true

theorem newline_notMem_of_isNumber {cs : List Char} (h : isNumber cs = true) : '\n' ∉ cs := by
  have hword : ∀ {cs word : List Char}, (cs == word) = true → '\n' ∉ word → '\n' ∉ cs :=
    fun heq hnone => beq_iff_eq.mp heq ▸ hnone
  unfold isNumber at h
  split at h
  · rw [List.mem_cons, not_or]
    refine ⟨by decide, ?_⟩
    rcases (Bool.or_eq_true _ _).mp h with h | h
    · exact newline_notMem_of_isDecimal h
    · exact hword h (by decide)
  · rw [Bool.or_eq_true, Bool.or_eq_true] at h
    rcases h with (h | h) | h
    · exact newline_notMem_of_isDecimal h
    · exact hword h (by decide)
    · exact hword h (by decide)

theorem newline_notMem_labelChars {l : String × String} (h : isName l.1.toList = true) :
    '\n' ∉ labelChars l := by
  have hname := newline_notMem_of_isName h
  have hvalue := newline_notMem_escape l.2.toList
  unfold labelChars
  simp [hname, hvalue]

theorem mem_intercalate {c : Char} {sep : List Char} {texts : List (List Char)}
    (h : c ∈ sep.intercalate texts) : c ∈ sep ∨ ∃ text ∈ texts, c ∈ text := by
  induction texts with
  | nil => cases h
  | cons text texts ih =>
    cases texts with
    | nil =>
      rw [List.intercalate_singleton] at h
      exact .inr ⟨text, List.mem_cons_self, h⟩
    | cons text' texts =>
      rw [List.intercalate_cons_cons, List.mem_append, List.mem_append] at h
      rcases h with (h | h) | h
      · exact .inr ⟨text, List.mem_cons_self, h⟩
      · exact .inl h
      · rcases ih h with hsep | ⟨later, hlater, hc⟩
        · exact .inl hsep
        · exact .inr ⟨later, List.mem_cons_of_mem _ hlater, hc⟩

/-- No label value breaks the line of a sample. -/
theorem newline_notMem_line {s : Sample} {metric : String} (hmetric : isName metric.toList = true)
    (hlabels : ∀ l ∈ s.labels, isName l.1.toList = true)
    (hvalue : isNumber s.value.toList = true) : '\n' ∉ (s.line metric).toList := by
  have hname := newline_notMem_of_isName hmetric
  have hnumber := newline_notMem_of_isNumber hvalue
  have hpairs : '\n' ∉ List.intercalate [','] (s.labels.map labelChars) := by
    intro hmem
    rcases mem_intercalate hmem with hcomma | ⟨text, htext, hc⟩
    · exact absurd hcomma (by decide)
    · obtain ⟨l, hl, rfl⟩ := List.mem_map.mp htext
      exact newline_notMem_labelChars (hlabels l hl) hc
  rw [toList_line]
  simp [hname, hnumber, hpairs]

/-- Lines that hold no line feed are split where they were joined. -/
theorem textLines_join {lines : List String} (h : ∀ line ∈ lines, '\n' ∉ line.toList) :
    textLines (String.join (lines.map (· ++ "\n"))) = lines.map String.toList := by
  have htext : (String.join (lines.map (· ++ "\n"))).toList =
      ['\n'].intercalate (lines.map String.toList ++ [[]]) := by
    rw [String.toList_join]
    induction lines with
    | nil => rfl
    | cons line lines ih =>
      have hrest := ih fun l hl => h l (List.mem_cons_of_mem _ hl)
      have hne : lines.map String.toList ++ [[]] ≠ [] := List.append_ne_nil_of_right_ne_nil _ (by simp)
      rw [List.map_cons, List.flatMap_cons, hrest, List.map_cons, List.cons_append,
        List.intercalate_cons_of_ne_nil hne, String.toList_append]
      rfl
  have hpieces : (String.join (lines.map (· ++ "\n"))).toList.splitOn '\n' =
      lines.map String.toList ++ [[]] := by
    rw [htext, List.splitOn_intercalate]
    · intro piece hpiece
      rcases List.mem_append.mp hpiece with hline | hempty
      · obtain ⟨line, hmem, rfl⟩ := List.mem_map.mp hline
        exact h line hmem
      · rw [List.mem_singleton.mp hempty]
        exact List.not_mem_nil
    · simp
  unfold textLines
  dsimp only
  rw [hpieces, List.getLast?_concat, if_pos rfl, List.dropLast_concat]

end Breaks

/-- The parts of a family have the right form. -/
structure Family.WellFormed (f : Family) : Prop where
  name : isName f.name.toList = true
  help : '\n' ∉ f.help.toList
  labels : ∀ s ∈ f.samples, s.labels ≠ [] ∧ ∀ l ∈ s.labels, isName l.1.toList = true
  values : ∀ s ∈ f.samples, isNumber s.value.toList = true

/-- The samples of a family as they should be read. -/
def Family.readings (f : Family) : List Reading :=
  f.samples.map fun s => ⟨f.name, s.labels, s.value⟩

/-- The lines of a family as they should be read. -/
def Family.readLines (f : Family) : List Line :=
  [.comment (" HELP " ++ f.name ++ " " ++ f.help), .comment (" TYPE " ++ f.name ++ " " ++ f.kind.text)]
    ++ f.readings.map .sample

namespace Family

variable {f : Family} {fs : List Family}

theorem reading?_readLines (f : Family) : f.readLines.filterMap Line.reading? = f.readings := by
  unfold readLines
  rw [List.filterMap_append, List.filterMap_map]
  exact List.filterMap_some

theorem WellFormed.newline_notMem (h : f.WellFormed) :
    ∀ line ∈ f.lines, '\n' ∉ line.toList := by
  have hname := newline_notMem_of_isName h.name
  have hkind : '\n' ∉ f.kind.text.toList := by cases f.kind <;> decide
  unfold lines
  simp only [List.cons_append, List.nil_append, List.forall_mem_cons]
  refine ⟨?_, ?_, fun line hline => ?_⟩
  · simp [hname, h.help]
  · simp [hname, hkind]
  · obtain ⟨s, hs, rfl⟩ := List.mem_map.mp hline
    exact newline_notMem_line h.name (h.labels s hs).2 (h.values s hs)

theorem WellFormed.mapM_readLine (h : f.WellFormed) :
    (f.lines.map String.toList).mapM readLine = some f.readLines := by
  have hsamples : (f.samples.map fun s => (s.line f.name).toList).mapM readLine =
      some (f.readings.map .sample) := by
    rw [List.mapM_map, readings, List.map_map]
    exact mapM_eq_some_map fun s hs =>
      readLine_line h.name (h.labels s hs).1 (h.labels s hs).2 (h.values s hs)
  have hlines : f.lines.map String.toList =
      [("#" ++ (" HELP " ++ f.name ++ " " ++ f.help)).toList,
        ("#" ++ (" TYPE " ++ f.name ++ " " ++ f.kind.text)).toList] ++
          f.samples.map fun s => (s.line f.name).toList := by
    unfold lines
    simp
  rw [hlines, List.mapM_append, List.mapM_cons, List.mapM_cons, readLine_comment, readLine_comment,
    hsamples]
  rfl

/-- The text of well-formed families is read line by line as it was meant. -/
theorem scrape_render (h : ∀ f ∈ fs, f.WellFormed) :
    scrape (render fs) = some (fs.flatMap readLines) := by
  have hbreaks : ∀ line ∈ fs.flatMap lines, '\n' ∉ line.toList := by
    intro line hline
    obtain ⟨f, hf, hmem⟩ := List.mem_flatMap.mp hline
    exact (h f hf).newline_notMem line hmem
  unfold scrape render
  rw [textLines_join hbreaks]
  clear hbreaks
  induction fs with
  | nil => rfl
  | cons f fs ih =>
    rw [List.flatMap_cons, List.map_append, List.mapM_append,
      (h f List.mem_cons_self).mapM_readLine, ih fun g hg => h g (List.mem_cons_of_mem _ hg)]
    rfl

theorem filterMap_readLines (fs : List Family) :
    (fs.flatMap readLines).filterMap Line.reading? = fs.flatMap readings := by
  rw [List.filterMap_flatMap]
  exact List.flatMap_congr fun f _ => reading?_readLines f

end Family

end ClusterScaler.Exposition
