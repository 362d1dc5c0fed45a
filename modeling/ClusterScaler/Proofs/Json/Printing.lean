import ClusterScaler.Proofs.Json.Spelling

/-!
# Printed values are read back

Both layouts, the compact one and the one on several lines, spell the value that is printed. So what
was printed reads as the value, and different values are printed differently.
-/

set_option autoImplicit false

namespace ClusterScaler

namespace Json

/-- A value that is nested at most so deep, and whose numbers are naturals of 64 bits. -/
def Plain : Nat → Json → Prop
  | _, .null | _, .bool _ | _, .str _ => True
  | _, .num (.natural n) => n < Nat.pow 2 64
  | _, .num _ | 0, .arr _ | 0, .obj _ => False
  | d + 1, .arr items => ∀ j ∈ items, Plain d j
  | d + 1, .obj members => ∀ m ∈ members, Plain d m.2

variable {d level : Nat}

theorem gap_nil : Gap [] := fun _ hc => nomatch hc

theorem gap_space : Gap [' '] := by
  intro c hc
  rw [List.mem_singleton] at hc
  subst hc
  rfl

/-- The end of a line and the blanks of the next. -/
def newLine (level : Nat) : List Char := '\n' :: (indentation level).toList

theorem gap_newLine : Gap (newLine level) := by
  intro c hc
  unfold newLine indentation at hc
  rw [String.toList_ofList, List.mem_cons, List.mem_replicate] at hc
  rcases hc with rfl | ⟨-, rfl⟩ <;> decide

theorem compactItems_eq_map (js : List Json) : compactItems js = js.map compact := by
  induction js with
  | nil => rfl
  | cons j js ih => rw [compactItems, ih, List.map_cons]

theorem compactMembers_eq_map (ms : List (String × Json)) :
    compactMembers ms = ms.map (fun m => stringText m.1 ++ ":" ++ m.2.compact) := by
  induction ms with
  | nil => rfl
  | cons m ms ih => rw [compactMembers, ih, List.map_cons]

theorem prettyItems_eq_map (js : List Json) : prettyItems level js = js.map (prettyAt level) := by
  induction js with
  | nil => rfl
  | cons j js ih => rw [prettyItems, ih, List.map_cons]

theorem prettyMembers_eq_map (ms : List (String × Json)) :
    prettyMembers level ms = ms.map (fun m => stringText m.1 ++ ": " ++ prettyAt level m.2) := by
  induction ms with
  | nil => rfl
  | cons m ms ih => rw [prettyMembers, ih, List.map_cons]

theorem toList_lines {ts : List String} (hne : ts ≠ []) :
    (lines level ts).toList =
      newLine level ++ List.intercalate (',' :: newLine level) (ts.map String.toList) := by
  induction ts with
  | nil => exact absurd rfl hne
  | cons s ts ih =>
    cases ts with
    | nil => simp [lines, newLine]
    | cons s' ts =>
      have hrest := ih (List.cons_ne_nil _ _)
      simp only [lines, String.toList_append, hrest]
      simp [newLine]

/-- Texts of the items with a comma and a blank between them spell the items. -/
theorem spellsItems_intercalate (text : Json → List Char) {g g' : List Char} (hg : Gap g)
    (hg' : Gap g') {js : List Json} (hne : js ≠ []) (hjs : ∀ j ∈ js, Spells d j (text j)) :
    SpellsItems d js (List.intercalate (',' :: g) (js.map text) ++ (g' ++ [']'])) := by
  induction js with
  | nil => exact absurd rfl hne
  | cons j js ih =>
    have hj := hjs j List.mem_cons_self
    cases js with
    | nil => simpa using SpellsItems.last hj hg'
    | cons j' js =>
      have hrest := ih (List.cons_ne_nil _ _) fun i hi => hjs i (List.mem_cons_of_mem _ hi)
      simpa using SpellsItems.more hj gap_nil hg hrest

/-- Texts of the members with a comma and a blank between them spell the members. -/
theorem spellsMembers_intercalate (text : Json → List Char) {g g₂ g' : List Char} (hg : Gap g)
    (hg₂ : Gap g₂) (hg' : Gap g') {ms : List (String × Json)} (hne : ms ≠ [])
    (hms : ∀ m ∈ ms, Spells d m.2 (text m.2)) :
    SpellsMembers d ms (List.intercalate (',' :: g)
      (ms.map fun m => quotedChars m.1 ++ ':' :: (g₂ ++ text m.2)) ++ (g' ++ ['\x7d'])) := by
  induction ms with
  | nil => exact absurd rfl hne
  | cons m ms ih =>
    have hm := hms m List.mem_cons_self
    cases ms with
    | nil => simpa using SpellsMembers.last hm gap_nil hg₂ hg'
    | cons m' ms =>
      have hrest := ih (List.cons_ne_nil _ _) fun i hi => hms i (List.mem_cons_of_mem _ hi)
      simpa using SpellsMembers.more hm gap_nil hg₂ gap_nil hg hrest

theorem toList_compact_arr (js : List Json) : (compact (.arr js)).toList =
    '[' :: ([] ++ (List.intercalate [','] (js.map (·.compact.toList)) ++ ([] ++ [']']))) := by
  simp [compact, compactItems_eq_map, String.toList_intercalate, Function.comp_def]

theorem toList_compact_obj (ms : List (String × Json)) : (compact (.obj ms)).toList =
    '\x7b' :: ([] ++ (List.intercalate [',']
      (ms.map fun m => quotedChars m.1 ++ ':' :: ([] ++ m.2.compact.toList)) ++
        ([] ++ ['\x7d']))) := by
  simp [compact, compactMembers_eq_map, String.toList_intercalate, Function.comp_def,
    toList_stringText]

theorem toList_prettyAt_arr {js : List Json} (hne : js ≠ []) : (prettyAt level (.arr js)).toList =
    '[' :: (newLine (level + 1) ++ (List.intercalate (',' :: newLine (level + 1))
      (js.map fun j => (prettyAt (level + 1) j).toList) ++ (newLine level ++ [']']))) := by
  have hitems : prettyItems (level + 1) js ≠ [] := by
    rw [prettyItems_eq_map, ne_eq, List.map_eq_nil_iff]
    exact hne
  rw [prettyAt]
  · simp only [String.toList_append, toList_lines hitems]
    simp [prettyItems_eq_map, Function.comp_def, newLine]
  · exact hne

theorem toList_prettyAt_obj {ms : List (String × Json)} (hne : ms ≠ []) :
    (prettyAt level (.obj ms)).toList =
      '\x7b' :: (newLine (level + 1) ++ (List.intercalate (',' :: newLine (level + 1))
        (ms.map fun m => quotedChars m.1 ++ ':' :: ([' '] ++ (prettyAt (level + 1) m.2).toList)) ++
          (newLine level ++ ['\x7d']))) := by
  have hmembers : prettyMembers (level + 1) ms ≠ [] := by
    rw [prettyMembers_eq_map, ne_eq, List.map_eq_nil_iff]
    exact hne
  rw [prettyAt]
  · simp only [String.toList_append, toList_lines hmembers]
    simp [prettyMembers_eq_map, Function.comp_def, newLine, toList_stringText]
  · exact hne

/-- A value that holds no others is printed on one line in either layout. -/
theorem spells_scalar {j : Json} (h : Plain d j) (harr : ∀ js, j ≠ .arr js)
    (hobj : ∀ ms, j ≠ .obj ms) : Spells d j j.compact.toList := by
  cases j with
  | null => exact .null d
  | bool b => exact .bool d b
  | num n =>
    cases n with
    | natural n =>
      unfold Plain at h
      rw [compact, JsonNumber.text, String.toList_ofList]
      exact .natural d h
    | negative n => exact absurd h (by simp [Plain])
    | double x => exact absurd h (by simp [Plain])
  | str s =>
    rw [compact, toList_stringText]
    exact .str d s
  | arr js => exact absurd rfl (harr js)
  | obj ms => exact absurd rfl (hobj ms)

theorem Plain.arr {js : List Json} (h : Plain d (.arr js)) :
    ∃ d', d = d' + 1 ∧ ∀ j ∈ js, Plain d' j := by
  cases d with
  | zero => exact absurd h (by simp [Plain])
  | succ d' =>
    unfold Plain at h
    exact ⟨d', rfl, h⟩

theorem Plain.obj {ms : List (String × Json)} (h : Plain d (.obj ms)) :
    ∃ d', d = d' + 1 ∧ ∀ m ∈ ms, Plain d' m.2 := by
  cases d with
  | zero => exact absurd h (by simp [Plain])
  | succ d' =>
    unfold Plain at h
    exact ⟨d', rfl, h⟩

theorem spells_compact {j : Json} (h : Plain d j) : Spells d j j.compact.toList := by
  induction d using Nat.strongRecOn generalizing j with
  | ind d ih =>
    cases j with
    | arr js =>
      obtain ⟨d, rfl, hjs⟩ := h.arr
      by_cases hne : js = []
      · subst hne
        exact .noItems gap_nil
      · rw [toList_compact_arr]
        exact .items gap_nil (spellsItems_intercalate (·.compact.toList) gap_nil gap_nil hne
          fun j hj => ih d (Nat.lt_succ_self d) (hjs j hj))
    | obj ms =>
      obtain ⟨d, rfl, hms⟩ := h.obj
      by_cases hne : ms = []
      · subst hne
        exact .noMembers gap_nil
      · rw [toList_compact_obj]
        exact .members gap_nil (spellsMembers_intercalate (·.compact.toList) gap_nil gap_nil
          gap_nil hne fun m hm => ih d (Nat.lt_succ_self d) (hms m hm))
    | _ => exact spells_scalar h (fun _ hj => nomatch hj) (fun _ hj => nomatch hj)

theorem spells_prettyAt {j : Json} (h : Plain d j) : Spells d j (prettyAt level j).toList := by
  induction d using Nat.strongRecOn generalizing level j with
  | ind d ih =>
    cases j with
    | arr js =>
      obtain ⟨d, rfl, hjs⟩ := h.arr
      by_cases hne : js = []
      · subst hne
        rw [prettyAt]
        exact .noItems gap_nil
      · rw [toList_prettyAt_arr hne]
        exact .items gap_newLine (spellsItems_intercalate (fun j => (prettyAt (level + 1) j).toList)
          gap_newLine gap_newLine hne fun j hj => ih d (Nat.lt_succ_self d) (hjs j hj))
    | obj ms =>
      obtain ⟨d, rfl, hms⟩ := h.obj
      by_cases hne : ms = []
      · subst hne
        rw [prettyAt]
        exact .noMembers gap_nil
      · rw [toList_prettyAt_obj hne]
        exact .members gap_newLine
          (spellsMembers_intercalate (fun j => (prettyAt (level + 1) j).toList) gap_newLine
            gap_space gap_newLine hne fun m hm => ih d (Nat.lt_succ_self d) (hms m hm))
    | _ => exact spells_scalar h (fun _ hj => nomatch hj) (fun _ hj => nomatch hj)

/-- A value that was printed on one line is read back. -/
theorem read_compact {j : Json} (h : Plain Document.maxDepth j) :
    Document.read j.compact = (Document.ofJson j, true) :=
  Document.read_of_spells (spells_compact h)

/-- A value that was printed on several lines is read back. -/
theorem read_pretty {j : Json} (h : Plain Document.maxDepth j) :
    Document.read j.pretty = (Document.ofJson j, true) :=
  Document.read_of_spells (spells_prettyAt h)

end Json

end ClusterScaler
