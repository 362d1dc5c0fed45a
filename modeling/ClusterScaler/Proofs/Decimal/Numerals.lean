import ClusterScaler.Decimal.Layout
import ClusterScaler.Decimal.Reading
import ClusterScaler.Proofs.Decimal.Rounding
import ClusterScaler.Proofs.Json.Tokens

/-!
# Numerals

Whatever notation it is written in, a decimal is a numeral: digits, with more digits after a point or
without, and with a power of ten or without (`exists_numeral`). A numeral can be read in one way only
(`Numeral.eq_of_text_eq`), so the text of a decimal denotes one number.
-/

set_option autoImplicit false

namespace ClusterScaler.Decimal

variable {cs ds r r' : List Char} {p : Char → Bool}

/-- Two texts that are cut where the characters of a kind end are cut at the same place. -/
theorem eq_of_append_eq (hcs : ∀ c ∈ cs, p c = true) (hds : ∀ c ∈ ds, p c = true)
    (hr : ∀ c ∈ r.head?, p c = false) (hr' : ∀ c ∈ r'.head?, p c = false)
    (h : cs ++ r = ds ++ r') : cs = ds ∧ r = r' := by
  have hstop : ∀ {t : List Char}, (∀ c ∈ t.head?, p c = false) → t.takeWhile p = [] := by
    intro t ht
    cases t with
    | nil => rfl
    | cons c t => exact List.takeWhile_cons_of_neg (by simp [ht c rfl])
  have hfront := congrArg (List.takeWhile p) h
  rw [List.takeWhile_append_of_pos hcs, List.takeWhile_append_of_pos hds, hstop hr, hstop hr',
    List.append_nil, List.append_nil] at hfront
  subst hfront
  exact ⟨rfl, List.append_cancel_left h⟩

/-- All characters are decimal digits. -/
def AllDigits (cs : List Char) : Prop := ∀ c ∈ cs, c.isDigit = true

theorem AllDigits.append (hcs : AllDigits cs) (hds : AllDigits ds) : AllDigits (cs ++ ds) :=
  List.forall_mem_append.mpr ⟨hcs, hds⟩

theorem allDigits_digits (n : ℕ) : AllDigits (digits n) := fun _ => Document.isDigit_digits

theorem allDigits_zeros (n : ℕ) : AllDigits (List.replicate n '0') := by
  intro c hc
  rw [List.eq_of_mem_replicate hc]
  rfl

theorem digits_ne_nil (n : ℕ) : digits n ≠ [] := Nat.toDigits_ne_nil

theorem ofDigits_append (cs ds : List Char) :
    ofDigits (cs ++ ds) = ofDigits cs * 10 ^ ds.length + ofDigits ds := by
  have hfold : ∀ n, ds.foldl (fun n c => n * 10 + (c.toNat - 48)) n =
      n * 10 ^ ds.length + ofDigits ds := by
    unfold ofDigits
    induction ds with
    | nil => simp
    | cons d ds ih =>
      intro n
      rw [List.foldl_cons, List.foldl_cons, ih, ih (0 * 10 + _), List.length_cons, pow_succ]
      ring
  unfold ofDigits
  rw [List.foldl_append]
  exact hfold _

theorem ofDigits_zeros (n : ℕ) : ofDigits (List.replicate n '0') = 0 := by
  induction n with
  | zero => rfl
  | succ n ih =>
    rw [List.replicate_succ]
    exact ih

/-- A power of ten at the end of a numeral. -/
def powerText (e : ℤ) : List Char := 'e' :: (if e < 0 then '-' else '+') :: digits e.natAbs

/-- Digits, more digits after a point, and a power of ten, of which the last two may be missing. -/
structure Numeral where
  whole : List Char
  fraction : Option (List Char)
  power : Option ℤ
  whole_ne_nil : whole ≠ []
  allDigits_whole : AllDigits whole
  allDigits_fraction : ∀ ds ∈ fraction, AllDigits ds

namespace Numeral

variable {n n' : Numeral}

/-- A numeral as it is written. -/
def text (n : Numeral) : List Char :=
  n.whole ++ ((n.fraction.map ('.' :: ·)).getD [] ++ (n.power.map powerText).getD [])

/-- The number that a numeral denotes. -/
def value (n : Numeral) : ℚ :=
  ofDigits (n.whole ++ n.fraction.getD []) * 10 ^ (n.power.getD 0 - (n.fraction.getD []).length)

/-- A numeral that is not just digits. -/
def Marked (n : Numeral) : Prop := n.fraction.isSome = true ∨ n.power.isSome = true

theorem digits_injective {k k' : ℕ} (h : digits k = digits k') : k = k' := by
  rw [← Document.ofDigits_digits k, h, Document.ofDigits_digits]

theorem powerText_injective {e e' : ℤ} (h : powerText e = powerText e') : e = e' := by
  unfold powerText at h
  obtain ⟨hsign, hdigits⟩ := List.cons.inj (List.cons.inj h).2
  have hsize := digits_injective hdigits
  split at hsign <;> split at hsign
  · omega
  · exact absurd hsign (by decide)
  · exact absurd hsign (by decide)
  · omega

/-- What follows digits in a numeral is not a digit. -/
theorem head?_powerText (power : Option ℤ) :
    ∀ c ∈ ((power.map powerText).getD []).head?, c.isDigit = false := by
  intro c hc
  cases power with
  | none => cases hc
  | some e =>
    cases hc
    rfl

theorem head?_fraction (fraction : Option (List Char)) (power : Option ℤ) :
    ∀ c ∈ ((fraction.map ('.' :: ·)).getD [] ++ (power.map powerText).getD []).head?,
      c.isDigit = false := by
  cases fraction with
  | none => exact head?_powerText power
  | some ds =>
    intro c hc
    cases hc
    rfl

theorem power_eq {power power' : Option ℤ}
    (h : (power.map powerText).getD [] = (power'.map powerText).getD []) : power = power' := by
  cases power <;> cases power'
  · rfl
  · exact nomatch h
  · exact nomatch h
  · exact congrArg some (powerText_injective h)

theorem ne_power (power : Option ℤ) (cs : List Char) :
    (power.map powerText).getD [] ≠ '.' :: cs := by
  cases power with
  | none => exact fun h => nomatch h
  | some e => exact fun h => absurd (List.cons.inj h).1 (by decide)

theorem fraction_eq {fraction fraction' : Option (List Char)} {power power' : Option ℤ}
    (hdigits : ∀ ds ∈ fraction, AllDigits ds) (hdigits' : ∀ ds ∈ fraction', AllDigits ds)
    (h : (fraction.map ('.' :: ·)).getD [] ++ (power.map powerText).getD [] =
      (fraction'.map ('.' :: ·)).getD [] ++ (power'.map powerText).getD []) :
    fraction = fraction' ∧ power = power' := by
  cases fraction with
  | none =>
    cases fraction' with
    | none => exact ⟨rfl, power_eq h⟩
    | some ds' => exact absurd h (ne_power power _)
  | some ds =>
    cases fraction' with
    | none => exact absurd h.symm (ne_power power' _)
    | some ds' =>
      obtain ⟨hds, htail⟩ := eq_of_append_eq (hdigits ds rfl) (hdigits' ds' rfl)
        (head?_powerText power) (head?_powerText power') (List.cons.inj h).2
      exact ⟨congrArg some hds, power_eq htail⟩

/-- A numeral is read in one way only: digits end where something else begins. -/
theorem eq_of_text_eq (h : n.text = n'.text) : n = n' := by
  obtain ⟨hwhole, hrest⟩ := eq_of_append_eq n.allDigits_whole n'.allDigits_whole
    (head?_fraction _ _) (head?_fraction _ _) h
  obtain ⟨hfraction, hpower⟩ := fraction_eq n.allDigits_fraction n'.allDigits_fraction hrest
  cases n
  cases n'
  dsimp only at hwhole hfraction hpower
  subst hwhole hfraction hpower
  rfl

/-- The characters that occur in numerals. -/
def isChar (c : Char) : Bool := c.isDigit || c == '.' || c == 'e' || c == '-' || c == '+'

theorem isChar_of_isDigit {c : Char} (h : c.isDigit = true) : isChar c = true := by
  unfold isChar
  rw [h]
  rfl

theorem isChar_of_mem {c : Char} (h : c ∈ n.text) : isChar c = true := by
  unfold text at h
  rcases List.mem_append.mp h with h | h
  · exact isChar_of_isDigit (n.allDigits_whole c h)
  rcases List.mem_append.mp h with h | h
  · cases hfraction : n.fraction with
    | none => simp [hfraction] at h
    | some ds =>
      rw [hfraction, Option.map_some, Option.getD_some, List.mem_cons] at h
      rcases h with rfl | h
      · rfl
      · exact isChar_of_isDigit (n.allDigits_fraction ds hfraction c h)
  · cases hpower : n.power with
    | none => simp [hpower] at h
    | some e =>
      rw [hpower, Option.map_some, Option.getD_some, powerText, List.mem_cons, List.mem_cons] at h
      rcases h with rfl | rfl | h
      · rfl
      · split <;> rfl
      · exact isChar_of_isDigit (allDigits_digits _ c h)

/-- A numeral begins with a digit. -/
theorem exists_cons (n : Numeral) : ∃ c cs, n.text = c :: cs ∧ c.isDigit = true := by
  unfold text
  cases hwhole : n.whole with
  | nil => exact absurd hwhole n.whole_ne_nil
  | cons c cs =>
    exact ⟨c, _, rfl, n.allDigits_whole c (hwhole ▸ List.mem_cons_self)⟩

end Numeral

/-- The numeral of a natural number. -/
def naturalNumeral (k : ℕ) : Numeral :=
  ⟨digits k, none, none, digits_ne_nil k, allDigits_digits k, fun _ h => nomatch h⟩

theorem text_naturalNumeral (k : ℕ) : (naturalNumeral k).text = digits k := List.append_nil _

/-- Zeros in front do not change a number. -/
theorem ofDigits_zeros_append (k : ℕ) (ds : List Char) :
    ofDigits (List.replicate k '0' ++ ds) = ofDigits ds := by
  rw [ofDigits_append, ofDigits_zeros, zero_mul, zero_add]

/-- Zeros at the end are a power of ten. -/
theorem ofDigits_append_zeros (k : ℕ) (ds : List Char) :
    ofDigits (ds ++ List.replicate k '0') = ofDigits ds * 10 ^ k := by
  rw [ofDigits_append, ofDigits_zeros, List.length_replicate, add_zero]

/-- A decimal below one has zeros behind the point. -/
theorem below_one_numeral (hds : AllDigits ds) (hne : ds ≠ []) {e : ℤ} (he : e < 0) :
    ∃ n : Numeral, n.text = ['0', '.'] ++ List.replicate (e.natAbs - 1) '0' ++ ds ∧
      n.value = ofDigits ds * 10 ^ (e - (ds.length - 1 : ℕ)) ∧ n.Marked := by
  have hlength := List.length_pos_iff.mpr hne
  have hfraction : ∀ cs ∈ some (List.replicate (e.natAbs - 1) '0' ++ ds), AllDigits cs := by
    rintro _ ⟨⟩
    exact (allDigits_zeros _).append hds
  refine ⟨⟨List.replicate 1 '0', _, none, by simp, allDigits_zeros 1, hfraction⟩,
    by simp [Numeral.text], ?_, .inl rfl⟩
  unfold Numeral.value
  dsimp only [Option.getD]
  rw [ofDigits_zeros_append, ofDigits_zeros_append, List.length_append, List.length_replicate]
  congr 2
  omega

/-- A whole decimal is filled up with zeros in front of the point. -/
theorem whole_numeral (keepPoint : Bool) (hds : AllDigits ds) (hne : ds ≠ []) {e : ℤ}
    (he : ds.length ≤ e.toNat + 1) (hpos : 0 ≤ e) : ∃ n : Numeral,
      n.text = ds ++ List.replicate (e.toNat + 1 - ds.length) '0' ++
        (if keepPoint then ['.', '0'] else []) ∧
      n.value = ofDigits ds * 10 ^ (e - (ds.length - 1 : ℕ)) ∧ (keepPoint = true → n.Marked) := by
  have hlength := List.length_pos_iff.mpr hne
  generalize hk : e.toNat + 1 - ds.length = k
  have hwhole : AllDigits (ds ++ List.replicate k '0') := hds.append (allDigits_zeros k)
  have hexponent : e - (ds.length - 1 : ℕ) = k := by omega
  rw [hexponent, zpow_natCast]
  cases keepPoint with
  | false =>
    refine ⟨⟨_, none, none, by simp [hne], hwhole, fun _ h => nomatch h⟩, rfl, ?_,
      fun h => nomatch h⟩
    unfold Numeral.value
    dsimp only [Option.getD]
    rw [List.append_nil, ofDigits_append_zeros]
    simp
  | true =>
    have hfraction : ∀ cs ∈ some (List.replicate 1 '0'), AllDigits cs := by
      rintro _ ⟨⟩
      exact allDigits_zeros 1
    refine ⟨⟨_, some (List.replicate 1 '0'), none, by simp [hne], hwhole, hfraction⟩, rfl, ?_,
      fun _ => .inl rfl⟩
    unfold Numeral.value
    dsimp only [Option.getD]
    rw [ofDigits_append_zeros, ofDigits_append_zeros]
    simp

/-- Another decimal has its point between its digits. -/
theorem pointed_numeral (hds : AllDigits ds) {k : ℕ} (hk : 0 < k) (hlt : k < ds.length) :
    ∃ n : Numeral, n.text = ds.take k ++ '.' :: ds.drop k ∧
      n.value = ofDigits ds * 10 ^ ((k : ℤ) - ds.length) ∧ n.Marked := by
  have hwhole : AllDigits (ds.take k) := fun c hc => hds c (List.mem_of_mem_take hc)
  have hfraction : ∀ cs ∈ some (ds.drop k), AllDigits cs := by
    rintro _ ⟨⟩
    exact fun c hc => hds c (List.mem_of_mem_drop hc)
  have hne : ds.take k ≠ [] := by
    rw [← List.length_pos_iff, List.length_take]
    omega
  refine ⟨⟨_, _, none, hne, hwhole, hfraction⟩, by simp [Numeral.text], ?_, .inl rfl⟩
  unfold Numeral.value
  dsimp only [Option.getD]
  rw [List.take_append_drop, List.length_drop]
  congr 2
  omega

theorem positional_numeral (keepPoint : Bool) (hds : AllDigits ds) (hne : ds ≠ []) (e : ℤ) :
    ∃ n : Numeral, n.text = positionalText keepPoint ds e ∧
      n.value = ofDigits ds * 10 ^ (e - (ds.length - 1 : ℕ)) ∧ (keepPoint = true → n.Marked) := by
  unfold positionalText
  split
  · next hneg =>
    obtain ⟨n, htext, hvalue, hmarked⟩ := below_one_numeral hds hne hneg
    exact ⟨n, htext, hvalue, fun _ => hmarked⟩
  · next hpos =>
    dsimp only
    simp only [List.isEmpty_iff, List.drop_eq_nil_iff]
    split
    · next hle =>
      obtain ⟨n, htext, hn⟩ := whole_numeral keepPoint hds hne hle (by omega)
      refine ⟨n, htext.trans ?_, hn⟩
      rw [List.take_of_length_le hle]
      split <;> simp
    · next hlt =>
      have hlt : e.toNat + 1 < ds.length := Nat.lt_of_not_le hlt
      obtain ⟨n, htext, hvalue, hmarked⟩ := pointed_numeral hds (Nat.succ_pos e.toNat) hlt
      refine ⟨n, htext.trans ?_, hvalue.trans ?_, fun _ => hmarked⟩
      · simp [Nat.sub_eq_zero_of_le hlt.le]
      · congr 2
        omega

theorem exponent_numeral {ds : List Char} (hds : AllDigits ds) (hne : ds ≠ []) (e : ℤ) :
    ∃ n : Numeral, n.text = exponentText ds e ∧
      n.value = ofDigits ds * 10 ^ (e - (ds.length - 1 : ℕ)) ∧ n.Marked := by
  cases ds with
  | nil => exact absurd rfl hne
  | cons d ds =>
    cases ds with
    | nil =>
      refine ⟨⟨[d], none, some e, hne, hds, fun _ h => nomatch h⟩, rfl, rfl, .inr rfl⟩
    | cons d' ds =>
      have hfraction : ∀ cs ∈ some (d' :: ds), AllDigits cs := by
        rintro _ ⟨⟩
        exact fun c hc => hds c (List.mem_cons_of_mem _ hc)
      have hwhole : AllDigits [d] := fun c hc => hds c (by simp_all)
      refine ⟨⟨[d], some (d' :: ds), some e, by simp, hwhole, hfraction⟩, rfl, rfl, .inl rfl⟩

/-- The text of a decimal is a numeral that denotes it, in every notation. -/
theorem exists_numeral (l : Layout) (d : Digits) :
    ∃ n : Numeral, n.text = l.text d ∧ n.value = d.value ∧ (l.keepPoint = true → n.Marked) := by
  have hvalue : d.value = ofDigits (digits d.coefficient) * 10 ^
      (d.exponent + ((digits d.coefficient).length - 1 : ℕ) -
        ((digits d.coefficient).length - 1 : ℕ)) := by
    rw [Document.ofDigits_digits, add_sub_cancel_right]
    rfl
  rw [hvalue]
  unfold Layout.text
  dsimp only
  split
  · exact positional_numeral _ (allDigits_digits _) (digits_ne_nil _) _
  · obtain ⟨n, htext, hvalue, hmarked⟩ :=
      exponent_numeral (allDigits_digits _) (digits_ne_nil d.coefficient) _
    exact ⟨n, htext, hvalue, fun _ => hmarked⟩

end ClusterScaler.Decimal
