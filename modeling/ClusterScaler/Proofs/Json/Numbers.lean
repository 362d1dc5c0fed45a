import ClusterScaler.Json.Printer
import ClusterScaler.Proofs.Decimal.Doubles
import ClusterScaler.Proofs.Decimal.Numerals

/-!
# Texts of numbers

A finite number is written as a numeral, with or without a sign. Numerals that are just digits belong to
whole numbers, the others to doubles, and of either kind different numbers have different ones. So a
finite number is known by its text (`JsonNumber.eq_of_text_eq`).
-/

set_option autoImplicit false

namespace ClusterScaler

open Decimal

namespace JsonNumber

variable {n n' : JsonNumber} {negative negative' : Bool} {t t' : Numeral}

/-- A number that is not an infinity, nor what is not a number. -/
def Finite : JsonNumber → Prop
  | .double x => x.isFinite = true
  | _ => True

theorem text_of_not_finite {x : Float} (h : x.isFinite = false) : (double x).text = "null" := by
  have hrender : exchange.render? x = none := by
    unfold Layout.render?
    split
    · next v hv =>
      rw [isFinite_iff_classify.mpr ⟨v, hv⟩] at h
      cases h
    · rfl
  rw [text, hrender]
  rfl

/-- The sign and the numeral of a number. -/
inductive Written : JsonNumber → Bool → Numeral → Prop where
  | natural (k : ℕ) : Written (.natural k) false (naturalNumeral k)
  | negative (k : ℕ) : Written (.negative k) true (naturalNumeral k)
  | double {x : Float} {v : Binary} {t : Numeral} (hx : classify x = .finite v) (hmarked : t.Marked)
    (hvalue : t.value = (shortest v.significand v.exponent).value) :
    Written (.double x) v.negative t

/-- A numeral after its sign. -/
def signed (negative : Bool) (t : Numeral) : List Char := if negative then '-' :: t.text else t.text

theorem signed_injective (h : signed negative t = signed negative' t') :
    negative = negative' ∧ t = t' := by
  have hfirst : ∀ (t t' : Numeral), '-' :: t.text ≠ t'.text := by
    intro t t' heq
    obtain ⟨c, cs, htext, hc⟩ := t'.exists_cons
    rw [htext] at heq
    rw [← (List.cons.inj heq).1] at hc
    exact absurd hc (by decide)
  unfold signed at h
  cases negative <;> cases negative'
  · exact ⟨rfl, Numeral.eq_of_text_eq h⟩
  · exact absurd h.symm (hfirst t' t)
  · exact absurd h (hfirst t t')
  · exact ⟨rfl, Numeral.eq_of_text_eq (List.cons.inj h).2⟩

/-- A finite number is written as its sign and its numeral. -/
theorem exists_written (h : n.Finite) :
    ∃ negative t, n.Written negative t ∧ n.text.toList = signed negative t := by
  cases n with
  | natural k =>
    refine ⟨_, _, .natural k, ?_⟩
    rw [text, String.toList_ofList, ← text_naturalNumeral]
    rfl
  | negative k =>
    refine ⟨_, _, .negative k, ?_⟩
    rw [text, String.toList_ofList, ← text_naturalNumeral]
    rfl
  | double x =>
    obtain ⟨v, hv⟩ := isFinite_iff_classify.mp h
    obtain ⟨t, htext, hvalue, hmarked⟩ :=
      exists_numeral exchange (shortest v.significand v.exponent)
    refine ⟨_, t, .double hv (hmarked rfl) hvalue, ?_⟩
    rw [text, Layout.render?, hv]
    dsimp only [Option.getD_some]
    rw [String.toList_ofList, ← htext]
    rfl

theorem naturalNumeral_injective {k k' : ℕ} (h : naturalNumeral k = naturalNumeral k') : k = k' :=
  Numeral.digits_injective (congrArg Numeral.whole h)

theorem not_marked_naturalNumeral (k : ℕ) : ¬ (naturalNumeral k).Marked := by
  unfold Numeral.Marked naturalNumeral
  simp

/-- A number is known by its sign and its numeral. -/
theorem Written.eq (h : n.Written negative t) (h' : n'.Written negative' t')
    (hsign : negative = negative') (ht : t = t') : n = n' := by
  cases h with
  | natural k =>
    cases h' with
    | natural k' => exact congrArg _ (naturalNumeral_injective ht)
    | negative k' => cases hsign
    | double _ hmarked => exact absurd (ht ▸ hmarked) (not_marked_naturalNumeral k)
  | negative k =>
    cases h' with
    | natural k' => cases hsign
    | negative k' => exact congrArg _ (naturalNumeral_injective ht)
    | double _ hmarked => exact absurd (ht ▸ hmarked) (not_marked_naturalNumeral k)
  | @double x v _ hx hmarked hvalue =>
    cases h' with
    | natural k' => exact absurd (ht ▸ hmarked) (not_marked_naturalNumeral k')
    | negative k' => exact absurd (ht ▸ hmarked) (not_marked_naturalNumeral k')
    | @double x' v' _ hx' _ hvalue' =>
      rw [ht, hvalue'] at hvalue
      obtain ⟨hm, hq⟩ :=
        eq_of_value_shortest_eq (normal_of_classify hx') (normal_of_classify hx) hvalue
      have hv : v = v' := by
        cases v
        cases v'
        simp_all
      rw [eq_of_classify_eq hx (hv ▸ hx')]

/-- A finite number is known by its text. -/
theorem eq_of_text_eq (hn : n.Finite) (hn' : n'.Finite) (h : n.text = n'.text) : n = n' := by
  obtain ⟨negative, t, hwritten, htext⟩ := exists_written hn
  obtain ⟨negative', t', hwritten', htext'⟩ := exists_written hn'
  rw [h, htext'] at htext
  obtain ⟨hsign, ht⟩ := signed_injective htext
  exact hwritten.eq hwritten' hsign.symm ht.symm

end JsonNumber

end ClusterScaler
