import ClusterScaler.Decimal.Reading
import ClusterScaler.Json.Document
import ClusterScaler.Json.Printer

/-!
# Tokens of JSON texts

Reading a string or a natural number that was written gives it back, and stops where it ends.
-/

set_option autoImplicit false

namespace ClusterScaler.Document

open Json

/-- The escape of a control character reads as its number. -/
theorem hex4_read : ∀ n < 32, ∃ a b c d, hex4 n = [a, b, c, d] ∧ codeUnit a b c d = some n := by
  have h : ∀ n < 32, hex4 n = [(hex4 n).getD 0 '0', (hex4 n).getD 1 '0', (hex4 n).getD 2 '0',
        (hex4 n).getD 3 '0'] ∧
      codeUnit ((hex4 n).getD 0 '0') ((hex4 n).getD 1 '0') ((hex4 n).getD 2 '0')
        ((hex4 n).getD 3 '0') = some n := by
    decide
  exact fun n hn => ⟨_, _, _, _, h n hn⟩

/-- A character that needs no escape stands for itself. -/
theorem stringBody_cons {c : Char} {out rest : List Char} (hquote : c ≠ '"') (hslash : c ≠ '\\')
    (hlow : ¬ c.toNat < 32) : stringBody out (c :: rest) = stringBody (c :: out) rest := by
  rw [stringBody.eq_def]
  split
  · next heq => cases heq
  · next heq => exact absurd (List.cons.inj heq).1 hquote
  · next heq => exact absurd (List.cons.inj heq).1 hslash
  · next heq => exact absurd (List.cons.inj heq).1 hslash
  · next heq =>
    obtain ⟨rfl, rfl⟩ := List.cons.inj heq
    rw [if_neg hlow]

/-- The escape of a character reads as the character. -/
theorem stringBody_escapeChar (c : Char) (out rest : List Char) :
    stringBody out (escapeChar c ++ rest) = stringBody (c :: out) rest := by
  unfold escapeChar
  split
  · next h => subst h; rfl
  split
  · next h => subst h; rfl
  split
  · next h => subst h; rfl
  split
  · next h => subst h; rfl
  split
  · next h => subst h; rfl
  split
  · next h => subst h; rfl
  split
  · next h => subst h; rfl
  split
  · next hlow =>
    obtain ⟨a, b, x, d, hhex, hunit⟩ := hex4_read c.toNat hlow
    rw [hhex]
    simp only [List.cons_append, List.nil_append, stringBody, hunit]
    rw [if_neg (by simp; omega), if_neg (by simp; omega), Char.ofNat_toNat]
  · next hquote hslash _ _ _ _ _ hlow => exact stringBody_cons hquote hslash hlow

theorem stringBody_flatMap (cs out rest : List Char) :
    stringBody out (cs.flatMap escapeChar ++ '"' :: rest) =
      some (String.ofList (out.reverse ++ cs), rest) := by
  induction cs generalizing out with
  | nil => simp [stringBody]
  | cons c cs ih =>
    rw [List.flatMap_cons, List.append_assoc, stringBody_escapeChar, ih]
    simp

/-- A string that was written is read back, up to its closing quote. -/
theorem stringBody_text (s : String) (rest : List Char) :
    stringBody [] (s.toList.flatMap escapeChar ++ '"' :: rest) = some (s, rest) := by
  rw [stringBody_flatMap]
  simp

/-- A text in front of which a number ends. -/
def NumberEnd (rest : List Char) : Prop :=
  ∀ c ∈ rest.head?, c.isDigit = false ∧ c ≠ '.' ∧ c ≠ 'e' ∧ c ≠ 'E'

theorem digitRun_append {ds rest : List Char} (hds : ∀ c ∈ ds, c.isDigit = true)
    (hrest : NumberEnd rest) :
    digitRun (ds ++ rest) = (ds.map (fun c => c.toNat - 48), rest) := by
  have hstop : rest.takeWhile Char.isDigit = [] ∧ rest.dropWhile Char.isDigit = rest := by
    cases rest with
    | nil => exact ⟨rfl, rfl⟩
    | cons c cs =>
      have hc : c.isDigit = false := (hrest c rfl).1
      simp [hc]
  unfold digitRun
  rw [List.takeWhile_append_of_pos hds, List.dropWhile_append_of_pos hds, hstop.1, hstop.2,
    List.append_nil]

/-- Digits to come do not make a number smaller. -/
theorem le_foldl_digits (ds : List Nat) (s : Nat) : s ≤ ds.foldl (fun n d => n * 10 + d) s := by
  induction ds generalizing s with
  | nil => exact Nat.le_refl s
  | cons d rest ih =>
    have := ih (s * 10 + d)
    rw [List.foldl_cons]
    omega

/-- Digits whose number fits are all taken. -/
theorem absorb_of_lt {ds : List Nat} {s : Nat}
    (h : ds.foldl (fun n d => n * 10 + d) s < Nat.pow 2 64) :
    absorb s ds = (ds.foldl (fun n d => n * 10 + d) s, ds.length, 0) := by
  induction ds generalizing s with
  | nil => rfl
  | cons d rest ih =>
    rw [List.foldl_cons] at h
    unfold absorb
    rw [if_pos (Nat.lt_of_le_of_lt (le_foldl_digits rest _) h), ih h]
    rfl

/-- The digits of a number denote it. -/
theorem foldl_digits (n : Nat) :
    ((Decimal.digits n).map (fun c => c.toNat - 48)).foldl (fun n d => n * 10 + d) 0 = n := by
  have hread := Nat.ofDigitChars_ten_toDigits (n := n)
  unfold Nat.ofDigitChars at hread
  rw [List.foldl_map]
  simpa [Nat.mul_comm, Decimal.digits] using hread

theorem ofDigits_digits (n : Nat) : Decimal.ofDigits (Decimal.digits n) = n := by
  have hvalue := foldl_digits n
  rw [List.foldl_map] at hvalue
  exact hvalue

theorem isDigit_digits {n : Nat} {c : Char} (h : c ∈ Decimal.digits n) : c.isDigit = true :=
  Nat.isDigit_of_mem_toDigits (by decide) (by decide) h

/-- The digits of a positive number do not begin with zero. -/
theorem head_digits {n : Nat} (hn : 0 < n) :
    ((Decimal.digits n).map (fun c => c.toNat - 48)).head? ≠ some 0 := by
  unfold Decimal.digits
  induction n using Nat.strongRecOn with
  | ind n ih =>
    by_cases hlt : n < 10
    · have hall : ∀ m < 10, 0 < m → ([m.digitChar].map (fun c => c.toNat - 48)).head? ≠ some 0 := by
        decide
      rw [Nat.toDigits_of_lt_base hlt]
      exact hall n hlt hn
    · have hfront := ih (n / 10) (by omega) (by omega)
      rw [Nat.toDigits_of_base_le (by decide) (by omega), List.map_append]
      cases hds : Nat.toDigits 10 (n / 10) with
      | nil => exact absurd hds Nat.toDigits_ne_nil
      | cons c cs =>
        rw [hds] at hfront
        exact hfront

theorem noLeadingZero (n : Nat) :
    (((Decimal.digits n).map (fun c => c.toNat - 48)).head? == some 0 &&
      decide (1 < ((Decimal.digits n).map (fun c => c.toNat - 48)).length)) = false := by
  by_cases hzero : n = 0
  · subst hzero
    rfl
  · rw [beq_eq_false_iff_ne.mpr (head_digits (Nat.pos_of_ne_zero hzero)), Bool.false_and]

theorem number_digits {n : Nat} {rest : List Char} (hn : n < Nat.pow 2 64)
    (hrest : NumberEnd rest) :
    number false (Decimal.digits n ++ rest) = (.num (.natural n), some rest) := by
  have habsorb : absorb 0 ((Decimal.digits n).map (fun c => c.toNat - 48)) = _ :=
    absorb_of_lt (by rw [foldl_digits]; exact hn)
  rw [foldl_digits] at habsorb
  have hempty : ((Decimal.digits n).map (fun c => c.toNat - 48)).isEmpty = false := by
    rw [List.isEmpty_eq_false_iff, ne_eq, List.map_eq_nil_iff]
    exact Nat.toDigits_ne_nil
  have hfraction : fractionPart rest = some ([], rest, false) := by
    cases rest with
    | nil => rfl
    | cons c cs =>
      have hc := (hrest c rfl).2.1
      unfold fractionPart
      split
      · next heq => exact absurd (List.cons.inj heq).1 hc
      · rfl
  have hexponent : exponentPart rest = some (0, rest, false) := by
    cases rest with
    | nil => rfl
    | cons c cs =>
      have hc := (hrest c rfl).2.2
      unfold exponentPart
      simp [hc]
  have hread : number? false (Decimal.digits n ++ rest) = some (.num (.natural n), rest) := by
    unfold number?
    simp only [digitRun_append (fun _ => isDigit_digits) hrest, hempty, noLeadingZero, hfraction,
      habsorb]
    simp [hexponent]
  unfold number
  rw [hread]

end ClusterScaler.Document
