import ClusterScaler.Proofs.Decimal.Numerals
import ClusterScaler.Proofs.Pool.Identity
import Mathlib.Data.List.TakeWhile

/-!
# Other spellings of a node's identifier

The digits of a generation are written in one way and read in many: a plus sign and zeros may stand in
front (`readNat?_eq_some_iff`). An identifier leads to the host of a listed node exactly if it is a
spelling of that node's identifier (`HostPool.answersFor_iff_spells`). So a pool answers for more identifiers
than it lists, and for which ones is said exactly (`HostPool.answers_as_listed_iff`).
-/

set_option autoImplicit false

namespace ClusterScaler

open Decimal

/-- A text of a number: its digits, with zeros in front of them, and perhaps a plus sign. -/
def numberText (plus : Bool) (zeros n : Nat) : String :=
  String.ofList ((if plus then ['+'] else []) ++ (List.replicate zeros '0' ++ digits n))

theorem digitChar_of_isDigit {c : Char} (h : c.isDigit = true) :
    c.toNat - 48 < 10 ∧ Nat.digitChar (c.toNat - 48) = c := by
  obtain ⟨hlow, hhigh⟩ : 48 ≤ c.toNat ∧ c.toNat ≤ 57 := Char.isDigit_iff_toNat.mp h
  have hlt : c.toNat - 48 < 10 := by omega
  refine ⟨hlt, Char.toNat_inj.mp ?_⟩
  rw [Nat.toNat_digitChar_of_lt_ten hlt]
  omega

/-- A row of digits is the digits of its number with zeros in front. -/
theorem exists_zeros {ds : List Char} (hne : ds ≠ []) (hds : AllDigits ds) :
    ∃ zeros, ds = List.replicate zeros '0' ++ digits (ofDigits ds) := by
  -- from the end of the row, where the digits of a number grow
  induction ds using List.reverseRecOn with
  | nil => exact absurd rfl hne
  | append_singleton cs c ih =>
    have hc : c.isDigit = true := hds c (List.mem_append_right _ (List.mem_singleton_self c))
    have hcs : AllDigits cs := fun d hd => hds d (List.mem_append_left _ hd)
    obtain ⟨hlt, hchar⟩ := digitChar_of_isDigit hc
    have hlast : digits (c.toNat - 48) = [c] := by
      rw [digits, Nat.toDigits_of_lt_base hlt, hchar]
    have hvalue : ofDigits (cs ++ [c]) = 10 * ofDigits cs + (c.toNat - 48) := by
      rw [ofDigits_append]
      simp [ofDigits, Nat.mul_comm]
    rw [hvalue]
    by_cases hempty : cs = []
    · subst hempty
      exact ⟨0, by simp [ofDigits, hlast]⟩
    · obtain ⟨zeros, hfront⟩ := ih hempty hcs
      by_cases hzero : ofDigits cs = 0
      · refine ⟨zeros + 1, ?_⟩
        rw [hzero, Nat.mul_zero, Nat.zero_add, hlast]
        rw [hzero] at hfront
        rw [hfront, List.replicate_succ']
        rfl
      · refine ⟨zeros, ?_⟩
        have hgrow := Nat.toDigits_append_toDigits (b := 10) (n := ofDigits cs)
          (d := c.toNat - 48) (by decide) (Nat.pos_of_ne_zero hzero) hlt
        have hdigits : digits (10 * ofDigits cs + (c.toNat - 48)) = digits (ofDigits cs) ++ [c] := by
          rw [← hlast]
          exact hgrow.symm
        rw [hdigits, ← List.append_assoc, ← hfront]

/-- A row of digits denotes a number exactly if it is the digits of it with zeros in front. -/
theorem denotes_iff {ds : List Char} {n : Nat} : ds ≠ [] ∧ AllDigits ds ∧ ofDigits ds = n ↔
    ∃ zeros, ds = List.replicate zeros '0' ++ digits n := by
  constructor
  · rintro ⟨hne, hds, rfl⟩
    exact exists_zeros hne hds
  · rintro ⟨zeros, rfl⟩
    refine ⟨?_, (allDigits_zeros zeros).append (allDigits_digits n), ?_⟩
    · exact List.append_ne_nil_of_right_ne_nil _ (digits_ne_nil n)
    · rw [ofDigits_zeros_append, Document.ofDigits_digits]

/-- The characters behind a plus sign, or all of them. -/
def withoutPlus : List Char → List Char
  | '+' :: rest => rest
  | cs => cs

theorem exists_plus (cs : List Char) :
    ∃ plus : Bool, cs = (if plus then ['+'] else []) ++ withoutPlus cs := by
  unfold withoutPlus
  split
  · exact ⟨true, rfl⟩
  · exact ⟨false, rfl⟩

theorem withoutPlus_append {ds : List Char} (hds : AllDigits ds) (plus : Bool) :
    withoutPlus ((if plus then ['+'] else []) ++ ds) = ds := by
  cases plus with
  | true => rfl
  | false =>
    show withoutPlus ds = ds
    unfold withoutPlus
    split
    · exact absurd (hds '+' List.mem_cons_self) (by decide)
    · rfl

theorem readNat?_eq_some_iff_withoutPlus {bits n : Nat} {s : String} :
    readNat? bits s = some n ↔ n < Nat.pow 2 bits ∧ withoutPlus s.toList ≠ [] ∧
      AllDigits (withoutPlus s.toList) ∧ ofDigits (withoutPlus s.toList) = n := by
  have hread : readNat? bits s =
      if (withoutPlus s.toList).isEmpty || !(withoutPlus s.toList).all Char.isDigit then none
      else if ofDigits (withoutPlus s.toList) < Nat.pow 2 bits then
        some (ofDigits (withoutPlus s.toList))
      else none := rfl
  rw [hread, AllDigits]
  generalize withoutPlus s.toList = ds
  constructor
  · intro h
    split at h
    · cases h
    · next hdigits =>
      split at h
      · next hfits =>
        obtain rfl := Option.some.inj h
        simp only [Bool.or_eq_true, List.isEmpty_iff, Bool.not_eq_true', not_or,
          Bool.not_eq_false, List.all_eq_true] at hdigits
        exact ⟨hfits, hdigits.1, hdigits.2, rfl⟩
      · cases h
  · rintro ⟨hfits, hne, hds, rfl⟩
    have hall : ds.all Char.isDigit = true := List.all_eq_true.mpr hds
    rw [List.isEmpty_eq_false_iff.mpr hne, hall, if_neg (by decide), if_pos hfits]

/-- A text is read as a number exactly if it is a text of it, and the number fits. -/
theorem readNat?_eq_some_iff {bits n : Nat} {s : String} :
    readNat? bits s = some n ↔ n < Nat.pow 2 bits ∧ ∃ plus zeros, s = numberText plus zeros n := by
  rw [readNat?_eq_some_iff_withoutPlus, denotes_iff]
  refine and_congr_right fun _ => ?_
  constructor
  · rintro ⟨zeros, hds⟩
    obtain ⟨plus, htext⟩ := exists_plus s.toList
    refine ⟨plus, zeros, String.toList_injective ?_⟩
    rw [numberText, String.toList_ofList, ← hds]
    exact htext
  · rintro ⟨plus, zeros, rfl⟩
    refine ⟨zeros, ?_⟩
    rw [numberText, String.toList_ofList]
    exact withoutPlus_append ((allDigits_zeros zeros).append (allDigits_digits n)) plus

theorem hash_notMem_numberText (plus : Bool) (zeros n : Nat) :
    '#' ∉ (numberText plus zeros n).toList := by
  have hzeros : '#' ∉ List.replicate zeros '0' := fun h =>
    absurd (List.eq_of_mem_replicate h) (by decide)
  have hdigits : '#' ∉ digits n := fun h => absurd (Document.isDigit_digits h) (by decide)
  rw [numberText, String.toList_ofList]
  cases plus <;> simp [hzeros, hdigits]

namespace NodeId

/-- A spelling of the identifier that has an address and a generation. -/
def spelling (address : String) (plus : Bool) (zeros generation : Nat) : NodeId :=
  ⟨address ++ "#" ++ numberText plus zeros generation⟩

/-- An identifier spells the identifier of a node: it has the same address, and behind it a text of the
same generation. -/
def Spells (id known : NodeId) : Prop := ∃ address, ∃ r : HostRecord, ∃ plus zeros,
  known = r.nodeId address ∧ id = spelling address plus zeros r.generation

theorem Spells.refl (r : HostRecord) (address : String) :
    (r.nodeId address).Spells (r.nodeId address) := ⟨address, r, false, 0, rfl, rfl⟩

end NodeId

namespace HostPool

variable {p : HostPool} {id : NodeId} {address : String} {generation : Nat}

/-- An identifier is cut at its last separator. -/
theorem splitId_eq_some_iff_cut : splitId id = some (address, generation) ↔
    ∃ word : String, '#' ∉ word.toList ∧ id.text = address ++ "#" ++ word ∧
      readNat? 64 word = some generation := by
  have hcut : ∀ front back : List Char, '#' ∉ back → id.text.toList = front ++ '#' :: back →
      splitId id = (readNat? 64 (String.ofList back)).map (String.ofList front, ·) := by
    intro front back hback htext
    have hreverse : id.text.toList.reverse = back.reverse ++ '#' :: front.reverse := by
      simp [htext]
    have htail : id.text.toList.reverse.takeWhile (· != '#') = back.reverse := by
      rw [hreverse, List.takeWhile_append_of_pos, List.takeWhile_cons_of_neg (by simp),
        List.append_nil]
      intro c hc
      rw [bne_iff_ne]
      rintro rfl
      exact hback (List.mem_reverse.mp hc)
    unfold splitId
    dsimp only
    rw [htail, hreverse, List.drop_left]
    dsimp only
    rw [List.reverse_reverse, List.reverse_reverse]
  constructor
  · intro h
    by_cases hmem : '#' ∈ id.text.toList.reverse
    · obtain ⟨back, front, hreverse, hback⟩ := List.eq_append_cons_of_mem hmem
      have htext : id.text.toList = front.reverse ++ '#' :: back.reverse := by
        rw [← List.reverse_reverse id.text.toList, hreverse]
        simp
      have hback' : '#' ∉ back.reverse := fun h => hback (List.mem_reverse.mp h)
      rw [hcut _ _ hback' htext, Option.map_eq_some_iff] at h
      obtain ⟨g, hread, hpair⟩ := h
      obtain ⟨rfl, rfl⟩ := Prod.mk.inj hpair
      refine ⟨String.ofList back.reverse, by simpa using hback, ?_, hread⟩
      apply String.toList_injective
      simp [htext]
    · have hwhole : id.text.toList.reverse.takeWhile (· != '#') = id.text.toList.reverse := by
        have hother : ∀ c ∈ id.text.toList.reverse, (c != '#') = true :=
          fun c hc => bne_iff_ne.mpr fun heq => hmem (heq ▸ hc)
        exact List.takeWhile_eq_self_iff.mpr hother
      unfold splitId at h
      dsimp only at h
      rw [hwhole, List.drop_length] at h
      cases h
  · rintro ⟨word, hword, htext, hread⟩
    have htext' : id.text.toList = address.toList ++ '#' :: word.toList := by simp [htext]
    rw [hcut _ _ hword htext', String.ofList_toList, String.ofList_toList, hread, Option.map_some]

/-- An identifier is read as an address and a generation exactly if it is a spelling of the two. -/
theorem splitId_eq_some_iff : splitId id = some (address, generation) ↔
    generation < Nat.pow 2 64 ∧ ∃ plus zeros, id = NodeId.spelling address plus zeros generation := by
  rw [splitId_eq_some_iff_cut]
  constructor
  · rintro ⟨word, -, htext, hread⟩
    obtain ⟨hfits, plus, zeros, rfl⟩ := readNat?_eq_some_iff.mp hread
    exact ⟨hfits, plus, zeros, congrArg NodeId.mk htext⟩
  · rintro ⟨hfits, plus, zeros, rfl⟩
    exact ⟨_, hash_notMem_numberText plus zeros generation, rfl,
      readNat?_eq_some_iff.mpr ⟨hfits, plus, zeros, rfl⟩⟩

/-- A pool answers for an identifier as for a running node, which has tags. -/
def AnswersFor (p : HostPool) (id : NodeId) : Prop :=
  p.isRunning id = .ok true ∧ ∃ tags, p.nodeTags id = .ok tags

/-- No generation in a pool is too large for its field. -/
def Fits (p : HostPool) : Prop :=
  ∀ address r, p.hosts.get? address = some r → r.generation < Nat.pow 2 64

theorem isRunning_eq_ok_true_iff : p.isRunning id = .ok true ↔ ∃ address r,
    p.hosts.get? address = some r ∧ r.state = .running ∧
      splitId id = some (address, r.generation) := by
  constructor
  · intro h
    unfold isRunning at h
    cases hlookup : p.lookup id with
    | error e =>
      rw [hlookup] at h
      cases h
    | ok found =>
      obtain ⟨address, r, generation⟩ := found
      obtain ⟨hid, hr⟩ := lookup_eq_ok_iff.mp hlookup
      rw [hlookup] at h
      obtain ⟨hstate, rfl⟩ := isLive_iff.mp (Except.ok.inj h)
      exact ⟨address, r, hr, hstate, hid⟩
  · rintro ⟨address, r, hr, hstate, hid⟩
    rw [isRunning_of_splitId hid hr, isLive_iff.mpr ⟨hstate, rfl⟩]

/-- A node that runs has tags. -/
theorem answersFor_iff : p.AnswersFor id ↔ ∃ address r,
    p.hosts.get? address = some r ∧ r.state = .running ∧
      splitId id = some (address, r.generation) := by
  constructor
  · exact fun h => isRunning_eq_ok_true_iff.mp h.1
  · rintro ⟨address, r, hr, hstate, hid⟩
    exact ⟨isRunning_eq_ok_true_iff.mpr ⟨address, r, hr, hstate, hid⟩, r.tags,
      nodeTags_of_splitId hid hr (isLive_iff.mpr ⟨hstate, rfl⟩)⟩

theorem mem_listNodes_empty_iff : id ∈ p.listNodes ∅ ↔ ∃ address r,
    p.hosts.get? address = some r ∧ r.state = .running ∧ id = r.nodeId address := by
  rw [mem_listNodes_iff]
  constructor
  · rintro ⟨address, r, hr, hstate, -, hid⟩
    exact ⟨address, r, hr, hstate, hid⟩
  · rintro ⟨address, r, hr, hstate, hid⟩
    exact ⟨address, r, hr, hstate, rfl, hid⟩

/-- A pool answers for the spellings of the identifiers that it lists. -/
theorem answersFor_iff_spells (hfits : p.Fits) :
    p.AnswersFor id ↔ ∃ known ∈ p.listNodes ∅, id.Spells known := by
  rw [answersFor_iff]
  constructor
  · rintro ⟨address, r, hr, hstate, hid⟩
    obtain ⟨-, plus, zeros, rfl⟩ := splitId_eq_some_iff.mp hid
    exact ⟨r.nodeId address, mem_listNodes_empty_iff.mpr ⟨address, r, hr, hstate, rfl⟩,
      address, r, plus, zeros, rfl, rfl⟩
  · rintro ⟨known, hlisted, address, r, plus, zeros, rfl, rfl⟩
    obtain ⟨address', r', hr', hstate, hsame⟩ := mem_listNodes_empty_iff.mp hlisted
    obtain ⟨rfl, hgeneration⟩ := HostRecord.nodeId_inj.mp hsame
    refine ⟨address, r', hr', hstate, splitId_eq_some_iff.mpr ⟨hfits _ _ hr', plus, zeros, ?_⟩⟩
    rw [hgeneration]

/-- A listed identifier spells no other listed one. -/
theorem eq_of_spells {known : NodeId} (hid : id ∈ p.listNodes ∅) (hspells : id.Spells known)
    (hknown : known ∈ p.listNodes ∅) (hfits : p.Fits) : id = known := by
  obtain ⟨address, r, plus, zeros, rfl, hspelled⟩ := hspells
  obtain ⟨address₁, r₁, hr₁, -, rfl⟩ := mem_listNodes_empty_iff.mp hid
  obtain ⟨address₂, r₂, hr₂, -, hsame⟩ := mem_listNodes_empty_iff.mp hknown
  obtain ⟨rfl, hgeneration⟩ := HostRecord.nodeId_inj.mp hsame
  have hread : splitId (r₁.nodeId address₁) = some (address, r.generation) :=
    splitId_eq_some_iff.mpr ⟨hgeneration ▸ hfits _ _ hr₂, plus, zeros, hspelled⟩
  rw [HostRecord.splitId_nodeId (hfits _ _ hr₁)] at hread
  obtain ⟨haddress, hgeneration₁⟩ := Prod.mk.inj (Option.some.inj hread)
  exact HostRecord.nodeId_inj.mpr ⟨haddress, hgeneration₁⟩

/-- The identifier of a host names the address and the generation of the host, whatever the address. A
pool answers for an identifier exactly if it spells a listed one. So it answers for an identifier as it
lists it, unless the identifier is a listed one in another spelling. -/
theorem answers_as_listed_iff (hfits : p.Fits) :
    (∀ address, ∀ r : HostRecord, r.generation < Nat.pow 2 64 →
      splitId (r.nodeId address) = some (address, r.generation)) ∧
    ∀ id, (p.AnswersFor id ↔ ∃ known ∈ p.listNodes ∅, id.Spells known) ∧
      ((p.AnswersFor id ↔ id ∈ p.listNodes ∅) ↔
        ¬ ∃ known ∈ p.listNodes ∅, id ≠ known ∧ id.Spells known) := by
  refine ⟨fun address r => HostRecord.splitId_nodeId, fun id => ⟨answersFor_iff_spells hfits, ?_⟩⟩
  constructor
  · rintro hexact ⟨known, hknown, hne, hspells⟩
    have hlisted := hexact.mp ((answersFor_iff_spells hfits).mpr ⟨known, hknown, hspells⟩)
    exact hne (eq_of_spells hlisted hspells hknown hfits)
  · intro hnone
    constructor
    · intro hanswers
      obtain ⟨known, hknown, hspells⟩ := (answersFor_iff_spells hfits).mp hanswers
      by_cases hsame : id = known
      · exact hsame ▸ hknown
      · exact absurd ⟨known, hknown, hsame, hspells⟩ hnone
    · intro hlisted
      obtain ⟨address, r, -, -, rfl⟩ := mem_listNodes_empty_iff.mp hlisted
      exact (answersFor_iff_spells hfits).mpr ⟨_, hlisted, NodeId.Spells.refl r address⟩

/-- A pool of one host, after the host was claimed for the first time. -/
def onceClaimed : HostPool :=
  (createNodes (Saver.none Unit) ⟨Table.ofList [("a", .fresh "head")], ∅, none⟩ () "head" ∅ 1).2.1

theorem answers_as_listed_iff_onceClaimed : onceClaimed.Fits ∧
    ∀ id, (onceClaimed.AnswersFor id ↔ ∃ known ∈ onceClaimed.listNodes ∅, id.Spells known) ∧
      ((onceClaimed.AnswersFor id ↔ id ∈ onceClaimed.listNodes ∅) ↔
        ¬ ∃ known ∈ onceClaimed.listNodes ∅, id ≠ known ∧ id.Spells known) := by
  have hfits : onceClaimed.Fits := by
    intro address r hr
    have hentry : (address, r) ∈ onceClaimed.hosts.entries := Table.get?_eq_some_iff.mp hr
    have hentries : onceClaimed.hosts.entries = [("a", ⟨"head", .running, 1, ∅⟩)] := by decide +kernel
    rw [hentries] at hentry
    obtain ⟨rfl, rfl⟩ := Prod.mk.inj (List.mem_singleton.mp hentry)
    decide
  exact ⟨hfits, (answers_as_listed_iff hfits).2⟩

/-- The only node that is listed is also answered for under two other identifiers. -/
theorem answers_unlisted_onceClaimed : onceClaimed.listNodes ∅ = [⟨"a#1"⟩] ∧
    (onceClaimed.AnswersFor ⟨"a#01"⟩ ∧ ⟨"a#01"⟩ ∉ onceClaimed.listNodes ∅) ∧
      onceClaimed.AnswersFor ⟨"a#+1"⟩ ∧ ⟨"a#+1"⟩ ∉ onceClaimed.listNodes ∅ := by
  have hlisted : onceClaimed.listNodes ∅ = [⟨"a#1"⟩] := by decide +kernel
  rw [hlisted]
  refine ⟨rfl, ⟨⟨?_, ∅, ?_⟩, by decide⟩, ⟨?_, ∅, ?_⟩, by decide⟩
  all_goals rfl

end HostPool

end ClusterScaler
