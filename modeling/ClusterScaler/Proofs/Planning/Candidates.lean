import ClusterScaler.Proofs.Planning.Turns

/-!
# The order in which nodes are given up

Sorting candidates only rearranges them, into the order of their turns. That puts the idle ones in
front, so the first so many of a sorted list hold a busy candidate exactly if there are fewer idle
ones than that.
-/

set_option autoImplicit false

namespace ClusterScaler.ControlLoop

/-- An insertion adds the candidate and nothing else. -/
theorem insertCandidate_perm (c : Candidate) (l : List Candidate) :
    (insertCandidate c l).Perm (c :: l) := by
  induction l with
  | nil => exact List.Perm.refl _
  | cons d rest ih =>
    unfold insertCandidate
    split
    · exact (ih.cons d).trans (List.Perm.swap c d rest)
    · exact List.Perm.refl _

theorem foldl_insertCandidate_perm (cs sorted : List Candidate) :
    (cs.foldl (fun sorted c => insertCandidate c sorted) sorted).Perm (cs ++ sorted) := by
  induction cs generalizing sorted with
  | nil => exact List.Perm.refl _
  | cons c rest ih =>
    rw [List.foldl_cons]
    have hstep := ih (insertCandidate c sorted)
    have hinsert := (insertCandidate_perm c sorted).append_left rest
    exact hstep.trans (hinsert.trans List.perm_middle)

theorem sortCandidates_perm (cs : List Candidate) : (sortCandidates cs).Perm cs := by
  have h := foldl_insertCandidate_perm cs []
  rw [List.append_nil] at h
  exact h

/-- No candidate stands behind one with a later turn. -/
def InTurn (cs : List Candidate) : Prop := cs.Pairwise (fun a b => a.turn ≤ b.turn)

/-- An insertion keeps the turns. -/
theorem InTurn.insertCandidate {c : Candidate} {l : List Candidate} (h : InTurn l) :
    InTurn (insertCandidate c l) := by
  induction l with
  | nil => exact List.pairwise_singleton _ _
  | cons d rest ih =>
    obtain ⟨hd, hrest⟩ := List.pairwise_cons.mp h
    unfold ControlLoop.insertCandidate
    split
    · next hprecedes =>
      refine List.Pairwise.cons ?_ (ih hrest)
      intro b hb
      rw [(insertCandidate_perm c rest).mem_iff, List.mem_cons] at hb
      rcases hb with rfl | hb
      · exact Candidate.precedes_iff.mp hprecedes
      · exact hd b hb
    · next hprecedes =>
      -- `d` stays behind, and with it everything behind `d`
      rw [Candidate.precedes_iff, not_le] at hprecedes
      refine List.Pairwise.cons ?_ (List.Pairwise.cons hd hrest)
      intro b hb
      rcases List.mem_cons.mp hb with rfl | hb
      · exact hprecedes.le
      · exact hprecedes.le.trans (hd b hb)

/-- Sorted candidates stand in the order of their turns. -/
theorem sortCandidates_inTurn (cs : List Candidate) : InTurn (sortCandidates cs) :=
  List.foldlRecOn (motive := InTurn) cs _ List.Pairwise.nil
    (fun _ h _ _ => h.insertCandidate)

/-- Of candidates in turn, the first so many come before all others. -/
theorem InTurn.turn_le_of_mem_take {l : List Candidate} (h : InTurn l) {k : Nat} {a b : Candidate}
    (ha : a ∈ l.take k) (hb : b ∈ l) (hlater : b ∉ l.take k) : a.turn ≤ b.turn := by
  unfold InTurn at h
  rw [← List.take_append_drop k l] at h hb
  have hdrop : b ∈ l.drop k := (List.mem_append.mp hb).resolve_left hlater
  exact (List.pairwise_append.mp h).2.2 a ha b hdrop

/-- No candidate stands behind a busy one unless it is busy itself. -/
def IdleFirst (cs : List Candidate) : Prop := cs.Pairwise (fun a b => b.idle = true → a.idle = true)

theorem sortCandidates_idleFirst (cs : List Candidate) : IdleFirst (sortCandidates cs) := by
  refine (sortCandidates_inTurn cs).imp ?_
  intro a b hturn hidle
  rw [← Candidate.precedes_iff, Candidate.precedes, hidle] at hturn
  split at hturn
  · next heq => exact beq_iff_eq.mp heq
  · exact hturn

/-- The first `k` candidates hold a busy one exactly if there are fewer than `k` idle ones and there
is a busy one at all. -/
theorem IdleFirst.exists_busy_mem_take_iff {l : List Candidate} (h : IdleFirst l) (k : Nat) :
    (∃ c ∈ l.take k, c.idle = false) ↔ l.countP Candidate.idle < k ∧ ∃ c ∈ l, c.idle = false := by
  induction l generalizing k with
  | nil => simp
  | cons d rest ih =>
    unfold IdleFirst at h
    rw [List.pairwise_cons] at h
    cases k with
    | zero => simp
    | succ k =>
      have hrest := ih h.2 k
      rw [List.take_succ_cons]
      cases hd : d.idle with
      | true =>
        rw [List.countP_cons_of_pos hd]
        constructor
        · rintro ⟨c, hc, hbusy⟩
          rcases List.mem_cons.mp hc with rfl | hc
          · rw [hd] at hbusy
            cases hbusy
          · obtain ⟨hlt, c', hc', hbusy'⟩ := hrest.mp ⟨c, hc, hbusy⟩
            exact ⟨by omega, c', List.mem_cons_of_mem _ hc', hbusy'⟩
        · rintro ⟨hlt, c, hc, hbusy⟩
          rcases List.mem_cons.mp hc with rfl | hc
          · rw [hd] at hbusy
            cases hbusy
          · obtain ⟨c', hc', hbusy'⟩ := hrest.mpr ⟨by omega, c, hc, hbusy⟩
            exact ⟨c', List.mem_cons_of_mem _ hc', hbusy'⟩
      | false =>
        -- nothing idle stands behind a busy candidate
        have hnone : rest.countP Candidate.idle = 0 := by
          rw [List.countP_eq_zero]
          intro b hb hidle
          rw [h.1 b hb hidle] at hd
          cases hd
        rw [List.countP_cons_of_neg (by simp [hd]), hnone]
        constructor
        · rintro -
          exact ⟨Nat.succ_pos k, d, List.mem_cons_self, hd⟩
        · rintro -
          exact ⟨d, List.mem_cons_self, hd⟩

end ClusterScaler.ControlLoop
