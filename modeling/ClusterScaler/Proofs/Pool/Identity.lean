import ClusterScaler.Proofs.Json.Tokens
import ClusterScaler.Proofs.Provider.Nodes
import ClusterScaler.Proofs.Table.Lookup
import ClusterScaler.Provider.HostPool

/-!
# The identifiers of a pool's nodes

An identifier is made of an address and of a generation, and both can be read off it: an address
may hold the separator itself, the digits of a generation do not. What a pool answers about an
identifier is decided by the host of that address and by how the two generations compare.
-/

set_option autoImplicit false

namespace ClusterScaler

/-- The digits of a number that fits denote it. -/
theorem readNat?_natText {bits n : Nat} (h : n < Nat.pow 2 bits) :
    readNat? bits (natText n) = some n := by
  have hdigits : (natText n).toList = Decimal.digits n := String.toList_ofList
  have hall : (Decimal.digits n).all Char.isDigit = true :=
    List.all_eq_true.mpr fun _ => Document.isDigit_digits
  have hread := Document.ofDigits_digits n
  unfold readNat?
  rw [hdigits]
  cases hds : Decimal.digits n with
  | nil => exact absurd hds Nat.toDigits_ne_nil
  | cons c cs =>
    rw [hds] at hall hread
    have hplus : c ≠ '+' := by
      rintro rfl
      simp at hall
    dsimp only
    split
    · next heq => exact absurd (List.cons.inj heq).1 hplus
    · rw [hall, hread, if_pos h]
      rfl

theorem notMem_natText {c : Char} {n : Nat} (h : c.isDigit = false) : c ∉ (natText n).toList := by
  intro hmem
  rw [natText, String.toList_ofList] at hmem
  rw [Document.isDigit_digits hmem] at h
  cases h

namespace HostRecord

variable {r r' : HostRecord} {address address' : String}

theorem hash_notMem_natText (n : Nat) : '#' ∉ (natText n).toList := notMem_natText rfl

/-- What follows the last separator, seen from the end. -/
theorem reverse_nodeId : (r.nodeId address).text.toList.reverse =
    (natText r.generation).toList.reverse ++ '#' :: address.toList.reverse := by
  simp [nodeId, String.toList_append]

theorem takeWhile_nodeId : (r.nodeId address).text.toList.reverse.takeWhile (· != '#') =
    (natText r.generation).toList.reverse := by
  rw [reverse_nodeId, List.takeWhile_append_of_pos, List.takeWhile_cons_of_neg (by simp),
    List.append_nil]
  intro c hc
  rw [bne_iff_ne]
  rintro rfl
  exact hash_notMem_natText _ (List.mem_reverse.mp hc)

/-- An identifier is of one address and one generation only. -/
theorem nodeId_inj : r.nodeId address = r'.nodeId address' ↔
    address = address' ∧ r.generation = r'.generation := by
  constructor
  · intro h
    have hdigits : (natText r.generation).toList.reverse =
        (natText r'.generation).toList.reverse := by
      rw [← @takeWhile_nodeId r address, h, takeWhile_nodeId]
    have hreverse := @reverse_nodeId r address
    rw [h, reverse_nodeId, ← hdigits, List.append_cancel_left_eq] at hreverse
    have haddress : address'.toList = address.toList :=
      List.reverse_inj.mp (List.cons.inj hreverse).2
    have hgeneration : natText r.generation = natText r'.generation :=
      String.toList_inj.mp (List.reverse_inj.mp hdigits)
    exact ⟨(String.toList_inj.mp haddress).symm, natText_injective hgeneration⟩
  · rintro ⟨rfl, h⟩
    rw [nodeId, nodeId, h]

/-- The address and the generation that a node's identifier names are those of its host. -/
theorem splitId_nodeId (h : r.generation < Nat.pow 2 64) :
    HostPool.splitId (r.nodeId address) = some (address, r.generation) := by
  unfold HostPool.splitId
  dsimp only
  rw [takeWhile_nodeId, reverse_nodeId, List.drop_left]
  dsimp only
  rw [List.reverse_reverse, List.reverse_reverse, String.ofList_toList, String.ofList_toList,
    readNat?_natText h, Option.map_some]

end HostRecord

namespace HostPool

variable {p : HostPool} {id : NodeId} {address : String} {r : HostRecord} {generation : Nat}
  {filter : Tags}

theorem isLive_iff : isLive r generation = true ↔ r.state = .running ∧ generation = r.generation := by
  simp [isLive]

theorem lookup_eq_ok_iff : p.lookup id = .ok (address, r, generation) ↔
    splitId id = some (address, generation) ∧ p.hosts.get? address = some r := by
  unfold lookup
  constructor
  · intro h
    split at h
    · cases h
    · next a g hid =>
      split at h
      · next s hs =>
        cases h
        exact ⟨hid, hs⟩
      · cases h
  · rintro ⟨hid, hr⟩
    rw [hid]
    dsimp only
    rw [hr]

theorem isRunning_of_splitId (hid : splitId id = some (address, generation))
    (hr : p.hosts.get? address = some r) : p.isRunning id = .ok (isLive r generation) := by
  unfold isRunning
  rw [lookup_eq_ok_iff.mpr ⟨hid, hr⟩]
  rfl

theorem isTerminated_of_splitId (hid : splitId id = some (address, generation))
    (hr : p.hosts.get? address = some r) : p.isTerminated id = .ok (!isLive r generation) := by
  unfold isTerminated
  rw [lookup_eq_ok_iff.mpr ⟨hid, hr⟩]
  rfl

theorem nodeTags_of_splitId (hid : splitId id = some (address, generation))
    (hr : p.hosts.get? address = some r) (hlive : isLive r generation = true) :
    p.nodeTags id = .ok r.tags := by
  unfold nodeTags live
  rw [lookup_eq_ok_iff.mpr ⟨hid, hr⟩]
  change (if isLive r generation = true then Except.ok (address, r) else _) >>= _ = _
  rw [if_pos hlive]
  rfl

/-- The nodes of the hosts that run and carry the tags are listed. -/
theorem mem_listNodes_iff : id ∈ p.listNodes filter ↔ ∃ address r,
    p.hosts.get? address = some r ∧ r.state = .running ∧ r.tags.satisfies filter = true ∧
      id = r.nodeId address := by
  unfold listNodes
  rw [List.mem_filterMap]
  constructor
  · rintro ⟨⟨address, r⟩, he, hid⟩
    dsimp only at hid
    split at hid
    · next hfound =>
      rw [Bool.and_eq_true, decide_eq_true_eq] at hfound
      exact ⟨address, r, Table.get?_eq_some_iff.mpr he, hfound.1, hfound.2,
        (Option.some.inj hid).symm⟩
    · cases hid
  · rintro ⟨address, r, hr, hstate, htags, rfl⟩
    refine ⟨(address, r), Table.get?_eq_some_iff.mp hr, ?_⟩
    dsimp only
    rw [htags, hstate]
    rfl

/-- No node is listed twice. -/
theorem nodup_listNodes (p : HostPool) (filter : Tags) : (p.listNodes filter).Nodup := by
  unfold listNodes
  rw [List.Nodup, List.pairwise_filterMap]
  refine p.hosts.sorted.imp ?_
  rintro ⟨address, r⟩ ⟨address', r'⟩ hlt id hid id' hid' rfl
  dsimp only at hid hid' hlt
  split at hid
  · split at hid'
    · have heq := HostRecord.nodeId_inj.mp (Option.some.inj (hid.trans hid'.symm))
      rw [heq.1] at hlt
      exact KeyOrder.lt_irrefl _ hlt
    · cases hid'
  · cases hid

end HostPool

end ClusterScaler
