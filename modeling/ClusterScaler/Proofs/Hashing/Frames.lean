import ClusterScaler.Hashing.Files

/-!
# Chunks are told apart

The bytes that are digested determine the chunks they were made of, since every chunk has its length
in front. Lengths must be numbers of 64 bits, which the lengths of byte sequences are.
-/

set_option autoImplicit false

namespace ClusterScaler.FilesHash

theorem length_lengthBytes (n : Nat) : (lengthBytes n).length = 8 := by
  simp [lengthBytes]

/-- Numbers with the same lowest bytes are the same up to them. -/
theorem mod_eq_of_bytes {n m k : Nat}
    (h : ∀ i < k, n / Nat.pow 256 i % 256 = m / Nat.pow 256 i % 256) :
    n % Nat.pow 256 k = m % Nat.pow 256 k := by
  induction k with
  | zero => simp [Nat.mod_one]
  | succ k ih =>
    have hlower := ih fun i hi => h i (Nat.lt_succ_of_lt hi)
    have hbyte := h k (Nat.lt_succ_self k)
    simp only [Nat.pow_eq] at hlower hbyte ⊢
    rw [Nat.mod_pow_succ, Nat.mod_pow_succ, hlower, hbyte]

theorem lengthBytes_injective {n m : Nat} (hn : n < Nat.pow 2 64) (hm : m < Nat.pow 2 64)
    (h : lengthBytes n = lengthBytes m) : n = m := by
  unfold lengthBytes at h
  rw [List.map_inj_left] at h
  have hmod : n % Nat.pow 256 8 = m % Nat.pow 256 8 := mod_eq_of_bytes fun i hi =>
    congrArg UInt8.toNat (h i (List.mem_range.mpr hi))
  have hpow : Nat.pow 256 8 = Nat.pow 2 64 := by decide
  rw [hpow, Nat.mod_eq_of_lt hn, Nat.mod_eq_of_lt hm] at hmod
  exact hmod

/-- The bytes of a chunk with its length in front. -/
def frameBytes (chunk : ByteArray) : List UInt8 := lengthBytes chunk.size ++ chunk.data.toList

theorem toList_stream (chunks : List ByteArray) :
    (stream chunks).data.toList = chunks.flatMap frameBytes := by
  have hfold : ∀ bytes : ByteArray,
      (chunks.foldl (fun bytes c => bytes ++ frame c) bytes).data.toList =
        bytes.data.toList ++ chunks.flatMap frameBytes := by
    induction chunks with
    | nil => simp
    | cons c chunks ih =>
      intro bytes
      rw [List.foldl_cons, ih]
      simp [frame, frameBytes]
  exact hfold ByteArray.empty

theorem frameBytes_append_ne_nil (c : ByteArray) (rest : List UInt8) :
    frameBytes c ++ rest ≠ [] := by
  intro h
  have hlength := congrArg List.length h
  rw [frameBytes, List.append_assoc, List.length_append, length_lengthBytes] at hlength
  simp at hlength

/-- Framed chunks can be told apart, whatever follows. -/
theorem frameBytes_inj {a b : ByteArray} (ha : a.size < Nat.pow 2 64) (hb : b.size < Nat.pow 2 64)
    {rest rest' : List UInt8} (h : frameBytes a ++ rest = frameBytes b ++ rest') :
    a = b ∧ rest = rest' := by
  unfold frameBytes at h
  rw [List.append_assoc, List.append_assoc] at h
  obtain ⟨hlength, hbytes⟩ := List.append_inj h (by simp [length_lengthBytes])
  have hsize : a.size = b.size := lengthBytes_injective ha hb hlength
  obtain ⟨hdata, hrest⟩ := List.append_inj hbytes hsize
  exact ⟨ByteArray.ext (Array.toList_inj.mp hdata), hrest⟩

theorem stream_injective {chunks chunks' : List ByteArray}
    (hsizes : ∀ c ∈ chunks, c.size < Nat.pow 2 64) (hsizes' : ∀ c ∈ chunks', c.size < Nat.pow 2 64)
    (h : stream chunks = stream chunks') : chunks = chunks' := by
  have hbytes : chunks.flatMap frameBytes = chunks'.flatMap frameBytes := by
    rw [← toList_stream, ← toList_stream, h]
  clear h
  induction chunks generalizing chunks' with
  | nil =>
    cases chunks' with
    | nil => rfl
    | cons c' chunks' => exact absurd hbytes.symm (frameBytes_append_ne_nil c' _)
  | cons c chunks ih =>
    cases chunks' with
    | nil => exact absurd hbytes (frameBytes_append_ne_nil c _)
    | cons c' chunks' =>
      rw [List.flatMap_cons, List.flatMap_cons] at hbytes
      obtain ⟨rfl, hrest⟩ := frameBytes_inj (hsizes c List.mem_cons_self)
        (hsizes' c' List.mem_cons_self) hbytes
      rw [ih (fun d hd => hsizes d (List.mem_cons_of_mem _ hd))
        (fun d hd => hsizes' d (List.mem_cons_of_mem _ hd)) hrest]

end ClusterScaler.FilesHash
