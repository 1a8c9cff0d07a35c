import RustDds.Rtps.Fragment

/-!
# Splitting by any size

`splitIntoFragmentsN` takes any size, and cuts by its low 16 bits.  Where these are zero and there
is something to cut, no turn of the loop advances and it does not end (`splitLoop_zero`).  The
fragments are numbered from one in 32 bits, and the counter moves once more behind the last one,
so that the longest payload cannot be cut into single bytes (`length_lt_of_splitLoop`).

Everywhere else the fragments partition the payload: that is `splits_iff`.
-/

namespace RustDds

/-- The size that the loop cuts by. -/
def cutSize (maxPayloadSize : ℕ) : ℕ :=
  (if maxPayloadSize = 0 then maxFragmentPayload else maxPayloadSize) % 2 ^ 16

/-- The fragments are the cells of the payload, in order and under their numbers. -/
structure Partition (payload : Bytes) (size : ℕ) (frags : List DataFrag) : Prop where
  concat : frags.flatMap DataFrag.payload = payload
  count : frags.length = payload.length ⌈/⌉ size
  sizes : ∀ f ∈ frags, f.fragmentSize.toNat = size ∧ f.dataSize.toNat = payload.length
  lengths : ∀ f ∈ frags, f.payload ≠ [] ∧ f.payload.length ≤ f.fragmentSize.toNat
  numbers : ∀ k (hk : k < frags.length), frags[k].fragmentStartingNum.toNat = k + 1
  offsets : ∀ k (hk : k < frags.length),
    frags[k].payload = Bytes.slice payload (k * size) (k * size + frags[k].payload.length)

/-- Splitting ends, and partitions the payload. -/
def Splits (writer : EntityId) (sn : SequenceNumber) (payload : Bytes) (maxPayloadSize : ℕ) :
    Prop :=
  ∃ frags, splitIntoFragmentsN writer sn payload maxPayloadSize = some (.ok frags) ∧
    Partition payload (cutSize maxPayloadSize) frags

section
variable {writer : EntityId} {sn : SequenceNumber} {payload : Bytes} {size : ℕ}

/-- A loop that cuts nothing off has no end, however many turns it is given. -/
lemma splitLoop_zero {fuel offset fragNum : ℕ} (hoffset : offset < payload.length)
    {frags : List DataFrag} :
    splitLoop writer sn payload 0 fuel offset fragNum ≠ some (.ok frags) := by
  induction fuel generalizing fragNum frags with
  | zero => simp [splitLoop]
  | succ fuel ih =>
    have hmin : min (offset + 0) payload.length = offset := min_eq_left hoffset.le
    intro h
    rw [splitLoop, if_pos hoffset, hmin] at h
    dsimp only at h
    split at h
    · simp at h
    · obtain ⟨r, hrest, hr⟩ := Option.map_eq_some_iff.mp h
      obtain ⟨rest, rfl, -⟩ := Except.map_eq_ok.mp hr
      exact ih hrest

/-- A loop that returned has counted its fragments in 32 bits, and one more. -/
lemma length_lt_of_splitLoop {fuel offset fragNum : ℕ} (hnum : fragNum < 2 ^ 32)
    {frags : List DataFrag}
    (h : splitLoop writer sn payload size fuel offset fragNum = some (.ok frags)) :
    fragNum + frags.length < 2 ^ 32 := by
  induction fuel generalizing offset fragNum frags with
  | zero => simp [splitLoop] at h
  | succ fuel ih =>
    rw [splitLoop] at h
    split at h
    · dsimp only at h
      split at h
      · simp at h
      · rename_i next hnext
        obtain ⟨hlt, rfl⟩ := checkedAdd_eq_ok.mp hnext
        obtain ⟨r, hrest, hr⟩ := Option.map_eq_some_iff.mp h
        obtain ⟨rest, rfl, rfl⟩ := Except.map_eq_ok.mp hr
        have := ih hlt hrest
        rw [List.length_cons]
        omega
    · simp only [Option.some.injEq, Except.ok.injEq] at h
      rw [← h]
      exact hnum

/-- The cells of a payload, as fragments, partition it. -/
lemma partition_fragmentNumber (hsize : 0 < size) (hsize16 : size < 2 ^ 16)
    (hlen : payload.length < 2 ^ 32) (hcells : payload.length ⌈/⌉ size + 1 < 2 ^ 32) :
    Partition payload size ((List.range (payload.length ⌈/⌉ size)).map
      (fragmentNumber writer sn payload size)) := by
  have hcell : ∀ k, (fragmentNumber writer sn payload size k).payload =
      Bytes.slice payload (Tiling.cellStart size k) (Tiling.cellEnd payload.length size k) :=
    fun k => rfl
  have hfield : ∀ k, (fragmentNumber writer sn payload size k).fragmentSize.toNat = size :=
    fun k => UInt16.toNat_ofNat_of_lt' hsize16
  have hlength : ∀ k, (fragmentNumber writer sn payload size k).payload.length =
      min ((k + 1) * size) payload.length - k * size := by
    intro k
    rw [hcell, Bytes.length_slice, Tiling.cellStart, Tiling.cellEnd]
    omega
  refine ⟨?_, ?_, ?_, ?_, ?_, ?_⟩
  · rw [List.flatMap_map]
    exact Tiling.flatMap_cells payload hsize
  · rw [List.length_map, List.length_range]
  · intro f hf
    obtain ⟨k, -, rfl⟩ := List.mem_map.mp hf
    exact ⟨hfield k, UInt32.toNat_ofNat_of_lt' hlen⟩
  · intro f hf
    obtain ⟨k, hk, rfl⟩ := List.mem_map.mp hf
    have hstart : k * size < payload.length :=
      (Tiling.lt_ceilDiv_iff hsize).mp (List.mem_range.mp hk)
    rw [hfield, ← List.length_pos_iff, hlength, Nat.succ_mul]
    omega
  · intro k hk
    rw [List.length_map, List.length_range] at hk
    rw [List.getElem_map, List.getElem_range]
    exact UInt32.toNat_ofNat_of_lt' (show k + 1 < 2 ^ 32 by omega)
  · intro k hk
    rw [List.getElem_map, List.getElem_range, hlength, hcell, Bytes.slice, Bytes.slice,
      Tiling.cellStart, Tiling.cellEnd, Nat.add_sub_cancel_left]

/-- **When splitting partitions**: exactly when there is nothing to cut, or the size has low bits
to cut by and does not make more fragments than can be counted. -/
theorem splits_iff (maxPayloadSize : ℕ) (hlen : payload.length < 2 ^ 32) :
    Splits writer sn payload maxPayloadSize ↔ payload = [] ∨ (cutSize maxPayloadSize ≠ 0 ∧
      ¬ (cutSize maxPayloadSize = 1 ∧ payload.length = 2 ^ 32 - 1)) := by
  have hcut16 : cutSize maxPayloadSize < 2 ^ 16 := Nat.mod_lt _ (by decide)
  have hloop : splitIntoFragmentsN writer sn payload maxPayloadSize =
      splitLoop writer sn payload (cutSize maxPayloadSize) (payload.length + 1) 0 1 := rfl
  rw [Splits, hloop]
  constructor
  · rintro ⟨frags, hfrags, hpartition⟩
    rw [or_iff_not_imp_left]
    refine fun hne => ⟨fun hzero => ?_, fun ⟨hone, hfull⟩ => ?_⟩
    · rw [hzero] at hfrags
      exact splitLoop_zero (List.length_pos_iff.mpr hne) hfrags
    · have hcounted := length_lt_of_splitLoop (by decide) hfrags
      have hcount := hpartition.count
      rw [hone, Nat.ceilDiv_eq_add_pred_div] at hcount
      omega
  · rintro (rfl | ⟨hcut, hcounted⟩)
    · exact ⟨[], rfl, rfl, by simp, by simp, by simp, by simp, by simp⟩
    · have hpos : 0 < cutSize maxPayloadSize := Nat.pos_of_ne_zero hcut
      have hcells : payload.length ⌈/⌉ cutSize maxPayloadSize + 1 < 2 ^ 32 := by
        rcases Nat.eq_or_lt_of_le hpos with hone | htwo
        · have hone : cutSize maxPayloadSize = 1 := hone.symm
          rw [hone, Nat.ceilDiv_eq_add_pred_div, Nat.div_one]
          omega
        · -- pieces of two bytes and more are at most half as many as the bytes
          have hhalf : payload.length ⌈/⌉ cutSize maxPayloadSize ≤ 2 ^ 31 := by
            rw [ceilDiv_le_iff_le_mul hpos]
            have := Nat.mul_le_mul_right (2 ^ 31) htwo
            omega
          omega
      have hcells' : splitLoop writer sn payload (cutSize maxPayloadSize) (payload.length + 1)
          (min (0 * cutSize maxPayloadSize) payload.length) (0 + 1) = _ :=
        splitLoop_eq hpos hcells (Nat.zero_le _) (by
          have hle : payload.length ⌈/⌉ cutSize maxPayloadSize ≤ payload.length :=
            Tiling.ceilDiv_le_self hpos
          omega)
      rw [Nat.zero_mul, Nat.min_eq_left (Nat.zero_le _), Nat.sub_zero,
        ← List.range_eq_range'] at hcells'
      exact ⟨_, hcells', partition_fragmentNumber hpos hcut16 hlen hcells⟩

/-- The theorem on five bytes cut by 65538, which is by two. -/
theorem splits_five : Splits (entityIdForWriter 1) ⟨0, 1⟩ [1, 2, 3, 4, 5] 65538 :=
  (splits_iff 65538 (by decide)).mpr (by decide)

/-- One byte cut by 65536: the loop does not end, whatever number of turns it is given. -/
theorem exists_not_splits :
    ¬ Splits (entityIdForWriter 1) ⟨0, 1⟩ [1] 65536 ∧
      ∀ fuel frags, splitLoop (entityIdForWriter 1) ⟨0, 1⟩ [1] (cutSize 65536) fuel 0 1 ≠
        some (.ok frags) := by
  have hend : ∀ fuel frags, splitLoop (entityIdForWriter 1) ⟨0, 1⟩ [1] (cutSize 65536) fuel 0 1 ≠
      some (.ok frags) := fun fuel frags => splitLoop_zero (by decide)
  exact ⟨fun ⟨frags, hfrags, _⟩ => hend _ frags hfrags, hend⟩

end

end RustDds
