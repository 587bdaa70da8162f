import NanoVllm.ModelRunner

/-!
# The slot mapping of a request

`prepare_prefill` treats the first, the middle and the last page of a chunk differently. The
three branches together list the slot of every scheduled position in order.
-/

namespace NanoVllm

open ModelRunner

/-- The slot of a position in a block table without gaps. -/
def Sequence.tableSlot (cfg : Config) (seq : Sequence) (position : ℕ) : ℕ :=
  seq.blockTable.getD (position / cfg.blockSize) 0 * cfg.blockSize + position % cfg.blockSize

variable {cfg : Config} {seq : Sequence}

/-- The slots of positions inside one page are consecutive. -/
theorem map_tableSlot_page {i first count : ℕ} {blockId : ℕ}
    (get : seq.blockTable[i]? = some blockId) (lower : i * cfg.blockSize ≤ first)
    (upper : first + count ≤ (i + 1) * cfg.blockSize) :
    (List.range' first count).map (seq.tableSlot cfg) =
      List.range' (blockId * cfg.blockSize + (first - i * cfg.blockSize)) count := by
  have positive := cfg.blockSize_pos
  rw [Nat.add_mul, Nat.one_mul] at upper
  refine List.ext_getElem (by simp) fun k short _ => ?_
  simp only [List.length_map, List.length_range'] at short
  obtain ⟨offset, split⟩ := Nat.exists_eq_add_of_le lower
  have page : (first + k) / cfg.blockSize = i := by
    rw [Nat.div_eq_iff positive]
    omega
  have inside : (first + k) % cfg.blockSize = offset + k := by
    have := Nat.div_add_mod (first + k) cfg.blockSize
    rw [page, Nat.mul_comm] at this
    omega
  simp only [List.getElem_map, List.getElem_range', Nat.one_mul, Sequence.tableSlot, page, inside,
    List.getD_eq_getElem?_getD, get, Option.getD_some]
  omega

/-- The slots of one page are those of the scheduled positions it contains. -/
theorem pageSlots_eq {start stop i : ℕ} {blockId : ℕ}
    (get : seq.blockTable[i]? = some blockId) (scheduled : start < stop)
    (lower : start / cfg.blockSize ≤ i)
    (upper : i < (stop + cfg.blockSize - 1) / cfg.blockSize) :
    pageSlots cfg seq start stop i = .ok ((List.range' (max start (i * cfg.blockSize))
      (min stop ((i + 1) * cfg.blockSize) - max start (i * cfg.blockSize))).map
        (seq.tableSlot cfg)) := by
  have positive := cfg.blockSize_pos
  have startOffset := Nat.div_add_mod start cfg.blockSize
  have startLower := Nat.mul_le_mul_right cfg.blockSize lower
  have startUpper := Nat.lt_mul_of_div_lt (Nat.lt_succ_of_le lower) positive
  have stopLower := (Nat.le_div_iff_mul_le positive).mp (Nat.succ_le_of_lt upper)
  rw [Nat.mul_comm] at startOffset
  rw [Nat.succ_mul] at startUpper
  rw [Nat.succ_mul] at stopLower
  have next : (i + 1) * cfg.blockSize = i * cfg.blockSize + cfg.blockSize := Nat.succ_mul _ _
  have first : (if i = start / cfg.blockSize then
      blockId * cfg.blockSize + start % cfg.blockSize else blockId * cfg.blockSize) =
        blockId * cfg.blockSize + (max start (i * cfg.blockSize) - i * cfg.blockSize) := by
    split
    · next same =>
      rw [← same] at startOffset
      omega
    · have later := Nat.mul_le_mul_right cfg.blockSize
        (show start / cfg.blockSize + 1 ≤ i by omega)
      have := Nat.mod_lt start positive
      rw [Nat.succ_mul] at later
      omega
  have last : (if i ≠ (stop + cfg.blockSize - 1) / cfg.blockSize - 1 then
      blockId * cfg.blockSize + cfg.blockSize else
        blockId * cfg.blockSize + stop - i * cfg.blockSize) =
        blockId * cfg.blockSize +
          (min stop ((i + 1) * cfg.blockSize) - i * cfg.blockSize) := by
    split
    · have := (Nat.le_div_iff_mul_le positive).mp
        (show i + 2 ≤ (stop + cfg.blockSize - 1) / cfg.blockSize by omega)
      rw [Nat.add_mul] at this
      omega
    · have := Nat.lt_mul_of_div_lt
        (show (stop + cfg.blockSize - 1) / cfg.blockSize < i + 2 by omega) positive
      rw [Nat.add_mul] at this
      omega
  rw [map_tableSlot_page get (Nat.le_max_right _ _) (by omega)]
  simp only [pageSlots, tableEntry, get, Py.ok_bind, first, last]
  congr 2
  omega

/-- The slots of the pages from page `i` on are those of the scheduled positions from there. -/
theorem pageSlotsLoop_eq {start stop count : ℕ} (scheduled : start < stop)
    (owned : stop ≤ seq.blockTable.length * cfg.blockSize) (i : ℕ)
    (lower : start / cfg.blockSize ≤ i)
    (pages : i + count = (stop + cfg.blockSize - 1) / cfg.blockSize) :
    pageSlotsLoop cfg seq start stop (List.range' i count) =
      .ok ((List.range' (max start (i * cfg.blockSize))
        (stop - max start (i * cfg.blockSize))).map (seq.tableSlot cfg)) := by
  have positive := cfg.blockSize_pos
  induction count generalizing i with
  | zero =>
    have := Nat.lt_mul_of_div_lt
      (show (stop + cfg.blockSize - 1) / cfg.blockSize < i + 1 by omega) positive
    rw [Nat.succ_mul] at this
    rw [show stop - max start (i * cfg.blockSize) = 0 by omega]
    rfl
  | succ count ih =>
    have startUpper := Nat.lt_mul_of_div_lt (Nat.lt_succ_of_le lower) positive
    have stopLower := (Nat.le_div_iff_mul_le positive).mp
      (show i + 1 ≤ (stop + cfg.blockSize - 1) / cfg.blockSize by omega)
    have next : (i + 1) * cfg.blockSize = i * cfg.blockSize + cfg.blockSize := Nat.succ_mul _ _
    have short : i < seq.blockTable.length := by
      by_contra long
      have := Nat.mul_le_mul_right cfg.blockSize (not_lt.mp long)
      omega
    rw [List.range'_succ, pageSlotsLoop,
      pageSlots_eq (List.getElem?_eq_getElem short) scheduled lower (by omega), Py.ok_bind,
      ih (i + 1) (by omega) (by omega), Py.ok_bind, ← List.map_append]
    congr 2
    have joined := List.range'_append_1 (s := max start (i * cfg.blockSize))
      (m := min stop ((i + 1) * cfg.blockSize) - max start (i * cfg.blockSize))
      (n := stop - max start ((i + 1) * cfg.blockSize))
    by_cases final : stop ≤ (i + 1) * cfg.blockSize
    · rw [show stop - max start ((i + 1) * cfg.blockSize) = 0 by omega, Nat.min_eq_left final]
      simp
    · rw [show max start (i * cfg.blockSize) + (min stop ((i + 1) * cfg.blockSize) -
        max start (i * cfg.blockSize)) = max start ((i + 1) * cfg.blockSize) by omega] at joined
      rw [joined]
      congr 1
      omega

/-- `prepare_prefill` maps every scheduled position of a request to its slot, in order. -/
theorem prefillSlots_eq (scheduled : 0 < seq.numScheduledTokens)
    (owned : seq.numCachedTokens + seq.numScheduledTokens ≤
      seq.blockTable.length * cfg.blockSize) :
    prefillSlots cfg seq = .ok ((prefillPositions seq).map (seq.tableSlot cfg)) := by
  have positive := cfg.blockSize_pos
  have nonempty : seq.blockTable ≠ [] := by
    rintro empty
    simp only [empty, List.length_nil, Nat.zero_mul] at owned
    omega
  have startLower := Nat.div_mul_le_self seq.numCachedTokens cfg.blockSize
  have order := Nat.div_le_div_right (c := cfg.blockSize) (show seq.numCachedTokens ≤
    seq.numCachedTokens + seq.numScheduledTokens + cfg.blockSize - 1 by omega)
  simp only [prefillSlots, if_neg nonempty]
  rw [pageSlotsLoop_eq (by omega) owned _ (le_refl _) (by omega), Nat.max_eq_left startLower,
    Nat.add_sub_cancel_left]
  rfl

/-- `prepare_decode` maps the last token to its offset in the last page. -/
theorem decodeSlot_eq {blockId : ℕ} (last : seq.blockTable.getLast? = some blockId)
    (nonempty : 0 < seq.numTokens) :
    decodeSlot cfg seq = .ok (blockId * cfg.blockSize + (seq.numTokens - 1) % cfg.blockSize) := by
  have positive := cfg.blockSize_pos
  have split := Nat.div_add_mod (seq.numTokens - 1) cfg.blockSize
  have pages : seq.numBlocks cfg = (seq.numTokens - 1) / cfg.blockSize + 1 := by
    rw [Sequence.numBlocks, show seq.numTokens + cfg.blockSize - 1 =
      seq.numTokens - 1 + cfg.blockSize by omega, Nat.add_div_right _ positive]
  rw [Nat.mul_comm] at split
  simp only [decodeSlot, last, Sequence.lastBlockNumTokens, pages, Nat.add_sub_cancel]
  congr 1
  omega

end NanoVllm
